import Tdcs.Users

/-!
What a change of the users table rests on.

Every token comes from a login, and a request is let through on its token alone. So a row changes
only for someone who has logged in, within the hours a token lasts, and either was an administrator
at the login or gives the password the row has.
-/

namespace Tdcs.Sessions

open Tdcs.Lib Tdcs.Lib.Transaction Tdcs.Users

variable {o : Outside} {s : State} {e : Event} {t : Token}

/-! ### The tokens -/

lemma requireAuth_ok {minRole : Role} {me : Option Token}
    (h : requireAuth minRole me s = .ok t) :
    me = some t ∧ t ∈ s.issued ∧ s.clock < t.exp * 1000000 ∧ minRole.level ≤ t.role.level := by
  unfold requireAuth at h
  split at h
  · cases h
  split_ifs at h with hissued hexp hlevel
  cases h
  exact ⟨rfl, hissued, not_le.mp hexp, not_lt.mp hlevel⟩

end Tdcs.Sessions
