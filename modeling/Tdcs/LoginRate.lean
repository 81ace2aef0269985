import Mathlib.Algebra.Order.BigOperators.Group.List
import Mathlib.Tactic
import Tdcs.Users
import Tdcs.Lib.SlidingWindow

/-!
The limit on login attempts, over whole histories of calls.

`_check_login_rate` keeps the times of an address only as far as it needs them, and rewrites
them only when it allows an attempt. What it has kept still counts the attempts that were
allowed, so its answers are those of the full history.
-/

namespace Tdcs.LoginRate

open Tdcs.Lib Tdcs.Lib.SlidingWindow Tdcs.Users

/-- A call of `_check_login_rate`, with the time it reads. -/
structure Call where
  ip : String
  now : ℕ
  deriving DecidableEq, Repr

structure Attempt extends Call where
  allowed : Bool
  deriving DecidableEq, Repr

def check (s : State) (c : Call) : Bool × State := checkLoginRate c.ip { s with clock := c.now }

def after (s : State) (l : List Call) : State := l.foldl (fun s c => (check s c).2) s

/-- The calls with their answers. -/
def history : State → List Call → List Attempt
  | _, [] => []
  | s, c :: l => ⟨c, (check s c).1⟩ :: history (check s c).2 l

/-- `_LOGIN_RATE_WINDOW`, in microseconds. -/
def window : ℕ := 60000000

/-- When attempts of the address were allowed. -/
def admitted (ip : String) (h : List Attempt) : List ℕ :=
  (h.filter fun a => a.ip = ip ∧ a.allowed).map (·.now)

/-- Nobody has tried yet. -/
def unused (s : State) : State := { s with attempts := Dict.empty }

/-- What the limit promises of the calls `l`. -/
structure Throttles (s : State) (l : List Call) : Prop where
  /-- An attempt is allowed when fewer than five allowed ones of its address are younger than a
  minute. -/
  exact : ∀ before a later, history s l = before ++ a :: later →
    (a.allowed = true ↔ (recent window a.now (admitted a.ip before)).length < 5)
  window : ∀ ip, Sparse window 5 (admitted ip (history s l))
  /-- Without the calls from other addresses the answers are the same. -/
  independent : ∀ ip,
    history s (l.filter (·.ip = ip)) = (history s l).filter (·.ip = ip)

/-- The times an address has in the dictionary. -/
def kept (s : State) (ip : String) : List ℕ := (s.attempts.get? ip).getD []

variable {s s' : State} {c : Call} {l p q : List Call} {h : List Attempt} {ip : String} {now : ℕ}

/-! ### One call -/

lemma filter_eq_recent (now : ℕ) (l : List ℕ) :
    (l.filter fun t => now - t < 60000000) = recent window now l := by
  unfold recent window
  refine List.filter_congr fun t _ => ?_
  simp only [decide_eq_decide]
  omega

lemma check_eq (s : State) (c : Call) :
    check s c =
      if 5 ≤ (recent window c.now (kept s c.ip)).length then (false, { s with clock := c.now })
      else (true, { s with
        clock := c.now
        attempts := s.attempts.set c.ip (recent window c.now (kept s c.ip) ++ [c.now]) }) := by
  unfold check checkLoginRate
  rw [filter_eq_recent]
  rfl

lemma check_fst : (check s c).1 = true ↔ (recent window c.now (kept s c.ip)).length < 5 := by
  rw [check_eq]
  split_ifs with hfull
  · simpa using hfull
  · simpa using hfull

lemma kept_check_of_denied (h : (check s c).1 = false) : kept (check s c).2 ip = kept s ip := by
  rw [check_eq] at h ⊢
  split_ifs at h ⊢
  rfl

lemma kept_check_self (h : (check s c).1 = true) :
    kept (check s c).2 c.ip = recent window c.now (kept s c.ip) ++ [c.now] := by
  rw [check_eq] at h ⊢
  split_ifs at h ⊢
  simp [kept]

lemma kept_check_of_ne (h : ip ≠ c.ip) : kept (check s c).2 ip = kept s ip := by
  rw [check_eq]
  split_ifs
  · rfl
  · simp only [kept, Dict.get?_set_of_ne _ _ h]

/-! ### The history -/

@[simp] lemma history_nil : history s [] = [] := rfl
@[simp] lemma history_cons :
    history s (c :: l) = ⟨c, (check s c).1⟩ :: history (check s c).2 l := rfl
@[simp] lemma after_cons : after s (c :: l) = after (check s c).2 l := rfl

lemma history_append : history s (p ++ q) = history s p ++ history (after s p) q := by
  induction p generalizing s with
  | nil => rfl
  | cons c p ih => simp [ih]

lemma history_concat : history s (p ++ [c]) = history s p ++ [⟨c, (check (after s p) c).1⟩] := by
  rw [history_append]
  rfl

lemma after_concat : after s (p ++ [c]) = (check (after s p) c).2 := by
  simp [after]

lemma split_history {before later : List Attempt} {a : Attempt}
    (h : history s l = before ++ a :: later) :
    ∃ p q, l = p ++ a.toCall :: q ∧ before = history s p ∧
      a.allowed = (check (after s p) a.toCall).1 := by
  induction l generalizing s before with
  | nil => simp at h
  | cons c l ih =>
    cases before with
    | nil =>
      obtain ⟨rfl, -⟩ := List.cons.inj h
      exact ⟨[], l, rfl, rfl, rfl⟩
    | cons b before =>
      obtain ⟨rfl, hrest⟩ := List.cons.inj h
      obtain ⟨p, q, rfl, rfl, ha⟩ := ih hrest
      exact ⟨c :: p, q, rfl, rfl, ha⟩

lemma admitted_append {h' : List Attempt} :
    admitted ip (h ++ h') = admitted ip h ++ admitted ip h' := by
  simp [admitted]

lemma admitted_singleton {a : Attempt} :
    admitted ip [a] = if a.ip = ip ∧ a.allowed = true then [a.now] else [] := by
  unfold admitted
  split_ifs with ha <;> simp [ha]

/-! ### What is kept -/

/-- What the dictionary has of each address still counts its admitted attempts, of which no window
has more than five. -/
structure Inv (s : State) (h : List Attempt) (now : ℕ) : Prop where
  tracks : ∀ ip, Tracks window now (kept s ip) (admitted ip h)
  sparse : ∀ ip, Sparse window 5 (admitted ip h)

lemma Inv.mono {now' : ℕ} (hinv : Inv s h now) (hle : now ≤ now') : Inv s h now' :=
  ⟨fun ip => (hinv.tracks ip).mono hle, hinv.sparse⟩

/-- **One call keeps the invariant.** -/
lemma Inv.check (hinv : Inv s h c.now) :
    Inv (LoginRate.check s c).2 (h ++ [⟨c, (LoginRate.check s c).1⟩]) c.now := by
  by_cases hallowed : (LoginRate.check s c).1 = true
  · have hroom := check_fst.mp hallowed
    rw [hallowed]
    constructor
    · intro ip
      rw [admitted_append, admitted_singleton]
      by_cases hip : ip = c.ip
      · subst hip
        rw [kept_check_self hallowed, if_pos ⟨rfl, rfl⟩]
        exact (hinv.tracks c.ip).prune.append c.now
      · rw [kept_check_of_ne hip, if_neg fun h => hip h.1.symm, List.append_nil]
        exact hinv.tracks ip
    · intro ip
      rw [admitted_append, admitted_singleton]
      by_cases hip : ip = c.ip
      · subst hip
        rw [if_pos ⟨rfl, rfl⟩]
        refine (hinv.sparse c.ip).append ?_
        rw [← (hinv.tracks c.ip).length_recent]
        exact hroom
      · rw [if_neg fun h => hip h.1.symm, List.append_nil]
        exact hinv.sparse ip
  · -- a rejected call is not noted
    have hdenied : (LoginRate.check s c).1 = false := by simpa using hallowed
    have hsame : ∀ ip, admitted ip (h ++ [⟨c, (LoginRate.check s c).1⟩]) = admitted ip h := by
      intro ip
      rw [admitted_append, admitted_singleton, if_neg fun h => hallowed h.2, List.append_nil]
    constructor
    · intro ip
      rw [hsame, kept_check_of_denied hdenied]
      exact hinv.tracks ip
    · intro ip
      rw [hsame]
      exact hinv.sparse ip

lemma inv_unused (s : State) (now : ℕ) : Inv (unused s) [] now :=
  ⟨fun _ => tracks_nil, fun _ => sparse_nil⟩

/-- **A run keeps the invariant.** -/
lemma inv_after (s : State) (hl : l.Pairwise (·.now ≤ ·.now)) (hnow : ∀ c ∈ l, c.now ≤ now) :
    Inv (after (unused s) l) (history (unused s) l) now := by
  induction l using List.reverseRecOn generalizing now with
  | nil => exact inv_unused s now
  | append_singleton p c ih =>
    rw [List.pairwise_append] at hl
    have hbefore : ∀ c' ∈ p, c'.now ≤ c.now := fun c' hc' => hl.2.2 c' hc' c (by simp)
    rw [after_concat, history_concat]
    exact (ih hl.1 hbefore).check.mono (hnow c (by simp))

/-! ### The limit -/

lemma history_filter (hkept : kept s' ip = kept s ip) :
    history s' (l.filter (·.ip = ip)) = (history s l).filter (·.ip = ip) := by
  induction l generalizing s s' with
  | nil => rfl
  | cons c l ih =>
    by_cases hip : c.ip = ip
    · subst hip
      have hanswer : (check s' c).1 = (check s c).1 := by
        rw [Bool.eq_iff_iff, check_fst, check_fst, hkept]
      have hnext : kept (check s' c).2 c.ip = kept (check s c).2 c.ip := by
        by_cases hallowed : (check s c).1 = true
        · rw [kept_check_self hallowed, kept_check_self (hanswer.trans hallowed), hkept]
        · have hdenied : (check s c).1 = false := by simpa using hallowed
          rw [kept_check_of_denied hdenied, kept_check_of_denied (hanswer.trans hdenied), hkept]
      rw [List.filter_cons_of_pos (by simp), history_cons, history_cons, ih hnext, hanswer,
        List.filter_cons_of_pos (by simp)]
    · have hnext : kept s' ip = kept (check s c).2 ip := by
        rw [kept_check_of_ne (Ne.symm hip), hkept]
      rw [List.filter_cons_of_neg (by simpa using hip), history_cons, ih hnext,
        List.filter_cons_of_neg (by simpa using hip)]

/-- **The limit on logins is exact for each address.** -/
theorem throttles (s : State) (l : List Call) (hl : l.Pairwise (·.now ≤ ·.now)) :
    Throttles (unused s) l := by
  constructor
  · intro before a later hsplit
    obtain ⟨p, q, rfl, rfl, ha⟩ := split_history hsplit
    rw [List.pairwise_append] at hl
    have hbefore : ∀ c ∈ p, c.now ≤ a.now := fun c hc => hl.2.2 c hc a.toCall (by simp)
    have hinv := inv_after s hl.1 hbefore
    rw [ha, check_fst, (hinv.tracks a.ip).length_recent]
  · intro ip
    obtain ⟨now, hnow⟩ : ∃ now, ∀ c ∈ l, c.now ≤ now := by
      refine ⟨(l.map (·.now)).sum, fun c hc => ?_⟩
      exact List.single_le_sum (by simp) _ (List.mem_map_of_mem hc)
    exact (inv_after s hl hnow).sparse ip
  · exact fun ip => history_filter rfl

/-- Six attempts in six seconds, and one a minute later. -/
def burst : List Call :=
  (List.range 6).map (fun i => ⟨"10.0.0.1", i * 1000000⟩) ++ [⟨"10.0.0.1", 61000000⟩]

theorem throttles_burst : Throttles (unused (init "")) burst :=
  throttles (init "") burst (by decide)

example : (history (unused (init "")) burst).map (·.allowed) =
    [true, true, true, true, true, false, true] := by
  decide

end Tdcs.LoginRate
