import Mathlib.Tactic

/-!
Insertion into a table with unique keys, where a conflict is an assignment.

A table is the list of its rows in the order of their insertion. A unique key is a function
from rows to keys, `none` where a column of the key is `NULL`, which is equal to nothing. A row
that conflicts with no stored one is appended; otherwise the first stored row it conflicts
with is assigned to.
-/

namespace Tdcs.Lib.Upsert

variable {ρ κ : Type*} [DecidableEq κ]

/-- The rows agree in one of the unique keys. -/
def conflict (keys : List (ρ → Option κ)) (old new : ρ) : Bool :=
  keys.any fun k => (k old).isSome && k old == k new

/-- `INSERT … ON DUPLICATE KEY UPDATE`. -/
def upsert (keys : List (ρ → Option κ)) (assign : ρ → ρ → ρ) (t : List ρ) (r : ρ) : List ρ :=
  if t.any (conflict keys · r) then
    t.replaceF fun old => if conflict keys old r then some (assign old r) else none
  else t ++ [r]

def upsertAll (keys : List (ρ → Option κ)) (assign : ρ → ρ → ρ) (t l : List ρ) : List ρ :=
  l.foldl (upsert keys assign) t

variable {keys : List (ρ → Option κ)} {assign : ρ → ρ → ρ} {t l : List ρ} {r : ρ}

@[simp] lemma upsertAll_nil : upsertAll keys assign t [] = t := rfl
@[simp] lemma upsertAll_cons :
    upsertAll keys assign t (r :: l) = upsertAll keys assign (upsert keys assign t r) l := rfl

/-- Without a unique key nothing is ever updated. -/
@[simp] lemma upsert_no_keys : upsert ([] : List (ρ → Option κ)) assign t r = t ++ [r] := by
  simp [upsert, conflict]

lemma upsertAll_no_keys : upsertAll ([] : List (ρ → Option κ)) assign t l = t ++ l := by
  induction l generalizing t with
  | nil => simp
  | cons r l ih => rw [upsertAll_cons, upsert_no_keys, ih, List.append_assoc, List.singleton_append]

end Tdcs.Lib.Upsert
