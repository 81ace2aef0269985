import Mathlib.Data.List.Infix
import Mathlib.Logic.Function.Basic

/-!
Insertion where the first entry wins.

An entry is stored unless a stored one conflicts with it. Every entry conflicts with
itself, so what was tried once is refused from then on, and replaying any beginning of a
sequence of insertions changes nothing.
-/

namespace Tdcs.Lib.FirstWins

variable {ρ : Type*} (conflict : ρ → ρ → Bool)

/-- Store `r` unless a stored entry conflicts with it. -/
def insert (t : List ρ) (r : ρ) : List ρ := if t.any (conflict · r) then t else t ++ [r]

def insertAll (t : List ρ) (l : List ρ) : List ρ := l.foldl (insert conflict) t

variable {conflict} {t l p : List ρ} {r : ρ}

@[simp] lemma insertAll_nil : insertAll conflict t [] = t := rfl
@[simp] lemma insertAll_cons : insertAll conflict t (r :: l) =
    insertAll conflict (insert conflict t r) l := rfl
lemma insertAll_append {l' : List ρ} : insertAll conflict t (l ++ l') =
    insertAll conflict (insertAll conflict t l) l' := List.foldl_append

lemma any_insert (h : t.any (conflict · r) = true) (r' : ρ) :
    (insert conflict t r').any (conflict · r) = true := by
  unfold insert
  split_ifs
  · exact h
  · simp [List.any_append, h]

lemma any_insertAll (h : t.any (conflict · r) = true) :
    (insertAll conflict t l).any (conflict · r) = true := by
  induction l generalizing t with
  | nil => exact h
  | cons r' l ih => exact ih (any_insert h r')

lemma any_of_mem (hrefl : ∀ r, conflict r r = true) (h : r ∈ l) :
    (insertAll conflict t l).any (conflict · r) = true := by
  induction l generalizing t with
  | nil => cases h
  | cons r' l ih =>
    rcases List.mem_cons.mp h with rfl | h
    · rw [insertAll_cons]
      refine any_insertAll ?_
      unfold insert
      split_ifs with hc
      · exact hc
      · simp [List.any_append, hrefl]
    · exact ih h

lemma insertAll_of_refused (h : ∀ r ∈ l, t.any (conflict · r) = true) :
    insertAll conflict t l = t := by
  induction l with
  | nil => rfl
  | cons r l ih =>
    have hr : insert conflict t r = t := by rw [insert, if_pos (h r List.mem_cons_self)]
    rw [insertAll_cons, hr]
    exact ih fun r' hr' => h r' (List.mem_cons_of_mem _ hr')

/-- **Replay.** Insertions of which a beginning was already done lead where they lead
without it. -/
theorem insertAll_replay (hrefl : ∀ r, conflict r r = true) (h : p <+: l) :
    insertAll conflict (insertAll conflict t p) l = insertAll conflict t l := by
  obtain ⟨q, rfl⟩ := h
  have hp : insertAll conflict (insertAll conflict t p) p = insertAll conflict t p :=
    insertAll_of_refused fun r hr => any_of_mem hrefl hr
  rw [insertAll_append, hp, insertAll_append]

lemma mem_insert {a : ρ} : a ∈ insert conflict t r → a ∈ t ∨ a = r := by
  unfold insert
  split_ifs <;> simp +contextual

lemma mem_insertAll {a : ρ} (h : a ∈ insertAll conflict t l) : a ∈ t ∨ a ∈ l := by
  induction l generalizing t with
  | nil => exact .inl h
  | cons r l ih =>
    rcases ih h with ht | hl
    · rcases mem_insert ht with ht | rfl
      · exact .inl ht
      · exact .inr List.mem_cons_self
    · exact .inr (List.mem_cons_of_mem _ hl)

lemma le_insertAll (t l : List ρ) : t <+: insertAll conflict t l := by
  induction l generalizing t with
  | nil => exact List.prefix_refl t
  | cons r l ih =>
    refine List.IsPrefix.trans ?_ (ih (insert conflict t r))
    unfold insert
    split_ifs
    · exact List.prefix_refl t
    · exact List.prefix_append t [r]

lemma nodup_insertAll {κ : Type*} [DecidableEq κ] {key : ρ → κ}
    (hkey : ∀ a b, conflict a b = true ↔ key a = key b) (h : (t.map key).Nodup) (l : List ρ) :
    ((insertAll conflict t l).map key).Nodup := by
  induction l generalizing t with
  | nil => exact h
  | cons r l ih =>
    refine ih ?_
    unfold insert
    split_ifs with hany
    · exact h
    · have hfresh : ∀ a ∈ t, key a ≠ key r := by
        intro a ha heq
        exact hany (List.any_eq_true.mpr ⟨a, ha, (hkey a r).mpr heq⟩)
      rw [List.map_append, List.nodup_append]
      refine ⟨h, List.pairwise_singleton _ _, ?_⟩
      rintro k hk k' hk' rfl
      obtain ⟨a, ha, rfl⟩ := List.mem_map.mp hk
      exact hfresh a ha (List.mem_singleton.mp hk')

lemma insertAll_of_free (h : ∀ r r', conflict r r' = false) : insertAll conflict t l = t ++ l := by
  induction l generalizing t with
  | nil => rw [insertAll_nil, List.append_nil]
  | cons r l ih =>
    have hr : insert conflict t r = t ++ [r] := by simp [insert, h]
    rw [insertAll_cons, hr, ih, List.append_assoc, List.singleton_append]

/-! ### Several tables -/

section tables

variable {ι : Type*} [DecidableEq ι] {conflict : ι → ρ → ρ → Bool}

/-- Insertions into the table `p.1`. -/
def insertAt (conflict : ι → ρ → ρ → Bool) (db : ι → List ρ) (p : ι × List ρ) : ι → List ρ :=
  Function.update db p.1 (insertAll (conflict p.1) (db p.1) p.2)

/-- A table sees the insertions that go to it, in their order. -/
theorem foldl_insertAt (db : ι → List ρ) (ps : List (ι × List ρ)) (i : ι) :
    ps.foldl (insertAt conflict) db i =
      insertAll (conflict i) (db i) (ps.flatMap fun p => if p.1 = i then p.2 else []) := by
  induction ps generalizing db with
  | nil => rfl
  | cons p ps ih =>
    rw [List.foldl_cons, ih, List.flatMap_cons, insertAll_append]
    by_cases h : p.1 = i
    · subst h
      simp [insertAt]
    · simp [insertAt, h, Function.update_of_ne (Ne.symm h)]

end tables

end Tdcs.Lib.FirstWins
