import Tdcs.Lib.Prog
import Mathlib.Data.List.Nodup

/-!
Loops that an exception breaks off.

The body of the loop returns, with a known effect, on the elements that are not `bad`, and
raises on the others. The loop has then done the elements before the first bad one, and the
ones after it are reached exactly where no bad one comes before.
-/

namespace Tdcs.Lib

namespace Prog

variable {σ ε α : Type*} {act : α → Prog σ ε Unit} {effect : α → σ → σ} {bad : α → Bool}

lemma forEach_append (act : α → Prog σ ε Unit) (l l' : List α) :
    forEach act (l ++ l') = (forEach act l).andThen fun _ => forEach act l' := by
  induction l with
  | nil => rfl
  | cons a l ih =>
    funext s
    rw [List.cons_append, forEach, forEach, andThen, andThen, andThen]
    rcases act a s with ⟨e | u, s'⟩
    · rfl
    · dsimp only
      rw [ih, andThen]

lemma forEach_congr {act' : α → Prog σ ε Unit} {l : List α} (h : ∀ a ∈ l, act a = act' a) :
    forEach act l = forEach act' l := by
  induction l with
  | nil => rfl
  | cons a l ih =>
    rw [forEach, forEach, h a List.mem_cons_self,
      ih fun a' ha' => h a' (List.mem_cons_of_mem _ ha')]

/-- What every turn of a loop keeps, the loop keeps, whether it breaks off or not. -/
lemma forEach_inv {I : σ → Prop} {l : List α} (h : ∀ a ∈ l, ∀ s, I s → I (act a s).2) {s : σ}
    (hs : I s) : I (forEach act l s).2 := by
  induction l generalizing s with
  | nil => exact hs
  | cons a l ih =>
    have ha := h a List.mem_cons_self s hs
    rw [forEach, andThen]
    rcases hact : act a s with ⟨e | u, s'⟩ <;> rw [hact] at ha
    · exact ha
    · exact ih (fun a' ha' => h a' (List.mem_cons_of_mem _ ha')) ha

lemma bad_of_forEach_ok {l : List α}
    (hbad : ∀ a ∈ l, ∀ s, bad a = true → ∃ e, (act a s).1 = .error e) {s : σ}
    (h : (forEach act l s).1 = .ok ()) : ∀ a ∈ l, bad a = false := by
  induction l generalizing s with
  | nil => simp
  | cons a l ih =>
    have ha : bad a = false := by
      by_contra hne
      rw [Bool.not_eq_false] at hne
      obtain ⟨e, he⟩ := hbad a List.mem_cons_self s hne
      rw [forEach, andThen_of_error he] at h
      cases h
    rw [forEach, andThen] at h
    rcases hact : act a s with ⟨e | u, s'⟩ <;> rw [hact] at h
    · cases h
    · exact List.forall_mem_cons.mpr
        ⟨ha, ih (fun a' ha' => hbad a' (List.mem_cons_of_mem _ ha')) h⟩

/-- The effects of the elements before the first bad one. -/
def upTo (effect : α → σ → σ) (bad : α → Bool) (l : List α) (s : σ) : σ :=
  (l.takeWhile fun a => !bad a).foldl (fun s a => effect a s) s

/-- The state a loop ends in: that of the elements before the first bad one, and what the bad one
did before it raised. -/
lemma forEach_state {l : List α}
    (hgood : ∀ a ∈ l, ∀ s, bad a = false → act a s = (.ok (), effect a s))
    (hbad : ∀ a ∈ l, ∀ s, bad a = true → ∃ e, (act a s).1 = .error e) (s : σ) :
    ((∀ a ∈ l, bad a = false) ∧ (forEach act l s).2 = upTo effect bad l s) ∨
    ∃ b ∈ l, bad b = true ∧ (forEach act l s).2 = (act b (upTo effect bad l s)).2 := by
  induction l generalizing s with
  | nil => exact .inl ⟨by simp, rfl⟩
  | cons a l ih =>
    cases ha : bad a with
    | false =>
      have hloop : forEach act (a :: l) s = forEach act l (effect a s) := by
        rw [forEach, andThen, hgood a List.mem_cons_self s ha]
      have hup : upTo effect bad (a :: l) s = upTo effect bad l (effect a s) := by
        rw [upTo, List.takeWhile_cons_of_pos (by simp [ha]), List.foldl_cons]
        rfl
      rw [hloop, hup]
      rcases ih (fun a' ha' => hgood a' (List.mem_cons_of_mem _ ha'))
        (fun a' ha' => hbad a' (List.mem_cons_of_mem _ ha')) (effect a s) with
        ⟨hall, hs⟩ | ⟨b, hb, hbb, hs⟩
      · exact .inl ⟨List.forall_mem_cons.mpr ⟨ha, hall⟩, hs⟩
      · exact .inr ⟨b, List.mem_cons_of_mem _ hb, hbb, hs⟩
    | true =>
      refine .inr ⟨a, List.mem_cons_self, ha, ?_⟩
      obtain ⟨e, he⟩ := hbad a List.mem_cons_self s ha
      have hup : upTo effect bad (a :: l) s = s := by
        rw [upTo, List.takeWhile_cons_of_neg (by simp [ha]), List.foldl_nil]
      rw [hup, forEach, andThen]
      rcases hact : act a s with ⟨e' | u, s'⟩
      · rfl
      · rw [hact] at he
        cases he

end Prog

lemma mem_takeWhile_iff_pairwise {α : Type*} {bad : α → Bool} {q : α → Prop} {l : List α}
    (hl : l.Nodup) (hq : ∀ a, q a → bad a = false) :
    (∀ a ∈ l, q a → a ∈ l.takeWhile fun a => !bad a) ↔
      l.Pairwise fun a b => bad a = true → ¬ q b := by
  induction l with
  | nil => simp
  | cons x l ih =>
    rw [List.nodup_cons] at hl
    rw [List.pairwise_cons]
    cases hx : bad x with
    | false =>
      rw [List.takeWhile_cons_of_pos (by simp [hx]), ← ih hl.2]
      constructor
      · intro h
        refine ⟨fun b _ hb => (by cases hb), fun a ha hqa => ?_⟩
        have hne : a ≠ x := fun he => hl.1 (he ▸ ha)
        exact (List.mem_cons.mp (h a (List.mem_cons_of_mem _ ha) hqa)).resolve_left hne
      · rintro ⟨-, h⟩ a ha hqa
        rcases List.mem_cons.mp ha with rfl | ha
        · exact List.mem_cons_self
        · exact List.mem_cons_of_mem _ (h a ha hqa)
    | true =>
      rw [List.takeWhile_cons_of_neg (by simp [hx])]
      constructor
      · intro h
        have hno : ∀ b ∈ l, ¬ q b := fun b hb hqb => by
          simpa using h b (List.mem_cons_of_mem _ hb) hqb
        refine ⟨fun b hb _ => hno b hb, ?_⟩
        exact List.pairwise_of_forall_mem_list fun a _ b hb _ => hno b hb
      · rintro ⟨h, -⟩ a ha hqa
        rcases List.mem_cons.mp ha with rfl | ha
        · rw [hq a hqa] at hx
          cases hx
        · exact absurd hqa (h a ha rfl)

end Tdcs.Lib
