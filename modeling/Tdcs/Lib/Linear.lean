import Tdcs.Lib.Run
import Mathlib.Data.List.Nodup

/-!
Calls that run beside each other, and take effect one after the other.

An object is a machine `step` whose calls are answered by `out`. Calls that are cut into smaller
steps have an order if each of them takes its effect at one moment between its beginning and its
end: called in that order, one as a whole after the other, the object gives the same answers.
-/

namespace Tdcs.Lib.Linear

open Run

variable {σ α β ι : Type*} {step : σ → α → σ} {out : σ → α → β} {call : ι → α} {s₀ a : σ}
  {order : List ι} {answer answer' : ι → Option β} {i : ι}

lemma outputs_append (s : σ) (l l' : List α) : outputs step out s (l ++ l') =
    outputs step out s l ++ outputs step out (l.foldl step s) l' := by
  induction l generalizing s with
  | nil => rfl
  | cons c l ih => rw [List.cons_append, outputs, outputs, ih, List.foldl_cons, List.cons_append]

/-- The calls `order`, made one after the other from `s₀`, lead to `a` and give the answers. -/
structure Serial (step : σ → α → σ) (out : σ → α → β) (call : ι → α) (s₀ : σ) (order : List ι)
    (answer : ι → Option β) (a : σ) : Prop where
  nodup : order.Nodup
  state : (order.map call).foldl step s₀ = a
  answers : (outputs step out s₀ (order.map call)).map some = order.map answer

lemma serial_nil (answer : ι → Option β) : Serial step out call s₀ [] answer s₀ :=
  ⟨List.nodup_nil, rfl, rfl⟩

lemma Serial.congr (h : Serial step out call s₀ order answer a)
    (hsame : ∀ j ∈ order, answer' j = answer j) : Serial step out call s₀ order answer' a :=
  ⟨h.nodup, h.state, h.answers.trans (List.map_congr_left fun j hj => (hsame j hj).symm)⟩

/-- Another call takes effect. -/
lemma Serial.snoc (h : Serial step out call s₀ order answer a) (hi : i ∉ order)
    (hsame : ∀ j ∈ order, answer' j = answer j) (hout : answer' i = some (out a (call i))) :
    Serial step out call s₀ (order ++ [i]) answer' (step a (call i)) := by
  have h' := h.congr hsame
  refine ⟨?_, ?_, ?_⟩
  · rw [List.nodup_append]
    refine ⟨h.nodup, List.nodup_singleton i, ?_⟩
    rintro j hj k hk rfl
    exact hi (List.mem_singleton.mp hk ▸ hj)
  · rw [List.map_append, List.foldl_append, h.state]
    rfl
  · rw [List.map_append, outputs_append, h.state, List.map_append, h'.answers, List.map_append]
    simp [outputs, hout]

end Tdcs.Lib.Linear
