import Mathlib.Data.Option.Basic
import Mathlib.Tactic

/-!
A view that is kept by events.

Something changes, key by key, and each change puts an event into a queue. An event is handled
later: by then it no longer says what there is, but the handler looks again. The last event about a
key has its word: it says whether the key is there, and once it has been handled, the view is what
a fresh look would give.
-/

namespace Tdcs.Lib.Notify

variable {κ ε γ ν : Type*} {word : ε → κ → Option Bool} {content : κ → Option γ}
  {entry : κ → γ → ν} {view : κ → Option ν} {queue : List ε} {e : ε}

/-- What the last event about the key says: that it is there, or that it is not. -/
def lastWord (word : ε → κ → Option Bool) (k : κ) : List ε → Option Bool
  | [] => none
  | e :: queue => (lastWord word k queue).or (word e k)

lemma lastWord_concat (word : ε → κ → Option Bool) (k : κ) (queue : List ε) (e : ε) :
    lastWord word k (queue ++ [e]) = (word e k).or (lastWord word k queue) := by
  induction queue with
  | nil => simp [lastWord]
  | cons e' queue ih => rw [List.cons_append, lastWord, ih, lastWord, Option.or_assoc]

/-- The queue is right about what there is, and so is the view about what the queue does not
name. -/
structure Current (word : ε → κ → Option Bool) (content : κ → Option γ) (entry : κ → γ → ν)
    (view : κ → Option ν) (queue : List ε) : Prop where
  settled : ∀ k, lastWord word k queue = none → view k = (content k).map (entry k)
  there : ∀ k, lastWord word k queue = some true → (content k).isSome = true
  gone : ∀ k, lastWord word k queue = some false → content k = none

/-- A change, and the event about it: what the event does not name is as before, and it is right
about the rest. -/
lemma Current.happens (h : Current word content entry view queue) {content' : κ → Option γ}
    (he : ∀ k, (word e k = none ∧ content' k = content k) ∨
      (word e k = some true ∧ (content' k).isSome = true) ∨
        (word e k = some false ∧ content' k = none)) :
    Current word content' entry view (queue ++ [e]) := by
  constructor
  all_goals
    intro k hk
    rw [lastWord_concat] at hk
    rcases he k with ⟨hw, hc⟩ | ⟨hw, hc⟩ | ⟨hw, hc⟩
  all_goals rw [hw] at hk
  · rw [hc]
    exact h.settled k hk
  · cases hk
  · cases hk
  · rw [hc]
    exact h.there k hk
  · exact hc
  · cases hk
  · rw [hc]
    exact h.gone k hk
  · cases hk
  · exact hc

/-- An event is handled: what it does not name is as before, and the rest is looked at again. -/
lemma Current.handled (h : Current word content entry view (e :: queue)) {view' : κ → Option ν}
    (he : ∀ k, (word e k = none ∧ view' k = view k) ∨
      (word e k = some true ∧ ∀ c, content k = some c → view' k = some (entry k c)) ∨
        (word e k = some false ∧ view' k = none)) :
    Current word content entry view' queue := by
  have hlater : ∀ k b, lastWord word k queue = some b → lastWord word k (e :: queue) = some b := by
    intro k b hk
    rw [lastWord, hk, Option.some_or]
  refine ⟨fun k hk => ?_, fun k hk => h.there k (hlater k _ hk),
    fun k hk => h.gone k (hlater k _ hk)⟩
  have hlast : lastWord word k (e :: queue) = word e k := by
    rw [lastWord, hk, Option.none_or]
  rcases he k with ⟨hw, hv⟩ | ⟨hw, hv⟩ | ⟨hw, hv⟩
  · rw [hv]
    exact h.settled k (hlast.trans hw)
  · obtain ⟨c, hc⟩ := Option.isSome_iff_exists.1 (h.there k (hlast.trans hw))
    rw [hv c hc, hc, Option.map_some]
  · rw [hv, h.gone k (hlast.trans hw), Option.map_none]

lemma Current.view_eq (h : Current word content entry view []) (k : κ) :
    view k = (content k).map (entry k) := h.settled k rfl

end Tdcs.Lib.Notify
