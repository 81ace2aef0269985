import Mathlib.Algebra.Order.Monoid.Unbundled.Basic
import Mathlib.Data.List.Induction

/-!
Limits on how often something happens in a sliding window.

A limiter remembers times and forgets those that have left the window, now or later. All it
has to keep right is how many of the times that were admitted still count, at its last time and
at every later one; `Tracks` says so. A limiter that admits only while fewer than `max` count
admits at most `max` in any window.
-/

namespace Tdcs.Lib.SlidingWindow

variable {τ : Type*} [LinearOrder τ] [Add τ]

/-- The times that still count at `now`. -/
def recent (w now : τ) (l : List τ) : List τ := l.filter fun t => now < t + w

/-- From `now` on as many of the kept times count as of the admitted ones. -/
def Tracks (w now : τ) (kept admitted : List τ) : Prop :=
  ∀ now', now ≤ now' → recent w now' kept = recent w now' admitted

/-- At most `max` of the times lie in a half-open window of the length `w`. -/
def Sparse (w : τ) (max : ℕ) (admitted : List τ) : Prop :=
  ∀ start, admitted.countP (fun t => start ≤ t ∧ t < start + w) ≤ max

variable {w now now' t : τ} {kept admitted l l' : List τ} {max : ℕ}

lemma recent_append : recent w now (l ++ l') = recent w now l ++ recent w now l' :=
  List.filter_append ..

lemma length_recent_le (h : now ≤ now') :
    (recent w now' l).length ≤ (recent w now l).length := by
  unfold recent
  rw [← List.countP_eq_length_filter, ← List.countP_eq_length_filter]
  refine List.countP_mono_left fun t _ ht => ?_
  have ht : now' < t + w := of_decide_eq_true ht
  exact decide_eq_true (h.trans_lt ht)

lemma recent_recent (h : now ≤ now') : recent w now' (recent w now l) = recent w now' l := by
  unfold recent
  rw [List.filter_filter]
  refine List.filter_congr fun t _ => ?_
  have himp : now' < t + w → now < t + w := h.trans_lt
  by_cases hlater : now' < t + w
  · simp [hlater, himp hlater]
  · simp [hlater]

lemma tracks_nil : Tracks w now [] [] := fun _ _ => rfl

lemma Tracks.mono (h : Tracks w now kept admitted) (hle : now ≤ now') :
    Tracks w now' kept admitted :=
  fun later hlater => h later (hle.trans hlater)

lemma Tracks.prune (h : Tracks w now kept admitted) : Tracks w now (recent w now kept) admitted :=
  fun later hlater => (recent_recent hlater).trans (h later hlater)

lemma Tracks.append (h : Tracks w now kept admitted) (t : τ) :
    Tracks w now (kept ++ [t]) (admitted ++ [t]) := by
  intro later hlater
  rw [recent_append, recent_append, h later hlater]

lemma Tracks.length_recent (h : Tracks w now kept admitted) :
    (recent w now kept).length = (recent w now admitted).length :=
  congrArg List.length (h now le_rfl)

lemma sparse_nil : Sparse w max ([] : List τ) := fun _ => Nat.zero_le _

/-- **One more time.** It keeps the limit if fewer than `max` still count. -/
lemma Sparse.append [AddRightMono τ] (h : Sparse w max admitted)
    (hroom : (recent w t admitted).length < max) : Sparse w max (admitted ++ [t]) := by
  intro start
  rw [List.countP_append, List.countP_singleton]
  split_ifs with hin
  · -- what is in the window with `t` still counts at `t`
    have hin : start ≤ t ∧ t < start + w := of_decide_eq_true hin
    have hle : admitted.countP (fun a => start ≤ a ∧ a < start + w) ≤
        (recent w t admitted).length := by
      rw [recent, ← List.countP_eq_length_filter]
      refine List.countP_mono_left fun a _ ha => ?_
      have ha : start ≤ a ∧ a < start + w := of_decide_eq_true ha
      exact decide_eq_true (hin.2.trans_le (add_le_add_left ha.1 w))
    omega
  · exact h start

end Tdcs.Lib.SlidingWindow
