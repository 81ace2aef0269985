import Mathlib.Data.List.Basic
import Mathlib.Tactic

/-!
The order of last use.

Uses are a list of keys, the latest at the end. A list of keys is in the order of their last uses
if each was used after those before it. Using a key moves it to the end, and leaving keys out
keeps the order.
-/

namespace Tdcs.Lib.Recency

variable {κ : Type*} [DecidableEq κ] {uses l : List κ} {k : κ}

/-- The keys used after the last use of `k`, the latest first. -/
def since (k : κ) (uses : List κ) : List κ := uses.reverse.takeWhile (· ≠ k)

lemma since_concat_self (k : κ) (uses : List κ) : since k (uses ++ [k]) = [] := by
  simp [since]

lemma since_concat_of_ne {k' : κ} (h : k' ≠ k) (uses : List κ) :
    since k (uses ++ [k']) = k' :: since k uses := by
  simp [since, h]

/-- Each key was used after those before it. -/
def Ordered (uses l : List κ) : Prop := l.Pairwise fun k k' => k' ∈ since k uses

lemma ordered_nil : Ordered uses [] := List.Pairwise.nil

lemma Ordered.sublist {l' : List κ} (h : Ordered uses l) (hl : l'.Sublist l) : Ordered uses l' :=
  List.Pairwise.sublist hl h

lemma Ordered.use (h : Ordered uses l) (k : κ) :
    Ordered (uses ++ [k]) (l.filter (· ≠ k) ++ [k]) := by
  have hne : ∀ a ∈ l.filter (· ≠ k), k ≠ a := by
    intro a ha
    have hak : a ≠ k := by simpa using List.of_mem_filter ha
    exact hak.symm
  refine List.pairwise_append.2 ⟨?_, List.pairwise_singleton _ _, ?_⟩
  · refine (h.sublist List.filter_sublist).imp_of_mem fun {a b} ha _ hab => ?_
    rw [since_concat_of_ne (hne a ha)]
    exact List.mem_cons_of_mem _ hab
  · intro a ha b hb
    rw [List.mem_singleton] at hb
    rw [since_concat_of_ne (hne a ha), hb]
    exact List.mem_cons_self

lemma Ordered.mem_since (h : Ordered uses (k :: l)) {k' : κ} (hk : k' ∈ l) : k' ∈ since k uses :=
  List.rel_of_pairwise_cons h hk

end Tdcs.Lib.Recency
