import Mathlib.Algebra.Group.Nat.Defs
import Mathlib.Data.List.Basic
import Mathlib.Tactic.Common

/-!
Python's `text % ()`, the format operator without arguments.

A percent sign begins a directive. Without arguments a second one must follow at once, and the two
put out one; every other directive raises, the end of the text behind a percent sign too.
-/

namespace Tdcs.Lib.PercentFormat

/-- The text put out from here on, right behind the beginning of a directive or not. -/
def scan : Bool → List Char → Option (List Char)
  | false, [] => some []
  | true, [] => none
  | false, c :: cs => if c = '%' then scan true cs else (scan false cs).map (c :: ·)
  | true, c :: cs => if c = '%' then (scan false cs).map ('%' :: ·) else none

/-- `text % ()`, or none where it raises. -/
def format (text : List Char) : Option (List Char) := scan false text

variable {c : Char} {text out : List Char}

/-! ### Other characters -/

lemma scan_cons (h : c ≠ '%') (cs : List Char) :
    scan false (c :: cs) = (scan false cs).map (c :: ·) := by
  rw [scan, if_neg h]

lemma scan_cons_directive (h : c ≠ '%') (cs : List Char) : scan true (c :: cs) = none := by
  rw [scan, if_neg h]

/-- A directive does not go across another character, so both sides are formatted on their own. -/
theorem scan_append (h : c ≠ '%') (p : Bool) (a b : List Char) :
    scan p (a ++ c :: b) =
      (scan p a).bind fun x => (scan false b).map fun y => x ++ c :: y := by
  induction a generalizing p with
  | nil =>
    cases p with
    | false =>
      rw [List.nil_append, scan_cons h]
      rfl
    | true =>
      rw [List.nil_append, scan_cons_directive h]
      rfl
  | cons d a ih =>
    rw [List.cons_append]
    cases p with
    | false =>
      by_cases hd : d = '%'
      · rw [scan, scan, if_pos hd, if_pos hd, ih]
      · rw [scan, scan, if_neg hd, if_neg hd, ih]
        cases scan false a <;> cases scan false b <;> rfl
    | true =>
      by_cases hd : d = '%'
      · rw [scan, scan, if_pos hd, if_pos hd, ih]
        cases scan false a <;> cases scan false b <;> rfl
      · rw [scan, scan, if_neg hd, if_neg hd]
        rfl

/-! ### Texts that are kept -/

lemma count_scan {p : Bool} (h : scan p text = some out) :
    2 * out.count '%' ≤ text.count '%' + p.toNat := by
  induction text generalizing p out with
  | nil =>
    cases p with
    | false =>
      cases h
      simp
    | true => cases h
  | cons c cs ih =>
    cases p with
    | false =>
      rw [scan] at h
      split_ifs at h with hc
      · have hrest := ih h
        rw [hc, List.count_cons_self]
        simpa using hrest
      · obtain ⟨rest, hscan, rfl⟩ := Option.map_eq_some_iff.mp h
        have hrest := ih hscan
        rw [List.count_cons_of_ne hc, List.count_cons_of_ne hc]
        simpa using hrest
    | true =>
      rw [scan] at h
      split_ifs at h with hc
      obtain ⟨rest, hscan, rfl⟩ := Option.map_eq_some_iff.mp h
      have hrest := ih hscan
      rw [hc, List.count_cons_self, List.count_cons_self]
      simp at hrest ⊢
      omega

lemma format_of_notMem (h : '%' ∉ text) : format text = some text := by
  induction text with
  | nil => rfl
  | cons c cs ih =>
    rw [List.mem_cons, not_or] at h
    have hcs : scan false cs = some cs := ih h.2
    rw [format, scan_cons (Ne.symm h.1), hcs]
    rfl

/-- **Formatting keeps a text exactly if it has no percent sign.** -/
theorem format_eq_self_iff : format text = some text ↔ '%' ∉ text := by
  refine ⟨fun h => ?_, format_of_notMem⟩
  have hcount := count_scan h
  have hzero : text.count '%' = 0 := by
    simp at hcount
    omega
  exact List.count_eq_zero.mp hzero

end Tdcs.Lib.PercentFormat
