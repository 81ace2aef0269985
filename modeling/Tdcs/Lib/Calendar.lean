import Mathlib.Data.String.Basic
import Mathlib.Data.Prod.Lex

/-!
The Gregorian calendar by months, and numerals of a fixed width.

A month is its number: twelve times the year, plus the months of the year that are over. So
months are added and subtracted as numbers are, and a date is a month and a day that the month
has. Numerals of one width have the order of their numbers as texts.
-/

namespace Tdcs.Lib.Calendar

def IsLeap (year : ℕ) : Prop := 4 ∣ year ∧ (100 ∣ year → 400 ∣ year)

instance (year : ℕ) : Decidable (IsLeap year) := inferInstanceAs (Decidable (_ ∧ _))

def daysIn (month : ℕ) : ℕ :=
  match month % 12 with
  | 1 => if IsLeap (month / 12) then 29 else 28
  | 3 | 5 | 8 | 10 => 30
  | _ => 31

lemma daysIn_pos (month : ℕ) : 1 ≤ daysIn month := by
  unfold daysIn
  split
  · split_ifs <;> omega
  all_goals omega

@[ext]
structure Date where
  month : ℕ
  day : ℕ
  day_pos : 1 ≤ day
  day_le : day ≤ daysIn month
  deriving DecidableEq

namespace Date

instance : LinearOrder Date :=
  LinearOrder.lift' (fun d => toLex (d.month, d.day)) fun d e h => by
    have h := Prod.mk.inj (toLex.injective h)
    exact Date.ext h.1 h.2

variable {d e : Date} {m : ℕ}

lemma le_iff : d ≤ e ↔ d.month < e.month ∨ d.month = e.month ∧ d.day ≤ e.day :=
  Prod.Lex.toLex_le_toLex

def lastDay (month : ℕ) : Date := ⟨month, daysIn month, daysIn_pos month, le_rfl⟩

lemma le_lastDay (d : Date) : d ≤ lastDay d.month := le_iff.2 (.inr ⟨rfl, d.day_le⟩)

lemma lastDay_le_iff : lastDay m ≤ e ↔ m < e.month ∨ m = e.month ∧ e = lastDay m := by
  rw [le_iff]
  refine or_congr Iff.rfl (and_congr_right fun hm => ?_)
  obtain rfl : m = e.month := hm
  constructor
  · intro h
    exact Date.ext rfl (le_antisymm e.day_le h)
  · intro h
    rw [h]
    exact le_rfl

/-- Every day of the month is on or before the date. -/
def MonthOver (month : ℕ) (e : Date) : Prop := ∀ x : Date, x.month = month → x ≤ e

lemma monthOver_iff : MonthOver m e ↔ lastDay m ≤ e := by
  constructor
  · intro h
    exact h (lastDay m) rfl
  · rintro h x rfl
    exact (le_lastDay x).trans h

/-- The date `r` months before, on the last day of its month where the month is too short for the
day; there is none before the year 1. -/
def minusMonths (d : Date) (r : ℕ) : Option Date :=
  if 12 + r ≤ d.month then
    some ⟨d.month - r, min d.day (daysIn (d.month - r)), le_min d.day_pos (daysIn_pos _),
      min_le_right _ _⟩
  else none

lemma month_of_minusMonths {r : ℕ} (h : d.minusMonths r = some e) :
    12 + r ≤ d.month ∧ e.month = d.month - r := by
  unfold minusMonths at h
  split_ifs at h with hr
  cases h
  exact ⟨hr, rfl⟩

lemma minusMonths_eq_lastDay_iff {r : ℕ} (h : d.minusMonths r = some e) :
    e = lastDay e.month ↔ daysIn e.month ≤ d.day := by
  unfold minusMonths at h
  split_ifs at h with hr
  cases h
  constructor
  · intro he
    have hday : min d.day (daysIn (d.month - r)) = daysIn (d.month - r) := congrArg day he
    exact min_eq_right_iff.1 hday
  · intro hle
    exact Date.ext rfl (min_eq_right hle)

end Date

/-! ### Numerals of a fixed width -/

/-- The last `w` decimal digits. -/
def digits : ℕ → ℕ → List Char
  | 0, _ => []
  | w + 1, n => digits w (n / 10) ++ [Nat.digitChar (n % 10)]

@[simp] lemma length_digits (w n : ℕ) : (digits w n).length = w := by
  induction w generalizing n with
  | zero => rfl
  | succ w ih => simp [digits, ih]

lemma digitChar_ne_underscore (n : ℕ) : Nat.digitChar n ≠ '_' := Nat.digitChar_ne _ (by decide)

lemma underscore_notMem_digits (w n : ℕ) : '_' ∉ digits w n := by
  induction w generalizing n with
  | zero => simp [digits]
  | succ w ih => simp [digits, ih, (digitChar_ne_underscore (n % 10)).symm]

lemma toDigits_eq_digits {w n : ℕ} (hlo : 10 ^ w ≤ n) (hhi : n < 10 ^ (w + 1)) :
    Nat.toDigits 10 n = digits (w + 1) n := by
  induction w generalizing n with
  | zero =>
    have hn : n < 10 := by omega
    rw [Nat.toDigits_of_lt_base hn, digits, digits, Nat.mod_eq_of_lt hn]
    rfl
  | succ w ih =>
    have hpow : 1 ≤ 10 ^ w := Nat.one_le_pow _ _ (by omega)
    have hten : 10 ≤ n := by
      rw [pow_succ] at hlo
      omega
    rw [Nat.toDigits_of_base_le (by omega) hten, digits, ih]
    · rw [pow_succ] at hlo
      omega
    · rw [pow_succ] at hhi
      omega

lemma append_lt_append_iff {α : Type*} [LinearOrder α] {u v s t : List α}
    (h : u.length = v.length) : u ++ s < v ++ t ↔ u < v ∨ u = v ∧ s < t := by
  induction u generalizing v with
  | nil =>
    cases v with
    | nil => simp
    | cons b v => simp at h
  | cons a u ih =>
    cases v with
    | nil => simp at h
    | cons b v =>
      rw [List.cons_append, List.cons_append, List.cons_lt_cons_iff, List.cons_lt_cons_iff,
        ih (by simpa using h), List.cons.injEq]
      tauto

lemma digitChar_lt_iff {a b : ℕ} (ha : a < 10) (hb : b < 10) :
    Nat.digitChar a < Nat.digitChar b ↔ a < b := by
  have h : ∀ a < 10, ∀ b < 10, (Nat.digitChar a < Nat.digitChar b ↔ a < b) := by decide
  exact h a ha b hb

/-- **The text order of numerals of one width is the order of the numbers.** -/
theorem digits_lt_iff {w a b : ℕ} (ha : a < 10 ^ w) (hb : b < 10 ^ w) :
    digits w a < digits w b ↔ a < b := by
  induction w generalizing a b with
  | zero =>
    have hab : a = b := by omega
    simp [hab]
  | succ w ih =>
    rw [pow_succ] at ha hb
    have hdiv : digits w (a / 10) < digits w (b / 10) ↔ a / 10 < b / 10 := by
      apply ih <;> omega
    have hdiv' : digits w (b / 10) < digits w (a / 10) ↔ b / 10 < a / 10 := by
      apply ih <;> omega
    have hmod : [Nat.digitChar (a % 10)] < [Nat.digitChar (b % 10)] ↔ a % 10 < b % 10 := by
      rw [List.cons_lt_cons_iff, digitChar_lt_iff (Nat.mod_lt _ (by omega))
        (Nat.mod_lt _ (by omega))]
      simp
    have heq : digits w (a / 10) = digits w (b / 10) ↔ a / 10 = b / 10 := by
      rw [eq_iff_le_not_lt, ← not_lt, hdiv, hdiv']
      omega
    rw [digits, digits, append_lt_append_iff (by simp), hdiv, hmod, heq]
    omega

lemma digits_inj {w a b : ℕ} (ha : a < 10 ^ w) (hb : b < 10 ^ w) :
    digits w a = digits w b ↔ a = b := by
  rw [eq_iff_le_not_lt, ← not_lt, digits_lt_iff ha hb, digits_lt_iff hb ha]
  omega

end Tdcs.Lib.Calendar
