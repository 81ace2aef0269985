import Mathlib.Data.Int.Log
import Mathlib.Tactic

/-!
Rounding to a number format.

A rounding takes each rational number to one that the format has. It keeps the order and leaves
the numbers of the format as they are; a sum in the format is the exact sum, rounded. The numbers
with so many bits of a significand, and an exponent of any size, are such a format, where a number
is rounded to the nearest, and of two to the even one.
-/

namespace Tdcs.Lib

structure Rounding where
  round : ℚ → ℚ
  mono : Monotone round
  round_round : ∀ x, round (round x) = round x

namespace Rounding

/-- The numbers of the format. -/
def Num (R : Rounding) : Type := {x : ℚ // R.round x = x}

variable {R : Rounding}

instance : LinearOrder R.Num := inferInstanceAs (LinearOrder {x : ℚ // R.round x = x})

/-- The number of the format that `x` is rounded to. -/
def num (R : Rounding) (x : ℚ) : R.Num := ⟨R.round x, R.round_round x⟩

instance : Add R.Num where
  add x y := ⟨R.round (x.1 + y.1), R.round_round _⟩

lemma val_add (x y : R.Num) : (x + y).1 = R.round (x.1 + y.1) := rfl

/-- What comes before a sum of the format comes before the exact sum. -/
lemma lt_of_lt_add {t x y : R.Num} (h : t < x + y) : t.1 < x.1 + y.1 := by
  by_contra hle
  have hround := R.mono (not_lt.1 hle)
  rw [t.2] at hround
  exact absurd h (not_lt.2 hround)

/-! ### The nearest integer -/

/-- The nearest integer, and of two the even one. -/
def nearestInt (x : ℚ) : ℤ :=
  if Int.fract x < 1 / 2 ∨ Int.fract x = 1 / 2 ∧ Even ⌊x⌋ then ⌊x⌋ else ⌊x⌋ + 1

@[simp] lemma nearestInt_intCast (n : ℤ) : nearestInt n = n := by
  simp [nearestInt]

lemma nearestInt_bounds (x : ℚ) : ⌊x⌋ ≤ nearestInt x ∧ nearestInt x ≤ ⌊x⌋ + 1 := by
  unfold nearestInt
  split_ifs <;> omega

lemma nearestInt_mono : Monotone nearestInt := by
  intro x y hxy
  rcases (Int.floor_mono hxy).lt_or_eq with hlt | heq
  · have hx := (nearestInt_bounds x).2
    have hy := (nearestInt_bounds y).1
    omega
  · -- between the same two integers
    have hfract : Int.fract x ≤ Int.fract y := by
      unfold Int.fract
      rw [heq]
      linarith
    unfold nearestInt
    rw [heq]
    split_ifs with hx hy hy
    · exact le_rfl
    · omega
    · refine absurd ?_ hx
      rcases hy with hy | ⟨hy, heven⟩
      · exact .inl (hfract.trans_lt hy)
      · rcases (hfract.trans hy.le).lt_or_eq with h | h
        · exact .inl h
        · exact .inr ⟨h, heven⟩
    · exact le_rfl

/-! ### Significands of `p + 1` bits -/

section significand

variable (p : ℕ)

/-- The distance of the numbers with `p + 1` bits about `x`. -/
def ulp (x : ℚ) : ℚ := 2 ^ (Int.log 2 x - p)

def roundPos (x : ℚ) : ℚ := nearestInt (x / ulp p x) * ulp p x

variable {p} {x y : ℚ}

lemma ulp_pos : 0 < ulp p x := zpow_pos two_pos _

lemma two_pow_mul_ulp : 2 ^ p * ulp p x = 2 ^ Int.log 2 x := by
  rw [ulp, ← zpow_natCast, ← zpow_add₀ two_ne_zero]
  congr 1
  omega

lemma significand_bounds (hx : 0 < x) :
    2 ^ p ≤ nearestInt (x / ulp p x) ∧ nearestInt (x / ulp p x) ≤ 2 ^ (p + 1) := by
  have hlog : (2 : ℚ) ^ Int.log 2 x ≤ x := by
    exact_mod_cast Int.zpow_log_le_self (R := ℚ) one_lt_two hx
  have hlt : x < (2 : ℚ) ^ (Int.log 2 x + 1) := by
    exact_mod_cast Int.lt_zpow_succ_log_self (R := ℚ) one_lt_two x
  have hlow : ((2 ^ p : ℤ) : ℚ) ≤ x / ulp p x := by
    rw [le_div_iff₀ ulp_pos]
    push_cast
    rwa [two_pow_mul_ulp]
  have hhigh : x / ulp p x ≤ ((2 ^ (p + 1) : ℤ) : ℚ) := by
    rw [div_le_iff₀ ulp_pos]
    push_cast
    rw [pow_succ, mul_right_comm, two_pow_mul_ulp, ← zpow_add_one₀ two_ne_zero]
    exact hlt.le
  constructor
  · exact (nearestInt_intCast _).ge.trans (nearestInt_mono hlow)
  · exact (nearestInt_mono hhigh).trans (nearestInt_intCast _).le

lemma roundPos_bounds (hx : 0 < x) :
    2 ^ Int.log 2 x ≤ roundPos p x ∧ roundPos p x ≤ 2 ^ (Int.log 2 x + 1) := by
  obtain ⟨hlow, hhigh⟩ := significand_bounds (p := p) hx
  have hlow' : (2 : ℚ) ^ p ≤ nearestInt (x / ulp p x) := by exact_mod_cast hlow
  have hhigh' : (nearestInt (x / ulp p x) : ℚ) ≤ 2 ^ (p + 1) := by exact_mod_cast hhigh
  constructor
  · rw [← two_pow_mul_ulp (p := p)]
    exact mul_le_mul_of_nonneg_right hlow' ulp_pos.le
  · calc roundPos p x ≤ 2 ^ (p + 1) * ulp p x := mul_le_mul_of_nonneg_right hhigh' ulp_pos.le
      _ = 2 ^ p * ulp p x * 2 := by ring
      _ = 2 ^ (Int.log 2 x + 1) := by rw [two_pow_mul_ulp, zpow_add_one₀ two_ne_zero]

lemma roundPos_pos (hx : 0 < x) : 0 < roundPos p x :=
  (zpow_pos two_pos _).trans_le (roundPos_bounds hx).1

lemma roundPos_mono (hx : 0 < x) (hxy : x ≤ y) : roundPos p x ≤ roundPos p y := by
  rcases (Int.log_mono_right (b := 2) hx hxy).lt_or_eq with hlt | heq
  · calc roundPos p x ≤ 2 ^ (Int.log 2 x + 1) := (roundPos_bounds hx).2
      _ ≤ 2 ^ Int.log 2 y := zpow_le_zpow_right₀ one_le_two hlt
      _ ≤ roundPos p y := (roundPos_bounds (hx.trans_le hxy)).1
  · have hulp : ulp p x = ulp p y := by rw [ulp, heq, ulp]
    unfold roundPos
    rw [hulp]
    have hdiv : x / ulp p y ≤ y / ulp p y := div_le_div_of_nonneg_right hxy ulp_pos.le
    have hint : (nearestInt (x / ulp p y) : ℚ) ≤ nearestInt (y / ulp p y) := by
      exact_mod_cast nearestInt_mono hdiv
    exact mul_le_mul_of_nonneg_right hint ulp_pos.le

lemma roundPos_eq_self {m : ℕ} {k : ℤ} (hm : 0 < m) (hlt : m < 2 ^ (p + 1)) :
    roundPos p (m * 2 ^ k) = m * 2 ^ k := by
  have hpos : (0 : ℚ) < m * 2 ^ k := mul_pos (by exact_mod_cast hm) (zpow_pos two_pos _)
  have hm' : (m : ℚ) < 2 ^ (p + 1) := by exact_mod_cast hlt
  have hle : Int.log 2 ((m : ℚ) * 2 ^ k) - p ≤ k := by
    have hlt' : (m : ℚ) * 2 ^ k < ((2 : ℕ) : ℚ) ^ (k + p + 1) := by
      calc (m : ℚ) * 2 ^ k < 2 ^ (p + 1) * 2 ^ k :=
            mul_lt_mul_of_pos_right hm' (zpow_pos two_pos _)
        _ = ((2 : ℕ) : ℚ) ^ (k + p + 1) := by
            rw [← zpow_natCast, ← zpow_add₀ two_ne_zero]
            push_cast
            congr 1
            ring
    have := (Int.lt_zpow_iff_log_lt one_lt_two hpos).1 hlt'
    omega
  -- so the number is a multiple of its `ulp`
  obtain ⟨d, hd⟩ := Int.eq_ofNat_of_zero_le (sub_nonneg.2 hle)
  have hmul : (m : ℚ) * 2 ^ k = ((m * 2 ^ d : ℤ) : ℚ) * ulp p (m * 2 ^ k) := by
    push_cast
    rw [mul_assoc, ulp, ← zpow_natCast, ← zpow_add₀ two_ne_zero]
    congr 2
    omega
  have hdiv : (m : ℚ) * 2 ^ k / ulp p (m * 2 ^ k) = ((m * 2 ^ d : ℤ) : ℚ) := by
    rw [div_eq_iff ulp_pos.ne']
    exact hmul
  rw [roundPos, hdiv, nearestInt_intCast]
  exact hmul.symm

lemma roundPos_eq (hx : 0 < x) :
    ∃ (m : ℕ) (k : ℤ), 0 < m ∧ m < 2 ^ (p + 1) ∧ roundPos p x = m * 2 ^ k := by
  obtain ⟨hlow, hhigh⟩ := significand_bounds (p := p) hx
  have hpow : (0 : ℤ) < 2 ^ p := by positivity
  rcases hhigh.lt_or_eq with hlt | heq
  · obtain ⟨m, hm⟩ := Int.eq_ofNat_of_zero_le (hpow.le.trans hlow)
    rw [hm] at hlow hlt
    refine ⟨m, Int.log 2 x - p, ?_, by exact_mod_cast hlt, ?_⟩
    · have : (0 : ℤ) < m := hpow.trans_le hlow
      exact_mod_cast this
    · rw [roundPos, hm, ulp, Int.cast_natCast]
  · -- the significand has run over
    refine ⟨1, Int.log 2 x + 1, one_pos, Nat.one_lt_two_pow (Nat.succ_ne_zero p), ?_⟩
    rw [roundPos, heq]
    push_cast
    rw [pow_succ, mul_right_comm, two_pow_mul_ulp, zpow_add_one₀ two_ne_zero, one_mul]

lemma roundPos_roundPos (hx : 0 < x) : roundPos p (roundPos p x) = roundPos p x := by
  obtain ⟨m, k, hm, hlt, heq⟩ := roundPos_eq (p := p) hx
  rw [heq, roundPos_eq_self hm hlt]

lemma roundPos_add_of_lt {m : ℕ} {k : ℤ} {d : ℚ} (hm : 2 ^ p ≤ m) (hlt : m < 2 ^ (p + 1))
    (hd : 0 ≤ d) (hd' : d < 2 ^ k / 2) : roundPos p (m * 2 ^ k + d) = m * 2 ^ k := by
  have hk : (0 : ℚ) < 2 ^ k := zpow_pos two_pos k
  have hm' : (2 : ℚ) ^ p ≤ m := by exact_mod_cast hm
  have hlt' : (m : ℚ) + 1 ≤ 2 ^ (p + 1) := by exact_mod_cast hlt
  have hlow : ((2 : ℕ) : ℚ) ^ (k + p) ≤ m * 2 ^ k + d := by
    push_cast
    rw [zpow_add₀ two_ne_zero, zpow_natCast]
    nlinarith
  have hhigh : m * 2 ^ k + d < ((2 : ℕ) : ℚ) ^ (k + p + 1) := by
    have hexp : k + p + 1 = k + ((p + 1 : ℕ) : ℤ) := by
      push_cast
      ring
    push_cast
    rw [hexp, zpow_add₀ two_ne_zero, zpow_natCast]
    nlinarith
  have hpos : 0 < m * 2 ^ k + d := by
    refine lt_of_lt_of_le ?_ hlow
    positivity
  have hlog : Int.log 2 (m * 2 ^ k + d) = k + p := by
    have hle := (Int.zpow_le_iff_le_log one_lt_two hpos).1 hlow
    have hlt := (Int.lt_zpow_iff_log_lt one_lt_two hpos).1 hhigh
    omega
  -- `d` leaves the exponent as it is, so the grid around the sum is that of `m * 2 ^ k`
  have hulp : ulp p (m * 2 ^ k + d) = 2 ^ k := by rw [ulp, hlog, add_sub_cancel_right]
  have hdiv : (m * 2 ^ k + d) / 2 ^ k = ((m : ℤ) : ℚ) + d / 2 ^ k := by
    rw [add_div, mul_div_cancel_right₀ _ hk.ne', Int.cast_natCast]
  have hrest : d / 2 ^ k < 1 / 2 := by
    rw [div_lt_div_iff₀ hk two_pos]
    linarith
  have hrest' : 0 ≤ d / 2 ^ k := div_nonneg hd hk.le
  have hfract : Int.fract (d / 2 ^ k) = d / 2 ^ k := by
    rw [Int.fract_eq_self]
    constructor <;> linarith
  have hfloor : ⌊d / 2 ^ k⌋ = 0 := by
    rw [Int.floor_eq_zero_iff]
    constructor <;> linarith
  have hint : nearestInt (((m : ℤ) : ℚ) + d / 2 ^ k) = m := by
    rw [nearestInt, Int.fract_intCast_add, hfract, if_pos (.inl hrest), Int.floor_intCast_add,
      hfloor, add_zero]
  calc (roundPos p (m * 2 ^ k + d) : ℚ)
      = nearestInt ((m * 2 ^ k + d) / 2 ^ k) * 2 ^ k := by rw [roundPos, hulp]
    _ = nearestInt (((m : ℤ) : ℚ) + d / 2 ^ k) * 2 ^ k := by rw [hdiv]
    _ = m * 2 ^ k := by rw [hint, Int.cast_natCast]

lemma roundPos_zero : roundPos p 0 = 0 := by
  have hint : nearestInt 0 = 0 := nearestInt_intCast 0
  rw [roundPos, zero_div, hint, Int.cast_zero, zero_mul]

end significand

/-- To the nearest number with a significand of `p + 1` bits, ties to even. -/
def nearest (p : ℕ) : Rounding where
  round x := if x < 0 then -roundPos p (-x) else roundPos p x
  mono := by
    intro x y hxy
    have hnonneg : ∀ z : ℚ, 0 ≤ z → 0 ≤ roundPos p z := by
      intro z hz
      rcases hz.lt_or_eq with hz | rfl
      · exact (roundPos_pos hz).le
      · exact roundPos_zero.ge
    dsimp only
    split_ifs with hx hy hy
    · exact neg_le_neg (roundPos_mono (neg_pos.2 hy) (neg_le_neg hxy))
    · have := hnonneg y (not_lt.1 hy)
      have := roundPos_pos (p := p) (neg_pos.2 hx)
      linarith
    · exact absurd (hxy.trans_lt hy) hx
    · rcases (not_lt.1 hx).lt_or_eq with hx | rfl
      · exact roundPos_mono hx hxy
      · rw [roundPos_zero]
        exact hnonneg y hxy
  round_round := by
    intro x
    rcases lt_trichotomy x 0 with hx | rfl | hx
    · have hpos := roundPos_pos (p := p) (neg_pos.2 hx)
      rw [if_pos hx, if_pos (neg_neg_of_pos hpos), neg_neg, roundPos_roundPos (neg_pos.2 hx)]
    · simp [roundPos_zero]
    · rw [if_neg hx.not_gt, if_neg (roundPos_pos hx).not_gt, roundPos_roundPos hx]

/-- IEEE doubles, but for the ends of their range. -/
abbrev double : Rounding := nearest 52

lemma nearest_eq_self {p m : ℕ} {k : ℤ} (hlt : m < 2 ^ (p + 1)) :
    (nearest p).round (m * 2 ^ k) = m * 2 ^ k := by
  have hnonneg : ¬ (m : ℚ) * 2 ^ k < 0 := by
    rw [not_lt]
    positivity
  show (if _ then _ else _) = _
  rw [if_neg hnonneg]
  rcases Nat.eq_zero_or_pos m with rfl | hm
  · rw [Nat.cast_zero, zero_mul, roundPos_zero]
  · exact roundPos_eq_self hm hlt

lemma nearest_add_of_lt {p m : ℕ} {k : ℤ} {d : ℚ} (hm : 2 ^ p ≤ m) (hlt : m < 2 ^ (p + 1))
    (hd : 0 ≤ d) (hd' : d < 2 ^ k / 2) : (nearest p).round (m * 2 ^ k + d) = m * 2 ^ k := by
  have hnonneg : ¬ (m : ℚ) * 2 ^ k + d < 0 := by
    rw [not_lt]
    positivity
  show (if _ then _ else _) = _
  rw [if_neg hnonneg, roundPos_add_of_lt hm hlt hd hd']

end Rounding

end Tdcs.Lib
