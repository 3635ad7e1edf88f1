import Mathlib.Algebra.Order.Field.Power
import Mathlib.Data.Int.Log
import Mathlib.Data.Rat.Floor
import Mathlib.Tactic.FieldSimp
import Mathlib.Tactic.Linarith
import Mathlib.Tactic.Positivity

/-!
# Rounding to double precision

A double is a multiple of a power of two: it has 53 binary digits, and none below `2 ^ (-1074)`.  `toDouble` takes a
rational number to the nearest double, and `roundHalfEven` to the nearest integer; of two that are equally near both
take the even one.  Integers below `2 ^ 53` and their products with powers of two are doubles, so they bound what is
rounded below them (`toDouble_le_mul_pow`, `toDouble_le_natCast`).
-/

namespace Binary64

/-- The nearest integer, the even one of two. -/
def roundHalfEven (q : ℚ) : ℤ :=
  if Int.fract q < 1 / 2 then ⌊q⌋
  else if 1 / 2 < Int.fract q then ⌊q⌋ + 1
  else if ⌊q⌋ % 2 = 0 then ⌊q⌋ else ⌊q⌋ + 1

/-- The exponent of the last digit of a double as large as `q`. -/
def lastDigit (q : ℚ) : ℤ := max (Int.log 2 |q| - 52) (-1074)

/-- The nearest double, for numbers in the range of the doubles. -/
def toDouble (q : ℚ) : ℚ := roundHalfEven (q / 2 ^ lastDigit q) * 2 ^ lastDigit q

theorem le_roundHalfEven {q : ℚ} {n : ℤ} (h : n ≤ q) : n ≤ roundHalfEven q := by
  have hfloor : n ≤ ⌊q⌋ := Int.le_floor.2 h
  unfold roundHalfEven
  split
  · exact hfloor
  · split
    · omega
    · split <;> omega

theorem roundHalfEven_le {q : ℚ} {n : ℤ} (h : q ≤ n) : roundHalfEven q ≤ n := by
  have hfloor : ⌊q⌋ ≤ n := Int.cast_le.1 ((Int.floor_le q).trans h)
  -- a number with a fraction lies below the bound with all of its integer part
  have hfract : ¬ Int.fract q < 1 / 2 → ⌊q⌋ < n := by
    intro hf
    have hq := Int.floor_add_fract q
    exact Int.cast_lt.1 (by linarith : (⌊q⌋ : ℚ) < n)
  unfold roundHalfEven
  split
  · exact hfloor
  · rename_i hf
    have hlt := hfract hf
    split
    · omega
    · split <;> omega

theorem toDouble_nonneg {q : ℚ} (h : 0 ≤ q) : 0 ≤ toDouble q := by
  have hr : 0 ≤ roundHalfEven (q / 2 ^ lastDigit q) := le_roundHalfEven (by rw [Int.cast_zero]; positivity)
  have hr' : (0 : ℚ) ≤ roundHalfEven (q / 2 ^ lastDigit q) := Int.cast_nonneg hr
  unfold toDouble
  positivity

private theorem lastDigit_le {q : ℚ} {s : ℕ} (h0 : 0 ≤ q) (h : q < 2 ^ (53 + s)) : lastDigit q ≤ s := by
  have hlog : Int.log 2 |q| < 53 + s := by
    rw [abs_of_nonneg h0]
    rcases h0.eq_or_lt with rfl | hpos
    · rw [Int.log_zero_right]
      omega
    · apply (Int.lt_zpow_iff_log_lt (by decide) hpos).1
      exact_mod_cast h
  unfold lastDigit
  omega

/-- Rounding does not lead beyond a double. -/
theorem toDouble_le_mul_pow {q : ℚ} {n s : ℕ} (h0 : 0 ≤ q) (h : q ≤ n * 2 ^ s) (hn : n < 2 ^ 53) :
    toDouble q ≤ n * 2 ^ s := by
  have hq : q < 2 ^ (53 + s) := by
    have hn' : (n : ℚ) < 2 ^ 53 := by exact_mod_cast hn
    rw [pow_add]
    exact h.trans_lt (mul_lt_mul_of_pos_right hn' (by positivity))
  obtain ⟨k, hk⟩ : ∃ k : ℕ, lastDigit q = s - (k : ℤ) :=
    ⟨(s - lastDigit q).toNat, by have := lastDigit_le h0 hq; omega⟩
  have hpos : (0 : ℚ) < 2 ^ k := by positivity
  have hs : (0 : ℚ) < 2 ^ s := by positivity
  unfold toDouble
  rw [hk, zpow_sub₀ two_ne_zero, zpow_natCast, zpow_natCast, div_div_eq_mul_div]
  -- in units of the last digit the bound is an integer
  have hbound : roundHalfEven (q * 2 ^ k / 2 ^ s) ≤ ((n * 2 ^ k : ℕ) : ℤ) := by
    apply roundHalfEven_le
    push_cast
    rw [div_le_iff₀ hs, mul_right_comm]
    exact mul_le_mul_of_nonneg_right h hpos.le
  have hbound' : (roundHalfEven (q * 2 ^ k / 2 ^ s) : ℚ) ≤ n * 2 ^ k := by exact_mod_cast hbound
  calc (roundHalfEven (q * 2 ^ k / 2 ^ s) : ℚ) * (2 ^ s / 2 ^ k)
      ≤ n * 2 ^ k * (2 ^ s / 2 ^ k) := mul_le_mul_of_nonneg_right hbound' (by positivity)
    _ = n * 2 ^ s := by field_simp

/-- Rounding does not lead beyond an integer that is a double. -/
theorem toDouble_le_natCast {q : ℚ} {n : ℕ} (h0 : 0 ≤ q) (h : q ≤ n) (hn : n < 2 ^ 53) : toDouble q ≤ n := by
  have hbound := toDouble_le_mul_pow (s := 0) h0 (by simpa using h) hn
  simpa using hbound

end Binary64
