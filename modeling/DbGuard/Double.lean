import Mathlib.Algebra.Order.Floor.Ring
import Mathlib.Algebra.Order.Field.Power
import Mathlib.Data.Int.Log
import Mathlib.Data.Rat.Floor
import Mathlib.Tactic.FieldSimp
import Mathlib.Tactic.Linarith
import Mathlib.Tactic.Positivity
import Mathlib.Tactic.Ring

/-!
# `DbGuard.Double`: rounding to a double

A double is a rational with 53 significant bits, and an operation on doubles rounds its exact
result to the nearest one, to the even one of two that are as near. Zero has one sign, and the
exponent has no bounds, so there is neither overflow nor underflow.

`abs_round_sub_le` bounds what an operation loses, relative to its result, and `round_eq_self`
names the numbers that it leaves alone.
-/

set_option autoImplicit false

namespace Double

/-- The nearest integer, the even one of two. -/
def roundEven (x : ℚ) : ℤ :=
  if x - ⌊x⌋ < 1 / 2 then ⌊x⌋
  else if 1 / 2 < x - ⌊x⌋ then ⌊x⌋ + 1
  else if ⌊x⌋ % 2 = 0 then ⌊x⌋ else ⌊x⌋ + 1

/-- The exponent of the last of the 53 bits. -/
def lastBit (x : ℚ) : ℤ := Int.log 2 |x| - 52

/-- The nearest double. -/
def round (x : ℚ) : ℚ := roundEven (x / 2 ^ lastBit x) * 2 ^ lastBit x

/-- `float(n)` of an integer. -/
def ofInt (n : ℤ) : ℚ := round n

/-- The product and the quotient of two doubles. -/
def mul (x y : ℚ) : ℚ := round (x * y)

@[inherit_doc mul] def div (x y : ℚ) : ℚ := round (x / y)

/-- `2 ^ -53`, what an operation loses at most for each unit of its result. -/
def unit : ℚ := 1 / 2 ^ 53

variable {x y : ℚ}

/-- Rounding to an integer moves by half at most. -/
theorem abs_roundEven_sub_le (x : ℚ) : |(roundEven x : ℚ) - x| ≤ 1 / 2 := by
  have hlow := Int.floor_le x
  have hhigh := Int.lt_floor_add_one x
  unfold roundEven
  split
  · rw [abs_le]
    constructor <;> linarith
  · split
    · push_cast
      rw [abs_le]
      constructor <;> linarith
    · -- as near to both
      split
      · rw [abs_le]
        constructor <;> linarith
      · push_cast
        rw [abs_le]
        constructor <;> linarith

/-- An integer is rounded to itself. -/
@[simp] theorem roundEven_intCast (n : ℤ) : roundEven n = n := by simp [roundEven]

/-- The last bit is small beside the number. -/
theorem zpow_lastBit_le (hx : x ≠ 0) : (2 : ℚ) ^ lastBit x ≤ 2 * unit * |x| := by
  have hlog : (2 : ℚ) ^ Int.log 2 |x| ≤ |x| :=
    Int.zpow_log_le_self (by norm_num) (abs_pos.mpr hx)
  have hsplit : (2 : ℚ) ^ lastBit x = 2 ^ Int.log 2 |x| * (2 * unit) := by
    rw [lastBit, zpow_sub₀ (by norm_num), unit]
    norm_num
    ring
  rw [hsplit, mul_comm]
  exact mul_le_mul_of_nonneg_left hlog (by norm_num [unit])

/-- What an operation loses. -/
theorem abs_round_sub_le (x : ℚ) : |round x - x| ≤ unit * |x| := by
  by_cases hx : x = 0
  · rw [hx]
    norm_num [round, roundEven]
  have hpos : (0 : ℚ) < 2 ^ lastBit x := by positivity
  have herror : round x - x =
      ((roundEven (x / 2 ^ lastBit x) : ℚ) - x / 2 ^ lastBit x) * 2 ^ lastBit x := by
    rw [round, sub_mul, div_mul_cancel₀ _ hpos.ne']
  calc |round x - x|
      = |(roundEven (x / 2 ^ lastBit x) : ℚ) - x / 2 ^ lastBit x| * 2 ^ lastBit x := by
        rw [herror, abs_mul, abs_of_pos hpos]
    _ ≤ 1 / 2 * 2 ^ lastBit x := by
        exact mul_le_mul_of_nonneg_right (abs_roundEven_sub_le _) hpos.le
    _ ≤ 1 / 2 * (2 * unit * |x|) := by
        exact mul_le_mul_of_nonneg_left (zpow_lastBit_le hx) (by norm_num)
    _ = unit * |x| := by ring

/-- A number of at most 53 bits is a double. -/
theorem round_eq_self {m k : ℤ} (hx : x = m * 2 ^ k) (hk : lastBit x ≤ k) : round x = x := by
  obtain ⟨n, hn⟩ := Int.eq_ofNat_of_zero_le (sub_nonneg.mpr hk)
  have hpow : (2 : ℚ) ^ k = 2 ^ n * 2 ^ lastBit x := by
    have hsum : k = n + lastBit x := by omega
    rw [hsum, zpow_add₀ (by norm_num), zpow_natCast]
  have hwhole : x / 2 ^ lastBit x = ((m * 2 ^ n : ℤ) : ℚ) := by
    rw [div_eq_iff (by positivity)]
    calc x = m * (2 ^ n * 2 ^ lastBit x) := by rw [← hpow, ← hx]
      _ = ((m * 2 ^ n : ℤ) : ℚ) * 2 ^ lastBit x := by
        push_cast
        ring
  rw [round, hwhole, roundEven_intCast, ← hwhole, div_mul_cancel₀ _ (by positivity)]

/-- A small number has a small last bit. -/
theorem lastBit_le_of_lt {k : ℤ} (hpos : x ≠ 0) (h : |x| < 2 ^ (k + 53)) : lastBit x ≤ k := by
  have hlt : Int.log 2 |x| < k + 53 :=
    (Int.lt_zpow_iff_log_lt (by norm_num) (abs_pos.mpr hpos)).mp (by exact_mod_cast h)
  unfold lastBit
  omega

/-- The integers that doubles tell apart, and their halves. -/
theorem round_half {n : ℤ} (h : |n| < 2 ^ 53) : round (n / 2) = n / 2 := by
  by_cases hn : n = 0
  · rw [hn]
    norm_num [round, roundEven]
  have hcast : (n : ℚ) ≠ 0 := by exact_mod_cast hn
  refine round_eq_self (m := n) (k := -1) (by rw [zpow_neg_one]; ring) ?_
  refine lastBit_le_of_lt (by positivity) ?_
  have hlt : |(n : ℚ)| < 2 ^ 53 := by exact_mod_cast h
  have hpow : (2 : ℚ) ^ ((-1 : ℤ) + 53) = 2 ^ 53 / 2 := by norm_num
  rw [hpow, abs_div, abs_two]
  linarith

/-- An integer below 2 ^ 53 is a double. -/
theorem round_intCast {n : ℤ} (h : |n| < 2 ^ 53) : round n = n := by
  by_cases hn : n = 0
  · rw [hn]
    norm_num [round, roundEven]
  have hcast : (n : ℚ) ≠ 0 := by exact_mod_cast hn
  refine round_eq_self (m := n) (k := 0) (by simp) (lastBit_le_of_lt hcast ?_)
  exact_mod_cast h

end Double
