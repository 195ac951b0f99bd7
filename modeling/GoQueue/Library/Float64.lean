import Mathlib.Data.Int.Log
import Mathlib.Data.Rat.Floor
import Mathlib.Tactic.Linarith
import Mathlib.Tactic.Positivity
import Mathlib.Tactic.NormNum

/-! # Rounding to double precision

The values of a computation with floats of 53 bits, as rational numbers: each operation rounds
the exact result to the nearest float, to the even one when there are two.  Only positive
results are rounded here that are neither subnormal nor too large.

The quotient of two integers below `2 ^ 53` is never rounded across an integer, since its distance
to an integer is at least the reciprocal of the divisor.
-/

namespace Float64

/-! ## Rounding -/

/-- The nearest integer, the even one of two. -/
def roundEven (q : ℚ) : ℤ :=
  if q - ⌊q⌋ < 1 / 2 then ⌊q⌋
  else if 1 / 2 < q - ⌊q⌋ then ⌊q⌋ + 1
  else if 2 ∣ ⌊q⌋ then ⌊q⌋
  else ⌊q⌋ + 1

theorem abs_roundEven_sub_le (q : ℚ) : |(roundEven q : ℚ) - q| ≤ 1 / 2 := by
  have low := Int.floor_le q
  have high := Int.lt_floor_add_one q
  unfold roundEven
  split_ifs <;> push_cast <;> rw [abs_le] <;> constructor <;> linarith

@[simp] theorem roundEven_intCast (n : ℤ) : roundEven n = n := by
  simp [roundEven]

/-- The distance between the floats around a positive number. -/
def ulp (q : ℚ) : ℚ := 2 ^ (Int.log 2 q - 52)

theorem ulp_pos (q : ℚ) : 0 < ulp q := zpow_pos (by norm_num) _

theorem ulp_le {q : ℚ} (positive : 0 < q) : ulp q * 2 ^ 52 ≤ q := by
  have scaled : ulp q * 2 ^ 52 = 2 ^ Int.log 2 q := by
    rw [ulp, ← zpow_natCast, ← zpow_add₀ (by norm_num)]
    congr 1
    omega
  rw [scaled]
  exact_mod_cast Int.zpow_log_le_self (b := 2) (by norm_num) positive

def round (q : ℚ) : ℚ := if q = 0 then 0 else roundEven (q / ulp q) * ulp q

theorem abs_round_sub_le {q : ℚ} (positive : 0 < q) : |round q - q| * 2 ^ 53 ≤ q := by
  have step := ulp_pos q
  have near := abs_roundEven_sub_le (q / ulp q)
  have scaled : round q - q = (roundEven (q / ulp q) - q / ulp q) * ulp q := by
    rw [round, if_neg positive.ne', sub_mul, div_mul_cancel₀ _ step.ne']
  calc |round q - q| * 2 ^ 53
      = |(roundEven (q / ulp q) : ℚ) - q / ulp q| * ulp q * 2 ^ 53 := by
        rw [scaled, abs_mul, abs_of_pos step]
    _ ≤ 1 / 2 * ulp q * 2 ^ 53 := by gcongr
    _ = ulp q * 2 ^ 52 := by ring
    _ ≤ q := ulp_le positive

/-! ## Integers -/

theorem round_eq_self {q : ℚ} (m : ℤ) (multiple : q = m * ulp q) : round q = q := by
  rw [round]
  split_ifs with zero
  · exact zero.symm
  · have quotient : q / ulp q = m := by
      rw [div_eq_iff (ulp_pos q).ne']
      exact multiple
    rw [quotient, roundEven_intCast, ← multiple]

/-- An integer of 53 bits is a float. -/
theorem round_natCast {n : ℕ} (fits : n < 2 ^ 53) : round n = n := by
  have short : Nat.log 2 n ≤ 52 := Nat.lt_succ_iff.mp (Nat.log_lt_of_lt_pow' (by norm_num) fits)
  refine round_eq_self (n * 2 ^ (52 - Nat.log 2 n)) ?_
  rw [ulp, Int.log_natCast]
  push_cast
  rw [mul_assoc, ← zpow_natCast, ← zpow_add₀ (by norm_num)]
  have cancel : ((52 - Nat.log 2 n : ℕ) : ℤ) + (Nat.log 2 n - 52) = 0 := by omega
  rw [cancel, zpow_zero, mul_one]

/-! ## Quotients -/

/-- The quotient is rounded by less than the reciprocal of the divisor. -/
theorem abs_round_div_sub_lt {a b : ℕ} (dividend : 0 < a) (divisor : 0 < b) (fits : a < 2 ^ 53) :
    |round (a / b) - a / b| < 1 / b := by
  have positive : (0 : ℚ) < b := by exact_mod_cast divisor
  have error := abs_round_sub_le (div_pos (by exact_mod_cast dividend) positive : (0 : ℚ) < a / b)
  have small : (a : ℚ) / b < 2 ^ 53 / b := by
    gcongr
    exact_mod_cast fits
  have scaled : |round (a / b) - a / b| * 2 ^ 53 < 1 / b * 2 ^ 53 := by
    calc |round (a / b) - a / b| * 2 ^ 53
        ≤ a / b := error
      _ < 2 ^ 53 / b := small
      _ = 1 / b * 2 ^ 53 := by ring
  exact lt_of_mul_lt_mul_right scaled (by norm_num)

/-- The ceiling of a rounded quotient is that of the quotient. -/
theorem ceil_round_div {a b : ℕ} (divisor : 0 < b) (fits : a < 2 ^ 53) :
    ⌈round (a / b)⌉ = ((a + b - 1) / b : ℕ) := by
  have positive : (0 : ℚ) < b := by exact_mod_cast divisor
  by_cases divides : b ∣ a
  · obtain ⟨k, rfl⟩ := divides
    have exact : ((b * k : ℕ) / b : ℚ) = k := by
      push_cast
      field_simp
    have bound : k < 2 ^ 53 := lt_of_le_of_lt (Nat.le_mul_of_pos_left k divisor) fits
    have count : (b * k + b - 1) / b = k := by
      rw [Nat.add_sub_assoc divisor, Nat.mul_add_div divisor, Nat.div_eq_of_lt (by omega)]
      rfl
    rw [exact, round_natCast bound, count]
    simp
  · -- the quotient is at least `1 / b` away from the integers on both sides
    have remainder : 0 < a % b := Nat.pos_of_ne_zero fun zero => divides (Nat.dvd_of_mod_eq_zero zero)
    have dividend : 0 < a := Nat.pos_of_ne_zero (by rintro rfl; simp at remainder)
    have below := Nat.mod_lt a divisor
    have count : (a + b - 1) / b = a / b + 1 := by
      have whole := Nat.div_add_mod' a b
      refine Nat.div_eq_of_lt_le ?_ ?_ <;> simp only [Nat.succ_mul] <;> omega
    have quotient : (a : ℚ) / b = (a / b : ℕ) + (a % b : ℕ) / b := by
      rw [eq_comm, ← sub_eq_zero]
      field_simp
      have whole : (a : ℚ) = b * (a / b : ℕ) + (a % b : ℕ) := by
        exact_mod_cast (Nat.div_add_mod a b).symm
      linarith
    have least : 1 / b ≤ ((a % b : ℕ) : ℚ) / b := by
      gcongr
      exact_mod_cast remainder
    have most : ((a % b : ℕ) : ℚ) / b + 1 / b ≤ 1 := by
      rw [← add_div, div_le_one positive]
      exact_mod_cast below
    have near := abs_lt.mp (abs_round_div_sub_lt dividend divisor fits)
    rw [count, Int.ceil_eq_iff, Int.cast_natCast, Nat.cast_succ]
    constructor <;> linarith

end Float64
