import Mathlib.Algebra.Order.Ring.Int

/-! # Signed 64-bit arithmetic

The results of a program that computes with 64-bit integers are the exact ones, wrapped around
into the range.  Wrapping once at the end of a sum is the same as wrapping after every addition.
-/

namespace Int

/-- The 64-bit integer that is left of a number. -/
def wrap64 (n : Int) : Int := n.bmod (2 ^ 64)

theorem wrap64_eq_self {n : Int} (low : -2 ^ 63 ≤ n) (high : n < 2 ^ 63) : n.wrap64 = n :=
  bmod_eq_of_le (le_trans (by decide) low) (lt_of_lt_of_le high (by decide))

theorem wrap64_lt (n : Int) : n.wrap64 < 2 ^ 63 :=
  lt_of_lt_of_le (bmod_lt (by decide)) (by decide)

@[simp] theorem wrap64_add_wrap64 (a b : Int) : (a.wrap64 + b).wrap64 = (a + b).wrap64 :=
  bmod_add_bmod

end Int
