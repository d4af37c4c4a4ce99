import Mathlib.Algebra.Ring.Nat
import Mathlib.Order.Lattice
import Mathlib.Tactic.Common

/-!
The unsigned type of sizes. How wide it is depends on the platform; all of them hold
every non-negative `int`. Sums and products wrap, and three tests tell before or after
the fact whether they did: the limit divided by a factor (`guard_mul`), the product
divided by a factor (`quotient_mul`) and the comparison of a sum rounded to a
multiple with what it started from (`alignUp_lt`).
-/
namespace AutoUpscale.SizeType

/-- The sizes of a platform. -/
structure SizeT where
  bits : Nat
  holdsInt : 31 ≤ bits

/-- The sizes of a platform with 64 bits. -/
def size64 : SizeT := ⟨64,by decide⟩

variable (z : SizeT)

/-- The greatest size. -/
def SizeT.max : Nat := 2 ^ z.bits - 1

/-- What is left of a value in the type. -/
def SizeT.wrap (n : Nat) : Nat := n % 2 ^ z.bits

def SizeT.add (a b : Nat) : Nat := z.wrap (a + b)

def SizeT.mul (a b : Nat) : Nat := z.wrap (a * b)

/-- The conversion of an `int`. -/
def SizeT.ofInt (x : Int) : Nat := (x % (2 ^ z.bits : Nat)).toNat

/-- `(n + (k - 1)) & ~(k - 1)` for a power of two `k`. -/
def SizeT.alignUp (k n : Nat) : Nat := k * (z.add n (k - 1) / k)

variable {z} {a b k n : Nat}

theorem le_max : n ≤ z.max ↔ n < 2 ^ z.bits := by
  have positive := Nat.two_pow_pos z.bits
  unfold SizeT.max
  omega

/-- The greatest size is odd. -/
theorem even_ne_max (even : 2 ∣ n) : n ≠ z.max := by
  rintro rfl
  have whole : 2 ^ 1 ∣ 2 ^ z.bits := Nat.pow_dvd_pow 2 (le_trans (by decide) z.holdsInt)
  have positive := Nat.two_pow_pos z.bits
  unfold SizeT.max at even
  omega

theorem wrap_le : z.wrap n ≤ z.max := le_max.mpr (Nat.mod_lt n (Nat.two_pow_pos z.bits))

theorem wrap_eq (fits : n ≤ z.max) : z.wrap n = n := Nat.mod_eq_of_lt (le_max.mp fits)

theorem add_eq (fits : a + b ≤ z.max) : z.add a b = a + b := wrap_eq fits

theorem mul_eq (fits : a * b ≤ z.max) : z.mul a b = a * b := wrap_eq fits

/-- Every non-negative `int` is a size. -/
theorem int_le_max (int : n ≤ 2147483647) : n ≤ z.max := by
  refine le_max.mpr ?_
  calc n < 2 ^ 31 := by omega
    _ ≤ 2 ^ z.bits := Nat.pow_le_pow_right (by decide) z.holdsInt

theorem ofInt_natCast (int : n ≤ 2147483647) : z.ofInt n = n := by
  have fits : n < 2 ^ z.bits := le_max.mp (int_le_max int)
  rw [SizeT.ofInt,Int.emod_eq_of_lt (Int.natCast_nonneg n) (Int.ofNat_lt.mpr fits),Int.toNat_natCast]

/-- The test before a product. -/
theorem guard_mul (positive : 0 < b) : a > z.max / b ↔ z.max < a * b := Nat.div_lt_iff_lt_mul positive

/-- A product behind its test is exact or nothing. -/
theorem guarded_mul (positive : 0 < b) :
    (if a > z.max / b then 0 else z.mul a b) = if a * b ≤ z.max then a * b else 0 := by
  by_cases exceeds : a > z.max / b
  · rw [if_pos exceeds,if_neg (not_le.mpr ((guard_mul positive).mp exceeds))]
  · have fits := not_lt.mp ((guard_mul positive).not.mp exceeds)
    rw [if_neg exceeds,if_pos fits,mul_eq fits]

/-- The test after a product. -/
theorem quotient_mul (positive : 0 < a) : z.mul a b / a = b ↔ a * b ≤ z.max := by
  constructor
  · intro exactly
    have whole : a * b ≤ z.mul a b := by
      calc a * b = a * (z.mul a b / a) := by rw [exactly]
        _ ≤ z.mul a b := Nat.mul_div_le _ _
    exact le_trans whole wrap_le
  · intro fits
    rw [mul_eq fits,Nat.mul_div_cancel_left b positive]

theorem alignUp_dvd : k ∣ z.alignUp k n := Nat.dvd_mul_right k _

/-- Rounding up is exact where the sum fits. -/
theorem alignUp_spec (positive : 0 < k) (fits : n + (k - 1) ≤ z.max) : n ≤ z.alignUp k n ∧ z.alignUp k n < n + k := by
  rw [SizeT.alignUp,add_eq fits]
  have parts := Nat.div_add_mod (n + (k - 1)) k
  have small := Nat.mod_lt (n + (k - 1)) positive
  omega

/-- The test after rounding up. -/
theorem alignUp_lt (positive : 0 < k) (step : k - 1 ≤ z.max) (size : n ≤ z.max) :
    z.alignUp k n < n ↔ z.max < n + (k - 1) := by
  constructor
  · intro smaller
    by_contra fits
    have := (alignUp_spec positive (not_lt.mp fits)).1
    omega
  · intro exceeds
    have below := le_max.mp step
    have small := le_max.mp size
    have large : 2 ^ z.bits ≤ n + (k - 1) := by
      by_contra none
      exact absurd (le_max.mpr (not_le.mp none)) (not_le.mpr exceeds)
    have wrapped : z.add n (k - 1) = n + (k - 1) - 2 ^ z.bits := by
      rw [SizeT.add,SizeT.wrap,Nat.mod_eq_sub_mod large,Nat.mod_eq_of_lt (by omega)]
    calc z.alignUp k n ≤ z.add n (k - 1) := Nat.mul_div_le _ _
      _ < n := by rw [wrapped]; omega

end AutoUpscale.SizeType
