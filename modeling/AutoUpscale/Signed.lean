import Mathlib.Order.Basic
import Mathlib.Tactic.Common

/-!
Integers of a fixed width. A value that does not fit is no value, as the overflow of
a signed integer is in C, so that a computation that has a result does not overflow
on its way; what is unsigned does not wrap on its way either.
-/
namespace AutoUpscale.Signed

/-- The least and the greatest value of a type. -/
structure Width where
  low : Int
  high : Int

def Width.int : Width := ⟨-2147483648,2147483647⟩

def Width.int64 : Width := ⟨-9223372036854775808,9223372036854775807⟩

def Width.uint : Width := ⟨0,4294967295⟩

def Width.uint64 : Width := ⟨0,18446744073709551615⟩

def Fits (w : Width) (x : Int) : Prop := w.low ≤ x ∧ x ≤ w.high

instance (w : Width) (x : Int) : Decidable (Fits w x) := inferInstanceAs (Decidable (_ ∧ _))

theorem fits_int {x : Int} : Fits .int x ↔ -2147483648 ≤ x ∧ x ≤ 2147483647 := Iff.rfl

theorem fits_int64 {x : Int} : Fits .int64 x ↔ -9223372036854775808 ≤ x ∧ x ≤ 9223372036854775807 := Iff.rfl

theorem fits_uint {x : Int} : Fits .uint x ↔ 0 ≤ x ∧ x ≤ 4294967295 := Iff.rfl

/-- The value of an expression of the type, if it fits. -/
def checked (w : Width) (x : Int) : Option Int := if Fits w x then some x else none

variable {w : Width} {x : Int}

theorem checked_eq (fits : Fits w x) : checked w x = some x := if_pos fits

theorem checked_int (low : -2147483648 ≤ x) (high : x ≤ 2147483647) : checked .int x = some x := checked_eq ⟨low,high⟩

theorem checked_int64 (low : -9223372036854775808 ≤ x) (high : x ≤ 9223372036854775807) : checked .int64 x = some x :=
  checked_eq ⟨low,high⟩

theorem checked_uint (low : 0 ≤ x) (high : x ≤ 4294967295) : checked .uint x = some x := checked_eq ⟨low,high⟩

theorem checked_uint64 (low : 0 ≤ x) (high : x ≤ 18446744073709551615) : checked .uint64 x = some x := checked_eq ⟨low,high⟩

end AutoUpscale.Signed
