import Mathlib.Algebra.Order.BigOperators.Group.List
import Mathlib.Algebra.Order.Floor.Semiring
import Mathlib.Data.List.Sort
import Mathlib.Data.Nat.Cast.Order.Field
import Mathlib.Data.Rat.Floor
import Mathlib.Tactic.FieldSimp
import Mathlib.Tactic.Linarith
import Mathlib.Tactic.Ring

/-!
Means and ranks of a list of values. The mean can be kept while values arrive
(`mean_snoc`), and the least rank that is not below a fraction of the number of
values is found by a division of natural numbers (`rank_fraction`).
-/
namespace AutoUpscale.OrderStatistics
universe u
variable {K : Type u} [Field K]

/-- The arithmetic mean. -/
def mean (values : List K) : K := values.sum / (values.length : K)

theorem mean_perm {values other : List K} (perm : values.Perm other) : mean values = mean other := by
  rw [mean,mean,perm.sum_eq,perm.length_eq]

/-- The mean after one more value, from the mean before it. -/
theorem mean_snoc [CharZero K] (seen : List K) (value : K) :
    mean seen + (value - mean seen) / ((seen.length + 1 : Nat) : K) = mean (seen ++ [value]) := by
  have room : ((seen.length : K) + 1) ≠ 0 := by exact_mod_cast Nat.succ_ne_zero seen.length
  have whole : mean seen * (seen.length : K) = seen.sum := by
    by_cases empty : seen = []
    · simp [empty]
    · exact div_mul_cancel₀ _ (by exact_mod_cast fun none => empty (List.length_eq_zero_iff.mp none))
  have after : mean (seen ++ [value]) = (mean seen * seen.length + value) / (seen.length + 1) := by
    rw [whole,mean,List.sum_append,List.sum_singleton,List.length_append,List.length_singleton,Nat.cast_add,Nat.cast_one]
  rw [after,Nat.cast_add,Nat.cast_one]
  field_simp
  ring

theorem mean_pos {values : List ℚ} (some_ : values ≠ []) (positive : ∀ value ∈ values, 0 < value) : 0 < mean values :=
  div_pos (List.sum_pos values positive some_) (by exact_mod_cast List.length_pos_iff.mpr some_)

/-- The least rank that a fraction of the values does not exceed, where the fraction
    lacks one part in `d`. -/
theorem rank_fraction {d : Nat} (positive : 0 < d) (n : Nat) : ⌈(1 - 1 / d : ℚ) * n⌉₊ = n - n / d := by
  have real : (0 : ℚ) < d := by exact_mod_cast positive
  have low : ((n / d : Nat) : ℚ) ≤ n / d := Nat.cast_div_le
  have high : (n : ℚ) / d < (n / d : Nat) + 1 := by
    rw [div_lt_iff₀ real]
    exact_mod_cast Nat.lt_mul_of_div_lt (Nat.lt_succ_self (n / d)) positive
  have part : n / d ≤ n := Nat.div_le_self n d
  have value : ((1 - 1 / d : ℚ) * n) = n - n / d := by ring
  rw [value]
  by_cases none : n - n / d = 0
  · rw [none,Nat.ceil_eq_zero]
    have all : (n : ℚ) = (n / d : Nat) := by exact_mod_cast (by omega : n = n / d)
    linarith
  · rw [Nat.ceil_eq_iff none,Nat.cast_sub (by omega),Nat.cast_sub part]
    constructor <;> push_cast <;> linarith

/-- The value whose rank, counted from 1 in ascending order, is the least that is not below
    the fraction of their number. -/
def percentile (fraction : ℚ) (values : List ℚ) : ℚ :=
  (values.insertionSort (· ≤ ·)).getD (⌈fraction * values.length⌉₊ - 1) 0

/-- It can be read off any ascending list of the values. -/
theorem percentile_eq {values ordered : List ℚ} (perm : ordered.Perm values) (ascending : ordered.Pairwise (· ≤ ·)) (fraction : ℚ) :
    percentile fraction values = ordered.getD (⌈fraction * values.length⌉₊ - 1) 0 := by
  have same : values.insertionSort (· ≤ ·) = ordered := List.Perm.eq_of_pairwise' (List.pairwise_insertionSort _ values) ascending
    ((List.perm_insertionSort _ values).trans perm.symm)
  rw [percentile,same]

end AutoUpscale.OrderStatistics
