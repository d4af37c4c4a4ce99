import Mathlib.Algebra.BigOperators.Group.Finset.Basic
import Mathlib.Algebra.Order.BigOperators.Group.List
import Mathlib.Algebra.Order.Ring.Nat
import Mathlib.Data.UInt

/-!
Loops that go by a step and add up what they meet. A loop whose body may fail adds up
to a sum if no body fails (`foldlM_sum`); two loops over different places add up to the
same where they differ only in places that add nothing (`sum_subset`). A sum of machine
words is that of the numbers where that is in range (`toNat_sum`).
-/
namespace AutoUpscale.Sweeps
universe u v

/-- The values of `x` in the loop `for (x = first; x < stop; x += step)`. -/
def positions (first step : Nat) (stop : Int) : List Nat :=
  List.range' first (((stop - first).toNat + step - 1) / step) step

variable {first step x : Nat} {stop : Int}

theorem mem_positions (positive : 0 < step) :
    x ∈ positions first step stop ↔ first ≤ x ∧ (x : Int) < stop ∧ step ∣ x - first := by
  -- The loop takes its body for an `i`-th time while `step * i` is below the distance.
  have taken : ∀ i, i < ((stop - first).toNat + step - 1) / step ↔ ((first + step * i : Nat) : Int) < stop := by
    intro i
    rw [← Nat.succ_le_iff,Nat.le_div_iff_mul_le positive,Nat.succ_mul,Nat.mul_comm i step]
    omega
  rw [positions,List.mem_range']
  constructor
  · rintro ⟨i,inside,rfl⟩
    exact ⟨Nat.le_add_right _ _,(taken i).mp inside,by simp⟩
  · rintro ⟨low,high,i,distance⟩
    have place : x = first + step * i := by omega
    exact ⟨i,(taken i).mpr (place ▸ high),place⟩

theorem nodup_positions (positive : 0 < step) : (positions first step stop).Nodup :=
  List.nodup_range' step positive

variable {α : Type u} {M : Type v}

/-- A loop that adds a value for each place. -/
theorem foldlM_sum [AddCommMonoid M] {l : List α} {body : M → α → Option M} (value : α → M)
    (adds : ∀ a ∈ l, ∀ m, body m a = some (m + value a)) (m : M) :
    l.foldlM body m = some (m + (l.map value).sum) := by
  induction l generalizing m with
  | nil => simp
  | cons a l ih =>
    have rest := ih (fun b member => adds b (List.mem_cons_of_mem a member)) (m + value a)
    simp only [List.foldlM_cons,adds a List.mem_cons_self,Option.bind_eq_bind,Option.bind_some,rest,List.map_cons,
      List.sum_cons,add_assoc]

/-- A loop has no result if its body fails at one place. -/
theorem foldlM_none {l : List α} {body : M → α → Option M} {a : α} (member : a ∈ l) (fails : ∀ m, body m a = none) (m : M) :
    l.foldlM body m = none := by
  induction l generalizing m with
  | nil => cases member
  | cons b l ih =>
    rw [List.foldlM_cons,Option.bind_eq_bind,Option.bind_eq_none_iff]
    intro next stepped
    obtain rfl | later := List.mem_cons.mp member
    · rw [fails m] at stepped
      cases stepped
    · exact ih later next

/-- Places that add nothing may be left out. -/
theorem sum_subset [AddCommMonoid M] [DecidableEq α] {l l' : List α} {value : α → M} (nodup : l.Nodup) (nodup' : l'.Nodup)
    (inside : ∀ a ∈ l, a ∈ l') (nothing : ∀ a ∈ l', a ∉ l → value a = 0) : (l.map value).sum = (l'.map value).sum := by
  rw [← List.sum_toFinset value nodup,← List.sum_toFinset value nodup']
  refine Finset.sum_subset ?_ ?_
  · intro a member
    exact List.mem_toFinset.mpr (inside a (List.mem_toFinset.mp member))
  · intro a member outside
    exact nothing a (List.mem_toFinset.mp member) (fun found => outside (List.mem_toFinset.mpr found))

/-- How often a loop takes its body. -/
theorem length_positions_le {n : Nat} (positive : 0 < step) (short : (stop - first).toNat ≤ step * n) :
    (positions first step stop).length ≤ n := by
  rw [positions,List.length_range',← Nat.lt_succ_iff,Nat.div_lt_iff_lt_mul positive,Nat.succ_mul,Nat.mul_comm n step]
  omega

/-- A sum of bounded values. -/
theorem sum_le_of_each {l : List α} {value : α → Nat} {cap count : Nat} (few : l.length ≤ count)
    (small : ∀ a ∈ l, value a ≤ cap) : (l.map value).sum ≤ count * cap := by
  have bounded := List.sum_le_card_nsmul (l.map value) cap (by simpa using small)
  rw [List.length_map,nsmul_eq_mul,Nat.cast_id] at bounded
  exact le_trans bounded (Nat.mul_le_mul_right cap few)

theorem toNat_sum {l : List UInt64} (room : (l.map UInt64.toNat).sum < UInt64.size) :
    l.sum.toNat = (l.map UInt64.toNat).sum := by
  induction l with
  | nil => rfl
  | cons a l ih =>
    rw [List.map_cons,List.sum_cons] at room ⊢
    rw [List.sum_cons,UInt64.toNat_add,ih (by omega)]
    exact Nat.mod_eq_of_lt room

end AutoUpscale.Sweeps
