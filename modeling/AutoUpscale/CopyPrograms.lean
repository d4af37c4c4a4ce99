import AutoUpscale.Programs
import AutoUpscale.Usm

/-!
The copy of a plane as a program that other threads can interleave with, a load and a
store for every byte. What it meets (`copyPlane_meets`) does not depend on what others do
elsewhere; run by itself it is the copy of `Usm` (`copyPlane_exec`).
-/
namespace AutoUpscale.CopyPrograms
open AutoUpscale.Programs AutoUpscale.Rows
universe u
variable {κ : Type u} {β : Type} [DecidableEq κ]

/-- `memcpy`. -/
def memcpy (dst src : Pointer κ) (n : Nat) : Program (Pointer κ) β Unit :=
  .each (fun x => do
    let v ← .load (src.plus x)
    .store (dst.plus x) v) (List.range n)

/-- `up_copy_plane`. -/
def copyPlane (dst : Pointer κ) (dstStride : Int) (src : Pointer κ) (srcStride rowBytes rows : Int) :
    Program (Pointer κ) β Unit :=
  if rows ≤ 0 ∨ rowBytes ≤ 0 then pure ()
  else if dstStride < rowBytes ∨ srcStride < rowBytes then pure ()
  else if dstStride = srcStride ∧ rowBytes = srcStride then memcpy dst src (rows.toNat * rowBytes.toNat)
  else
    .each (fun r => memcpy (rowAt dst dstStride.toNat r) (rowAt src srcStride.toNat r) rowBytes.toNat) (List.range rows.toNat)

variable {dst src : Pointer κ} {n : Nat} {m : Memory κ β}

/-! ## By itself -/

theorem memcpy_exec (dst src : Pointer κ) (n : Nat) (m : Memory κ β) :
    (memcpy dst src n : Program (Pointer κ) β Unit).exec m = ((),copyRow m dst src n) := by
  have loop : ∀ left x (m : Memory κ β), (Program.each (fun x => do
      let v ← Program.load (src.plus x)
      Program.store (dst.plus x) v) (List.range' x left)).exec m = ((),fill (fun m x => m (src.plus x)) dst m left x) := by
    intro left
    induction left with
    | zero => intro x m; rfl
    | succ left ih => intro x m; exact ih (x + 1) _
  rw [memcpy,copyRow,List.range_eq_range']
  exact loop n 0 m

/-- The loop over the rows, by itself. -/
theorem rows_exec (dst : Pointer κ) (dstStride : Nat) (src : Pointer κ) (srcStride width left r : Nat)
    (m : Memory κ UInt8) :
    (Program.each (fun r => memcpy (rowAt dst dstStride r) (rowAt src srcStride r) width) (List.range' r left)).exec m =
      ((),Usm.copyRows m dst dstStride src srcStride width left r) := by
  induction left generalizing r m with
  | zero => rfl
  | succ left ih =>
    rw [List.range'_succ,Program.each,Program.exec_bind,memcpy_exec]
    exact ih (r + 1) _

/-- By itself the program is the copy of planes whose sizes are natural numbers. -/
theorem copyPlane_exec (dst : Pointer κ) (dstStride : Nat) (src : Pointer κ) (srcStride width rows : Nat)
    (m : Memory κ UInt8) :
    (copyPlane dst dstStride src srcStride width rows).exec m = ((),Usm.copyPlane m dst dstStride src srcStride width rows) := by
  rw [copyPlane,Usm.copyPlane]
  simp only [Int.toNat_natCast]
  by_cases empty : rows = 0 ∨ width = 0
  · rw [if_pos empty,if_pos (by omega)]
    rfl
  rw [if_neg empty,if_neg (by omega)]
  by_cases narrow : dstStride < width ∨ srcStride < width
  · rw [if_pos narrow,if_pos (by omega)]
    rfl
  rw [if_neg narrow,if_neg (by omega)]
  by_cases flat : dstStride = srcStride ∧ width = srcStride
  · rw [if_pos flat,if_pos (by omega)]
    exact memcpy_exec dst src _ m
  · rw [if_neg flat,if_neg (by omega),List.range_eq_range']
    exact rows_exec dst dstStride src srcStride width rows 0 m

/-! ## Among others -/

/-- A byte is loaded and stored. -/
theorem byte_meets (x : Nat) : Meets {src.plus x,dst.plus x} {dst.plus x} (fun _ m' => m' (dst.plus x) = m (src.plus x))
    (do
      let v ← Program.load (src.plus x)
      Program.store (dst.plus x) v) m := by
  have loaded : Meets {src.plus x,dst.plus x} {dst.plus x} (fun v _ => v = m (src.plus x)) (Program.load (src.plus x)) m :=
    meets_load (Set.mem_insert _ _) fun _ _ => rfl
  refine meets_bind loaded ?_
  rintro v m' rfl
  refine meets_store rfl fun m1 m2 _ after => ?_
  rw [after _ (Or.inr rfl),Function.update_self]

theorem memcpy_meets (apart : Disjoint (Row src n) (Row dst n)) :
    Meets (Row src n ∪ Row dst n) (Row dst n) (fun _ m' => ∀ x ∈ List.range n, m' (dst.plus x) = m (src.plus x))
      (memcpy dst src n) m := by
  have pair : ∀ {x y : Nat}, x < n → y < n → x ≠ y →
      Disjoint ({src.plus x,dst.plus x} : Set (Pointer κ)) {dst.plus y} := by
    intro x y left right different
    rw [Set.disjoint_singleton_right]
    rintro (same | same)
    · exact Set.disjoint_left.mp apart (mem_row left) (same ▸ mem_row right)
    · exact different (plus_inj.mp same).symm
  refine meets_each (List.Pairwise.imp_of_mem ?_ List.pairwise_lt_range) (fun x _ => byte_meets x) (fun x inside => ?_)
    fun x inside => ?_
  · intro x y left right less
    rw [List.mem_range] at left right
    exact ⟨pair left right (by omega),pair right left (by omega)⟩
  · rw [List.mem_range] at inside
    rintro a (rfl | rfl)
    · exact Or.inl (mem_row inside)
    · exact Or.inr (mem_row inside)
  · rw [List.mem_range] at inside
    rintro a rfl
    exact mem_row inside

section Plane
variable {dstStride srcStride width rows : Nat}

/-- The pixels of a plane, row by row. -/
def Pixels (m m' : Memory κ β) (dst : Pointer κ) (dstStride : Nat) (src : Pointer κ) (srcStride width rows : Nat) : Prop :=
  ∀ y x, y < rows → x < width → m' ((rowAt dst dstStride y).plus x) = m ((rowAt src srcStride y).plus x)

/-- The bands that a copy reads and writes do not meet, so it ends with the pixels of the
    source as they were at its start. -/
theorem copyPlane_meets (room : width ≤ dstStride ∧ width ≤ srcStride)
    (apart : Disjoint (Band src srcStride width 0 rows) (Band dst dstStride width 0 rows)) :
    Meets (Band src srcStride width 0 rows ∪ Band dst dstStride width 0 rows) (Band dst dstStride width 0 rows)
      (fun _ m' => Pixels m m' dst dstStride src srcStride width rows) (copyPlane dst dstStride src srcStride width rows)
      m := by
  rw [copyPlane]
  simp only [Int.toNat_natCast]
  by_cases empty : rows = 0 ∨ width = 0
  · rw [if_pos (by omega)]
    exact fun m' _ y x row column => by omega
  rw [if_neg (by omega),if_neg (by omega)]
  by_cases flat : dstStride = srcStride ∧ width = srcStride
  · obtain ⟨rfl,rfl⟩ := flat
    rw [if_pos ⟨rfl,rfl⟩]
    simp only [← row_flat] at apart ⊢
    refine meets_post (memcpy_meets apart) fun _ m' copied y x row column => ?_
    obtain ⟨flat,below⟩ := rowAt_flat column row
    rw [flat dst,flat src]
    exact copied _ (List.mem_range.mpr below)
  · rw [if_neg (by omega)]
    have rowsIn : ∀ {base : Pointer κ} {stride y : Nat}, y < rows →
        Row (rowAt base stride y) width ⊆ Band base stride width 0 rows := fun below => row_band (Nat.zero_le _) below
    have pair : ∀ {y z : Nat}, y < rows → z < rows → y ≠ z →
        Disjoint (Row (rowAt src srcStride y) width ∪ Row (rowAt dst dstStride y) width) (Row (rowAt dst dstStride z) width) := by
      intro y z left right different
      rw [Set.disjoint_union_left]
      exact ⟨Set.disjoint_of_subset (rowsIn left) (rowsIn right) apart,rows_apart room.1 different⟩
    have copied : Meets (Band src srcStride width 0 rows ∪ Band dst dstStride width 0 rows) (Band dst dstStride width 0 rows)
        (fun _ m' => ∀ y ∈ List.range rows, ∀ x ∈ List.range width,
          m' ((rowAt dst dstStride y).plus x) = m ((rowAt src srcStride y).plus x))
        (.each (fun r => memcpy (rowAt dst dstStride r) (rowAt src srcStride r) width) (List.range rows)) m := by
      refine meets_each (List.Pairwise.imp_of_mem ?_ List.pairwise_lt_range) (fun y inside => memcpy_meets ?_)
        (fun y inside => ?_) fun y inside => ?_
      · intro y z left right less
        rw [List.mem_range] at left right
        exact ⟨pair left right (by omega),pair right left (by omega)⟩
      · rw [List.mem_range] at inside
        exact Set.disjoint_of_subset (rowsIn inside) (rowsIn inside) apart
      · rw [List.mem_range] at inside
        exact Set.union_subset_union (rowsIn inside) (rowsIn inside)
      · rw [List.mem_range] at inside
        exact rowsIn inside
    exact meets_post copied fun _ m' all y x row column => all y (List.mem_range.mpr row) x (List.mem_range.mpr column)

end Plane

end AutoUpscale.CopyPrograms
