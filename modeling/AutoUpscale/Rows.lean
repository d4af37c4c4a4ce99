import Mathlib.Data.Set.BooleanAlgebra
import Mathlib.Data.Set.Function
import Mathlib.Order.CompletePartialOrder
import Mathlib.Logic.Function.Basic
import Mathlib.Tactic.Common

/-!
Rows of cells in a memory of separate objects. A pointer is an object and an
offset into it, so cells of different objects never meet. A row is a stretch of
consecutive cells; a plane is a family of rows a stride apart, and its rows do
not meet where the stride is at least the width (`rows_apart`), nor do two areas of it
without a common row or column (`areas_apart`). A loop over the
columns of a row writes nothing outside it (`fill_frame`) and computes each cell
from the memory before the loop, if what a column reads is not written by an
earlier one (`fill_value`).
-/
namespace AutoUpscale.Rows
universe u v
variable {κ : Type u} {β : Type v}

/-- An offset into an object. -/
structure Pointer (κ : Type u) where
  block : κ
  offset : Nat
  deriving DecidableEq

/-- Pointer arithmetic stays within the object. -/
def Pointer.plus (p : Pointer κ) (n : Nat) : Pointer κ := ⟨p.block,p.offset + n⟩

@[simp] theorem plus_block (p : Pointer κ) (n : Nat) : (p.plus n).block = p.block := rfl

@[simp] theorem plus_offset (p : Pointer κ) (n : Nat) : (p.plus n).offset = p.offset + n := rfl

@[simp] theorem plus_zero (p : Pointer κ) : p.plus 0 = p := rfl

@[simp] theorem plus_plus (p : Pointer κ) (n m : Nat) : (p.plus n).plus m = p.plus (n + m) := by
  simp [Pointer.plus,Nat.add_assoc]

theorem plus_inj {p : Pointer κ} {n m : Nat} : p.plus n = p.plus m ↔ n = m := by
  simp [Pointer.plus]

/-- What each cell holds. -/
abbrev Memory (κ : Type u) (β : Type v) := Pointer κ → β

/-- The `width` cells from `p` on. -/
def Row (p : Pointer κ) (width : Nat) : Set (Pointer κ) :=
  {a | a.block = p.block ∧ p.offset ≤ a.offset ∧ a.offset < p.offset + width}

theorem mem_row {p : Pointer κ} {width x : Nat} (inside : x < width) : p.plus x ∈ Row p width :=
  ⟨rfl,Nat.le_add_right _ _,Nat.add_lt_add_left inside _⟩

theorem row_head {p : Pointer κ} {width : Nat} (positive : 0 < width) : p ∈ Row p width :=
  ⟨rfl,le_refl _,Nat.lt_add_of_pos_right positive⟩

theorem mem_row_iff {p a : Pointer κ} {width : Nat} : a ∈ Row p width ↔ ∃ x, x < width ∧ a = p.plus x := by
  constructor
  · rintro ⟨block,low,high⟩
    refine ⟨a.offset - p.offset,by omega,?_⟩
    cases a with
    | mk b o =>
      simp only [Pointer.plus,Pointer.mk.injEq]
      exact ⟨block,(Nat.add_sub_of_le low).symm⟩
  · rintro ⟨x,inside,rfl⟩
    exact mem_row inside

theorem row_subset {p : Pointer κ} {x y n m : Nat} (low : x ≤ y) (high : y + n ≤ x + m) :
    Row (p.plus y) n ⊆ Row (p.plus x) m := by
  rintro a ⟨block,above,below⟩
  simp only [plus_offset] at above below
  exact ⟨block,by simp only [plus_offset]; omega,by simp only [plus_offset]; omega⟩

/-- A stretch of a row. -/
theorem row_inner {p : Pointer κ} {y n m : Nat} (high : y + n ≤ m) : Row (p.plus y) n ⊆ Row p m :=
  row_subset (Nat.zero_le y) (by omega)

/-- Rows of one object do not meet when one ends before the other starts. -/
theorem row_apart {p q : Pointer κ} {n m : Nat} (before : p.offset + n ≤ q.offset ∨ q.offset + m ≤ p.offset) :
    Disjoint (Row p n) (Row q m) := by
  refine Set.disjoint_left.mpr ?_
  rintro a ⟨_,low,high⟩ ⟨_,low',high'⟩
  omega

theorem block_apart {p q : Pointer κ} {n m : Nat} (different : p.block ≠ q.block) : Disjoint (Row p n) (Row q m) := by
  refine Set.disjoint_left.mpr ?_
  rintro a ⟨left,_⟩ ⟨right,_⟩
  exact different (left.symm.trans right)

/-! ## Planes -/

/-- Row `y` of a plane. -/
def rowAt (base : Pointer κ) (stride y : Nat) : Pointer κ := base.plus (y * stride)

@[simp] theorem rowAt_block (base : Pointer κ) (stride y : Nat) : (rowAt base stride y).block = base.block := rfl

/-- The pixels of rows `low` to `high`, without the cells between a row and the next. -/
def Band (base : Pointer κ) (stride width low high : Nat) : Set (Pointer κ) :=
  {a | ∃ y, low ≤ y ∧ y < high ∧ a ∈ Row (rowAt base stride y) width}

theorem row_band {base : Pointer κ} {stride width low high y : Nat} (above : low ≤ y) (below : y < high) :
    Row (rowAt base stride y) width ⊆ Band base stride width low high :=
  fun _ member => ⟨y,above,below,member⟩

theorem band_mono {base : Pointer κ} {stride width low high low' high' : Nat} (above : low' ≤ low)
    (below : high ≤ high') : Band base stride width low high ⊆ Band base stride width low' high' := by
  rintro a ⟨y,hl,hh,member⟩
  exact ⟨y,le_trans above hl,lt_of_lt_of_le hh below,member⟩

/-- Different rows of a plane do not meet. -/
theorem rows_apart {base : Pointer κ} {stride width y z : Nat} (room : width ≤ stride) (different : y ≠ z) :
    Disjoint (Row (rowAt base stride y) width) (Row (rowAt base stride z) width) := by
  refine row_apart ?_
  simp only [rowAt,plus_offset]
  rcases Nat.lt_or_gt_of_ne different with less | more
  · have next : (y + 1) * stride ≤ z * stride := Nat.mul_le_mul_right stride less
    rw [Nat.succ_mul] at next
    omega
  · have next : (z + 1) * stride ≤ y * stride := Nat.mul_le_mul_right stride more
    rw [Nat.succ_mul] at next
    omega

/-- A row outside a band of its plane does not meet the band. -/
theorem row_band_apart {base : Pointer κ} {stride width low high y : Nat} (room : width ≤ stride)
    (outside : y < low ∨ high ≤ y) : Disjoint (Row (rowAt base stride y) width) (Band base stride width low high) := by
  refine Set.disjoint_left.mpr ?_
  rintro a member ⟨z,above,below,member'⟩
  exact Set.disjoint_left.mp (rows_apart room (by omega)) member member'

/-- Bands of one plane do not meet when one ends before the other starts. -/
theorem bands_apart {base : Pointer κ} {stride width low high low' high' : Nat} (room : width ≤ stride)
    (before : high ≤ low' ∨ high' ≤ low) :
    Disjoint (Band base stride width low high) (Band base stride width low' high') := by
  refine Set.disjoint_left.mpr ?_
  rintro a ⟨y,above,below,member⟩ other
  exact Set.disjoint_left.mp (row_band_apart room (by omega)) member other

/-- Where the stride is the width, the rows of a plane follow one another. -/
theorem rowAt_flat {width height x y : Nat} (inside : x < width) (below : y < height) :
    (∀ base : Pointer κ, (rowAt base width y).plus x = base.plus (y * width + x)) ∧ y * width + x < height * width := by
  refine ⟨fun base => plus_plus base _ _,?_⟩
  calc y * width + x < y * width + width := by omega
    _ = (y + 1) * width := by rw [Nat.succ_mul]
    _ ≤ height * width := Nat.mul_le_mul_right width below

/-- Such a plane is a single row. -/
theorem row_flat {base : Pointer κ} {width height : Nat} : Row base (height * width) = Band base width width 0 height := by
  ext a
  rw [mem_row_iff]
  constructor
  · rintro ⟨k,below,rfl⟩
    have wide : 0 < width := by
      by_contra none
      rw [Nat.eq_zero_of_not_pos none,Nat.mul_zero] at below
      omega
    refine ⟨k / width,Nat.zero_le _,(Nat.div_lt_iff_lt_mul wide).mpr below,mem_row_iff.mpr ⟨k % width,Nat.mod_lt k wide,?_⟩⟩
    rw [rowAt,plus_plus,Nat.mul_comm,Nat.div_add_mod]
  · rintro ⟨y,_,below,member⟩
    obtain ⟨x,inside,rfl⟩ := mem_row_iff.mp member
    obtain ⟨flat,small⟩ := rowAt_flat inside below
    exact ⟨y * width + x,small,flat base⟩

theorem bands_block_apart {base other : Pointer κ} {stride stride' width width' low high low' high' : Nat}
    (different : base.block ≠ other.block) : Disjoint (Band base stride width low high) (Band other stride' width' low' high') := by
  refine Set.disjoint_left.mpr ?_
  rintro a ⟨y,_,_,left,_⟩ ⟨z,_,_,right,_⟩
  exact different (left.symm.trans right)

/-! ## Areas -/

/-- The pixels of a plane in the columns `left` to `right` of the rows `low` to `high`. -/
def Area (base : Pointer κ) (stride left right low high : Nat) : Set (Pointer κ) :=
  {a | ∃ y x, low ≤ y ∧ y < high ∧ left ≤ x ∧ x < right ∧ a = (rowAt base stride y).plus x}

section Area
variable {base : Pointer κ} {stride left right low high left' right' low' high' : Nat}

theorem mem_area {y x : Nat} (above : low ≤ y) (below : y < high) (after : left ≤ x) (before : x < right) :
    (rowAt base stride y).plus x ∈ Area base stride left right low high := ⟨y,x,above,below,after,before,rfl⟩

theorem area_block {a : Pointer κ} (member : a ∈ Area base stride left right low high) : a.block = base.block := by
  obtain ⟨y,x,_,_,_,_,rfl⟩ := member
  rfl

theorem area_mono (l : left' ≤ left) (r : right ≤ right') (b : low' ≤ low) (t : high ≤ high') :
    Area base stride left right low high ⊆ Area base stride left' right' low' high' := by
  rintro a ⟨y,x,above,below,after,before,same⟩
  exact ⟨y,x,by omega,by omega,by omega,by omega,same⟩

theorem rowAt_plus (base : Pointer κ) (stride y0 x0 y : Nat) :
    rowAt (base.plus (y0 * stride + x0)) stride y = (rowAt base stride (y0 + y)).plus x0 := by
  simp only [rowAt,plus_plus,Nat.add_mul]
  congr 1
  omega

/-- An area from a later row of its plane on. -/
theorem area_shift (base : Pointer κ) (stride left right row height : Nat) :
    Area (base.plus (row * stride)) stride left right 0 height = Area base stride left right row (row + height) := by
  have shifted : ∀ y, rowAt (base.plus (row * stride)) stride y = rowAt base stride (row + y) := by
    intro y
    simpa using rowAt_plus base stride row 0 y
  ext a
  constructor
  · rintro ⟨y,x,_,below,after,before,rfl⟩
    rw [shifted]
    exact mem_area (by omega) (by omega) after before
  · rintro ⟨y,x,above,below,after,before,rfl⟩
    refine ⟨y - row,x,Nat.zero_le _,by omega,after,before,?_⟩
    rw [shifted,Nat.add_sub_of_le above]

/-- An area is a band of its own from its first pixel on. -/
theorem band_area (base : Pointer κ) (stride x0 y0 width height : Nat) :
    Band (base.plus (y0 * stride + x0)) stride width 0 height = Area base stride x0 (x0 + width) y0 (y0 + height) := by
  ext a
  constructor
  · rintro ⟨y,_,below,member⟩
    obtain ⟨x,inside,rfl⟩ := mem_row_iff.mp member
    rw [rowAt_plus,plus_plus]
    exact mem_area (by omega) (by omega) (by omega) (by omega)
  · rintro ⟨y,x,above,below,after,before,rfl⟩
    refine ⟨y - y0,Nat.zero_le _,by omega,mem_row_iff.mpr ⟨x - x0,by omega,?_⟩⟩
    rw [rowAt_plus,plus_plus,Nat.add_sub_of_le above,Nat.add_sub_of_le after]

/-- Areas of one plane do not meet when no row or no column is in both. -/
theorem areas_apart (room : right ≤ stride) (room' : right' ≤ stride)
    (different : high ≤ low' ∨ high' ≤ low ∨ right ≤ left' ∨ right' ≤ left) :
    Disjoint (Area base stride left right low high) (Area base stride left' right' low' high') := by
  refine Set.disjoint_left.mpr ?_
  rintro a ⟨y,x,above,below,after,before,rfl⟩ ⟨z,w,above',below',after',before',same⟩
  by_cases row : y = z
  · subst row
    have column := plus_inj.mp same
    omega
  · have apart : Disjoint (Row (rowAt base stride y) stride) (Row (rowAt base stride z) stride) := rows_apart (le_refl stride) row
    refine Set.disjoint_left.mp apart (mem_row (show x < stride by omega)) ?_
    rw [same]
    exact mem_row (by omega)

/-- An area lies in the rows of its plane. -/
theorem area_offset {a : Pointer κ} {lines : Nat} (member : a ∈ Area base stride left right low high) (room : right ≤ stride)
    (rows : high ≤ lines) : a.offset < base.offset + lines * stride := by
  obtain ⟨y,x,_,below,_,before,rfl⟩ := member
  have next : (y + 1) * stride ≤ lines * stride := Nat.mul_le_mul_right stride (le_trans below rows)
  rw [Nat.succ_mul] at next
  simp only [rowAt,plus_offset]
  omega

end Area

/-! ## Loops over the columns of a row -/

variable [DecidableEq κ]

/-- The loop `out[x] = value(x)` over `left` columns from `x` on. -/
def fill (value : Memory κ β → Nat → β) (out : Pointer κ) (m : Memory κ β) : Nat → Nat → Memory κ β
  | 0, _ => m
  | left + 1, x => fill value out (Function.update m (out.plus x) (value m x)) left (x + 1)

variable {value : Memory κ β → Nat → β} {out : Pointer κ}

theorem update_frame {m : Memory κ β} {p a : Pointer κ} {v : β} (outside : a ≠ p) : Function.update m p v a = m a :=
  Function.update_of_ne outside v m

/-- The loop writes nothing outside its columns. -/
theorem fill_frame {m : Memory κ β} {left x : Nat} {a : Pointer κ} (outside : a ∉ Row (out.plus x) left) :
    fill value out m left x a = m a := by
  induction left generalizing m x with
  | zero => rfl
  | succ left ih =>
    have later : a ∉ Row (out.plus (x + 1)) left :=
      fun member => outside (row_subset (Nat.le_succ x) (by omega) member)
    have first : a ≠ out.plus x := by
      rintro rfl
      exact outside (row_head (Nat.succ_pos left))
    rw [fill,ih later,update_frame first]

/-- What a column computes does not depend on what earlier columns write. -/
def Stable (value : Memory κ β → Nat → β) (out : Pointer κ) (m : Memory κ β) (left x : Nat) : Prop :=
  ∀ k m', x ≤ k → k < x + left → (∀ a, a ∉ Row (out.plus x) (k - x) → m' a = m a) → value m' k = value m k

/-- A loop whose columns are independent computes each from the memory before it. -/
theorem fill_value {m : Memory κ β} {left x : Nat} (stable : Stable value out m left x) {k : Nat} (low : x ≤ k)
    (high : k < x + left) : fill value out m left x (out.plus k) = value m k := by
  induction left generalizing m x with
  | zero => omega
  | succ left ih =>
    have changed : ∀ {k : Nat} {m' : Memory κ β}, x + 1 ≤ k → k < x + 1 + left →
        (∀ a, a ∉ Row (out.plus (x + 1)) (k - (x + 1)) → m' a = Function.update m (out.plus x) (value m x) a) →
        value m' k = value m k := by
      intro k m' above below agree
      refine stable k m' (by omega) (by omega) fun a outside => ?_
      have first : a ≠ out.plus x := by
        rintro rfl
        exact outside (row_head (by omega))
      have later : a ∉ Row (out.plus (x + 1)) (k - (x + 1)) :=
        fun member => outside (row_subset (Nat.le_succ x) (by omega) member)
      rw [agree a later,update_frame first]
    by_cases here : k = x
    · subst here
      have untouched : out.plus k ∉ Row (out.plus (k + 1)) left := by
        rintro ⟨_,low',_⟩
        simp only [plus_offset] at low'
        omega
      rw [fill,fill_frame untouched,Function.update_self]
    · have next : Stable value out (Function.update m (out.plus x) (value m x)) left (x + 1) := by
        intro k m' above below agree
        rw [changed above below agree,changed above below fun _ _ => rfl]
      rw [fill,ih next (by omega) (by omega)]
      exact changed (by omega) (by omega) fun _ _ => rfl

/-- `memcpy` of a row. -/
def copyRow (m : Memory κ β) (dst src : Pointer κ) (width : Nat) : Memory κ β :=
  fill (fun m x => m (src.plus x)) dst m width 0

theorem copyRow_frame {m : Memory κ β} {dst src a : Pointer κ} {width : Nat} (outside : a ∉ Row dst width) :
    copyRow m dst src width a = m a :=
  fill_frame (by simpa using outside)

theorem copyRow_value {m : Memory κ β} {dst src : Pointer κ} {width : Nat} (apart : Disjoint (Row src width) (Row dst width))
    {x : Nat} (inside : x < width) : copyRow m dst src width (dst.plus x) = m (src.plus x) := by
  have stable : Stable (fun m x => m (src.plus x)) dst m width 0 := by
    intro k m' _ below agree
    exact agree _ fun early => Set.disjoint_left.mp apart (mem_row (by omega : k < width)) (row_inner (by omega) early)
  exact fill_value stable (Nat.zero_le x) (by omega)

end AutoUpscale.Rows
