import AutoUpscale.PictureView
import AutoUpscale.ZimgHelpers

/-!
The alignment of a source window to even numbers on every axis that the chroma
planes halve: `up_chroma_align_axis_even` and `up_chroma_align_crop_even` of
`chroma_classify.h`. The aligned window stays within what the picture declares, and
its chroma planes start and end where its luma plane does (`crop_alignment`).
-/
namespace AutoUpscale.CropAlign
open AutoUpscale.Chroma
open AutoUpscale.PictureView
open AutoUpscale.PlaneUtils (alignDown2)
open AutoUpscale.Signed (Fits fits_int fits_uint checked checked_int checked_uint checked_uint64)
open AutoUpscale.ZimgHelpers (chromaDim)

def uintMax : Int := 4294967295

/-- `up_chroma_align_axis_even`; NULL is `none`. Without a result an integer has
    overflowed. -/
def alignAxisEven (dim off : Option Int) : Option (Option Int × Option Int) :=
  match dim,off with
  | some dim,some start =>
    if dim ≤ 0 then some (some 0,some start)
    else do
      let stop ← checked .uint64 (start + dim)
      let next ← checked .uint64 (start + 1)
      let alignedStart := alignDown2 next
      let alignedEnd := alignDown2 stop
      if alignedStart > uintMax then return (some 0,some start)
      let off ← checked .uint alignedStart
      let dim ← (if alignedEnd > alignedStart then checked .int (alignedEnd - alignedStart) else some 0)
      return (some dim,some off)
  | dim,off => some (dim.map alignDown2,off.map alignDown2)

/-- `up_chroma_align_crop_even`: the width, the height and the two offsets. -/
def alignCropEven (c : Nat) (w h x y : Option Int) : Option (Option Int × Option Int × Option Int × Option Int) :=
  match chromaSubsample c with
  | none => some (w,h,x,y)
  | some (subW,subH) => do
    let (w,x) ← (if subW ≠ 0 then alignAxisEven w x else some (w,x))
    let (h,y) ← (if subH ≠ 0 then alignAxisEven h y else some (h,y))
    return (w,h,x,y)

/-! ## One axis -/

/-- The intervals with even ends inside the interval of `dim` from `off`, each as its
    start and its length. -/
def EvenInside (dim off : Int) (part : Int × Int) : Prop :=
  2 ∣ part.1 ∧ 2 ∣ part.2 ∧ 0 < part.2 ∧ off ≤ part.1 ∧ part.1 + part.2 ≤ off + dim

/-- `d` from `o` is what is left of `dim` from `off`: the whole even part, if its start
    can be represented. -/
structure Aligned (dim off d o : Int) : Prop where
  length : Fits .int d
  start : Fits .uint o
  nonneg : 0 ≤ d
  left : off ≤ o
  right : o + d ≤ off + max dim 0
  even : 0 < d → EvenInside dim off (o,d)
  largest : ∀ part, EvenInside dim off part → part.1 ≤ uintMax → o ≤ part.1 ∧ part.1 + part.2 ≤ o + d
  whole : 0 < d → ∀ part, EvenInside dim off part → o ≤ part.1 ∧ part.1 + part.2 ≤ o + d

variable {dim off : Int}

/-- The greatest even number up to a number. -/
theorem alignDown2_greatest (x : Int) : 2 ∣ alignDown2 x ∧ alignDown2 x ≤ x ∧ x ≤ alignDown2 x + 1 := by
  simp only [alignDown2]
  omega

/-- The start is rounded up and the end is rounded down, without an overflow. -/
theorem alignAxisEven_eq (length : Fits .int dim) (start : Fits .uint off) (positive : 0 < dim) :
    alignAxisEven (some dim) (some off) = if alignDown2 (off + 1) > uintMax then some (some 0,some off)
      else some (some (max (alignDown2 (off + dim) - alignDown2 (off + 1)) 0),some (alignDown2 (off + 1))) := by
  obtain ⟨_,short⟩ := fits_int.mp length
  obtain ⟨low,high⟩ := fits_uint.mp start
  have stop : checked .uint64 (off + dim) = some (off + dim) := checked_uint64 (by omega) (by omega)
  have next : checked .uint64 (off + 1) = some (off + 1) := checked_uint64 (by omega) (by omega)
  have roundedUp := alignDown2_greatest (off + 1)
  have roundedDown := alignDown2_greatest (off + dim)
  simp only [alignAxisEven,if_neg (not_le.mpr positive),stop,next,Option.bind_eq_bind,Option.bind_some]
  generalize alignDown2 (off + 1) = first at *
  generalize alignDown2 (off + dim) = last at *
  by_cases far : first > uintMax
  · rw [if_pos far,if_pos far]
    rfl
  have near : first ≤ 4294967295 := not_lt.mp far
  have moved : checked .uint first = some first := checked_uint (by omega) near
  have left : (if last > first then checked .int (last - first) else some 0) = some (max (last - first) 0) := by
    by_cases more : last > first
    · rw [if_pos more,max_eq_left (by omega)]
      exact checked_int (by omega) (by omega)
    · rw [if_neg more,max_eq_right (by omega)]
  rw [if_neg far,if_neg far,moved,left]
  rfl

theorem alignAxisEven_empty (none : dim ≤ 0) (off : Int) : alignAxisEven (some dim) (some off) = some (some 0,some off) :=
  if_pos none

/-- A window that is even is left as it is. -/
theorem alignAxisEven_even (length : Fits .int dim) (start : Fits .uint off) (evenLength : 2 ∣ dim) (evenStart : 2 ∣ off)
    (nonneg : 0 ≤ dim) : alignAxisEven (some dim) (some off) = some (some dim,some off) := by
  by_cases empty : dim = 0
  · rw [empty]
    exact alignAxisEven_empty (le_refl 0) off
  have sameStart : alignDown2 (off + 1) = off := by
    simp only [alignDown2]
    omega
  have sameEnd : alignDown2 (off + dim) = off + dim := by
    simp only [alignDown2]
    omega
  have near : ¬ off > uintMax := not_lt.mpr start.2
  rw [alignAxisEven_eq length start (by omega),sameStart,sameEnd,if_neg near,max_eq_left (by omega)]
  simp

/-- An axis whose even part has no start that can be represented is emptied. -/
theorem aligned_empty (start : Fits .uint off) (far : ∀ part, EvenInside dim off part → uintMax < part.1) :
    Aligned dim off 0 off := by
  refine ⟨by decide,start,le_refl 0,le_refl off,by omega,by simp,fun part inside near => ?_,by simp⟩
  have beyond := far part inside
  omega

/-- An axis is aligned without an overflow, and aligned once for all. -/
theorem alignAxisEven_aligned (length : Fits .int dim) (start : Fits .uint off) :
    ∃ d o, alignAxisEven (some dim) (some off) = some (some d,some o) ∧ Aligned dim off d o ∧
      alignAxisEven (some d) (some o) = some (some d,some o) := by
  by_cases none : dim ≤ 0
  · refine ⟨0,off,alignAxisEven_empty none off,aligned_empty start ?_,alignAxisEven_empty (le_refl 0) off⟩
    rintro ⟨o,d⟩ ⟨_,_,some,left,right⟩
    simp only at *
    omega
  have value := alignAxisEven_eq length start (not_le.mp none)
  have roundedUp := alignDown2_greatest (off + 1)
  have roundedDown := alignDown2_greatest (off + dim)
  generalize alignDown2 (off + 1) = first at *
  generalize alignDown2 (off + dim) = last at *
  by_cases far : first > uintMax
  · rw [if_pos far] at value
    refine ⟨0,off,value,aligned_empty start ?_,alignAxisEven_empty (le_refl 0) off⟩
    rintro ⟨o,d⟩ ⟨even,_,_,left,_⟩
    simp only at *
    omega
  rw [if_neg far] at value
  obtain ⟨_,short⟩ := fits_int.mp length
  obtain ⟨low,high⟩ := fits_uint.mp start
  have near : first ≤ 4294967295 := not_lt.mp far
  have largest : ∀ part, EvenInside dim off part → first ≤ part.1 ∧ part.1 + part.2 ≤ first + max (last - first) 0 := by
    rintro ⟨o,d⟩ ⟨evenStart,evenLength,some,left,right⟩
    simp only at *
    omega
  have newLength : Fits .int (max (last - first) 0) := fits_int.mpr (by omega)
  have newStart : Fits .uint first := fits_uint.mpr (by omega)
  refine ⟨_,first,value,⟨newLength,newStart,le_max_right _ _,by omega,by omega,fun some => ?_,
    fun part inside _ => largest part inside,fun _ => largest⟩,alignAxisEven_even newLength newStart (by omega) (by omega) (by omega)⟩
  exact ⟨by simp only; omega,by simp only; omega,some,by simp only; omega,by simp only; omega⟩

/-! ## The window -/

/-- What becomes of an axis, by the exponent of its subsampling. -/
def AxisOf (sub : Nat) (dim off d o : Int) : Prop := if sub = 0 then d = dim ∧ o = off else Aligned dim off d o

theorem axisOf_inside {sub : Nat} {d o : Int} (axis : AxisOf sub dim off d o) (some : 0 < d) :
    off ≤ o ∧ o + d ≤ off + dim := by
  rw [AxisOf] at axis
  split_ifs at axis
  · omega
  · exact (axis.even some).2.2.2

theorem axisOf_even {sub : Nat} {d o : Int} (axis : AxisOf sub dim off d o) (halved : sub ≠ 0) (some : 0 < d) :
    2 ∣ o ∧ 2 ∣ d := by
  rw [AxisOf,if_neg halved] at axis
  exact ⟨(axis.even some).1,(axis.even some).2.1⟩

/-- One axis of `alignCropEven`. -/
theorem axis_aligned (sub : Nat) (length : Fits .int dim) (start : Fits .uint off) :
    ∃ d, ∃ o : Nat, (if sub ≠ 0 then alignAxisEven (some dim) (some off) else some (some dim,some off)) =
      some (some d,some (o : Int)) ∧ AxisOf sub dim off d o := by
  by_cases full : sub = 0
  · obtain ⟨o,rfl⟩ := Int.eq_ofNat_of_zero_le start.1
    exact ⟨dim,o,by simp [full],by simp [AxisOf,full]⟩
  · obtain ⟨d,o,value,aligned,_⟩ := alignAxisEven_aligned length start
    obtain ⟨o,rfl⟩ := Int.eq_ofNat_of_zero_le aligned.start.1
    exact ⟨d,o,by rw [if_pos full,value],by rwa [AxisOf,if_neg full]⟩

variable {region : Region}

/-- A window is aligned without an overflow, each axis by its exponent. -/
theorem alignCropEven_aligned (c : Nat) (typed : Typed region) : ∃ w h, ∃ x y : Nat,
    alignCropEven c (some region.width) (some region.height) (some region.xOffset) (some region.yOffset) =
      some (some w,some h,some (x : Int),some (y : Int)) ∧
    AxisOf ((chromaSubsample c).getD (0,0)).1 region.width region.xOffset w x ∧
    AxisOf ((chromaSubsample c).getD (0,0)).2 region.height region.yOffset h y := by
  cases found : chromaSubsample c with
  | none =>
    refine ⟨region.width,region.height,region.xOffset,region.yOffset,?_,by simp [AxisOf],by simp [AxisOf]⟩
    simp [alignCropEven,found]
  | some sub =>
    obtain ⟨subW,subH⟩ := sub
    obtain ⟨w,x,width,across⟩ := axis_aligned subW typed.width typed.xOffset
    obtain ⟨h,y,height,down⟩ := axis_aligned subH typed.height typed.yOffset
    refine ⟨w,h,x,y,?_,across,down⟩
    simp only [alignCropEven,found,width,height]
    rfl

/-- A window inside a declared window is declared too. -/
theorem declaredCropOk_inside {pic : Picture} {w h : Int} {x y : Nat} (typed : Typed region)
    (positive : 0 < w ∧ 0 < h) (across : (region.xOffset : Int) ≤ x ∧ x + w ≤ region.xOffset + region.width)
    (down : (region.yOffset : Int) ≤ y ∧ y + h ≤ region.yOffset + region.height)
    (declared : declaredCropOk pic region = true) :
    declaredCropOk pic { region with xOffset := x, yOffset := y, width := w, height := h } = true := by
  obtain ⟨_,width⟩ := fits_int.mp typed.width
  obtain ⟨_,height⟩ := fits_int.mp typed.height
  obtain ⟨_,xOffset⟩ := fits_uint.mp typed.xOffset
  obtain ⟨_,yOffset⟩ := fits_uint.mp typed.yOffset
  have max : intMax = 2147483647 ∧ sizeMax = 18446744073709551615 := ⟨rfl,rfl⟩
  rw [declaredCropOk_iff (by omega) (by omega) (by omega) (by omega)] at declared
  obtain ⟨coded,format,visible⟩ := declared
  rw [declaredCropOk_iff (by simp only; omega) (by simp only; omega) (by simp only; omega) (by simp only; omega)]
  exact ⟨by simp only; omega,format,by simp only; omega⟩

/-- A chroma plane whose groups start at half of the luma offset and are as many as
    half of the luma length. -/
structure CoSited (first count offset : Nat) (length : Int) : Prop where
  start : 2 * first = offset
  groups : (count : Int) = chromaDim length 1
  stop : ((2 * (first + count) : Nat) : Int) = offset + length

theorem coSited {offset : Nat} {length : Int} (evenStart : (2 : Int) ∣ offset) (evenLength : 2 ∣ length)
    (positive : 0 < length) : CoSited (offset / 2) ((offset + length.toNat + 2 - 1) / 2 - offset / 2) offset length := by
  refine ⟨by omega,?_,by omega⟩
  rw [show (1 : Int) = (1 : Nat) from rfl,ZimgHelpers.chromaDim_exact (le_refl 1) (le_of_lt positive) (fun _ => evenLength)]
  rw [Int.shiftRight_eq_div_pow]
  omega

/-- The contract of the alignment. An axis becomes its greatest even part, is not
    aligned a second time and never overflows; a window of a picture that it declares
    stays one; and on an axis that is halved the chroma planes are where the luma is. -/
theorem crop_alignment (c : Nat) (typed : Typed region) :
    (∀ dim off, Fits .int dim → Fits .uint off → ∃ d o, alignAxisEven (some dim) (some off) = some (some d,some o) ∧
      Aligned dim off d o ∧ alignAxisEven (some d) (some o) = some (some d,some o)) ∧
    ∃ w h, ∃ x y : Nat,
      alignCropEven c (some region.width) (some region.height) (some region.xOffset) (some region.yOffset) =
        some (some w,some h,some (x : Int),some (y : Int)) ∧
      (0 < w → 0 < h → ∀ pic, declaredCropOk pic region = true →
        declaredCropOk pic { region with xOffset := x, yOffset := y, width := w, height := h } = true) ∧
      ∀ layout, descriptor c = some layout → layoutHasY layout.layout = true → ∀ i, 1 ≤ i → i < layout.planeCount →
        ∀ extent, extent = planeExtent (planeGeom layout { region with xOffset := x, yOffset := y, width := w, height := h } i) →
          (layout.subW ≠ 0 → 0 < w → ∃ groups, CoSited extent.x groups x w ∧
            extent.xBytes = extent.x * layout.xGroupBytes.getD i 0 ∧ extent.rowBytes = groups * layout.xGroupBytes.getD i 0) ∧
          (layout.subH ≠ 0 → 0 < h → CoSited extent.y extent.height y h) := by
  refine ⟨fun dim off length start => alignAxisEven_aligned length start,?_⟩
  obtain ⟨w,h,x,y,value,across,down⟩ := alignCropEven_aligned c typed
  refine ⟨w,h,x,y,value,fun width height pic declared => ?_,fun layout known luma i chroma inside extent isExtent => ?_⟩
  · exact declaredCropOk_inside typed ⟨width,height⟩ (axisOf_inside across width) (axisOf_inside down height) declared
  have member := (descriptor_mem known).1
  have sub : chromaSubsample c = some (layout.subW,layout.subH) := by
    simp [chromaSubsample,known,luma]
  obtain ⟨xPixels,yPixels⟩ := chroma_groups member luma chroma inside
  obtain ⟨groups,isGroups,shape⟩ := planeExtent_eq member
    { region with xOffset := x, yOffset := y, width := w, height := h } inside
  rw [sub] at across down
  obtain ⟨subW,subH⟩ := descriptors_sub layout member
  rw [isExtent,shape]
  constructor
  · intro halved some
    obtain ⟨evenStart,evenLength⟩ := axisOf_even across halved some
    rw [xPixels,show layout.subW = 1 by omega] at isGroups ⊢
    refine ⟨groups,?_,rfl,rfl⟩
    rw [isGroups]
    exact coSited evenStart evenLength some
  · intro halved some
    obtain ⟨evenStart,evenLength⟩ := axisOf_even down halved some
    rw [yPixels,show layout.subH = 1 by omega]
    exact coSited evenStart evenLength some

/-- A window of 101 by 51 pixels from an odd corner of an I420 picture. -/
theorem crop_alignment_odd :
    CoSited (planeExtent (planeGeom (descriptors.getD 0 ⟨0,.invalid,0,0,0,false,[],[],[],[]⟩) ⟨1920,1080,4,6,100,50⟩ 1)).y 25 6 50 := by
  obtain ⟨_,w,h,x,y,value,_,planes⟩ := crop_alignment (fourcc 'I' '4' '2' '0')
    (show Typed ⟨1920,1080,3,5,101,51⟩ from ⟨by decide,by decide,by decide,by decide⟩)
  have computed : alignCropEven (fourcc 'I' '4' '2' '0') (some 101) (some 51) (some (3 : Nat)) (some (5 : Nat)) =
      some (some 100,some 50,some 4,some 6) := by decide
  obtain ⟨rfl,rfl,rfl,rfl⟩ : w = 100 ∧ h = 50 ∧ x = 4 ∧ y = 6 := by
    have same := value.symm.trans computed
    simp only [Option.some.injEq,Prod.mk.injEq] at same
    omega
  exact (planes _ rfl (by decide) 1 (by decide) (by decide) _ rfl).2 (by decide) (by decide)

end AutoUpscale.CropAlign
