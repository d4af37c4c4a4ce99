import AutoUpscale.Chroma
import AutoUpscale.Signed

/-!
The view that the filter takes of a region of a picture: `picture_view.h`. An
address is a number, NULL is 0; a size never comes near its limit because every
length is at most an `int`.
-/
namespace AutoUpscale.PictureView
open AutoUpscale.Signed (Fits)
open AutoUpscale.Chroma (Descriptor descriptor descriptors descriptors_ok)

def intMax : Int := 2147483647

def sizeMax : Nat := 18446744073709551615

/-- The conversion of an `int` to `size_t`. -/
def toSize (x : Int) : Nat := (x % 18446744073709551616).toNat

/-- What the view reads of `plane_t`. -/
structure PlaneT where
  pixels : Nat
  pitch : Int
  lines : Int
  pixelPitch : Int

/-- What the view reads of `picture_t`. -/
structure Picture where
  chroma : Nat
  width : Nat
  height : Nat
  visibleWidth : Nat
  visibleHeight : Nat
  planes : Int
  p : Nat → PlaneT

/-- `up_picture_plane_view_t`. -/
structure PlaneView where
  pixels : Nat
  pitch : Int
  deriving DecidableEq, Repr

/-- `up_picture_view_t`, with the planes up to its `plane_count`. -/
structure View where
  plane : List PlaneView
  deriving DecidableEq, Repr

/-- `up_picture_region_t`. -/
structure Region where
  codedWidth : Nat
  codedHeight : Nat
  xOffset : Nat
  yOffset : Nat
  width : Int
  height : Int

/-- The values of a region within their types. -/
structure Typed (region : Region) : Prop where
  width : Fits .int region.width
  height : Fits .int region.height
  xOffset : Fits .uint region.xOffset
  yOffset : Fits .uint region.yOffset

/-- `up_picture_plane_geom_t`; the offsets and the lengths have been checked to
    be no less than 0. -/
structure PlaneGeom where
  xOffset : Nat
  yOffset : Nat
  width : Nat
  height : Nat
  xGroupPixels : Nat
  xGroupBytes : Nat
  yGroupPixels : Nat
  pixelPitch : Nat

/-- `up_picture_plane_extent_t`. -/
structure PlaneExtent where
  x : Nat
  y : Nat
  width : Nat
  height : Nat
  xBytes : Nat
  rowBytes : Nat

/-- `up_picture_plane_extent`. -/
def planeExtent (g : PlaneGeom) : PlaneExtent :=
  if g.xGroupPixels = 0 ∨ g.xGroupBytes = 0 ∨ g.yGroupPixels = 0 ∨ g.pixelPitch = 0 ∨ g.xGroupBytes % g.pixelPitch ≠ 0
  then ⟨0,0,0,0,0,0⟩
  else
    let xEnd := g.xOffset + g.width
    let yEnd := g.yOffset + g.height
    let x := g.xOffset / g.xGroupPixels
    let y := g.yOffset / g.yGroupPixels
    let xGroups := (xEnd + g.xGroupPixels - 1) / g.xGroupPixels - x
    { x := x, y := y, width := xGroups * g.xGroupBytes / g.pixelPitch,
      height := (yEnd + g.yGroupPixels - 1) / g.yGroupPixels - y,
      xBytes := x * g.xGroupBytes, rowBytes := xGroups * g.xGroupBytes }

/-- `up_picture_plane_storage_ok`. -/
def planeStorageOk (plane : PlaneT) (pixelPitch : Int) : Bool :=
  if plane.pixels = 0 ∨ plane.pitch ≤ 0 ∨ plane.lines ≤ 0 then false else plane.pixelPitch = pixelPitch

/-- `up_picture_plane_extent_ok`. -/
def planeExtentOk (plane : PlaneT) (extent : PlaneExtent) : Bool :=
  if (extent.xBytes : Int) > plane.pitch then false
  else if (extent.rowBytes : Int) > plane.pitch - extent.xBytes then false
  else if (extent.y : Int) > plane.lines then false
  else if (extent.height : Int) > plane.lines - extent.y then false
  else decide (extent.width ≤ intMax) && decide (extent.height ≤ intMax) && decide (extent.rowBytes ≤ intMax)

/-- `up_picture_plane_view_init`. -/
def planeViewInit (plane : PlaneT) (g : PlaneGeom) : Option PlaneView :=
  if planeStorageOk plane g.pixelPitch = false then none
  else
    let extent := planeExtent g
    if planeExtentOk plane extent = false then none
    else
      let rowOffset := extent.y * plane.pitch.toNat
      if rowOffset > sizeMax - extent.xBytes then none
      else some ⟨plane.pixels + rowOffset + extent.xBytes,plane.pitch⟩

/-- `up_picture_declared_crop_ok`. -/
def declaredCropOk (pic : Picture) (region : Region) : Bool :=
  let xEnd := (region.xOffset + toSize region.width) % (sizeMax + 1)
  let yEnd := (region.yOffset + toSize region.height) % (sizeMax + 1)
  if xEnd > region.codedWidth ∨ yEnd > region.codedHeight then false
  else if pic.width < region.codedWidth ∨ pic.height < region.codedHeight then false
  else if pic.visibleWidth ≠ 0 ∧ toSize region.width > pic.visibleWidth then false
  else pic.visibleHeight = 0 || decide (toSize region.height ≤ pic.visibleHeight)

/-- `up_picture_view_args_ok` of a picture that is not NULL. -/
def viewArgsOk (pic : Picture) (chroma : Nat) (region : Region) : Bool :=
  if region.width ≤ 0 ∨ region.height ≤ 0 then false
  else if pic.chroma ≠ chroma then false
  else if region.xOffset > intMax ∨ region.yOffset > intMax then false
  else declaredCropOk pic region

/-- `up_picture_view_layout`. -/
def viewLayout (pic : Picture) (chroma : Nat) : Option Descriptor :=
  match descriptor chroma with
  | none => none
  | some layout => if pic.planes < layout.planeCount then none else some layout

/-- The geometry of plane `i` that `up_picture_view_init` asks for. -/
def planeGeom (layout : Descriptor) (region : Region) (i : Nat) : PlaneGeom :=
  { xOffset := region.xOffset, yOffset := region.yOffset, width := region.width.toNat, height := region.height.toNat,
    xGroupPixels := layout.xGroupPixels.getD i 0, xGroupBytes := layout.xGroupBytes.getD i 0,
    yGroupPixels := layout.yGroupPixels.getD i 0, pixelPitch := layout.pixelPitch.getD i 0 }

/-- `up_picture_view_init`: a view of every plane, or nothing. -/
def viewInit (pic : Picture) (chroma : Nat) (region : Region) : Option View :=
  if viewArgsOk pic chroma region = false then none
  else match viewLayout pic chroma with
    | none => none
    | some layout =>
      ((List.range layout.planeCount).mapM fun i => planeViewInit (pic.p i) (planeGeom layout region i)).map View.mk

theorem toSize_eq {x : Int} (nonneg : 0 ≤ x) (short : x ≤ intMax) : toSize x = x.toNat := by
  simp only [intMax] at short
  simp only [toSize]
  omega

/-- What is declared of a region whose lengths are not negative; no sum wraps. -/
theorem declaredCropOk_iff {pic : Picture} {region : Region} (width : 0 ≤ region.width ∧ region.width ≤ intMax)
    (height : 0 ≤ region.height ∧ region.height ≤ intMax) (xFits : region.xOffset + region.width.toNat ≤ sizeMax)
    (yFits : region.yOffset + region.height.toNat ≤ sizeMax) :
    declaredCropOk pic region = true ↔
      (region.xOffset + region.width.toNat ≤ region.codedWidth ∧ region.yOffset + region.height.toNat ≤ region.codedHeight) ∧
      (region.codedWidth ≤ pic.width ∧ region.codedHeight ≤ pic.height) ∧
      (pic.visibleWidth = 0 ∨ region.width.toNat ≤ pic.visibleWidth) ∧
      (pic.visibleHeight = 0 ∨ region.height.toNat ≤ pic.visibleHeight) := by
  have xEnd : (region.xOffset + region.width.toNat) % (sizeMax + 1) = region.xOffset + region.width.toNat :=
    Nat.mod_eq_of_lt (Nat.lt_succ_of_le xFits)
  have yEnd : (region.yOffset + region.height.toNat) % (sizeMax + 1) = region.yOffset + region.height.toNat :=
    Nat.mod_eq_of_lt (Nat.lt_succ_of_le yFits)
  simp only [declaredCropOk,toSize_eq width.1 width.2,toSize_eq height.1 height.2,xEnd,yEnd]
  by_cases coded : region.xOffset + region.width.toNat > region.codedWidth ∨
      region.yOffset + region.height.toNat > region.codedHeight
  · rw [if_pos coded]
    simp only [Bool.false_eq_true,false_iff]
    omega
  rw [if_neg coded]
  by_cases format : pic.width < region.codedWidth ∨ pic.height < region.codedHeight
  · rw [if_pos format]
    simp only [Bool.false_eq_true,false_iff]
    omega
  rw [if_neg format]
  by_cases visible : pic.visibleWidth ≠ 0 ∧ region.width.toNat > pic.visibleWidth
  · rw [if_pos visible]
    simp only [Bool.false_eq_true,false_iff]
    omega
  rw [if_neg visible,Bool.or_eq_true,decide_eq_true_eq,decide_eq_true_eq]
  omega

/-- The extent of a plane of a known layout. -/
theorem planeExtent_eq {layout : Descriptor} (member : layout ∈ descriptors) (region : Region) {i : Nat}
    (inside : i < layout.planeCount) : ∃ groups,
      groups = (region.xOffset + region.width.toNat + layout.xGroupPixels.getD i 0 - 1) / layout.xGroupPixels.getD i 0 -
        region.xOffset / layout.xGroupPixels.getD i 0 ∧
      planeExtent (planeGeom layout region i) =
        { x := region.xOffset / layout.xGroupPixels.getD i 0, y := region.yOffset / layout.yGroupPixels.getD i 0,
          width := groups * layout.xGroupBytes.getD i 0 / layout.pixelPitch.getD i 0,
          height := (region.yOffset + region.height.toNat + layout.yGroupPixels.getD i 0 - 1) / layout.yGroupPixels.getD i 0 -
            region.yOffset / layout.yGroupPixels.getD i 0,
          xBytes := region.xOffset / layout.xGroupPixels.getD i 0 * layout.xGroupBytes.getD i 0,
          rowBytes := groups * layout.xGroupBytes.getD i 0 } := by
  obtain ⟨xPixels,xBytes,yPixels,pixelPitch,samples⟩ := descriptors_ok member inside
  refine ⟨_,rfl,if_neg ?_⟩
  show ¬(layout.xGroupPixels.getD i 0 = 0 ∨ layout.xGroupBytes.getD i 0 = 0 ∨ layout.yGroupPixels.getD i 0 = 0 ∨
    layout.pixelPitch.getD i 0 = 0 ∨ layout.xGroupBytes.getD i 0 % layout.pixelPitch.getD i 0 ≠ 0)
  omega

end AutoUpscale.PictureView
