import AutoUpscale.PictureViewBounds
import AutoUpscale.ZimgPlaces

/-!
The pictures of a frame on the zimg backend. The planes that a dispatch hands to the
workers lie in the storage of the picture's planes, so pictures whose planes share no byte
are as the workers need them (`views_pictures`).
-/
namespace AutoUpscale.ZimgPictures
open AutoUpscale.Chroma (Descriptor chromaToZimg descriptor descriptors descriptor_mem layoutIsPlanar physicalPlaneIndex)
open AutoUpscale.PictureView
open AutoUpscale.Rows
open AutoUpscale.ZimgCells (Geometry Plane planeShift planeShift_le)
open AutoUpscale.ZimgHelpers (IoPlan chromaDim)
open AutoUpscale.ZimgPlaces (Pictures sourcePlane sourceSize targetPlane targetSize shift_nonneg)
open AutoUpscale.ZimgProcess (Priv ScalerCtx WorkerView dstRegion frameViewsInit frameViewsInit_some pointWorkersPlanes srcRegion)
open AutoUpscale.ZimgWorker (Block pictureView planeSize)

/-- The bytes of a plane of a picture. -/
def storage (plane : PlaneT) : Set (Pointer Block) := Row ⟨.pictures,plane.pixels⟩ (plane.lines.toNat * plane.pitch.toNat)

/-- No byte of the destination is in two planes or in the source too. -/
structure Separate (src dst : Picture) : Prop where
  apart : ∀ i < 3, ∀ j < 3, Disjoint (storage (src.p i)) (storage (dst.p j))
  separate : ∀ i < 3, ∀ j < 3, i ≠ j → Disjoint (storage (dst.p i)) (storage (dst.p j))

/-- Where a plane is in a picture whose chroma planes may be swapped. -/
def physical (swapped : Bool) : Plane → Nat
  | .y => 0
  | .u => physicalPlaneIndex 1 swapped
  | .v => physicalPlaneIndex 2 swapped

theorem physical_lt (swapped : Bool) (p : Plane) : physical swapped p < 3 := by
  cases swapped <;> cases p <;> decide

theorem physical_inj (swapped : Bool) {p q : Plane} (same : physical swapped p = physical swapped q) : p = q := by
  revert same
  cases swapped <;> cases p <;> cases q <;> decide

/-- The planes of a planar format have a byte for each sample. -/
theorem planar_planes : ∀ desc ∈ descriptors, layoutIsPlanar desc.layout = true → desc.planeCount = 3 ∧
    ∀ swapped, ∀ p ∈ PlaneBuffer.planes, desc.xGroupBytes.getD (physical swapped p) 0 = 1 ∧
      desc.xGroupPixels.getD (physical swapped p) 0 = 2 ^ planeShift desc.subW p ∧
      desc.yGroupPixels.getD (physical swapped p) 0 = 2 ^ planeShift desc.subH p := by decide

theorem chromaToZimg_planar {chroma subW subH : Nat} {swap : Bool} {layout : Descriptor}
    (supported : chromaToZimg chroma = some (subW,subH,swap)) (found : descriptor chroma = some layout) :
    layoutIsPlanar layout.layout = true ∧ layout.subW = subW ∧ layout.subH = subH ∧ layout.uvPlanesSwapped = swap := by
  simp only [chromaToZimg,found] at supported
  split at supported
  · next planar =>
    cases supported
    exact ⟨planar,rfl,rfl,rfl⟩
  · cases supported

/-- The samples of a length that the subsampling divides. -/
theorem groups_shift {v : Int} {s : Nat} (halved : s ≤ 1) (positive : 0 ≤ v) (even : s = 1 → 2 ∣ v) :
    groups v.toNat (2 ^ s) = (v >>> s).toNat := by
  obtain rfl | rfl : s = 0 ∨ s = 1 := by omega
  · simp [groups]
  · obtain ⟨k,rfl⟩ := even rfl
    simp only [groups,Int.shiftRight_eq_div_pow]
    omega

section Plane
variable {chroma subW subH : Nat} {swap : Bool} {pic : Picture} {region : Region} {view : View}

/-- A plane of a view and the rows and columns that the picture has from it on. -/
structure PlaneIn (plane : PlaneT) (shown : PlaneView) (first row : Nat) (size : Nat × Nat) : Prop where
  pitch : shown.pitch = plane.pitch
  positive : 0 < plane.pitch
  pixels : shown.pixels = plane.pixels + row * plane.pitch.toNat + first
  columns : first + size.1 ≤ plane.pitch.toNat
  rows : row + size.2 ≤ plane.lines.toNat

/-- The samples of a view's plane lie in the plane of the picture. -/
theorem viewInit_in (supported : chromaToZimg chroma = some (subW,subH,swap)) (viewed : viewInit pic chroma region = some view)
    (evenW : subW = 1 → 2 ∣ region.width) (evenH : subH = 1 → 2 ∣ region.height) (p : Plane) :
    ∃ first row, PlaneIn (pic.p (physical swap p)) (view.plane.getD (physical swap p) ⟨0,0⟩) first row
      (planeSize region.width region.height subW subH p) ∧ (region.xOffset = 0 → first = 0) := by
  obtain ⟨layout,found,args,-,planes⟩ := viewInit_planes viewed
  obtain ⟨planar,rfl,rfl,rfl⟩ := chromaToZimg_planar supported found
  obtain ⟨three,sizes⟩ := planar_planes layout (descriptor_mem found).1 planar
  obtain ⟨bytes,xPixels,yPixels⟩ := sizes layout.uvPlanesSwapped p (PlaneBuffer.mem_planes p)
  obtain ⟨holds,shown⟩ := planes (physical layout.uvPlanesSwapped p) (by rw [three]; exact physical_lt _ p)
  obtain ⟨halvedW,halvedH⟩ := Chroma.chromaToZimg_sub supported
  obtain ⟨wide,oneW⟩ := planeShift_le halvedW p
  obtain ⟨tall,oneH⟩ := planeShift_le halvedH p
  have positive : 0 ≤ region.width ∧ 0 ≤ region.height := by
    rw [viewArgsOk] at args
    by_cases empty : region.width ≤ 0 ∨ region.height ≤ 0
    · rw [if_pos empty] at args
      cases args
    · omega
  refine ⟨_,_,⟨by rw [shown]; rfl,holds.pitchPos,by rw [shown]; rfl,?_,?_⟩,?_⟩
  · have across := holds.pitch
    have fits := groups_add region.xOffset region.width.toNat (Nat.two_pow_pos (planeShift layout.subW p))
    rw [bytes,Nat.mul_one,xPixels] at across ⊢
    rw [groups_shift wide positive.1 fun one => evenW (oneW one)] at fits
    exact le_trans fits across
  · have down := holds.lines
    have fits := groups_add region.yOffset region.height.toNat (Nat.two_pow_pos (planeShift layout.subH p))
    rw [yPixels] at down ⊢
    rw [groups_shift tall positive.2 fun one => evenH (oneH one)] at fits
    exact le_trans fits down
  · intro start
    rw [start,Nat.zero_div,Nat.zero_mul]

variable {plane : PlaneT} {shown : PlaneView} {first row : Nat} {size : Nat × Nat}

/-- As many columns as the pitch has are bytes of the plane. -/
theorem planeIn_storage (inside : PlaneIn plane shown first row size) {width : Nat} (room : first + width ≤ plane.pitch.toNat) :
    Area (⟨.pictures,shown.pixels⟩ : Pointer Block) shown.pitch.toNat 0 width 0 size.2 ⊆ storage plane := by
  rintro a ⟨y,x,-,below,-,before,rfl⟩
  obtain ⟨pitch,-,pixels,-,rows⟩ := inside
  have byte := row_byte (show row + y < plane.lines.toNat by omega) (show first + x < plane.pitch.toNat by omega)
  rw [Nat.add_mul] at byte
  refine ⟨rfl,?_,?_⟩
  · simp only [rowAt,plus_offset,pixels,pitch]
    omega
  · simp only [rowAt,plus_offset,pixels,pitch]
    omega

end Plane

variable {ctx : ScalerCtx} {subW subH : Nat} {p : Priv} {plan : IoPlan} {srcPic dstPic : Picture} {src dst : View}

/-- The geometry of a plan for the pictures of a filter. -/
def geometry (ctx : ScalerCtx) (subW subH : Nat) (plan : IoPlan) : Geometry :=
  ⟨subW,subH,ctx.srcW,ctx.srcH,ctx.dstW,ctx.dstH,plan⟩

/-- The planes that a dispatch gives the workers, of pictures that share no byte. -/
theorem views_pictures (supported : chromaToZimg ctx.chroma = some (subW,subH,p.yv12SwapUv))
    (evenW : subW = 1 → 2 ∣ ctx.srcW ∧ 2 ∣ ctx.dstW) (evenH : subH = 1 → 2 ∣ ctx.srcH ∧ 2 ∣ ctx.dstH) (viewed : frameViewsInit ctx srcPic dstPic = some (src,dst))
    (separate : Separate srcPic dstPic)
    (srcAligned : plan.srcZerocopy = true → ZimgProcess.Aligned (pointWorkersPlanes p src))
    (dstAligned : plan.dstZerocopy = true → ZimgProcess.Aligned (pointWorkersPlanes p dst)) :
    Pictures (geometry ctx subW subH plan) (pointWorkersPlanes p src) (pointWorkersPlanes p dst) := by
  obtain ⟨srcViewed,dstViewed⟩ := frameViewsInit_some viewed
  have plane : ∀ (view : View) (q : Plane), pictureView (pointWorkersPlanes p view) q =
      ⟨⟨.pictures,(view.plane.getD (physical p.yv12SwapUv q) ⟨0,0⟩).pixels⟩,
        (view.plane.getD (physical p.yv12SwapUv q) ⟨0,0⟩).pitch⟩ := by
    intro view q
    cases q <;> rfl
  have source : ∀ q, (((sourceSize (geometry ctx subW subH plan) q).1 : Nat) : Int) ≤ (pictureView (pointWorkersPlanes p src) q).pitch ∧
      sourcePlane (geometry ctx subW subH plan) (pointWorkersPlanes p src) q ⊆ storage (srcPic.p (physical p.yv12SwapUv q)) := by
    intro q
    obtain ⟨first,row,inside,-⟩ := viewInit_in supported srcViewed (fun one => (evenW one).1) (fun one => (evenH one).1) q
    have columns : first + (sourceSize (geometry ctx subW subH plan) q).1 ≤ _ := inside.columns
    have some := inside.positive
    rw [sourcePlane,plane]
    refine ⟨?_,planeIn_storage inside columns⟩
    rw [inside.pitch]
    dsimp only
    omega
  have target : ∀ q, (((targetSize (geometry ctx subW subH plan) q).1 : Nat) : Int) ≤ (pictureView (pointWorkersPlanes p dst) q).pitch ∧
      targetPlane (geometry ctx subW subH plan) (pointWorkersPlanes p dst) q ⊆ storage (dstPic.p (physical p.yv12SwapUv q)) := by
    intro q
    obtain ⟨first,row,inside,start⟩ := viewInit_in supported dstViewed (fun one => (evenW one).2) (fun one => (evenH one).2) q
    have columns : first + (targetSize (geometry ctx subW subH plan) q).1 ≤ _ := inside.columns
    have some := inside.positive
    have leftmost : first = 0 := start rfl
    rw [targetPlane,plane]
    refine ⟨?_,planeIn_storage inside ?_⟩
    · rw [inside.pitch]
      dsimp only
      omega
    · rw [inside.pitch,leftmost,Nat.zero_add]
  have differ : ∀ {q r}, q ≠ r → physical p.yv12SwapUv q ≠ physical p.yv12SwapUv r :=
    fun different same => different (physical_inj _ same)
  refine ⟨fun q => (source q).1,fun q => (target q).1,srcAligned,dstAligned,fun q r => ?_,fun q r different => ?_⟩
  · exact Set.disjoint_of_subset (source q).2 (target r).2 (separate.apart _ (physical_lt _ q) _ (physical_lt _ r))
  · exact Set.disjoint_of_subset (target q).2 (target r).2
      (separate.separate _ (physical_lt _ q) _ (physical_lt _ r) (differ different))

end AutoUpscale.ZimgPictures
