import Mathlib.Data.List.Basic

/-!
The software formats: `chroma_classify.h`, and what of them zimg accepts:
`scaler_zimg_chroma.h`.
-/
namespace AutoUpscale.Chroma

/-- `UP_CHROMA_MAX_PLANES`. -/
def chromaMaxPlanes : Nat := 4

/-- `UP_FOURCC` on a little-endian host. -/
def fourcc (a b c d : Char) : Nat := a.toNat ||| b.toNat <<< 8 ||| c.toNat <<< 16 ||| d.toNat <<< 24

inductive Layout
  | invalid
  | yuv420p
  | yuv422p
  | yuv444p
  | nv12
  | nv21
  | rgb24
  | rgba
  | bgra
  deriving DecidableEq, Repr

/-- `up_chroma_descriptor_t`; each list has an entry for every plane. -/
structure Descriptor where
  chroma : Nat
  layout : Layout
  planeCount : Nat
  subW : Nat
  subH : Nat
  uvPlanesSwapped : Bool
  xGroupPixels : List Nat
  xGroupBytes : List Nat
  yGroupPixels : List Nat
  pixelPitch : List Nat
  deriving DecidableEq, Repr

/-- `up_chroma_descriptors`. -/
def descriptors : List Descriptor := [
  ⟨fourcc 'I' '4' '2' '0',.yuv420p,3,1,1,false,[1,2,2,0],[1,1,1,0],[1,2,2,0],[1,1,1,0]⟩,
  ⟨fourcc 'Y' 'V' '1' '2',.yuv420p,3,1,1,true,[1,2,2,0],[1,1,1,0],[1,2,2,0],[1,1,1,0]⟩,
  ⟨fourcc 'I' '4' '2' '2',.yuv422p,3,1,0,false,[1,2,2,0],[1,1,1,0],[1,1,1,0],[1,1,1,0]⟩,
  ⟨fourcc 'I' '4' '4' '4',.yuv444p,3,0,0,false,[1,1,1,0],[1,1,1,0],[1,1,1,0],[1,1,1,0]⟩,
  ⟨fourcc 'N' 'V' '1' '2',.nv12,2,1,1,false,[1,2,0,0],[1,2,0,0],[1,2,0,0],[1,1,0,0]⟩,
  ⟨fourcc 'N' 'V' '2' '1',.nv21,2,1,1,false,[1,2,0,0],[1,2,0,0],[1,2,0,0],[1,1,0,0]⟩,
  ⟨fourcc 'R' 'V' '2' '4',.rgb24,1,0,0,false,[1,0,0,0],[3,0,0,0],[1,0,0,0],[3,0,0,0]⟩,
  ⟨fourcc 'R' 'G' 'B' 'A',.rgba,1,0,0,false,[1,0,0,0],[4,0,0,0],[1,0,0,0],[4,0,0,0]⟩,
  ⟨fourcc 'B' 'G' 'R' 'A',.bgra,1,0,0,false,[1,0,0,0],[4,0,0,0],[1,0,0,0],[4,0,0,0]⟩]

/-- `up_chroma_descriptor`. -/
def descriptor (c : Nat) : Option Descriptor := descriptors.find? (fun d => d.chroma = c)

/-- `up_opaque_chromas`. -/
def opaqueChromas : List Nat := [
  fourcc 'V' 'A' 'O' 'P',fourcc 'V' 'A' 'O' '0',
  fourcc 'V' 'D' 'V' '0',fourcc 'V' 'D' 'V' '2',fourcc 'V' 'D' 'V' '4',fourcc 'V' 'D' 'O' 'R',
  fourcc 'D' 'X' 'A' '9',fourcc 'D' 'X' 'A' '0',fourcc 'D' 'X' '1' '1',fourcc 'D' 'X' '1' '0',
  fourcc 'M' 'M' 'A' 'L',
  fourcc 'C' 'V' 'P' 'N',fourcc 'C' 'V' 'P' 'Y',fourcc 'C' 'V' 'P' 'I',fourcc 'C' 'V' 'P' 'B',fourcc 'C' 'V' 'P' 'P']

/-- `up_chroma_is_opaque`. -/
def chromaIsOpaque (c : Nat) : Bool := opaqueChromas.any fun opaqueChroma => decide (c = opaqueChroma)

/-- `up_chroma_physical_plane_index`. -/
def physicalPlaneIndex (semanticPlane : Nat) (uvPlanesSwapped : Bool) : Nat :=
  if !uvPlanesSwapped then semanticPlane
  else if semanticPlane = 1 then 2
  else if semanticPlane = 2 then 1
  else semanticPlane

/-- `up_chroma_layout_has_y`. -/
def layoutHasY : Layout → Bool
  | .yuv420p | .yuv422p | .yuv444p | .nv12 | .nv21 => true
  | _ => false

/-- `up_chroma_has_y_plane`. -/
def chromaHasYPlane (c : Nat) : Bool :=
  match descriptor c with
  | none => false
  | some desc => layoutHasY desc.layout

/-- `up_chroma_subsample` with a place for both exponents. -/
def chromaSubsample (c : Nat) : Option (Nat × Nat) :=
  match descriptor c with
  | none => none
  | some desc => if layoutHasY desc.layout = false then none else some (desc.subW,desc.subH)

/-- `up_chroma_layout_is_planar`. -/
def layoutIsPlanar : Layout → Bool
  | .yuv420p | .yuv422p | .yuv444p => true
  | _ => false

/-- `up_chroma_to_zimg`: the exponents of the subsampling and whether the chroma
    planes are swapped. -/
def chromaToZimg (c : Nat) : Option (Nat × Nat × Bool) :=
  match descriptor c with
  | none => none
  | some desc => if layoutIsPlanar desc.layout then some (desc.subW,desc.subH,desc.uvPlanesSwapped) else none

theorem descriptor_mem {c : Nat} {desc : Descriptor} (found : descriptor c = some desc) :
    desc ∈ descriptors ∧ desc.chroma = c :=
  ⟨List.mem_of_find?_eq_some found,by simpa using List.find?_some found⟩

/-- A plane of a layout has groups of whole samples. -/
structure PlaneOk (desc : Descriptor) (i : Nat) : Prop where
  xPixels : 0 < desc.xGroupPixels.getD i 0
  xBytes : 0 < desc.xGroupBytes.getD i 0
  yPixels : 0 < desc.yGroupPixels.getD i 0
  pixelPitch : 0 < desc.pixelPitch.getD i 0
  samples : desc.xGroupBytes.getD i 0 % desc.pixelPitch.getD i 0 = 0

theorem descriptors_ok {desc : Descriptor} (member : desc ∈ descriptors) {i : Nat} (inside : i < desc.planeCount) :
    PlaneOk desc i := by
  have checked : ∀ desc ∈ descriptors, ∀ i < desc.planeCount, 0 < desc.xGroupPixels.getD i 0 ∧
      0 < desc.xGroupBytes.getD i 0 ∧ 0 < desc.yGroupPixels.getD i 0 ∧ 0 < desc.pixelPitch.getD i 0 ∧
      desc.xGroupBytes.getD i 0 % desc.pixelPitch.getD i 0 = 0 := by decide
  obtain ⟨xPixels,xBytes,yPixels,pixelPitch,samples⟩ := checked desc member i inside
  exact ⟨xPixels,xBytes,yPixels,pixelPitch,samples⟩

/-- The chroma planes of a layout with a luma plane have a group for every one or two
    pixels of an axis, by its exponent. -/
theorem chroma_groups {desc : Descriptor} (member : desc ∈ descriptors) (luma : layoutHasY desc.layout = true) {i : Nat}
    (chroma : 1 ≤ i) (inside : i < desc.planeCount) :
    desc.xGroupPixels.getD i 0 = desc.subW + 1 ∧ desc.yGroupPixels.getD i 0 = desc.subH + 1 := by
  have checked : ∀ desc ∈ descriptors, layoutHasY desc.layout = true → ∀ i < desc.planeCount, 1 ≤ i →
      desc.xGroupPixels.getD i 0 = desc.subW + 1 ∧ desc.yGroupPixels.getD i 0 = desc.subH + 1 := by decide
  exact checked desc member luma i inside chroma

/-- The planes of a layout fit into a view. -/
theorem descriptors_planes : ∀ desc ∈ descriptors, desc.planeCount ≤ chromaMaxPlanes := by decide

/-- An axis is full or halved. -/
theorem descriptors_sub : ∀ desc ∈ descriptors, desc.subW ≤ 1 ∧ desc.subH ≤ 1 := by decide

theorem chromaToZimg_sub {c subW subH : Nat} {swap : Bool} (supported : chromaToZimg c = some (subW,subH,swap)) :
    subW ≤ 1 ∧ subH ≤ 1 := by
  rw [chromaToZimg] at supported
  cases found : descriptor c with
  | none => simp [found] at supported
  | some desc =>
    simp only [found] at supported
    split_ifs at supported
    cases supported
    exact descriptors_sub desc (descriptor_mem found).1

end AutoUpscale.Chroma
