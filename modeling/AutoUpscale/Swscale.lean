import AutoUpscale.Blocks
import AutoUpscale.PictureViewBounds
import AutoUpscale.ZimgProcess

/-!
The swscale backend: `scaler_swscale.c`. It asks for a context for one format and two
sizes, and hands `sws_scale` the planes of the two pictures of a frame in the order of
the format; what it names lies in the pictures (`planeSlots_shown`). What libswscale answers is an
argument. An opened backend owns its state and its context (`swsOpen_kept`), is never
unusable (`swsProcess_kept`) and gives back what it owns (`swsClose_kept`).
-/
namespace AutoUpscale.Swscale
open AutoUpscale.Blocks
open AutoUpscale.Chroma (Descriptor Layout descriptor descriptor_mem descriptors physicalPlaneIndex)
open AutoUpscale.PictureView
open AutoUpscale.ZimgProcess (ScalerCtx Status dstRegion frameViewsInit frameViewsInit_some srcRegion)

/-- `enum AVPixelFormat`, as far as it is asked for. -/
inductive AVPixelFormat
  | yuv420p
  | yuv422p
  | yuv444p
  | nv12
  | nv21
  | rgb24
  | rgba
  | bgra
  deriving DecidableEq, Repr

/-- The flags of a context that are asked for. -/
inductive SwsFlag
  | fastBilinear
  | bicubic
  | lanczos
  | accurateRnd
  | fullChrHInt
  | fullChrHInp
  deriving DecidableEq, Repr

/-- The arguments of `sws_getContext`. -/
structure SwsRequest where
  srcW : Int
  srcH : Int
  srcFormat : AVPixelFormat
  dstW : Int
  dstH : Int
  dstFormat : AVPixelFormat
  flags : List SwsFlag
  deriving DecidableEq, Repr

/-- The reasons that are told once each. -/
inductive Reason
  | geometry
  | short
  deriving DecidableEq, Repr

/-- The arguments of `sws_scale`: the planes of both pictures, with NULL for those that
    the format lacks, and the lines of the source. -/
structure ScaleCall where
  src : List PlaneView
  srcSliceY : Int
  srcSliceH : Int
  dst : List PlaneView
  deriving DecidableEq, Repr

/-- `sws_priv_t`: the block of its own, the context with what was asked for it, and the
    two latches. The messages and the calls of `sws_scale`, both with the last first, are
    history. -/
structure SwsPriv where
  self : Option Nat
  ctx : Option Nat
  request : SwsRequest
  geomLogged : Bool
  shortLogged : Bool
  messages : List Reason
  calls : List (ScaleCall × Int)

/-- `UP_ALGO_FAST_BILINEAR` and `UP_ALGO_BICUBIC`. -/
def algoFastBilinear : Int := 0
def algoBicubic : Int := 1

/-- The format of a layout. -/
def formatOf : Layout → Option AVPixelFormat
  | .yuv420p => some .yuv420p
  | .yuv422p => some .yuv422p
  | .yuv444p => some .yuv444p
  | .nv12 => some .nv12
  | .nv21 => some .nv21
  | .rgb24 => some .rgb24
  | .rgba => some .rgba
  | .bgra => some .bgra
  | .invalid => none

/-- `ChromaToAVFmt`, with nothing for `AV_PIX_FMT_NONE`. -/
def chromaToAVFmt (c : Nat) : Option AVPixelFormat :=
  match descriptor c with
  | none => none
  | some desc => formatOf desc.layout

/-- `AlgoToSwsFlags`; what swscale lacks becomes Lanczos. -/
def algoToSwsFlags (algo : Int) : List SwsFlag :=
  let extra := [.accurateRnd,.fullChrHInt,.fullChrHInp]
  if algo = algoFastBilinear then .fastBilinear :: extra
  else if algo = algoBicubic then .bicubic :: extra
  else .lanczos :: extra

/-- `sws_supports`. -/
def swsSupports (chroma : Nat) : Bool := (chromaToAVFmt chroma).isSome

/-- How many bytes `sws_priv_t` and a context are given; no size matters. -/
def privBytes : Nat := 1

/-- What is granted to an opening: the state, and the context. -/
structure SwsGrants where
  state : Bool
  context : Bool

/-- `sws_open`; the backend, where it opens, and the heap. -/
def swsOpen (ctx : ScalerCtx) (algo : Int) (grants : SwsGrants) (h : Heap) : Option (Option SwsPriv × Heap) :=
  match chromaToAVFmt ctx.chroma with
  | none => some (none,h)
  | some fmt =>
    if grants.state = false then some (none,h)
    else
      let p := h.next
      let h := h.extend privBytes
      if grants.context = false then (h.free (some p)).map fun h => (none,h)
      else
        let request := ⟨ctx.srcW,ctx.srcH,fmt,ctx.dstW,ctx.dstH,fmt,algoToSwsFlags algo⟩
        some (some ⟨some p,some h.next,request,false,false,[],[]⟩,h.extend privBytes)

/-- `sws_log_once` with a log. -/
def swsLogOnce (p : SwsPriv) : Reason → SwsPriv
  | .geometry => if p.geomLogged then p else { p with geomLogged := true, messages := .geometry :: p.messages }
  | .short => if p.shortLogged then p else { p with shortLogged := true, messages := .short :: p.messages }

/-- The planes of a view in the order of the format. -/
def planeSlots (view : View) (swapped : Bool) : List PlaneView :=
  (List.range 4).map fun i => if i < view.plane.length then view.plane.getD (physicalPlaneIndex i swapped) ⟨0,0⟩ else ⟨0,0⟩

def scaleCall (ctx : ScalerCtx) (swapped : Bool) (src dst : View) : ScaleCall :=
  ⟨planeSlots src swapped,0,ctx.srcH,planeSlots dst swapped⟩

/-- `scaler_process_lines_status`. -/
def linesStatus (writtenLines expectedLines : Int) : Status := if writtenLines = expectedLines then .ok else .transient

/-- `sws_process`, where `rc` is what `sws_scale` answers. -/
def swsProcess (ctx : ScalerCtx) (priv : Option SwsPriv) (src dst : Picture) (rc : Int) : Option SwsPriv × Status :=
  match priv with
  | none => (none,.fatal)
  | some p =>
    match descriptor ctx.chroma with
    | none => (some p,.fatal)
    | some desc =>
      match frameViewsInit ctx src dst with
      | none => (some (swsLogOnce p .geometry),.transient)
      | some (srcView,dstView) =>
        let p := { p with calls := (scaleCall ctx desc.uvPlanesSwapped srcView dstView,rc) :: p.calls }
        let p := if rc < ctx.dstH then swsLogOnce p .short else p
        (some p,linesStatus rc ctx.dstH)

/-- `sws_close` of an opened backend. -/
def swsClose (p : SwsPriv) (h : Heap) : Option Heap := do
  let h ← h.free p.ctx
  h.free p.self

/-! ## What `sws_scale` may touch -/

/-- The planes that `sws_scale` gets of a picture, in the order of the format, lie in the
    picture as far as the region goes. -/
def Shown (pic : Picture) (region : Region) (desc : Descriptor) (slots : List PlaneView) : Prop :=
  ∀ i < desc.planeCount, Inside (pic.p (physicalPlaneIndex i desc.uvPlanesSwapped)) (slots.getD i ⟨0,0⟩)
    (groups region.height.toNat (desc.yGroupPixels.getD i 0))
    (groups region.width.toNat (desc.xGroupPixels.getD i 0) * desc.xGroupBytes.getD i 0)

theorem planeSlots_shown {chroma : Nat} {pic : Picture} {region : Region} {view : View} {desc : Descriptor}
    (found : descriptor chroma = some desc) (viewed : viewInit pic chroma region = some view) :
    Shown pic region desc (planeSlots view desc.uvPlanesSwapped) := by
  obtain ⟨layout,same,-,count,planes⟩ := viewInit_planes viewed
  obtain rfl : desc = layout := Option.some.inj (found.symm.trans same)
  obtain ⟨member,-⟩ := descriptor_mem found
  -- swapped planes are of one kind
  have swapping : ∀ desc ∈ descriptors, ∀ i < desc.planeCount,
      physicalPlaneIndex i desc.uvPlanesSwapped < desc.planeCount ∧
        desc.yGroupPixels.getD (physicalPlaneIndex i desc.uvPlanesSwapped) 0 = desc.yGroupPixels.getD i 0 ∧
        desc.xGroupPixels.getD (physicalPlaneIndex i desc.uvPlanesSwapped) 0 = desc.xGroupPixels.getD i 0 ∧
        desc.xGroupBytes.getD (physicalPlaneIndex i desc.uvPlanesSwapped) 0 = desc.xGroupBytes.getD i 0 := by decide
  intro i inside
  have few : i < 4 := lt_of_lt_of_le inside (Chroma.descriptors_planes desc member)
  obtain ⟨within,rows,columns,bytes⟩ := swapping desc member i inside
  obtain ⟨holds,shown⟩ := planes _ within
  have slot : (planeSlots view desc.uvPlanesSwapped).getD i ⟨0,0⟩ =
      planeView (pic.p (physicalPlaneIndex i desc.uvPlanesSwapped)) desc region (physicalPlaneIndex i desc.uvPlanesSwapped) := by
    rw [← shown,planeSlots]
    simp [few,count,inside]
  rw [slot,← rows,← columns,← bytes]
  exact planeView_inside member within holds

/-! ## What the backend keeps -/

/-- What the backend owns. -/
inductive SwsItem
  | self
  | context
  deriving DecidableEq

def SwsPriv.held (p : SwsPriv) : SwsItem → Option Nat
  | .self => p.self
  | .context => p.ctx

def SwsPriv.logged (p : SwsPriv) : Reason → Bool
  | .geometry => p.geomLogged
  | .short => p.shortLogged

/-- A backend for the format and the sizes of the filter, which has told each reason once
    at most, and which owns its two blocks. -/
structure SwsKept (ctx : ScalerCtx) (algo : Int) (base : Nat → Option Nat) (p : SwsPriv) (h : Heap) : Prop where
  owned : Owned base p.held (fun _ => privBytes) h
  context : p.ctx ≠ none
  format : ∃ fmt, chromaToAVFmt ctx.chroma = some fmt ∧
    p.request = ⟨ctx.srcW,ctx.srcH,fmt,ctx.dstW,ctx.dstH,fmt,algoToSwsFlags algo⟩
  told : ∀ r, p.messages.count r = if p.logged r then 1 else 0

variable {ctx : ScalerCtx} {algo : Int} {grants : SwsGrants} {h : Heap} {base : Nat → Option Nat} {p : SwsPriv}

/-- Opening takes two blocks, or none. -/
theorem swsOpen_kept (ctx : ScalerCtx) (algo : Int) (grants : SwsGrants) (h : Heap) :
    ∃ opened h', swsOpen ctx algo grants h = some (opened,h') ∧ (opened = none → h'.size = h.size) ∧
      (∀ p, opened = some p → SwsKept ctx algo h.size p h') ∧
      (opened.isSome = true ↔ swsSupports ctx.chroma = true ∧ grants.state = true ∧ grants.context = true) := by
  have start : Owned h.size (fun _ : SwsItem => none) (fun _ => privBytes) h := owned_start fun _ => rfl
  have stated := owned_alloc (i := SwsItem.self) start rfl
  unfold swsOpen swsSupports
  cases format : chromaToAVFmt ctx.chroma with
  | none => exact ⟨none,h,rfl,fun _ => rfl,by simp,by simp⟩
  | some fmt =>
    cases state : grants.state with
    | false => exact ⟨none,h,rfl,fun _ => rfl,by simp,by simp⟩
    | true =>
      dsimp only
      rw [if_neg (by decide)]
      cases context : grants.context with
      | false =>
        obtain ⟨h',freed,owned⟩ := owned_free stated .self
        have freed : (h.extend privBytes).free (some h.next) = some h' := freed
        refine ⟨none,h',by rw [freed]; rfl,fun _ => owned_clear owned fun item => ?_,by simp,by simp⟩
        cases item with
        | self => exact Function.update_self ..
        | context => rfl
      | true =>
        refine ⟨some _,_,rfl,by simp,fun p made => ?_,by simp⟩
        obtain rfl := Option.some.inj made
        have owned := owned_alloc (i := SwsItem.context) stated rfl
        refine ⟨?_,Option.some_ne_none _,⟨fmt,format,rfl⟩,fun r => ?_⟩
        · convert owned using 1
          funext item
          cases item with
          | self => exact (Function.update_of_ne (by decide) ..).symm
          | context => rfl
        · cases r <;> rfl

theorem swsLogOnce_kept (kept : SwsKept ctx algo base p h) (r : Reason) : SwsKept ctx algo base (swsLogOnce p r) h := by
  obtain ⟨owned,context,format,told⟩ := kept
  cases r with
  | geometry =>
    rw [swsLogOnce]
    split_ifs with logged
    · exact ⟨owned,context,format,told⟩
    · have once := told .geometry
      refine ⟨owned,context,format,fun r => ?_⟩
      cases r with
      | geometry => simp_all [SwsPriv.logged]
      | short => exact (List.count_cons_of_ne (by decide) ..).trans (told .short)
  | short =>
    rw [swsLogOnce]
    split_ifs with logged
    · exact ⟨owned,context,format,told⟩
    · have once := told .short
      refine ⟨owned,context,format,fun r => ?_⟩
      cases r with
      | geometry => exact (List.count_cons_of_ne (by decide) ..).trans (told .geometry)
      | short => simp_all [SwsPriv.logged]

/-- A format has a descriptor. -/
theorem format_descriptor {c : Nat} {fmt : AVPixelFormat} (format : chromaToAVFmt c = some fmt) :
    ∃ desc, descriptor c = some desc := by
  rw [chromaToAVFmt] at format
  cases found : descriptor c with
  | none => simp [found] at format
  | some desc => exact ⟨desc,rfl⟩

/-- A frame that is scaled has all its lines, and `sws_scale` got the planes of both
    pictures and all lines of the source. -/
structure SwsScaled (ctx : ScalerCtx) (src dst : Picture) (p : SwsPriv) : Prop where
  called : ∃ desc call, descriptor ctx.chroma = some desc ∧ p.calls.head? = some (call,ctx.dstH) ∧
    Shown src (srcRegion ctx) desc call.src ∧ Shown dst (dstRegion ctx) desc call.dst ∧
    call.srcSliceY = 0 ∧ call.srcSliceH = ctx.srcH

/-- A frame never makes the backend unusable. -/
theorem swsProcess_kept (kept : SwsKept ctx algo base p h) (src dst : Picture) (rc : Int) :
    ∃ p' status, swsProcess ctx (some p) src dst rc = (some p',status) ∧ SwsKept ctx algo base p' h ∧ status ≠ .fatal ∧
      (status = .ok → SwsScaled ctx src dst p') := by
  obtain ⟨fmt,format,-⟩ := kept.format
  obtain ⟨desc,found⟩ := format_descriptor format
  simp only [swsProcess,found]
  cases viewed : frameViewsInit ctx src dst with
  | none => exact ⟨_,_,rfl,swsLogOnce_kept kept .geometry,by simp,by simp⟩
  | some views =>
    obtain ⟨srcView,dstView⟩ := views
    have called : SwsKept ctx algo base
        { p with calls := (scaleCall ctx desc.uvPlanesSwapped srcView dstView,rc) :: p.calls } h :=
      ⟨kept.owned,kept.context,kept.format,kept.told⟩
    refine ⟨_,_,rfl,?_,?_,fun ok => ?_⟩
    · split_ifs
      · exact swsLogOnce_kept called .short
      · exact called
    · rw [linesStatus]
      split_ifs <;> simp
    · have lines : rc = ctx.dstH := by
        rw [linesStatus] at ok
        split_ifs at ok with all
        exact all
      obtain ⟨srcShown,dstShown⟩ := frameViewsInit_some viewed
      refine ⟨desc,scaleCall ctx desc.uvPlanesSwapped srcView dstView,found,?_,planeSlots_shown found srcShown,
        planeSlots_shown found dstShown,rfl,rfl⟩
      rw [if_neg (by omega),lines]
      rfl

/-- Closing gives back what the backend owns. -/
theorem swsClose_kept (kept : SwsKept ctx algo base p h) : ∃ h', swsClose p h = some h' ∧ h'.size = base := by
  obtain ⟨h1,freed,owned1⟩ := owned_free kept.owned SwsItem.context
  obtain ⟨h2,freed2,owned2⟩ := owned_free owned1 SwsItem.self
  have freed : h.free p.ctx = some h1 := freed
  have freed2 : h1.free p.self = some h2 := freed2
  refine ⟨h2,?_,owned_clear owned2 fun item => ?_⟩
  · rw [swsClose,freed]
    exact freed2
  · cases item with
    | self => exact Function.update_self ..
    | context =>
      rw [Function.update_of_ne (by decide)]
      exact Function.update_self ..

end AutoUpscale.Swscale
