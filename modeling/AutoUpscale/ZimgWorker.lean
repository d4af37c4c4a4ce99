import AutoUpscale.CopyPrograms
import AutoUpscale.PlaneBuffer
import AutoUpscale.ZimgProcess

/-!
One worker of the zimg backend on one frame: `zimg_worker_run` of `scaler_zimg.c` as a
program, with the buffers that a frame gives it. The library is a parameter: what a graph
does between its call and its return is a program of its own, of which only its contract
is known (`Contract`). By itself or among others, a worker leaves in its cell what the
library makes of its stripe of the source (`workerRun_meets`).
-/
namespace AutoUpscale.ZimgWorker
open AutoUpscale.CopyPrograms AutoUpscale.Programs AutoUpscale.Rows
open AutoUpscale.PictureView (PlaneView)
open AutoUpscale.PlaneBuffer (Layout planes mem_planes)
open AutoUpscale.ZimgCells (CellGeom Graph Plane Rect StripeWorker planeShift workerCopyInStripe workerCopyOutStripe
  workerCopyOutTile)
open AutoUpscale.ZimgProcess (WorkerView)

inductive Side
  | src
  | dst
  deriving DecidableEq, Repr

/-- The objects in memory. The pictures of the player share one, in which an offset is an
    address; every other one is a block that starts at an aligned address. -/
inductive Block
  | pictures
  | scratch (side : Side) (plane : Plane)
  | tile (cell : Nat) (plane : Plane)
  | tmp (cell : Nat)
  deriving DecidableEq, Repr

abbrev Bytes := Memory Block UInt8

/-- A plane of `plane_view_t`. -/
structure PlaneRef where
  data : Pointer Block
  pitch : Int

/-- The buffers of `stripe_worker_t`. -/
structure Buffers where
  src : Plane → PlaneRef
  dst : Plane → PlaneRef
  vlcSrc : Plane → PlaneRef
  vlcDst : Plane → PlaneRef
  tmp : Pointer Block

/-- `plane_buffer_view` of a buffer with these blocks. -/
def planeBufferView (block : Plane → Block) (layout : Layout) (p : Plane) : PlaneRef := ⟨⟨block p,0⟩,layout.pitch p⟩

/-- The planes of a picture. -/
def pictureView (view : WorkerView) : Plane → PlaneRef
  | .y => ⟨⟨.pictures,view.y.pixels⟩,view.y.pitch⟩
  | .u => ⟨⟨.pictures,view.u.pixels⟩,view.u.pitch⟩
  | .v => ⟨⟨.pictures,view.v.pixels⟩,view.v.pitch⟩

/-- `point_workers_planes` for one side of one worker, with `worker_view_for`. -/
def pointPlanes (b : Buffers) (view : WorkerView) (side : Side) (zerocopy : Bool) : Buffers :=
  match side,zerocopy with
  | .src,true => { b with src := pictureView view }
  | .src,false => { b with vlcSrc := pictureView view }
  | .dst,true => { b with dst := pictureView view }
  | .dst,false => { b with vlcDst := pictureView view }

/-! ## The library -/

/-- `ZIMG_BUFFER_MAX`: the buffer holds every line of its image. -/
def zimgBufferMax : Nat := 4294967295

/-- A plane of `zimg_image_buffer`. -/
structure ZimgPlane where
  data : Pointer Block
  stride : Int
  mask : Nat

/-- `set_buf_plane` and `set_const_buf_plane`. -/
def setBufPlane (plane : PlaneRef) (offsetRows : Int) : ZimgPlane :=
  ⟨plane.data.plus (offsetRows.toNat * plane.pitch.toNat),plane.pitch,zimgBufferMax⟩

/-- `zimg_filter_graph_process` of the graphs that were built for the filter of the
    backend: it returns an error code. -/
abbrev Library := Graph → (Plane → ZimgPlane) → (Plane → ZimgPlane) → Pointer Block → Program (Pointer Block) UInt8 Int

/-- What a worker leaves in `result` and `err_code`. -/
structure Result where
  result : Int
  errCode : Int
  deriving DecidableEq, Repr

/-! ## The worker -/

/-- A pixel of a plane. -/
def PlaneRef.at (plane : PlaneRef) (x y : Int) : Pointer Block := plane.data.plus (y.toNat * plane.pitch.toNat + x.toNat)

/-- `worker_copy_in_stripe`. -/
def copyInStripe (w : StripeWorker) (b : Buffers) : Program (Pointer Block) UInt8 Unit :=
  .each (fun p =>
    let r := workerCopyInStripe w p
    copyPlane ((b.src p).at r.x r.y) (b.src p).pitch ((b.vlcSrc p).at r.x r.y) (b.vlcSrc p).pitch r.w r.h) planes

/-- `worker_copy_out_stripe`. -/
def copyOutStripe (w : StripeWorker) (b : Buffers) : Program (Pointer Block) UInt8 Unit :=
  .each (fun p =>
    let r := workerCopyOutStripe w p
    copyPlane ((b.vlcDst p).at r.x r.y) (b.vlcDst p).pitch ((b.dst p).at r.x r.y) (b.dst p).pitch r.w r.h) planes

/-- `worker_copy_out_tile`. -/
def copyOutTile (w : StripeWorker) (b : Buffers) : Program (Pointer Block) UInt8 Unit :=
  .each (fun p =>
    let r := workerCopyOutTile w p
    copyPlane ((b.vlcDst p).at r.x r.y) (b.vlcDst p).pitch (b.dst p).data (b.dst p).pitch r.w r.h) planes

/-- `worker_emit_output`. -/
def emitOutput (w : StripeWorker) (b : Buffers) (result : Int) : Program (Pointer Block) UInt8 Unit :=
  if result ≠ 0 then pure ()
  else if w.colTiled then copyOutTile w b
  else if w.copyOut then copyOutStripe w b
  else pure ()

/-- The first row of a plane of the source that the graph reads. -/
def srcOffset (cell : CellGeom) : Plane → Int
  | .y => cell.srcYStart
  | .u | .v => cell.srcYStart >>> cell.subH

/-- The first row of a plane of the destination that the graph writes. -/
def dstOffset (w : StripeWorker) : Plane → Int
  | .y => if w.colTiled then 0 else w.cell.dstYStart
  | .u | .v => if w.colTiled then 0 else w.cell.dstYStart >>> w.cell.subH

/-- `zimg_worker_run`. -/
def workerRun (zimg : Library) (w : StripeWorker) (b : Buffers) : Program (Pointer Block) UInt8 Result := do
  if w.copyIn then copyInStripe w b
  let rc ← zimg w.graph (fun p => setBufPlane (b.src p) (srcOffset w.cell p))
    (fun p => setBufPlane (b.dst p) (dstOffset w p)) b.tmp
  let result : Int := if rc = 0 then 0 else -1
  emitOutput w b result
  pure ⟨result,rc⟩

/-! ## What the library promises -/

/-- A picture by its planes, rows and columns. -/
abbrev Image := Plane → Nat → Nat → UInt8

/-- The columns and the rows of a plane of an image. -/
def planeSize (w h : Int) (subW subH : Nat) (p : Plane) : Nat × Nat :=
  ((w >>> planeShift subW p).toNat,(h >>> planeShift subH p).toNat)

def srcSize (g : Graph) (p : Plane) : Nat × Nat := planeSize g.srcW g.srcH g.subW g.subH p

def dstSize (g : Graph) (p : Plane) : Nat × Nat := planeSize g.dstW g.dstH g.subW g.subH p

/-- Images that zimg accepts: none is empty, the subsampling divides them, and the active
    region is inside the source. -/
structure WellFormed (g : Graph) : Prop where
  halved : g.subW ≤ 1 ∧ g.subH ≤ 1
  positive : 0 < g.srcW ∧ 0 < g.srcH ∧ 0 < g.dstW ∧ 0 < g.dstH
  evenW : g.subW = 1 → 2 ∣ g.srcW ∧ 2 ∣ g.dstW
  evenH : g.subH = 1 → 2 ∣ g.srcH ∧ 2 ∣ g.dstH
  active : ∀ left width, g.active = some (left,width) → 0 ≤ left ∧ 0 < width ∧ left + width ≤ g.srcW

/-- What zimg asks of a plane of a buffer. -/
structure Laid (plane : ZimgPlane) (size : Nat × Nat) : Prop where
  whole : plane.mask = zimgBufferMax
  address : 32 ∣ plane.data.offset
  stride : (32 : Int) ∣ plane.stride
  room : (size.1 : Int) ≤ plane.stride

/-- A row of this width with what it takes to a multiple of the alignment, which zimg may
    overwrite. -/
def padded (width : Nat) : Nat := 32 * ((width + 31) / 32)

def ZimgPlane.area (plane : ZimgPlane) (width height : Nat) : Set (Pointer Block) :=
  Area plane.data plane.stride.toNat 0 width 0 height

def reads (g : Graph) (src : Plane → ZimgPlane) : Set (Pointer Block) :=
  ⋃ p, (src p).area (srcSize g p).1 (srcSize g p).2

def writes (g : Graph) (dst : Plane → ZimgPlane) (tmp : Pointer Block) : Set (Pointer Block) :=
  {a | a.block = tmp.block} ∪ ⋃ p, (dst p).area (padded (dstSize g p).1) (dstSize g p).2

/-- The planes of a buffer show an image. -/
def Shows (m : Bytes) (buffer : Plane → ZimgPlane) (size : Plane → Nat × Nat) (image : Image) : Prop :=
  ∀ p y x, y < (size p).2 → x < (size p).1 → m ((rowAt (buffer p).data (buffer p).stride.toNat y).plus x) = image p y x

/-- The contract of `zimg_filter_graph_process`: between buffers as it asks for them it
    writes only the destination and the temporary buffer, and where it reports no error
    the destination shows what `resample` makes of the image that the source shows. -/
def Contract (zimg : Library) (resample : Graph → Image → Image) : Prop :=
  ∀ (g : Graph) (src dst : Plane → ZimgPlane) (tmp : Pointer Block) (image : Image) (m : Bytes), WellFormed g →
    (∀ p, Laid (src p) (srcSize g p)) → (∀ p, Laid (dst p) (dstSize g p)) →
    Disjoint (reads g src) (writes g dst tmp) →
    (∀ p q, p ≠ q → Disjoint ((dst p).area (padded (dstSize g p).1) (dstSize g p).2)
      ((dst q).area (padded (dstSize g q).1) (dstSize g q).2)) →
    (∀ p, (dst p).data.block ≠ tmp.block) → Shows m src (srcSize g) image →
    Meets (reads g src ∪ writes g dst tmp) (writes g dst tmp)
      (fun rc m' => rc = 0 → Shows m' dst (dstSize g) (resample g image)) (zimg g src dst tmp) m

/-- A library that never reports an error. -/
def Succeeds (zimg : Library) : Prop :=
  ∀ (g : Graph) (src dst : Plane → ZimgPlane) (tmp : Pointer Block) (m : Bytes),
    Meets ∅ Set.univ (fun rc _ => rc = 0) (zimg g src dst tmp) m

theorem padded_le {width : Nat} {stride : Int} (room : (width : Int) ≤ stride) (aligned : (32 : Int) ∣ stride) :
    width ≤ padded width ∧ padded width ≤ stride.toNat := by
  unfold padded
  omega

/-! ## Copies between planes -/

/-- A pixel of a plane by its row. -/
def PlaneRef.pixel (plane : PlaneRef) (x y : Nat) : Pointer Block := (rowAt plane.data plane.pitch.toNat y).plus x

def PlaneRef.area (plane : PlaneRef) (left right low high : Nat) : Set (Pointer Block) :=
  Area plane.data plane.pitch.toNat left right low high

theorem copyRect_meets (out from_ : PlaneRef) (x y x' y' width height : Nat) {m : Bytes} (outRoom : (width : Int) ≤ out.pitch)
    (fromRoom : (width : Int) ≤ from_.pitch)
    (apart : Disjoint (from_.area x' (x' + width) y' (y' + height)) (out.area x (x + width) y (y + height))) :
    Meets (from_.area x' (x' + width) y' (y' + height) ∪ out.area x (x + width) y (y + height))
      (out.area x (x + width) y (y + height))
      (fun _ m' => ∀ r c, r < height → c < width → m' (out.pixel (x + c) (y + r)) = m (from_.pixel (x' + c) (y' + r)))
      (copyPlane (out.at x y) out.pitch (from_.at x' y') from_.pitch width height) m := by
  obtain ⟨stride,isStride⟩ := Int.eq_ofNat_of_zero_le (show 0 ≤ out.pitch by omega)
  obtain ⟨stride',isStride'⟩ := Int.eq_ofNat_of_zero_le (show 0 ≤ from_.pitch by omega)
  simp only [PlaneRef.area,PlaneRef.pixel,PlaneRef.at,isStride,isStride',Int.toNat_natCast] at apart ⊢
  rw [← band_area,← band_area] at apart
  rw [← band_area,← band_area]
  refine meets_post (copyPlane_meets ⟨by omega,by omega⟩ apart) fun _ m' pixels r c row column => ?_
  have copied := pixels r c row column
  rw [rowAt_plus,rowAt_plus,plus_plus,plus_plus] at copied
  exact copied

/-! ## A cell among others -/

/-- What of the planes is a cell's: rows of the source as far as `srcWidth`, and columns
    and rows of the destination. -/
structure Part where
  srcWidth : Plane → Nat
  srcLow : Plane → Nat
  srcHigh : Plane → Nat
  left : Plane → Nat
  right : Plane → Nat
  low : Plane → Nat
  high : Plane → Nat

/-- The stripe of an image that the graph of a cell is given. -/
def Part.stripe (c : Part) (image : Image) : Image := fun p y x => image p (c.srcLow p + y) x

/-- Whether a worker copies out what its graph leaves. -/
def emits (w : StripeWorker) : Bool := w.colTiled || w.copyOut

/-- The worker and its graph are those of the cell. -/
structure Fits (w : StripeWorker) (c : Part) : Prop where
  wellFormed : WellFormed w.graph
  ordered : ∀ p, c.srcLow p ≤ c.srcHigh p ∧ c.left p ≤ c.right p ∧ c.low p ≤ c.high p
  source : ∀ p, srcSize w.graph p = (c.srcWidth p,c.srcHigh p - c.srcLow p)
  image : ∀ p, dstSize w.graph p = (c.right p - c.left p,c.high p - c.low p)
  sourceOffset : ∀ p, srcOffset w.cell p = c.srcLow p
  imageOffset : ∀ p, dstOffset w p = if w.colTiled then 0 else (c.low p : Int)
  untiled : w.colTiled = false → ∀ p, c.left p = 0
  copiedIn : w.copyIn = true → ∀ p, workerCopyInStripe w p =
    ⟨0,c.srcLow p,c.srcWidth p,(c.srcHigh p - c.srcLow p : Nat)⟩
  copiedOut : w.colTiled = false → w.copyOut = true → ∀ p, workerCopyOutStripe w p =
    ⟨0,c.low p,c.right p,(c.high p - c.low p : Nat)⟩
  copiedTile : w.colTiled = true → ∀ p, workerCopyOutTile w p =
    ⟨c.left p,c.low p,(c.right p - c.left p : Nat),(c.high p - c.low p : Nat)⟩

section Regions
variable (w : StripeWorker) (b : Buffers) (c : Part)

/-- Where the picture of the source is. -/
def sourceOf : Plane → PlaneRef := if w.copyIn then b.vlcSrc else b.src

/-- Where the picture of the destination is. -/
def targetOf : Plane → PlaneRef := if emits w then b.vlcDst else b.dst

/-- The first row of the graph's image in the buffer that it writes. -/
def top (p : Plane) : Nat := if w.colTiled then 0 else c.low p

def sourceArea (p : Plane) : Set (Pointer Block) := (sourceOf w b p).area 0 (c.srcWidth p) (c.srcLow p) (c.srcHigh p)

def inputArea (p : Plane) : Set (Pointer Block) := (b.src p).area 0 (c.srcWidth p) (c.srcLow p) (c.srcHigh p)

def imageArea (p : Plane) : Set (Pointer Block) :=
  (b.dst p).area 0 (padded (c.right p - c.left p)) (top w c p) (top w c p + (c.high p - c.low p))

def targetArea (p : Plane) : Set (Pointer Block) := (targetOf w b p).area (c.left p) (c.right p) (c.low p) (c.high p)

/-- What the graph writes. -/
def graphWritten : Set (Pointer Block) := {a | a.block = b.tmp.block} ∪ ⋃ p, imageArea w b c p

/-- What a worker writes. -/
def touched : Set (Pointer Block) :=
  {a | w.copyIn = true ∧ a ∈ ⋃ p, inputArea b c p} ∪ graphWritten w b c ∪ ⋃ p, targetArea w b c p

/-- What a worker reads or writes. -/
def seen : Set (Pointer Block) :=
  (⋃ p, sourceArea w b c p) ∪ (⋃ p, inputArea b c p) ∪ graphWritten w b c ∪ ⋃ p, targetArea w b c p

/-- Buffers in which the cell finds its place: laid out as the library asks for them, wide
    enough, and with nothing written that is still to be read. -/
structure Ready : Prop where
  input : ∀ p, 32 ∣ (b.src p).data.offset ∧ (32 : Int) ∣ (b.src p).pitch ∧ (c.srcWidth p : Int) ≤ (b.src p).pitch
  image : ∀ p, 32 ∣ (b.dst p).data.offset ∧ (32 : Int) ∣ (b.dst p).pitch ∧
    ((c.right p - c.left p : Nat) : Int) ≤ (b.dst p).pitch
  source : ∀ p, (c.srcWidth p : Int) ≤ (sourceOf w b p).pitch
  target : ∀ p, (c.right p : Int) ≤ (targetOf w b p).pitch
  temporary : ∀ p, (b.dst p).data.block ≠ b.tmp.block
  read : Disjoint (⋃ p, inputArea b c p) (graphWritten w b c)
  images : ∀ p q, p ≠ q → Disjoint (imageArea w b c p) (imageArea w b c q)
  copied : w.copyIn = true → (∀ p q, Disjoint (sourceArea w b c p) (inputArea b c q)) ∧
    (∀ p q, p ≠ q → Disjoint (inputArea b c p) (inputArea b c q)) ∧
    Disjoint (⋃ p, targetArea w b c p) (⋃ p, inputArea b c p)
  emitted : emits w = true → Disjoint (⋃ p, targetArea w b c p) (graphWritten w b c) ∧
    ∀ p q, p ≠ q → Disjoint (targetArea w b c p) (targetArea w b c q)

end Regions

section Cell
variable {zimg : Library} {resample : Graph → Image → Image} {w : StripeWorker} {b : Buffers} {c : Part} {m : Bytes} {image : Image}

theorem planes_differ : planes.Pairwise fun p q => p ≠ q := by decide

/-- The stripe of the cell is in a buffer. -/
def Holds (c : Part) (buffer : Plane → PlaneRef) (image : Image) (m : Bytes) : Prop :=
  ∀ p y x, y < c.srcHigh p - c.srcLow p → x < c.srcWidth p →
    m ((buffer p).pixel x (c.srcLow p + y)) = c.stripe image p y x

theorem copyInStripe_meets (fits : Fits w c) (ready : Ready w b c) (copies : w.copyIn = true)
    (shown : Holds c (sourceOf w b) image m) :
    Meets ((⋃ p, sourceArea w b c p) ∪ ⋃ p, inputArea b c p) (⋃ p, inputArea b c p) (fun _ m' => Holds c b.src image m')
      (copyInStripe w b) m := by
  obtain ⟨fresh,separate,-⟩ := ready.copied copies
  have source : sourceOf w b = b.vlcSrc := if_pos copies
  have one : ∀ p ∈ planes, Meets (sourceArea w b c p ∪ inputArea b c p) (inputArea b c p)
      (fun _ m' => ∀ y x, y < c.srcHigh p - c.srcLow p → x < c.srcWidth p →
        m' ((b.src p).pixel x (c.srcLow p + y)) = c.stripe image p y x)
      (copyPlane ((b.src p).at (workerCopyInStripe w p).x (workerCopyInStripe w p).y) (b.src p).pitch
        ((b.vlcSrc p).at (workerCopyInStripe w p).x (workerCopyInStripe w p).y) (b.vlcSrc p).pitch
        (workerCopyInStripe w p).w (workerCopyInStripe w p).h) m := by
    intro p _
    have rows : c.srcLow p + (c.srcHigh p - c.srcLow p) = c.srcHigh p := by have := (fits.ordered p).1; omega
    have apart : Disjoint ((sourceOf w b p).area 0 (0 + c.srcWidth p) (c.srcLow p) (c.srcLow p + (c.srcHigh p - c.srcLow p)))
        ((b.src p).area 0 (0 + c.srcWidth p) (c.srcLow p) (c.srcLow p + (c.srcHigh p - c.srcLow p))) := by
      rw [rows,Nat.zero_add]
      exact fresh p p
    have copied := @copyRect_meets _ _ _ _ _ _ _ _ m (ready.input p).2.2 (ready.source p) apart
    rw [rows,Nat.zero_add,source] at copied
    rw [fits.copiedIn copies p,sourceArea,source]
    refine meets_post copied fun _ m' pixels y x row column => ?_
    have same := pixels y x row column
    rw [Nat.zero_add] at same
    rw [same,← source]
    exact shown p y x row column
  refine meets_post (meets_each (List.Pairwise.imp ?_ planes_differ) one (fun p _ => ?_) fun p _ => ?_)
    fun _ m' all p y x => all p (mem_planes p) y x
  · intro p q different
    simp only [Set.disjoint_union_left]
    exact ⟨⟨fresh p q,separate p q different⟩,fresh q p,separate q p different.symm⟩
  · exact Set.union_subset_union (Set.subset_iUnion (sourceArea w b c) p) (Set.subset_iUnion (inputArea b c) p)
  · exact Set.subset_iUnion (inputArea b c) p

/-- The image of the cell's graph, in the columns and rows of the destination that it is
    for. -/
def Placed (c : Part) (buffer : Plane → PlaneRef) (result : Image) (m : Bytes) : Prop :=
  ∀ p y x, c.low p ≤ y → y < c.high p → c.left p ≤ x → x < c.right p →
    m ((buffer p).pixel x y) = result p (y - c.low p) (x - c.left p)

/-- The buffer that the graph writes shows its image. -/
def Made (w : StripeWorker) (b : Buffers) (c : Part) (result : Image) (m : Bytes) : Prop :=
  ∀ p y x, y < c.high p - c.low p → x < c.right p - c.left p → m ((b.dst p).pixel x (top w c p + y)) = result p y x

/-- The graph of a cell whose stripe is in its buffer. -/
theorem graph_meets (contract : Contract zimg resample) (fits : Fits w c) (ready : Ready w b c) (held : Holds c b.src image m) :
    Meets ((⋃ p, inputArea b c p) ∪ graphWritten w b c) (graphWritten w b c)
      (fun rc m' => rc = 0 → Made w b c (resample w.graph (c.stripe image)) m')
      (zimg w.graph (fun p => setBufPlane (b.src p) (srcOffset w.cell p)) (fun p => setBufPlane (b.dst p) (dstOffset w p)) b.tmp)
      m := by
  have offset : ∀ p, (dstOffset w p).toNat = top w c p := by
    intro p
    rw [fits.imageOffset p,top]
    split <;> simp
  have sourceRow : ∀ p, (srcOffset w.cell p).toNat = c.srcLow p := by
    intro p
    rw [fits.sourceOffset p,Int.toNat_natCast]
  have reading : reads w.graph (fun p => setBufPlane (b.src p) (srcOffset w.cell p)) = ⋃ p, inputArea b c p := by
    refine Set.iUnion_congr fun p => ?_
    have rows : c.srcLow p + (c.srcHigh p - c.srcLow p) = c.srcHigh p := by have := (fits.ordered p).1; omega
    simp only [fits.source p,ZimgPlane.area,setBufPlane,sourceRow p]
    rw [area_shift,rows]
    rfl
  have writing : writes w.graph (fun p => setBufPlane (b.dst p) (dstOffset w p)) b.tmp = graphWritten w b c := by
    refine congrArg _ (Set.iUnion_congr fun p => ?_)
    simp only [fits.image p,ZimgPlane.area,setBufPlane,offset p]
    rw [area_shift]
    rfl
  have aligned : ∀ {data : Pointer Block} {pitch : Int} {rows : Nat}, 32 ∣ data.offset → (32 : Int) ∣ pitch → 0 ≤ pitch →
      32 ∣ (data.plus (rows * pitch.toNat)).offset := by
    intro data pitch rows start stride positive
    have natural : 32 ∣ pitch.toNat := by omega
    exact Nat.dvd_add start (Dvd.dvd.mul_left natural rows)
  have met := contract w.graph (fun p => setBufPlane (b.src p) (srcOffset w.cell p))
    (fun p => setBufPlane (b.dst p) (dstOffset w p)) b.tmp (c.stripe image) m fits.wellFormed (fun p => ?_) (fun p => ?_) ?_ ?_
    ready.temporary ?_
  · rw [reading,writing] at met
    refine meets_post met fun rc m' shows success p y x row column => ?_
    have pixel := shows success p y x (by rwa [fits.image p]) (by rwa [fits.image p])
    simp only [setBufPlane,offset p] at pixel
    rw [← pixel,PlaneRef.pixel]
    congr 2
    simpa using (rowAt_plus (b.dst p).data (b.dst p).pitch.toNat (top w c p) 0 y).symm
  · obtain ⟨address,stride,room⟩ := ready.input p
    refine ⟨rfl,aligned address stride (by omega),stride,?_⟩
    rw [fits.source p]
    exact room
  · obtain ⟨address,stride,room⟩ := ready.image p
    refine ⟨rfl,aligned address stride (by omega),stride,?_⟩
    rw [fits.image p]
    exact room
  · rw [reading,writing]
    exact ready.read
  · intro p q different
    have apart := ready.images p q different
    simp only [imageArea,PlaneRef.area,← area_shift] at apart
    simpa only [ZimgPlane.area,setBufPlane,fits.image,offset] using apart
  · intro p y x row column
    rw [fits.source p] at row column
    rw [← held p y x row column]
    simp only [PlaneRef.pixel,setBufPlane,sourceRow p]
    congr 2
    simpa using rowAt_plus (b.src p).data (b.src p).pitch.toNat (c.srcLow p) 0 y

/-- What both ways of copying out do. -/
def copyOut (w : StripeWorker) (b : Buffers) (c : Part) : Program (Pointer Block) UInt8 Unit :=
  .each (fun p => copyPlane ((targetOf w b p).at (c.left p) (c.low p)) (targetOf w b p).pitch ((b.dst p).at 0 (top w c p))
    (b.dst p).pitch (c.right p - c.left p : Nat) (c.high p - c.low p : Nat)) planes

theorem copyOut_tile (fits : Fits w c) (tiled : w.colTiled = true) : copyOutTile w b = copyOut w b c := by
  have target : targetOf w b = b.vlcDst := if_pos (by rw [emits,tiled,Bool.true_or])
  have start : ∀ p, (b.dst p).at 0 (top w c p) = (b.dst p).data := by
    intro p
    rw [top,if_pos tiled]
    simp [PlaneRef.at]
  simp only [copyOutTile,copyOut,fits.copiedTile tiled,target,start]

theorem copyOut_stripe (fits : Fits w c) (untiled : w.colTiled = false) (copies : w.copyOut = true) :
    copyOutStripe w b = copyOut w b c := by
  have target : targetOf w b = b.vlcDst := if_pos (by rw [emits,copies,Bool.or_true])
  have start : ∀ p, top w c p = c.low p := fun p => if_neg (by simp [untiled])
  simp only [copyOutStripe,copyOut,fits.copiedOut untiled copies,target,start,fits.untiled untiled,Nat.sub_zero,Nat.cast_zero]

theorem copyOut_meets (fits : Fits w c) (ready : Ready w b c) (copies : emits w = true) {result : Image}
    (made : Made w b c result m) :
    Meets (graphWritten w b c ∪ ⋃ p, targetArea w b c p) (⋃ p, targetArea w b c p)
      (fun _ m' => Placed c (targetOf w b) result m') (copyOut w b c) m := by
  obtain ⟨fresh,separate⟩ := ready.emitted copies
  have inner : ∀ p, (b.dst p).area 0 (0 + (c.right p - c.left p)) (top w c p) (top w c p + (c.high p - c.low p)) ⊆
      imageArea w b c p := by
    intro p
    rw [Nat.zero_add]
    exact area_mono (le_refl _) (padded_le (ready.image p).2.2 (ready.image p).2.1).1 (le_refl _) (le_refl _)
  have written : ∀ p, imageArea w b c p ⊆ graphWritten w b c :=
    fun p => Set.subset_union_of_subset_right (Set.subset_iUnion (imageArea w b c) p) _
  have area : ∀ p, (targetOf w b p).area (c.left p) (c.left p + (c.right p - c.left p)) (c.low p)
      (c.low p + (c.high p - c.low p)) = targetArea w b c p := by
    intro p
    obtain ⟨-,columns,rows⟩ := fits.ordered p
    rw [targetArea,Nat.add_sub_of_le columns,Nat.add_sub_of_le rows]
  have part : ∀ p, targetArea w b c p ⊆ ⋃ p, targetArea w b c p := Set.subset_iUnion (targetArea w b c)
  have apart : ∀ p q, Disjoint ((b.dst p).area 0 (0 + (c.right p - c.left p)) (top w c p) (top w c p + (c.high p - c.low p)))
      (targetArea w b c q) :=
    fun p q => (Set.disjoint_of_subset (part q) (subset_trans (inner p) (written p)) fresh).symm
  have one : ∀ p ∈ planes, Meets ((b.dst p).area 0 (0 + (c.right p - c.left p)) (top w c p)
      (top w c p + (c.high p - c.low p)) ∪ targetArea w b c p) (targetArea w b c p)
      (fun _ m' => ∀ y x, c.low p ≤ y → y < c.high p → c.left p ≤ x → x < c.right p →
        m' ((targetOf w b p).pixel x y) = result p (y - c.low p) (x - c.left p))
      (copyPlane ((targetOf w b p).at (c.left p) (c.low p)) (targetOf w b p).pitch ((b.dst p).at 0 (top w c p))
        (b.dst p).pitch (c.right p - c.left p : Nat) (c.high p - c.low p : Nat)) m := by
    intro p _
    have narrow : ((c.right p - c.left p : Nat) : Int) ≤ (targetOf w b p).pitch := by have := ready.target p; omega
    have separated := apart p p
    rw [← area p] at separated
    have copied := @copyRect_meets _ _ _ _ _ _ _ _ m narrow (ready.image p).2.2 separated
    rw [area p] at copied
    refine meets_post copied fun _ m' pixels y x above below after before => ?_
    have same := pixels (y - c.low p) (x - c.left p) (by omega) (by omega)
    rw [Nat.add_sub_of_le above,Nat.add_sub_of_le after,Nat.zero_add] at same
    rw [same]
    exact made p _ _ (by omega) (by omega)
  refine meets_post (meets_each (List.Pairwise.imp ?_ planes_differ) one (fun p _ => ?_) fun p _ => part p)
    fun _ m' all p y x => all p (mem_planes p) y x
  · intro p q different
    simp only [Set.disjoint_union_left]
    exact ⟨⟨apart p q,separate p q different⟩,apart q p,separate q p different.symm⟩
  · exact Set.union_subset_union (subset_trans (inner p) (written p)) (part p)

/-- What a worker leaves: its cell of the picture with the image of its graph where the
    library reports no error, and as it was where it reports one and the worker is the one
    to write the picture. -/
structure Outcome (w : StripeWorker) (b : Buffers) (c : Part) (result : Image) (before : Bytes) (answer : Result) (m : Bytes) :
    Prop where
  status : (answer.result = 0 ↔ answer.errCode = 0) ∧ (answer.result ≠ 0 → answer.result = -1)
  placed : answer.result = 0 → Placed c (targetOf w b) result m
  kept : answer.result ≠ 0 → emits w = true → Agree (⋃ p, targetArea w b c p) before m

theorem emitOutput_meets (fits : Fits w c) (ready : Ready w b c) {result : Image} {status : Int}
    (made : status = 0 → Made w b c result m) :
    Meets (graphWritten w b c ∪ ⋃ p, targetArea w b c p) (⋃ p, targetArea w b c p)
      (fun _ m' => (status = 0 → Placed c (targetOf w b) result m') ∧
        (status ≠ 0 → Agree (⋃ p, targetArea w b c p) m m'))
      (emitOutput w b status) m := by
  rw [emitOutput]
  by_cases failed : status ≠ 0
  · rw [if_pos failed]
    exact meets_done fun m' same => ⟨fun success => absurd success failed,
      fun _ => agree_mono Set.subset_union_right same⟩
  rw [if_neg failed]
  have success : status = 0 := not_not.mp failed
  by_cases copies : emits w = true
  · have copied := meets_post (copyOut_meets fits ready copies (made success)) fun _ m' placed =>
      (⟨fun _ => placed,fun other => absurd success other⟩ : (status = 0 → Placed c (targetOf w b) result m') ∧
        (status ≠ 0 → Agree (⋃ p, targetArea w b c p) m m'))
    by_cases tiled : w.colTiled = true
    · rw [if_pos tiled,copyOut_tile fits tiled]
      exact copied
    · have untiled : w.colTiled = false := by simpa using tiled
      have out : w.copyOut = true := by simpa [emits,untiled] using copies
      rw [if_neg tiled,if_pos out,copyOut_stripe fits untiled out]
      exact copied
  · -- The graph has written the picture itself.
    obtain ⟨untiled,direct⟩ : w.colTiled = false ∧ w.copyOut = false := by simpa [emits] using copies
    have target : targetOf w b = b.dst := if_neg copies
    have start : ∀ p, top w c p = c.low p := fun p => if_neg (by simp [untiled])
    rw [if_neg (by simp [untiled]),if_neg (by simp [direct])]
    refine meets_done fun m' same => ⟨fun _ p y x above below after before => ?_,fun other => absurd success other⟩
    have left := fits.untiled untiled p
    have inside : (b.dst p).pixel x y ∈ ⋃ p, targetArea w b c p := by
      refine Set.mem_iUnion_of_mem p ?_
      rw [targetArea,target]
      exact mem_area above below after before
    rw [target,same _ (Or.inr inside)]
    have pixel := made success p (y - c.low p) (x - c.left p) (by omega) (by omega)
    rw [start p,Nat.add_sub_of_le above] at pixel
    rwa [left,Nat.sub_zero] at pixel ⊢

theorem workerRun_eq (zimg : Library) (w : StripeWorker) (b : Buffers) : workerRun zimg w b =
    (if w.copyIn = true then copyInStripe w b else pure ()) >>= fun _ =>
      zimg w.graph (fun p => setBufPlane (b.src p) (srcOffset w.cell p)) (fun p => setBufPlane (b.dst p) (dstOffset w p))
        b.tmp >>= fun rc =>
      emitOutput w b (if rc = 0 then 0 else -1) >>= fun _ => pure ⟨if rc = 0 then 0 else -1,rc⟩ := by
  unfold workerRun
  split_ifs <;> rfl

/-- A worker of a library that never reports an error succeeds. -/
theorem workerRun_succeeds (succeeds : Succeeds zimg) (w : StripeWorker) (b : Buffers) (m : Bytes) :
    Meets ∅ Set.univ (fun v _ => v.result = 0) (workerRun zimg w b) m := by
  rw [workerRun_eq]
  refine meets_bind (meets_any _ m) fun _ m' _ => meets_bind (succeeds _ _ _ _ m') ?_
  rintro rc m'' rfl
  exact meets_bind (meets_any _ m'') fun _ _ _ => meets_done fun _ _ => rfl

/-- Whatever other threads do elsewhere, a worker writes only what it may, and leaves in
    its cell of the picture what the library makes of its stripe of the source. -/
theorem workerRun_meets (contract : Contract zimg resample) (fits : Fits w c) (ready : Ready w b c)
    (shown : Holds c (sourceOf w b) image m) :
    Meets (seen w b c) (touched w b c) (fun answer m' => Outcome w b c (resample w.graph (c.stripe image)) m answer m')
      (workerRun zimg w b) m := by
  have outside : w.copyIn = true → Disjoint (⋃ p, targetArea w b c p) (⋃ p, inputArea b c p) :=
    fun copies => (ready.copied copies).2.2
  have first : Meets (seen w b c) (touched w b c)
      (fun _ m' => Holds c b.src image m' ∧ (emits w = true → Agree (⋃ p, targetArea w b c p) m m'))
      (if w.copyIn = true then copyInStripe w b else pure ()) m := by
    by_cases copies : w.copyIn = true
    · rw [if_pos copies]
      refine meets_mono (meets_frame (copyInStripe_meets fits ready copies shown) (outside copies)) ?_ ?_ ?_
      · exact Set.union_subset_union_left _ Set.subset_union_left
      · exact fun a member => Or.inl (Or.inl ⟨copies,member⟩)
      · exact fun _ m' both => ⟨both.1,fun _ => both.2⟩
    · rw [if_neg copies]
      have direct : sourceOf w b = b.src := if_neg copies
      refine meets_done fun m' same => ⟨fun p y x row column => ?_,fun _ => agree_mono Set.subset_union_right same⟩
      have inside : (b.src p).pixel x (c.srcLow p + y) ∈ ⋃ p, inputArea b c p :=
        Set.mem_iUnion_of_mem p (mem_area (by omega) (by omega) (Nat.zero_le x) column)
      rw [same _ (Or.inl (Or.inl (Or.inr inside))),← direct]
      exact shown p y x row column
  have reading : (⋃ p, inputArea b c p) ∪ graphWritten w b c ⊆ seen w b c := by
    rintro a (member | member)
    · exact Or.inl (Or.inl (Or.inr member))
    · exact Or.inl (Or.inr member)
  have writing : graphWritten w b c ⊆ touched w b c := fun a member => Or.inl (Or.inr member)
  have second : ∀ m', Holds c b.src image m' ∧ (emits w = true → Agree (⋃ p, targetArea w b c p) m m') →
      Meets (seen w b c) (touched w b c)
        (fun rc m'' => (rc = 0 → Made w b c (resample w.graph (c.stripe image)) m'') ∧
          (emits w = true → Agree (⋃ p, targetArea w b c p) m m''))
        (zimg w.graph (fun p => setBufPlane (b.src p) (srcOffset w.cell p))
          (fun p => setBufPlane (b.dst p) (dstOffset w p)) b.tmp) m' := by
    rintro m' ⟨held,before⟩
    have graph := graph_meets contract fits ready held
    by_cases copies : emits w = true
    · refine meets_mono (meets_frame graph (ready.emitted copies).1) ?_ writing ?_
      · exact Set.union_subset reading fun a member => Or.inr member
      · exact fun rc m'' both => ⟨both.1,fun _ => agree_trans (before copies) both.2⟩
    · exact meets_mono graph reading writing fun rc m'' made => ⟨made,fun emitting => absurd emitting copies⟩
  rw [workerRun_eq]
  refine meets_bind first fun _ m' held => meets_bind (second m' held) fun rc m'' made => ?_
  have status : (if rc = 0 then (0 : Int) else -1) = 0 ↔ rc = 0 := by split_ifs <;> simp_all
  have third := emitOutput_meets fits ready fun success => made.1 (status.mp success)
  refine meets_bind (meets_mono third ?_ (fun a member => Or.inr member) fun _ m₃ out => out) fun _ m₃ out => ?_
  · exact Set.union_subset_union_left _ fun a member => Or.inr member
  refine meets_done fun m₄ same => ⟨⟨status,fun failed => ?_⟩,fun success p y x above below after before => ?_,fun failed copies => ?_⟩
  · exact if_neg fun success => failed (status.mpr success)
  · have inside : (targetOf w b p).pixel x y ∈ ⋃ p, targetArea w b c p :=
      Set.mem_iUnion_of_mem p (mem_area above below after before)
    rw [same _ (Or.inr inside)]
    exact out.1 success p y x above below after before
  · exact agree_trans (agree_trans (made.2 copies) (out.2 failed)) (agree_mono Set.subset_union_right same)

end Cell

end AutoUpscale.ZimgWorker
