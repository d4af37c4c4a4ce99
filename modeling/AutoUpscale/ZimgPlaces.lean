import AutoUpscale.ZimgDrift
import AutoUpscale.ZimgWorker

/-!
The places of the zimg workers in the buffers of a frame. Worker by worker the plan and
the planes of a dispatch give the parts of `ZimgWorker` (`worker_fits`, `worker_ready`),
and every byte that may be written is one cell's alone (`own_unique`), so that no worker
writes what another one reads or writes (`workers_apart`).
-/
namespace AutoUpscale.ZimgPlaces
open AutoUpscale.Partition (Cuts cuts_apart cuts_bounds cuts_map cell_place)
open AutoUpscale.PlaneBuffer (Layout Sizable layoutOf layoutOf_sizable exactLines exactPitch planeBytes planeBytes_lines)
open AutoUpscale.PlaneUtils
open AutoUpscale.Programs AutoUpscale.Rows
open AutoUpscale.SizeType (SizeT)
open AutoUpscale.ZimgCells (Aligned CellBounds Geometry Graph Plane StripeWorker buildStripeGraph chromaDim_sub cutBounds cutBounds_even cuts_increase
  cuts_shift cutRect dstCols dstRows emitOutput_cut initStripeWorker planeShift planeShift_le poolConstruct_cuts shift_mono srcCols srcRows
  workerCopyInStripe_cut workerCopyOutStripe workerCopyOutTile zero_shift)
open AutoUpscale.ZimgHelpers (chromaDim chromaDim_exact)
open AutoUpscale.ZimgProcess (WorkerView)
open AutoUpscale.ZimgWorker
variable {g : Geometry} {n m i j : Nat}

/-! ## The cells as parts of the planes -/

/-- Worker `i` of `zimg_pool_construct`. -/
def worker (g : Geometry) (n m i : Nat) : StripeWorker := initStripeWorker g (cutBounds g n m (i / m) (i % m))

/-- The cuts of the rows of the source, of the rows and of the columns of the destination. -/
def sourceCut (g : Geometry) (n : Nat) (p : Plane) (row : Nat) : Nat := (srcRows g n p row).toNat

def rowCut (g : Geometry) (n : Nat) (p : Plane) (row : Nat) : Nat := (dstRows g n p row).toNat

def colCut (g : Geometry) (m : Nat) (p : Plane) (col : Nat) : Nat := (dstCols g m p col).toNat

/-- The size of a plane of the source. -/
def sourceSize (g : Geometry) : Plane → Nat × Nat := planeSize g.srcW g.srcH g.subW g.subH

/-- The size of a plane of the destination. -/
def targetSize (g : Geometry) : Plane → Nat × Nat := planeSize g.dstW g.dstH g.subW g.subH

/-- The part of cell `i`. -/
def part (g : Geometry) (n m i : Nat) : Part :=
  { srcWidth := fun p => (sourceSize g p).1, srcLow := fun p => sourceCut g n p (i / m), srcHigh := fun p => sourceCut g n p (i / m + 1),
    left := fun p => colCut g m p (i % m), right := fun p => colCut g m p (i % m + 1),
    low := fun p => rowCut g n p (i / m), high := fun p => rowCut g n p (i / m + 1) }

section Cuts
variable (aligned : Aligned g n m) (p : Plane)
include aligned

theorem dstRows_cuts : Cuts (dstRows g n p) n 0 (g.dstH >>> planeShift g.subH p) :=
  cuts_shift (dstCuts aligned.rowsPos aligned.dstH) _

theorem dstCols_cuts : Cuts (dstCols g m p) m 0 (g.dstW >>> planeShift g.subW p) :=
  cuts_shift (dstCuts aligned.colsPos aligned.dstW) _

theorem srcRows_cuts : Cuts (srcRows g n p) n 0 (g.srcH >>> planeShift g.subH p) :=
  cuts_shift (srcCuts aligned.rowsPos aligned.srcH aligned.dstH) _

theorem rowCut_cuts : Cuts (rowCut g n p) n 0 (targetSize g p).2 :=
  cuts_map (fun _ _ => Int.toNat_le_toNat) (dstRows_cuts aligned p)

theorem colCut_cuts : Cuts (colCut g m p) m 0 (targetSize g p).1 :=
  cuts_map (fun _ _ => Int.toNat_le_toNat) (dstCols_cuts aligned p)

theorem sourceCut_cuts : Cuts (sourceCut g n p) n 0 (sourceSize g p).2 :=
  cuts_map (fun _ _ => Int.toNat_le_toNat) (srcRows_cuts aligned p)

end Cuts

/-- The ends of an interval, as numbers of the source and as natural numbers. -/
structure Ends (f : Nat → Int) (k : Nat) : Prop where
  positive : 0 ≤ f k
  ordered : f k ≤ f (k + 1)

theorem cuts_ends {f : Nat → Int} {top : Int} {k : Nat} (cuts : Cuts f n 0 top) (inside : k < n) : Ends f k :=
  ⟨(cuts_bounds cuts (le_of_lt inside)).1,cuts.step k inside⟩

theorem ends_length {f : Nat → Int} {k : Nat} (ends : Ends f k) : (f (k + 1) - f k).toNat = (f (k + 1)).toNat - (f k).toNat :=
  Int.toNat_sub'' (le_trans ends.positive ends.ordered) ends.positive

theorem ends_cast {f : Nat → Int} {k : Nat} (ends : Ends f k) :
    ((f k).toNat : Int) = f k ∧ (((f (k + 1)).toNat - (f k).toNat : Nat) : Int) = f (k + 1) - f k := by
  obtain ⟨positive,ordered⟩ := ends
  omega

theorem buildStripeGraph_active {srcFullW left width : Int} {c : CellBounds} {subW subH : Nat}
    (active : (buildStripeGraph srcFullW c subW subH).active = some (left,width)) :
    left = c.cols.srcStart ∧ width = c.cols.srcEnd - c.cols.srcStart := by
  simp only [buildStripeGraph] at active
  split at active
  · obtain ⟨rfl,rfl⟩ := Prod.mk.inj (Option.some.inj active)
    exact ⟨rfl,rfl⟩
  · cases active

section Cell
variable (aligned : Aligned g n m) (inside : i < n * m) (p : Plane)
include aligned inside

theorem rowEnds : Ends (dstRows g n p) (i / m) := cuts_ends (dstRows_cuts aligned p) (cell_place inside).1

theorem colEnds : Ends (dstCols g m p) (i % m) := cuts_ends (dstCols_cuts aligned p) (cell_place inside).2

theorem sourceEnds : Ends (srcRows g n p) (i / m) := cuts_ends (srcRows_cuts aligned p) (cell_place inside).1

/-- The rows and columns of a graph's images are the differences of the cuts. -/
theorem worker_graph :
    srcSize (worker g n m i).graph p = ((part g n m i).srcWidth p,(part g n m i).srcHigh p - (part g n m i).srcLow p) ∧
    dstSize (worker g n m i).graph p =
      ((part g n m i).right p - (part g n m i).left p,(part g n m i).high p - (part g n m i).low p) := by
  obtain ⟨hr,hc⟩ := cell_place inside
  obtain ⟨_,rowsOk⟩ := aligned.rowsOk
  obtain ⟨_,colsOk⟩ := aligned.colsOk
  obtain ⟨taller,tallerSrc⟩ := cuts_increase aligned.srcH aligned.dstH rowsOk hr
  obtain ⟨wider,_⟩ := cuts_increase aligned.srcW aligned.dstW colsOk hc
  obtain ⟨tall,halvedH⟩ := planeShift_le aligned.subH p
  obtain ⟨wide,halvedW⟩ := planeShift_le aligned.subW p
  have source := (chromaDim_sub tall (le_of_lt tallerSrc) (fun one => two_dvd_srcCut (aligned.evenH (halvedH one)).1 _)
    (fun one => two_dvd_srcCut (aligned.evenH (halvedH one)).1 _)).2
  have rows := (chromaDim_sub tall (le_of_lt taller) (fun one => two_dvd_dstCut (aligned.evenH (halvedH one)).2 _)
    (fun one => two_dvd_dstCut (aligned.evenH (halvedH one)).2 _)).2
  have cols := (chromaDim_sub wide (le_of_lt wider) (fun one => two_dvd_dstCut (aligned.evenW (halvedW one)).2 _)
    (fun one => two_dvd_dstCut (aligned.evenW (halvedW one)).2 _)).2
  constructor
  · exact Prod.ext rfl ((congrArg Int.toNat source).trans (ends_length (sourceEnds aligned inside p)))
  · exact Prod.ext ((congrArg Int.toNat cols).trans (ends_length (colEnds aligned inside p)))
      ((congrArg Int.toNat rows).trans (ends_length (rowEnds aligned inside p)))

/-- Images that the library accepts. -/
theorem worker_wellFormed : WellFormed (worker g n m i).graph := by
  obtain ⟨hr,hc⟩ := cell_place inside
  obtain ⟨_,rowsOk⟩ := aligned.rowsOk
  obtain ⟨_,colsOk⟩ := aligned.colsOk
  obtain ⟨taller,tallerSrc⟩ := cuts_increase aligned.srcH aligned.dstH rowsOk hr
  obtain ⟨wider,widerSrc⟩ := cuts_increase aligned.srcW aligned.dstW colsOk hc
  obtain ⟨evenW,evenH⟩ := cutBounds_even aligned (i / m) (i % m)
  have cuts := srcCuts aligned.colsPos aligned.srcW aligned.dstW
  have left := (cuts_bounds cuts (le_of_lt hc)).1
  have right := (cuts_bounds cuts hc).2
  refine ⟨⟨aligned.subW,aligned.subH⟩,⟨aligned.srcW,?_,?_,?_⟩,fun one => (evenW one).2.2,fun one => (evenH one).2.2,fun start width active => ?_⟩
  · show 0 < srcCut n g.srcH g.dstH (i / m + 1) - srcCut n g.srcH g.dstH (i / m)
    omega
  · show 0 < dstCut m g.dstW (i % m + 1) - dstCut m g.dstW (i % m)
    omega
  · show 0 < dstCut n g.dstH (i / m + 1) - dstCut n g.dstH (i / m)
    omega
  · obtain ⟨rfl,rfl⟩ := buildStripeGraph_active active
    have next : srcCut m g.srcW g.dstW (i % m + 1) ≤ g.srcW := right
    refine ⟨left,sub_pos.mpr widerSrc,?_⟩
    show srcCut m g.srcW g.dstW (i % m) + (srcCut m g.srcW g.dstW (i % m + 1) - srcCut m g.srcW g.dstW (i % m)) ≤ g.srcW
    omega

omit p

/-- The worker of a cell is for its part. -/
theorem worker_fits : Fits (worker g n m i) (part g n m i) := by
  have shiftH : (worker g n m i).cell.subH = g.subH := if_pos (by have := aligned.subH; omega)
  have single : g.plan.colTiled = false → m = 1 := by
    intro untiled
    have positive := aligned.colsPos
    have few : ¬m > 1 := by simpa [aligned.tiled] using untiled
    omega
  have first : ∀ p, m = 1 → (part g n m i).left p = 0 ∧ (part g n m i).right p = (targetSize g p).1 := by
    rintro p rfl
    have cuts := colCut_cuts aligned p
    simp only [part,Nat.mod_one]
    exact ⟨cuts.first,cuts.last⟩
  have rect : ∀ p, cutRect (dstRows g n p) (dstCols g m p) (i / m) (i % m) =
      ⟨(part g n m i).left p,(part g n m i).low p,((part g n m i).right p - (part g n m i).left p : Nat),
        ((part g n m i).high p - (part g n m i).low p : Nat)⟩ := by
    intro p
    obtain ⟨low,height⟩ := ends_cast (rowEnds aligned inside p)
    obtain ⟨left,width⟩ := ends_cast (colEnds aligned inside p)
    simp only [cutRect,part,rowCut,colCut,low,height,left,width]
  refine ⟨worker_wellFormed aligned inside,fun p => ⟨?_,?_,?_⟩,fun p => (worker_graph aligned inside p).1,
    fun p => (worker_graph aligned inside p).2,fun p => ?_,fun p => ?_,fun untiled p => (first p (single untiled)).1,
    fun copies p => ?_,fun untiled copies p => ?_,fun tiled p => ?_⟩
  · exact Int.toNat_le_toNat (sourceEnds aligned inside p).ordered
  · exact Int.toNat_le_toNat (colEnds aligned inside p).ordered
  · exact Int.toNat_le_toNat (rowEnds aligned inside p).ordered
  · refine Eq.trans ?_ (ends_cast (sourceEnds aligned inside p)).1.symm
    cases p <;> simp only [srcOffset,shiftH,srcRows,planeShift] <;> simp [worker,initStripeWorker,cutBounds]
  · have row : (((part g n m i).low p : Nat) : Int) = dstRows g n p (i / m) := (ends_cast (rowEnds aligned inside p)).1
    rw [row]
    cases p with
    | y =>
      simp only [dstOffset,dstRows,planeShift,Int.shiftRight_zero]
      rfl
    | u =>
      simp only [dstOffset,shiftH,dstRows,planeShift]
      rfl
    | v =>
      simp only [dstOffset,shiftH,dstRows,planeShift]
      rfl
  · have direct : g.plan.srcZerocopy = false := by simpa [worker,initStripeWorker] using copies
    obtain ⟨low,height⟩ := ends_cast (sourceEnds aligned inside p)
    refine (workerCopyInStripe_cut aligned inside direct p).trans ?_
    obtain rfl := aligned.copies direct
    have cuts : Cuts (srcCols g 1 p) 1 0 (g.srcW >>> planeShift g.subW p) :=
      cuts_shift (srcCuts aligned.colsPos aligned.srcW aligned.dstW) _
    have width : (((part g n 1 i).srcWidth p : Nat) : Int) = srcCols g 1 p 1 := by
      rw [cuts.last]
      exact Int.toNat_of_nonneg (cuts.first ▸ (cuts_bounds cuts (Nat.zero_le 1)).2)
    simp only [cutRect,Nat.mod_one,cuts.first,width,Int.sub_zero,Nat.zero_add]
    simp only [part,sourceCut,low,height]
  · refine Eq.trans ?_ ((emitOutput_cut aligned inside p).trans ((rect p).trans ?_))
    · have out : (worker g n m i).copyOut = true := copies
      have no : (worker g n m i).colTiled = false := untiled
      simp only [worker] at out no
      simp [ZimgCells.emitOutput,out,no,worker]
    · rw [(first p (single untiled)).1]
      simp
  · refine Eq.trans ?_ ((emitOutput_cut aligned inside p).trans (rect p))
    have yes : (worker g n m i).colTiled = true := tiled
    simp only [worker] at yes
    simp [ZimgCells.emitOutput,yes,worker]

end Cell

/-! ## The buffers of a frame -/

/-- What `init_stripe_worker` and `build_worker_graph_and_tmp` leave in the buffers of a
    worker. A plane that is not allocated is null until a frame points it to a picture. -/
def initBuffers (g : Geometry) (w : StripeWorker) (i : Nat) : Buffers :=
  { src := planeBufferView (.scratch .src) (layoutOf g.srcW g.srcH g.subW g.subH),
    dst :=
      if w.colTiled then
        planeBufferView (.tile i) (layoutOf w.cell.dstW (w.cell.dstYEnd - w.cell.dstYStart) g.subW g.subH)
      else planeBufferView (.scratch .dst) (layoutOf g.dstW g.dstH g.subW g.subH),
    vlcSrc := fun _ => ⟨⟨.pictures,0⟩,0⟩, vlcDst := fun _ => ⟨⟨.pictures,0⟩,0⟩, tmp := ⟨.tmp i,0⟩ }

/-- The buffers of worker `i` once `zimg_process` has pointed them to the planes of a
    frame. -/
def frameBuffers (g : Geometry) (n m : Nat) (src dst : WorkerView) (i : Nat) : Buffers :=
  pointPlanes (pointPlanes (initBuffers g (worker g n m i) i) src .src g.plan.srcZerocopy) dst .dst g.plan.dstZerocopy

/-- The pixels of a plane of the source. -/
def sourcePlane (g : Geometry) (src : WorkerView) (p : Plane) : Set (Pointer Block) :=
  (pictureView src p).area 0 (sourceSize g p).1 0 (sourceSize g p).2

/-- The rows of a plane of the destination, with the bytes between two of them. -/
def targetPlane (g : Geometry) (dst : WorkerView) (p : Plane) : Set (Pointer Block) :=
  (pictureView dst p).area 0 (pictureView dst p).pitch.toNat 0 (targetSize g p).2

/-- Pictures that a frame can be processed on: rows as wide as the planes, no byte of the
    destination in two planes or in the source too, and aligned where the plan touches them
    directly. -/
structure Pictures (g : Geometry) (src dst : WorkerView) : Prop where
  srcPitch : ∀ p, ((sourceSize g p).1 : Int) ≤ (pictureView src p).pitch
  dstPitch : ∀ p, ((targetSize g p).1 : Int) ≤ (pictureView dst p).pitch
  srcAligned : g.plan.srcZerocopy = true → ZimgProcess.Aligned src
  dstAligned : g.plan.dstZerocopy = true → ZimgProcess.Aligned dst
  apart : ∀ p q, Disjoint (sourcePlane g src p) (targetPlane g dst q)
  separate : ∀ p q, p ≠ q → Disjoint (targetPlane g dst p) (targetPlane g dst q)

/-- The buffers that the plan asks for have been allocated. -/
structure Buffered (z : SizeT) (g : Geometry) (n m : Nat) : Prop where
  source : g.plan.srcZerocopy = false → Sizable z g.srcW g.srcH g.subW g.subH
  target : g.plan.dstZerocopy = false → g.plan.colTiled = false → Sizable z g.dstW g.dstH g.subW g.subH
  tile : g.plan.colTiled = true → ∀ i < n * m, Sizable z (worker g n m i).cell.dstW
    ((worker g n m i).cell.dstYEnd - (worker g n m i).cell.dstYStart) g.subW g.subH

/-- A plan and the planes of a frame that it is run on. -/
structure Setting (z : SizeT) (g : Geometry) (n m : Nat) (src dst : WorkerView) : Prop where
  aligned : Aligned g n m
  /-- Tiles are always copied out. -/
  tiles : g.plan.colTiled = true → g.plan.dstZerocopy = false
  pictures : Pictures g src dst
  buffered : Buffered z g n m

variable {z : SizeT} {src dst : WorkerView}

theorem sourceOf_frame : sourceOf (worker g n m i) (frameBuffers g n m src dst i) = pictureView src := by
  have copies : (worker g n m i).copyIn = !g.plan.srcZerocopy := rfl
  rw [sourceOf,copies]
  cases direct : g.plan.srcZerocopy <;> cases out : g.plan.dstZerocopy <;> simp [frameBuffers,direct,out,pointPlanes]

theorem targetOf_frame (tiles : g.plan.colTiled = true → g.plan.dstZerocopy = false) :
    targetOf (worker g n m i) (frameBuffers g n m src dst i) = pictureView dst := by
  have copies : emits (worker g n m i) = (g.plan.colTiled || !g.plan.dstZerocopy) := rfl
  rw [targetOf,copies]
  cases out : g.plan.dstZerocopy with
  | false => cases direct : g.plan.srcZerocopy <;> simp [frameBuffers,direct,out,pointPlanes]
  | true =>
    have untiled : g.plan.colTiled = false := by
      by_contra tiled
      exact absurd ((tiles (by simpa using tiled)).symm.trans out) (by decide)
    cases direct : g.plan.srcZerocopy <;> simp [frameBuffers,direct,out,untiled,pointPlanes]

theorem frameBuffers_src : (frameBuffers g n m src dst i).src =
    if g.plan.srcZerocopy then pictureView src else planeBufferView (.scratch .src) (layoutOf g.srcW g.srcH g.subW g.subH) := by
  cases direct : g.plan.srcZerocopy <;> cases out : g.plan.dstZerocopy <;> simp [frameBuffers,direct,out,pointPlanes,initBuffers]

theorem frameBuffers_dst : (frameBuffers g n m src dst i).dst =
    if g.plan.dstZerocopy then pictureView dst else (initBuffers g (worker g n m i) i).dst := by
  cases direct : g.plan.srcZerocopy <;> cases out : g.plan.dstZerocopy <;> simp [frameBuffers,direct,out,pointPlanes]

theorem frameBuffers_tmp : (frameBuffers g n m src dst i).tmp = ⟨.tmp i,0⟩ := by
  cases direct : g.plan.srcZerocopy <;> cases out : g.plan.dstZerocopy <;> simp [frameBuffers,direct,out,pointPlanes,initBuffers]

theorem shift_nonneg {v : Int} (positive : 0 ≤ v) (s : Nat) : 0 ≤ v >>> s := by
  simpa only [zero_shift] using shift_mono s _ _ positive

/-- The rows of a buffer are aligned and hold the columns of the image. -/
theorem layout_room {width height : Int} {subW subH : Nat} (halvedW : subW ≤ 1) (halvedH : subH ≤ 1)
    (even : subW = 1 → 2 ∣ width) (sizable : Sizable z width height subW subH) (p : Plane) :
    (32 : Int) ∣ (layoutOf width height subW subH).pitch p ∧
      width >>> planeShift subW p ≤ (layoutOf width height subW subH).pitch p := by
  obtain ⟨wide,halved⟩ := planeShift_le halvedW p
  have exactly := chromaDim_exact wide (le_of_lt sizable.wide) (fun one => even (halved one))
  rw [(layoutOf_sizable halvedW halvedH sizable p).1,exactPitch,exactly]
  exact ⟨by omega,by omega⟩

/-- The pixels of a buffer are in the block of their plane. -/
theorem buffer_inside {width height : Int} {subW subH left right low high : Nat} {block : Plane → Block} {p : Plane}
    {a : Pointer Block} (halvedW : subW ≤ 1) (halvedH : subH ≤ 1) (even : subH = 1 → 2 ∣ height)
    (sizable : Sizable z width height subW subH)
    (member : a ∈ (planeBufferView block (layoutOf width height subW subH) p).area left right low high)
    (room : right ≤ ((layoutOf width height subW subH).pitch p).toNat) (rows : high ≤ (height >>> planeShift subH p).toNat) :
    a.offset < planeBytes z (layoutOf width height subW subH) p := by
  obtain ⟨tall,halved⟩ := planeShift_le halvedH p
  have exactly := chromaDim_exact tall (le_of_lt sizable.tall) fun one => even (halved one)
  have whole : high ≤ (exactLines height (planeShift subH p)).toNat := by
    rw [exactLines,exactly]
    omega
  rw [planeBytes_lines halvedW halvedH sizable p]
  simpa [planeBufferView] using area_offset member room whole

/-- The planes of a picture that the workers touch directly. -/
theorem aligned_plane {view : WorkerView} (aligned : ZimgProcess.Aligned view) (p : Plane) :
    32 ∣ (pictureView view p).data.offset ∧ (32 : Int) ∣ (pictureView view p).pitch := by
  cases p
  · exact aligned view.y (by simp)
  · exact aligned view.u (by simp)
  · exact aligned view.v (by simp)

section Setting
variable (setting : Setting z g n m src dst) (inside : i < n * m) (p : Plane)
include setting

/-- The buffer that the workers read. -/
theorem input_laid : 32 ∣ ((frameBuffers g n m src dst i).src p).data.offset ∧
    (32 : Int) ∣ ((frameBuffers g n m src dst i).src p).pitch ∧
    ((sourceSize g p).1 : Int) ≤ ((frameBuffers g n m src dst i).src p).pitch := by
  obtain ⟨aligned,-,pictures,buffered⟩ := setting
  rw [frameBuffers_src]
  cases direct : g.plan.srcZerocopy with
  | true =>
    obtain ⟨address,stride⟩ := aligned_plane (pictures.srcAligned direct) p
    exact ⟨address,stride,pictures.srcPitch p⟩
  | false =>
    obtain ⟨stride,room⟩ := layout_room aligned.subW aligned.subH (fun one => (aligned.evenW one).1) (buffered.source direct) p
    refine ⟨dvd_zero 32,stride,?_⟩
    rw [sourceSize,planeSize,Int.toNat_of_nonneg (shift_nonneg (le_of_lt aligned.srcW) _)]
    exact room

include inside in
/-- The buffer that the graph of a worker writes. -/
theorem image_laid : 32 ∣ ((frameBuffers g n m src dst i).dst p).data.offset ∧
    (32 : Int) ∣ ((frameBuffers g n m src dst i).dst p).pitch ∧
    (((part g n m i).right p - (part g n m i).left p : Nat) : Int) ≤ ((frameBuffers g n m src dst i).dst p).pitch := by
  obtain ⟨aligned,tiles,pictures,buffered⟩ := setting
  have within : (part g n m i).right p ≤ (targetSize g p).1 := (cuts_bounds (colCut_cuts aligned p) (cell_place inside).2).2
  rw [frameBuffers_dst]
  cases direct : g.plan.dstZerocopy with
  | true =>
    obtain ⟨address,stride⟩ := aligned_plane (pictures.dstAligned direct) p
    refine ⟨address,stride,?_⟩
    have room := pictures.dstPitch p
    simp only [if_true]
    omega
  | false =>
    simp only [Bool.false_eq_true,if_false]
    cases tiled : g.plan.colTiled with
    | true =>
      have sizable := buffered.tile tiled i inside
      have even : g.subW = 1 → 2 ∣ (worker g n m i).cell.dstW :=
        fun one => ((cutBounds_even aligned (i / m) (i % m)).1 one).2.1
      obtain ⟨stride,room⟩ := layout_room aligned.subW aligned.subH even sizable p
      have buffer : (initBuffers g (worker g n m i) i).dst p =
          ⟨⟨.tile i p,0⟩,(layoutOf (worker g n m i).cell.dstW
            ((worker g n m i).cell.dstYEnd - (worker g n m i).cell.dstYStart) g.subW g.subH).pitch p⟩ := by
        have copies : (worker g n m i).colTiled = true := tiled
        simp [initBuffers,copies,planeBufferView]
      rw [buffer]
      refine ⟨dvd_zero 32,stride,?_⟩
      have width : ((worker g n m i).cell.dstW >>> planeShift g.subW p).toNat = (part g n m i).right p - (part g n m i).left p :=
        congrArg Prod.fst (worker_graph aligned inside p).2
      rw [← width,Int.toNat_of_nonneg (shift_nonneg (le_of_lt sizable.wide) _)]
      exact room
    | false =>
      obtain ⟨stride,room⟩ := layout_room aligned.subW aligned.subH (fun one => (aligned.evenW one).2)
        (buffered.target direct tiled) p
      have buffer : (initBuffers g (worker g n m i) i).dst p =
          ⟨⟨.scratch .dst p,0⟩,(layoutOf g.dstW g.dstH g.subW g.subH).pitch p⟩ := by
        have copies : (worker g n m i).colTiled = false := tiled
        simp [initBuffers,copies,planeBufferView]
      rw [buffer]
      refine ⟨dvd_zero 32,stride,?_⟩
      have whole : ((targetSize g p).1 : Int) = g.dstW >>> planeShift g.subW p :=
        Int.toNat_of_nonneg (shift_nonneg (le_of_lt aligned.dstW) _)
      show _ ≤ (layoutOf g.dstW g.dstH g.subW g.subH).pitch p
      omega

end Setting

/-! ## Places of their own -/

/-- The column of a destination plane up to which cell `i` may write: the last of its cell
    where it is copied out, else that of the padding of the library. -/
def written (g : Geometry) (n m i : Nat) (p : Plane) : Nat :=
  if emits (worker g n m i) then (part g n m i).right p else padded ((part g n m i).right p - (part g n m i).left p)

/-- Rows of a scratch plane. -/
def scratchRows (side : Side) (layout : Layout) (p : Plane) (low high : Nat) : Set (Pointer Block) :=
  (planeBufferView (.scratch side) layout p).area 0 (layout.pitch p).toNat low high

/-- The bytes that are cell `i`'s alone. -/
def Own (g : Geometry) (n m : Nat) (dst : WorkerView) (i : Nat) (a : Pointer Block) : Prop :=
  match a.block with
  | .pictures => ∃ p, a ∈ (pictureView dst p).area ((part g n m i).left p) (written g n m i p) ((part g n m i).low p)
      ((part g n m i).high p)
  | .scratch .src p => m = 1 ∧
      a ∈ scratchRows .src (layoutOf g.srcW g.srcH g.subW g.subH) p ((part g n m i).srcLow p) ((part g n m i).srcHigh p)
  | .scratch .dst p => m = 1 ∧
      a ∈ scratchRows .dst (layoutOf g.dstW g.dstH g.subW g.subH) p ((part g n m i).low p) ((part g n m i).high p)
  | .tile cell _ => cell = i
  | .tmp cell => cell = i

/-- The bytes of the buffers that the plan asks for. -/
def Reserved (z : SizeT) (g : Geometry) (n m : Nat) (a : Pointer Block) : Prop :=
  match a.block with
  | .pictures => False
  | .scratch .src p => g.plan.srcZerocopy = false ∧ a.offset < planeBytes z (layoutOf g.srcW g.srcH g.subW g.subH) p
  | .scratch .dst p => g.plan.dstZerocopy = false ∧ g.plan.colTiled = false ∧
      a.offset < planeBytes z (layoutOf g.dstW g.dstH g.subW g.subH) p
  | .tile i p => g.plan.colTiled = true ∧ i < n * m ∧ a.offset < planeBytes z (layoutOf (worker g n m i).cell.dstW
      ((worker g n m i).cell.dstYEnd - (worker g n m i).cell.dstYStart) g.subW g.subH) p
  | .tmp i => i < n * m

/-- The columns of a plane of the destination that may be written: those of the picture,
    and the padding of the library where it writes the picture itself. -/
def reach (g : Geometry) (p : Plane) : Nat := if g.plan.dstZerocopy then padded (targetSize g p).1 else (targetSize g p).1

/-- A worker that does not copy out writes the picture itself. -/
theorem silent_direct (silent : ¬emits (worker g n m i) = true) : g.plan.colTiled = false ∧ g.plan.dstZerocopy = true := by
  simpa [emits,worker,initStripeWorker] using silent

section Places
variable (setting : Setting z g n m src dst)
include setting

theorem single_column (untiled : g.plan.colTiled = false) : m = 1 := by
  have positive := setting.aligned.colsPos
  have few : ¬m > 1 := by simpa [setting.aligned.tiled] using untiled
  omega

/-- The rows of the destination, as far as they may be written, lie in its planes. -/
theorem reach_subset (p : Plane) : (pictureView dst p).area 0 (reach g p) 0 (targetSize g p).2 ⊆ targetPlane g dst p := by
  have room := setting.pictures.dstPitch p
  refine area_mono (le_refl _) ?_ (le_refl _) (le_refl _)
  unfold reach
  split
  · next direct => exact (padded_le room (aligned_plane (setting.pictures.dstAligned direct) p).2).2
  · omega

variable (inside : i < n * m)
include inside

/-- A worker writes no column past the pitch of the picture. -/
theorem written_le (p : Plane) : written g n m i p ≤ (pictureView dst p).pitch.toNat := by
  have within : (part g n m i).right p ≤ (targetSize g p).1 :=
    (cuts_bounds (colCut_cuts setting.aligned p) (cell_place inside).2).2
  have room := setting.pictures.dstPitch p
  unfold written
  split
  · omega
  · next silent =>
    have direct := (silent_direct silent).2
    exact (padded_le (by omega) (aligned_plane (setting.pictures.dstAligned direct) p).2).2

theorem written_reach (p : Plane) : written g n m i p ≤ reach g p := by
  have within : (part g n m i).right p ≤ (targetSize g p).1 :=
    (cuts_bounds (colCut_cuts setting.aligned p) (cell_place inside).2).2
  unfold written reach padded
  split
  · split <;> omega
  · next silent =>
    rw [if_pos (silent_direct silent).2]
    omega

theorem picture_subset (p : Plane) : (pictureView dst p).area ((part g n m i).left p) (written g n m i p) ((part g n m i).low p)
    ((part g n m i).high p) ⊆ targetPlane g dst p :=
  area_mono (Nat.zero_le _) (written_le setting inside p) (Nat.zero_le _)
    (cuts_bounds (rowCut_cuts setting.aligned p) (cell_place inside).1).2

/-- No byte is two cells'. -/
theorem own_unique (inside' : j < n * m) {a : Pointer Block} (left : Own g n m dst i a) (right : Own g n m dst j a) : i = j := by
  by_contra different
  have aligned := setting.aligned
  obtain ⟨hr,hc⟩ := cell_place inside
  obtain ⟨hr',hc'⟩ := cell_place inside'
  have rows : m = 1 → i / m ≠ j / m := by
    rintro rfl
    simpa using different
  unfold Own at left right
  cases block : a.block with
  | tile cell p =>
    rw [block] at left right
    exact different (left.symm.trans right)
  | tmp cell =>
    rw [block] at left right
    exact different (left.symm.trans right)
  | scratch side p =>
    rw [block] at left right
    cases side with
    | src =>
      have before := cuts_apart (sourceCut_cuts aligned p) hr hr' (rows left.1)
      exact Set.disjoint_left.mp (areas_apart (le_refl _) (le_refl _) (before.imp id Or.inl)) left.2 right.2
    | dst =>
      have before := cuts_apart (rowCut_cuts aligned p) hr hr' (rows left.1)
      exact Set.disjoint_left.mp (areas_apart (le_refl _) (le_refl _) (before.imp id Or.inl)) left.2 right.2
  | pictures =>
    rw [block] at left right
    obtain ⟨p,here⟩ := left
    obtain ⟨q,there⟩ := right
    by_cases other : p ≠ q
    · exact Set.disjoint_left.mp (setting.pictures.separate p q other) (picture_subset setting inside p here)
        (picture_subset setting inside' q there)
    obtain rfl := not_not.mp other
    refine Set.disjoint_left.mp (areas_apart (written_le setting inside p) (written_le setting inside' p) ?_) here there
    by_cases sameRow : i / m = j / m
    · -- Cells of one row are copied out of their tiles.
      have sameCol : i % m ≠ j % m := by
        intro same
        refine different ?_
        rw [← Nat.div_add_mod i m,sameRow,same,Nat.div_add_mod]
      have emitting : ∀ k, emits (worker g n m k) = true := by
        intro k
        by_contra silent
        exact rows (single_column setting (silent_direct silent).1) sameRow
      simp only [written,emitting,if_true]
      exact Or.inr (Or.inr (cuts_apart (colCut_cuts aligned p) hc hc' sameCol))
    · exact (cuts_apart (rowCut_cuts aligned p) hr hr' sameRow).imp id Or.inl

/-! ## What a worker reads and writes -/

theorem source_subset (p : Plane) : sourceArea (worker g n m i) (frameBuffers g n m src dst i) (part g n m i) p ⊆
    sourcePlane g src p := by
  rw [sourceArea,sourceOf_frame]
  exact area_mono (le_refl _) (le_refl _) (Nat.zero_le _) (cuts_bounds (sourceCut_cuts setting.aligned p) (cell_place inside).1).2

theorem input_own {p : Plane} {a : Pointer Block}
    (member : a ∈ inputArea (frameBuffers g n m src dst i) (part g n m i) p) :
    if g.plan.srcZerocopy then a ∈ sourcePlane g src p else a.block = .scratch .src p ∧ Own g n m dst i a := by
  rw [inputArea,frameBuffers_src] at member
  cases direct : g.plan.srcZerocopy with
  | true =>
    simp only [direct,if_true] at member ⊢
    exact area_mono (le_refl _) (le_refl _) (Nat.zero_le _)
      (cuts_bounds (sourceCut_cuts setting.aligned p) (cell_place inside).1).2 member
  | false =>
    simp only [direct,Bool.false_eq_true,if_false] at member ⊢
    have block : a.block = .scratch .src p := area_block member
    have room := (input_laid (i := i) setting p).2.2
    simp only [frameBuffers_src,direct,Bool.false_eq_true,if_false,planeBufferView] at room
    have wide : (sourceSize g p).1 ≤ ((layoutOf g.srcW g.srcH g.subW g.subH).pitch p).toNat := by omega
    refine ⟨block,?_⟩
    rw [Own,block]
    exact ⟨setting.aligned.copies direct,area_mono (le_refl _) wide (le_refl _) (le_refl _) member⟩

theorem target_own {p : Plane} {a : Pointer Block}
    (member : a ∈ targetArea (worker g n m i) (frameBuffers g n m src dst i) (part g n m i) p) :
    a.block = .pictures ∧ a ∈ targetPlane g dst p ∧ Own g n m dst i a := by
  rw [targetArea,targetOf_frame setting.tiles] at member
  have right : (part g n m i).right p ≤ written g n m i p := by
    unfold written
    split
    · exact le_refl _
    · next silent =>
      have first := (worker_fits setting.aligned inside).untiled (silent_direct silent).1 p
      unfold padded
      omega
  have own := area_mono (le_refl _) right (le_refl _) (le_refl _) member
  have block : a.block = .pictures := (area_block member).trans (by cases p <;> rfl)
  refine ⟨block,picture_subset setting inside p own,?_⟩
  rw [Own,block]
  exact ⟨p,own⟩

theorem image_own {p : Plane} {a : Pointer Block}
    (member : a ∈ imageArea (worker g n m i) (frameBuffers g n m src dst i) (part g n m i) p) : Own g n m dst i a ∧
    if g.plan.dstZerocopy then a ∈ targetPlane g dst p
    else a.block = if g.plan.colTiled then .tile i p else .scratch .dst p := by
  have stop : (part g n m i).low p + ((part g n m i).high p - (part g n m i).low p) = (part g n m i).high p :=
    Nat.add_sub_of_le (Int.toNat_le_toNat (rowEnds setting.aligned inside p).ordered)
  obtain ⟨-,stride,room⟩ := image_laid setting inside p
  have wide := (padded_le room stride).2
  rw [imageArea] at member
  cases direct : g.plan.dstZerocopy with
  | true =>
    have untiled : g.plan.colTiled = false := by
      by_contra tiled
      exact absurd ((setting.tiles (by simpa using tiled)).symm.trans direct) (by decide)
    have silent : emits (worker g n m i) = false := by simp [emits,worker,initStripeWorker,untiled,direct]
    have start : top (worker g n m i) (part g n m i) p = (part g n m i).low p :=
      if_neg (show ¬g.plan.colTiled = true by simp [untiled])
    have first := (worker_fits setting.aligned inside).untiled untiled p
    have reach : written g n m i p = padded ((part g n m i).right p - (part g n m i).left p) := by
      rw [written,if_neg (by simp [silent])]
    rw [frameBuffers_dst,direct,start,stop] at member
    have own := area_mono (le_of_eq first) (le_of_eq reach.symm) (le_refl _) (le_refl _) member
    have block : a.block = .pictures := (area_block member).trans (by cases p <;> rfl)
    refine ⟨?_,picture_subset setting inside p own⟩
    rw [Own,block]
    exact ⟨p,own⟩
  | false =>
    simp only [Bool.false_eq_true,if_false]
    have buffer : (frameBuffers g n m src dst i).dst = (initBuffers g (worker g n m i) i).dst := by
      rw [frameBuffers_dst,direct]
      rfl
    rw [buffer] at member wide
    cases tiled : g.plan.colTiled with
    | true =>
      have place : (initBuffers g (worker g n m i) i).dst p = planeBufferView (.tile i)
          (layoutOf (worker g n m i).cell.dstW ((worker g n m i).cell.dstYEnd - (worker g n m i).cell.dstYStart) g.subW g.subH) p :=
        congrFun (if_pos tiled) p
      have block : a.block = .tile i p := (area_block member).trans (by rw [place]; rfl)
      refine ⟨?_,block⟩
      rw [Own,block]
    | false =>
      have copied : ¬(worker g n m i).colTiled = true := show ¬g.plan.colTiled = true by simp [tiled]
      have place : (initBuffers g (worker g n m i) i).dst p =
          planeBufferView (.scratch .dst) (layoutOf g.dstW g.dstH g.subW g.subH) p := congrFun (if_neg copied) p
      have start : top (worker g n m i) (part g n m i) p = (part g n m i).low p := if_neg copied
      rw [place] at member wide
      rw [start,stop] at member
      have block : a.block = .scratch .dst p := area_block member
      refine ⟨?_,block⟩
      rw [Own,block]
      exact ⟨single_column setting tiled,area_mono (le_refl _) wide (le_refl _) (le_refl _) member⟩

/-- What the graph of a worker writes is in no block of the source. -/
theorem graph_own {a : Pointer Block} (member : a ∈ graphWritten (worker g n m i) (frameBuffers g n m src dst i) (part g n m i)) :
    Own g n m dst i a ∧
    (a.block = .tmp i ∨ ∃ p, if g.plan.dstZerocopy then a ∈ targetPlane g dst p
      else a.block = if g.plan.colTiled then .tile i p else .scratch .dst p) := by
  rcases member with temporary | image
  · have block : a.block = .tmp i := temporary.trans (by rw [frameBuffers_tmp])
    refine ⟨?_,Or.inl block⟩
    rw [Own,block]
  · obtain ⟨p,member⟩ := Set.mem_iUnion.mp image
    obtain ⟨own,place⟩ := image_own setting inside member
    exact ⟨own,Or.inr ⟨p,place⟩⟩

theorem touched_own {a : Pointer Block} (member : a ∈ touched (worker g n m i) (frameBuffers g n m src dst i) (part g n m i)) :
    Own g n m dst i a := by
  rcases member with (⟨copies,input⟩ | graph) | target
  · obtain ⟨p,member⟩ := Set.mem_iUnion.mp input
    have direct : g.plan.srcZerocopy = false := by simpa [worker,initStripeWorker] using copies
    have own := input_own setting inside member
    rw [direct] at own
    exact own.2
  · exact (graph_own setting inside graph).1
  · obtain ⟨p,member⟩ := Set.mem_iUnion.mp target
    exact (target_own setting inside member).2.2

/-- Of the pictures a worker writes only rows of the destination, as far as they reach. -/
theorem touched_reach {a : Pointer Block} (member : a ∈ touched (worker g n m i) (frameBuffers g n m src dst i) (part g n m i))
    (block : a.block = .pictures) : ∃ p, a ∈ (pictureView dst p).area 0 (reach g p) 0 (targetSize g p).2 := by
  have own := touched_own setting inside member
  rw [Own,block] at own
  obtain ⟨p,here⟩ := own
  exact ⟨p,area_mono (Nat.zero_le _) (written_reach setting inside p) (Nat.zero_le _)
    (cuts_bounds (rowCut_cuts setting.aligned p) (cell_place inside).1).2 here⟩

theorem input_reserved {p : Plane} {a : Pointer Block} (copies : g.plan.srcZerocopy = false)
    (member : a ∈ inputArea (frameBuffers g n m src dst i) (part g n m i) p) : Reserved z g n m a := by
  obtain ⟨block,own⟩ : a.block = .scratch .src p ∧ Own g n m dst i a := by simpa [copies] using input_own setting inside member
  have aligned := setting.aligned
  rw [Own,block] at own
  rw [Reserved,block]
  refine ⟨copies,buffer_inside aligned.subW aligned.subH (fun one => (aligned.evenH one).1) (setting.buffered.source copies) own.2
    (le_refl _) ?_⟩
  exact (cuts_bounds (sourceCut_cuts aligned p) (cell_place inside).1).2

theorem image_reserved {p : Plane} {a : Pointer Block} (other : a.block ≠ .pictures)
    (member : a ∈ imageArea (worker g n m i) (frameBuffers g n m src dst i) (part g n m i) p) : Reserved z g n m a := by
  obtain ⟨own,place⟩ := image_own setting inside member
  have aligned := setting.aligned
  cases direct : g.plan.dstZerocopy with
  | true =>
    rw [direct,if_pos rfl] at place
    exact absurd ((area_block place).trans (by cases p <;> rfl)) other
  | false =>
    rw [direct,if_neg (by decide)] at place
    cases tiled : g.plan.colTiled with
    | false =>
      have block : a.block = .scratch .dst p := by simpa [tiled] using place
      rw [Own,block] at own
      rw [Reserved,block]
      refine ⟨direct,tiled,buffer_inside aligned.subW aligned.subH (fun one => (aligned.evenH one).2)
        (setting.buffered.target direct tiled) own.2 (le_refl _) ?_⟩
      exact (cuts_bounds (rowCut_cuts aligned p) (cell_place inside).1).2
    | true =>
      have block : a.block = .tile i p := by simpa [tiled] using place
      obtain ⟨-,stride,room⟩ := image_laid setting inside p
      have wide := (padded_le room stride).2
      have buffer : (frameBuffers g n m src dst i).dst p = planeBufferView (.tile i)
          (layoutOf (worker g n m i).cell.dstW ((worker g n m i).cell.dstYEnd - (worker g n m i).cell.dstYStart) g.subW g.subH) p := by
        rw [frameBuffers_dst,direct]
        exact congrFun (if_pos tiled) p
      have first : top (worker g n m i) (part g n m i) p = 0 := if_pos tiled
      rw [imageArea,buffer,first,Nat.zero_add] at member
      rw [buffer] at wide
      rw [Reserved,block]
      refine ⟨tiled,inside,buffer_inside aligned.subW aligned.subH
        (fun one => ((cutBounds_even aligned (i / m) (i % m)).2 one).2.1) (setting.buffered.tile tiled i inside) member wide ?_⟩
      exact le_of_eq (congrArg Prod.snd (worker_graph aligned inside p).2).symm

/-- Of its buffers a worker writes only what the plan has asked for. -/
theorem touched_reserved {a : Pointer Block} (member : a ∈ touched (worker g n m i) (frameBuffers g n m src dst i) (part g n m i))
    (other : a.block ≠ .pictures) : Reserved z g n m a := by
  rcases member with (⟨copies,input⟩ | temporary | image) | target
  · obtain ⟨p,member⟩ := Set.mem_iUnion.mp input
    exact input_reserved setting inside (by simpa [worker,initStripeWorker] using copies) member
  · have block : a.block = .tmp i := temporary.trans (by rw [frameBuffers_tmp])
    rw [Reserved,block]
    exact inside
  · obtain ⟨p,member⟩ := Set.mem_iUnion.mp image
    exact image_reserved setting inside other member
  · obtain ⟨p,member⟩ := Set.mem_iUnion.mp target
    exact absurd (target_own setting inside member).1 other

theorem seen_own {a : Pointer Block} (member : a ∈ seen (worker g n m i) (frameBuffers g n m src dst i) (part g n m i)) :
    (∃ p, a ∈ sourcePlane g src p) ∨ Own g n m dst i a := by
  rcases member with ((source | input) | graph) | target
  · obtain ⟨p,member⟩ := Set.mem_iUnion.mp source
    exact Or.inl ⟨p,source_subset setting inside p member⟩
  · obtain ⟨p,member⟩ := Set.mem_iUnion.mp input
    have own := input_own setting inside member
    split at own
    · exact Or.inl ⟨p,own⟩
    · exact Or.inr own.2
  · exact Or.inr (graph_own setting inside graph).1
  · obtain ⟨p,member⟩ := Set.mem_iUnion.mp target
    exact Or.inr (target_own setting inside member).2.2

/-- No cell may write the source. -/
theorem own_source {p : Plane} {a : Pointer Block} (own : Own g n m dst i a) (member : a ∈ sourcePlane g src p) : False := by
  have block : a.block = .pictures := (area_block member).trans (by cases p <;> rfl)
  rw [Own,block] at own
  obtain ⟨q,member'⟩ := own
  exact Set.disjoint_left.mp (setting.pictures.apart p q) member (picture_subset setting inside q member')

/-- No worker writes what another one reads or writes. -/
theorem workers_apart (inside' : j < n * m) (different : i ≠ j) :
    Disjoint (seen (worker g n m i) (frameBuffers g n m src dst i) (part g n m i))
      (touched (worker g n m j) (frameBuffers g n m src dst j) (part g n m j)) := by
  refine Set.disjoint_left.mpr fun a reading writing => ?_
  have theirs := touched_own setting inside' writing
  rcases seen_own setting inside reading with ⟨p,source⟩ | ours
  · exact own_source setting inside' theirs source
  · exact different (own_unique setting inside inside' ours theirs)

/-- In the buffers of a frame every cell finds its place. -/
theorem worker_ready : Ready (worker g n m i) (frameBuffers g n m src dst i) (part g n m i) := by
  have pictures := setting.pictures
  have sourceBlock : ∀ {p : Plane} {a : Pointer Block}, a ∈ sourcePlane g src p → a.block = .pictures := by
    intro p a member
    exact (area_block member).trans (by cases p <;> rfl)
  have targetBlock : ∀ {p : Plane} {a : Pointer Block}, a ∈ targetPlane g dst p → a.block = .pictures := by
    intro p a member
    exact (area_block member).trans (by cases p <;> rfl)
  refine ⟨fun p => input_laid setting p,fun p => image_laid setting inside p,fun p => ?_,fun p => ?_,fun p => ?_,?_,
    fun p q different => ?_,fun copies => ?_,fun copies => ?_⟩
  · rw [sourceOf_frame]
    exact pictures.srcPitch p
  · rw [targetOf_frame setting.tiles]
    have within : (part g n m i).right p ≤ (targetSize g p).1 :=
      (cuts_bounds (colCut_cuts setting.aligned p) (cell_place inside).2).2
    exact le_trans (Int.ofNat_le.mpr within) (pictures.dstPitch p)
  · rw [frameBuffers_tmp,frameBuffers_dst]
    cases direct : g.plan.dstZerocopy with
    | true => cases p <;> exact Block.noConfusion
    | false =>
      simp only [Bool.false_eq_true,if_false,initBuffers]
      split <;> exact Block.noConfusion
  · refine Set.disjoint_left.mpr fun a input graph => ?_
    obtain ⟨p,member⟩ := Set.mem_iUnion.mp input
    obtain ⟨own,place⟩ := graph_own setting inside graph
    have from_ := input_own setting inside member
    split at from_
    · exact own_source setting inside own from_
    · have block := from_.1
      rcases place with temporary | ⟨q,image⟩
      · exact absurd (block.symm.trans temporary) (by simp)
      · split at image
        · exact absurd (block.symm.trans (targetBlock image)) (by simp)
        · split at image <;> exact absurd (block.symm.trans image) (by simp)
  · refine Set.disjoint_left.mpr fun a left right => ?_
    have here := (image_own setting inside left).2
    have there := (image_own setting inside right).2
    split at here
    · next direct =>
      rw [if_pos direct] at there
      exact Set.disjoint_left.mp (pictures.separate p q different) here there
    · next direct =>
      rw [if_neg direct] at there
      split at here
      · next tiled =>
        rw [if_pos tiled] at there
        exact different (Block.tile.inj (here.symm.trans there)).2
      · next untiled =>
        rw [if_neg untiled] at there
        exact different (Block.scratch.inj (here.symm.trans there)).2
  · have direct : g.plan.srcZerocopy = false := by simpa [worker,initStripeWorker] using copies
    have block : ∀ {p : Plane} {a : Pointer Block}, a ∈ inputArea (frameBuffers g n m src dst i) (part g n m i) p →
        a.block = .scratch .src p := by
      intro p a member
      have own := input_own setting inside member
      rw [direct] at own
      exact own.1
    refine ⟨fun p q => ?_,fun p q different => ?_,?_⟩
    · exact Set.disjoint_left.mpr fun a left right =>
        absurd ((sourceBlock (source_subset setting inside p left)).symm.trans (block right)) (by simp)
    · exact Set.disjoint_left.mpr fun a left right =>
        different (Block.scratch.inj ((block left).symm.trans (block right))).2
    · refine Set.disjoint_left.mpr fun a left right => ?_
      obtain ⟨p,target⟩ := Set.mem_iUnion.mp left
      obtain ⟨q,input⟩ := Set.mem_iUnion.mp right
      exact absurd ((target_own setting inside target).1.symm.trans (block input)) (by simp)
  · have direct : g.plan.dstZerocopy = false := by
      cases tiled : g.plan.colTiled with
      | true => exact setting.tiles tiled
      | false => simpa [emits,worker,initStripeWorker,tiled] using copies
    refine ⟨Set.disjoint_left.mpr fun a left graph => ?_,fun p q different => ?_⟩
    · obtain ⟨p,target⟩ := Set.mem_iUnion.mp left
      have block := (target_own setting inside target).1
      rcases (graph_own setting inside graph).2 with temporary | ⟨q,image⟩
      · exact absurd (block.symm.trans temporary) (by simp)
      · rw [direct] at image
        simp only [Bool.false_eq_true,if_false] at image
        split at image <;> exact absurd (block.symm.trans image) (by simp)
    · exact Set.disjoint_left.mpr fun a left right => Set.disjoint_left.mp (pictures.separate p q different)
        (target_own setting inside left).2.1 (target_own setting inside right).2.1

end Places

end AutoUpscale.ZimgPlaces
