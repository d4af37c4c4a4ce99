import AutoUpscale.PictureView
import AutoUpscale.PoolLifecycle
import AutoUpscale.ZimgCells

/-!
Frames on the zimg backend: `zimg_open` and `zimg_process` of `scaler_zimg.c`.
The first frames settle the plan, the pool starts with it, and later frames whose
storage the plan cannot take are counted as misses. What the pool and the workers
answer is an argument of each frame.
-/
namespace AutoUpscale.ZimgProcess
open AutoUpscale.Chroma (chromaToZimg physicalPlaneIndex)
open AutoUpscale.PictureView (Picture PlaneView Region View viewInit)
open AutoUpscale.WorkerPool (Pool StartOutcome StopOutcome)
open AutoUpscale.ZimgCells (Plane)
open AutoUpscale.ZimgHelpers

/-- `scaler_process_status_t`. -/
inductive Status
  | ok
  | transient
  | fatal
  deriving DecidableEq, Repr

/-- What the backend reads of `scaler_ctx_t`. -/
structure ScalerCtx where
  srcW : Int
  srcH : Int
  srcCodedW : Nat
  srcCodedH : Nat
  srcXOffset : Nat
  srcYOffset : Nat
  dstW : Int
  dstH : Int
  chroma : Nat
  minStripeLines : Int
  zerocopy : Int
  srcZerocopy : Int

/-- `ZIMG_COL_MIN_WIDTH`. -/
def colMinWidth : Int := 64

/-- `ZIMG_BUFFER_ALIGN`. -/
def bufferAlign : Nat := 32

/-- `UP_ZIMG_DRIFT_FATAL_MISSES`. -/
def driftFatalMisses : Nat := 30

/-- The planes of one side of a worker, in the order of `plane_view_t`. -/
structure WorkerView where
  y : PlaneView
  u : PlaneView
  v : PlaneView

/-- What a frame does to pictures: their geometry is read, a miss is answered, or
    the workers are dispatched with these planes. -/
inductive Event
  | inspect
  | miss (status : Status)
  | dispatch (plan : IoPlan) (src dst : WorkerView)

/-- `zimg_priv_t`, but for its buffers, its topology and its log. -/
structure Priv where
  pool : Pool
  yv12SwapUv : Bool
  subW : Nat
  subH : Nat
  plan : IoPlan
  workerBudget : Int
  driftMisses : Nat
  driftWarned : Bool
  preflightWarned : Bool
  srcW : Int
  srcH : Int
  dstW : Int
  dstH : Int
  trace : List Event

/-- A frame: the two pictures, and the outcomes of a start, of a dispatch, of the
    stop of a poisoned pool and of each worker. -/
structure Frame where
  src : Picture
  dst : Picture
  start : StartOutcome
  complete : Bool
  stop : StopOutcome
  results : Nat → Bool

/-- The hooks of `zimg_pool_ops`. -/
def zimgPoolOps : WorkerPool.Ops := ⟨true,true,false,true⟩

/-- `zimg_build_io_req`. -/
def buildIoReq (ctx : ScalerCtx) (workerBudget : Int) (srcAligned dstAligned : Bool) : IoReq :=
  { workerBudget := workerBudget, srcW := ctx.srcW, srcH := ctx.srcH, dstW := ctx.dstW, dstH := ctx.dstH,
    stripeMin := zimgStripeMinLines ctx.minStripeLines, colMin := colMinWidth,
    srcZerocopy := decide (ctx.srcZerocopy ≠ 0) && srcAligned, dstZerocopy := decide (ctx.zerocopy ≠ 0) && dstAligned }

/-- `zimg_open` with a library of the right version and a budget of threads; `calloc`
    can fail. -/
def zimgOpen (ctx : ScalerCtx) (nThreads : Int) (allocated : Bool) : Option Priv :=
  match chromaToZimg ctx.chroma with
  | none => none
  | some (subW,subH,swap) =>
    if allocated = false then none
    else some
      { pool := WorkerPool.configured 0, yv12SwapUv := swap, subW := subW, subH := subH,
        plan := resolveIoPlan (buildIoReq ctx nThreads true true), workerBudget := nThreads, driftMisses := 0,
        driftWarned := false, preflightWarned := false, srcW := ctx.srcW, srcH := ctx.srcH, dstW := ctx.dstW,
        dstH := ctx.dstH, trace := [] }

def Priv.emit (p : Priv) (e : Event) : Priv := { p with trace := e :: p.trace }

/-- `up_scaler_src_region`. -/
def srcRegion (ctx : ScalerCtx) : Region :=
  ⟨ctx.srcCodedW,ctx.srcCodedH,ctx.srcXOffset,ctx.srcYOffset,ctx.srcW,ctx.srcH⟩

/-- `up_scaler_dst_region`. -/
def dstRegion (ctx : ScalerCtx) : Region := ⟨ctx.dstW.toNat,ctx.dstH.toNat,0,0,ctx.dstW,ctx.dstH⟩

/-- `zimg_frame_views_init`. -/
def frameViewsInit (ctx : ScalerCtx) (src dst : Picture) : Option (View × View) :=
  match viewInit src ctx.chroma (srcRegion ctx) with
  | none => none
  | some srcView =>
    match viewInit dst ctx.chroma (dstRegion ctx) with
    | none => none
    | some dstView => some (srcView,dstView)

/-- Both views of a frame. -/
theorem frameViewsInit_some {ctx : ScalerCtx} {src dst : Picture} {srcView dstView : View}
    (viewed : frameViewsInit ctx src dst = some (srcView,dstView)) :
    viewInit src ctx.chroma (srcRegion ctx) = some srcView ∧ viewInit dst ctx.chroma (dstRegion ctx) = some dstView := by
  rw [frameViewsInit] at viewed
  cases first : viewInit src ctx.chroma (srcRegion ctx) with
  | none => simp [first] at viewed
  | some view =>
    cases second : viewInit dst ctx.chroma (dstRegion ctx) with
    | none => simp [first,second] at viewed
    | some other =>
      rw [first,second] at viewed
      cases viewed
      exact ⟨rfl,rfl⟩

/-- `zimg_warn_bad_geometry`. -/
def warnBadGeometry (p : Priv) : Priv := { p with preflightWarned := true }

/-- The address and the pitch of a plane are multiples of the alignment. -/
def planeAligned (plane : PlaneView) : Bool := plane.pixels % bufferAlign = 0 && plane.pitch % bufferAlign = 0

/-- `zimg_view_aligned`. -/
def viewAligned (view : View) : Bool := view.plane.all planeAligned

/-- `zimg_prepare_first_frame_io`. -/
def prepareFirstFrameIo (p : Priv) (ctx : ScalerCtx) (src dst : View) : Priv :=
  if p.pool.lazyDone || p.pool.lazyFailed then p
  else { p with plan := resolveIoPlan (buildIoReq ctx p.workerBudget (viewAligned src) (viewAligned dst)) }

/-- `zimg_frame_io_safe`. -/
def frameIoSafe (p : Priv) (src dst : View) : Bool :=
  (!p.plan.srcZerocopy || viewAligned src) && (!p.plan.dstZerocopy || viewAligned dst)

/-- `zimg_note_alignment_drift`. -/
def noteAlignmentDrift (p : Priv) (stop : StopOutcome) : Priv × Status :=
  let p := { p with driftWarned := true, driftMisses := p.driftMisses + 1 }
  if p.driftMisses ≥ driftFatalMisses then
    ({ p with pool := WorkerPool.poison p.pool stop, trace := .miss .fatal :: p.trace },.fatal)
  else (p.emit (.miss .transient),.transient)

/-- `zimg_ensure_lazy_init`; whether it returned 0. -/
def ensureLazyInit (p : Priv) (o : StartOutcome) : Priv × Bool :=
  if p.pool.lazyDone then (p,true)
  else if p.pool.lazyFailed then (p,false)
  else
    let (pool,started) :=
      WorkerPool.ensureStarted zimgPoolOps { p.pool with nPref := p.plan.nThreads, nWorkers := 0 } o
    ({ p with pool := pool },started)

/-- `point_workers_planes`, which hands every worker the same planes. -/
def pointWorkersPlanes (p : Priv) (pic : View) : WorkerView :=
  let iu := physicalPlaneIndex 1 p.yv12SwapUv
  let iv := physicalPlaneIndex 2 p.yv12SwapUv
  ⟨pic.plane.getD 0 ⟨0,0⟩,pic.plane.getD iu ⟨0,0⟩,pic.plane.getD iv ⟨0,0⟩⟩

/-- `zimg_check_worker_results`. -/
def checkWorkerResults (p : Priv) (f : Frame) : Priv × Status :=
  if (List.range p.pool.nWorkers).all f.results then (p,.ok)
  else ({ p with pool := WorkerPool.poison p.pool f.stop },.fatal)

/-- `zimg_dispatch_and_wait`. -/
def dispatchAndWait (p : Priv) (f : Frame) : Priv × Status :=
  let (pool,completed) := WorkerPool.dispatch p.pool f.complete f.stop
  let p := { p with pool := pool }
  if completed = false then (p,.fatal) else checkWorkerResults p f

/-- The rest of `zimg_process` with the views of both pictures. -/
def processViews (ctx : ScalerCtx) (p : Priv) (f : Frame) (src dst : View) : Priv × Status :=
  let p := prepareFirstFrameIo p ctx src dst
  if frameIoSafe p src dst = false then noteAlignmentDrift p f.stop
  else
    let (p,ready) := ensureLazyInit p f.start
    if ready = false then (p,.fatal)
    else dispatchAndWait (p.emit (.dispatch p.plan (pointWorkersPlanes p src) (pointWorkersPlanes p dst))) f

/-- `zimg_process` of an opened backend. -/
def process (ctx : ScalerCtx) (p : Priv) (f : Frame) : Priv × Status :=
  if p.pool.broken then (p,.fatal)
  else
    let p := p.emit .inspect
    match frameViewsInit ctx f.src f.dst with
    | none => (warnBadGeometry p,.transient)
    | some (src,dst) => processViews ctx p f src dst

/-- One frame. -/
def step (ctx : ScalerCtx) (p : Priv) (f : Frame) : Option Priv := some (process ctx p f).1

end AutoUpscale.ZimgProcess
