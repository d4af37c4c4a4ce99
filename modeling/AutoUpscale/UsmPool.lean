import AutoUpscale.Usm
import AutoUpscale.WorkerPool
import AutoUpscale.Footprint

/-!
The worker slots of the unsharp mask and their sweep: `usm_pool.c`. Each worker
sharpens a stripe of rows with three rolling rows of its own scratch block. When
a plane is sharpened in place, the two rows beyond a stripe are copied into the
scratch block before the workers start. Workers share the memory, and a step of
one of them is one row: a horizontal blur, or a combination that writes a row of
the destination. The optional skipping of flat stripes is off, as in a default
build.
-/
namespace AutoUpscale.UsmPool
open AutoUpscale.Rows AutoUpscale.Usm

/-- The objects that pointers point into: the memory of the caller's planes and
    the scratch block of the pool. -/
inductive Block
  | null
  | plane
  | scratch
  deriving DecidableEq, Repr

/-- The null pointer. -/
def null : Pointer Block := ⟨.null,0⟩

/-- The bytes of both objects. -/
abbrev Bytes := Memory Block UInt8

/-- What `up_usm_pool_apply` answers. -/
inductive Status
  | ok
  | failedUnchanged
  | outputUncertain
  deriving DecidableEq, Repr

/-- `usm_worker_t`. -/
structure Worker where
  yStart : Nat
  yEnd : Nat
  width : Nat
  height : Nat
  scratch : Pointer Block
  src : Pointer Block
  dst : Pointer Block
  srcStride : Nat
  dstStride : Nat
  amountQ8 : Int
  biasedRounding : Bool
  haloTop : Pointer Block
  haloBot : Pointer Block

/-- A zeroed slot. -/
def zeroed : Worker where
  yStart := 0
  yEnd := 0
  width := 0
  height := 0
  scratch := null
  src := null
  dst := null
  srcStride := 0
  dstStride := 0
  amountQ8 := 0
  biasedRounding := false
  haloTop := null
  haloBot := null

/-- `USM_POOL_SCRATCH_ROWS`. -/
def scratchRows : Nat := 5

/-- `USM_STRIPE_MIN_ROWS`. -/
def defaultStripeMinRows : Int := 8

/-- `usm_pool_resolve_threads`. -/
def resolveThreads (nThreads height stripeMinRows : Int) : Int :=
  let nThreads := if nThreads > WorkerPool.threadsMax then WorkerPool.threadsMax else nThreads
  let stripeMinRows := if stripeMinRows ≤ 0 then defaultStripeMinRows else stripeMinRows
  let maxBySize := height.tdiv stripeMinRows
  let maxBySize := if maxBySize < 1 then 1 else maxBySize
  if nThreads > maxBySize then maxBySize else nThreads

/-! ## Slots -/

/-- `usm_pool_construct_worker`. -/
def constructWorker (slots : Nat → Worker) (width height i : Nat) : Nat → Worker :=
  Function.update slots i
    { slots i with scratch := ⟨.scratch,i * scratchRows * width⟩, width := width, height := height }

/-- The slots after `n` workers were constructed in turn. -/
def constructWorkers (slots : Nat → Worker) (width height : Nat) : Nat → Nat → Worker
  | 0 => slots
  | n + 1 => constructWorker (constructWorkers slots width height n) width height n

/-- The body of the loop of `usm_pool_repartition_stripes`. -/
def partition (w : Worker) (i n height : Nat) : Worker :=
  { w with
    yStart := i * height / n
    yEnd := if i = n - 1 then height else (i + 1) * height / n
    biasedRounding := useBiasedRounding w.width height n }

/-- `usm_pool_repartition_stripes`: the loop over `n` slots. -/
def repartitionStripes (slots : Nat → Worker) (n height : Nat) : Nat → Worker :=
  fun i => if i < n then partition (slots i) i n height else slots i

/-- The plane pointers, strides and amount that a frame gives the workers. -/
structure Frame where
  dst : Pointer Block
  dstStride : Nat
  src : Pointer Block
  srcStride : Nat
  amountQ8 : Int

/-- `usm_worker_snapshot_halo`. -/
def snapshotHalo (w : Worker) (src : Pointer Block) (srcStride height : Nat) (m : Bytes) : Worker × Bytes :=
  let top := w.scratch.plus (3 * w.width)
  let bot := w.scratch.plus (4 * w.width)
  let (w,m) :=
    if w.yStart > 0 then ({ w with haloTop := top },copyRow m top (rowAt src srcStride (w.yStart - 1)) w.width)
    else (w,m)
  if w.yEnd < height then ({ w with haloBot := bot },copyRow m bot (rowAt src srcStride w.yEnd) w.width) else (w,m)

/-- The body of the loop of `usm_pool_set_per_frame`. -/
def setWorker (w : Worker) (f : Frame) (height : Nat) (m : Bytes) : Worker × Bytes :=
  let w := { w with
    src := f.src
    srcStride := f.srcStride
    dst := f.dst
    dstStride := f.dstStride
    amountQ8 := f.amountQ8
    haloTop := null
    haloBot := null }
  if f.dst = f.src then snapshotHalo w f.src f.srcStride height m else (w,m)

/-- `usm_pool_set_per_frame`: the first `n` slots in turn. -/
def setPerFrame (slots : Nat → Worker) (f : Frame) (height : Nat) (m : Bytes) : Nat → (Nat → Worker) × Bytes
  | 0 => (slots,m)
  | n + 1 =>
    let (slots,m) := setPerFrame slots f height m n
    let (w,m) := setWorker (slots n) f height m
    (Function.update slots n w,m)

/-! ## The sweep of a worker -/

/-- `usm_worker_src_row`. -/
def srcRow (w : Worker) (y : Nat) : Pointer Block :=
  if w.haloTop ≠ null ∧ y + 1 = w.yStart then w.haloTop
  else if w.haloBot ≠ null ∧ y = w.yEnd then w.haloBot
  else rowAt w.src w.srcStride y

/-- The row operation that `usm_pool_run_worker` performs next. -/
inductive Phase
  | blurUp
  | blurMid
  | blurDn
  | combine
  | finished
  deriving DecidableEq, Repr

/-- The local variables of `usm_pool_run_worker`. -/
structure Cursor where
  phase : Phase
  y : Nat
  up : Pointer Block
  mid : Pointer Block
  dn : Pointer Block

/-- Where `usm_pool_run_worker` starts. -/
def enter (w : Worker) : Cursor :=
  ⟨.blurUp,w.yStart,w.scratch,w.scratch.plus w.width,w.scratch.plus (2 * w.width)⟩

/-- The condition of its loop. -/
def loopPhase (w : Worker) (y : Nat) : Phase := if y < w.yEnd then .blurDn else .finished

/-- One row operation of `usm_pool_run_worker`. -/
def rowStep (w : Worker) (c : Cursor) (m : Bytes) : Option (Cursor × Bytes) :=
  match c.phase with
  | .blurUp =>
    let yUp := if c.y > 0 then c.y - 1 else 0
    some ({ c with phase := .blurMid },hblurRow m c.up (srcRow w yUp) w.width)
  | .blurMid => some ({ c with phase := loopPhase w c.y },hblurRow m c.mid (srcRow w c.y) w.width)
  | .blurDn =>
    let yDn := if c.y < w.height - 1 then c.y + 1 else w.height - 1
    some ({ c with phase := .combine },hblurRow m c.dn (srcRow w yDn) w.width)
  | .combine =>
    some (⟨loopPhase w (c.y + 1),c.y + 1,c.mid,c.dn,c.up⟩,
      combineRowMode m (rowAt w.dst w.dstStride c.y) (rowAt w.src w.srcStride c.y) c.up c.mid c.dn w.width w.amountQ8
        w.biasedRounding)
  | .finished => none

variable {n : Nat}

/-- The memory and the workers of a dispatch. -/
abbrev Sweep (n : Nat) := Footprint.State (Fin n) Cursor (Pointer Block) UInt8

/-- A row operation of worker `i`. -/
def sweepStep (slots : Nat → Worker) : Sweep n → Fin n → Option (Sweep n) :=
  Footprint.advance fun i => rowStep (slots i)

/-- The workers of a dispatch before their first row. -/
def sweepFrom (slots : Nat → Worker) (n : Nat) (m : Bytes) : Sweep n := ⟨m,fun i => enter (slots i)⟩

/-- The workers of a dispatch whose frame is set. -/
def dispatched (slots : Nat → Worker) (f : Frame) (height : Nat) (m : Bytes) (n : Nat) : Sweep n :=
  sweepFrom (setPerFrame slots f height m n).1 n (setPerFrame slots f height m n).2

/-- The state that the row operations of the workers lead to, in the order of a schedule. -/
def sweep (slots : Nat → Worker) (f : Frame) (height : Nat) (m : Bytes) (n : Nat) (schedule : List (Fin n)) :
    Option (Sweep n) :=
  Runs.run (sweepStep (setPerFrame slots f height m n).1) (dispatched slots f height m n) schedule

/-- Every worker has swept its stripe. -/
def Swept (s : Sweep n) : Prop := ∀ i, (s.cursor i).phase = .finished

instance : DecidablePred (Swept (n := n)) := fun s => inferInstanceAs (Decidable (∀ i, (s.cursor i).phase = .finished))

/-! ## The pool -/

/-- `usm_pool_t`, with the slots that `pool` owns. -/
structure Pool where
  nThreads : Nat
  nThreadsPref : Int
  width : Nat
  height : Nat
  slots : Nat → Worker
  pool : WorkerPool.Pool

/-- `usm_pool_ops`: no hook releases a slot, and a partial spawn is usable. -/
def usmPoolOps : WorkerPool.Ops := ⟨true,false,true,false⟩

/-- `up_usm_pool_create`, where its allocation succeeds. -/
def create (nThreads width height stripeMinRows : Int) : Option Pool :=
  if nThreads < 1 ∨ width ≤ 0 ∨ height ≤ 0 then none
  else
    let nThreads := resolveThreads nThreads height stripeMinRows
    some ⟨nThreads.toNat,nThreads,width.toNat,height.toNat,fun _ => zeroed,WorkerPool.configured nThreads⟩

/-- What the hooks of the pool do: `usm_pool_construct_worker` and `usm_pool_finalize`.
    The scratch block that `usm_pool_prepare` allocates is an object of its own. -/
def runHook (p : Pool) : WorkerPool.Event → Pool
  | .construct i true => { p with slots := constructWorker p.slots p.width p.height i }
  | .finalize n => { p with slots := repartitionStripes p.slots n p.height, nThreads := n }
  | _ => p

/-- `up_worker_pool_ensure_started` with the hooks that it calls; they never reject a slot. -/
def ensureStarted (p : Pool) (o : WorkerPool.StartOutcome) : Pool × Bool :=
  let (pool,started) := WorkerPool.ensureStarted usmPoolOps p.pool { o with construct := fun _ => true }
  let called := pool.trace.take (pool.trace.length - p.pool.trace.length)
  (called.foldr (fun e p => runHook p e) { p with pool := pool },started)

/-- The arguments of `up_usm_pool_apply`; a plane pointer is null or an offset into
    the caller's memory. -/
structure Args where
  dst : Option Nat
  dstStride : Int
  src : Option Nat
  srcStride : Int
  amountQ8 : Int

def planePointer : Option Nat → Pointer Block
  | none => null
  | some offset => ⟨.plane,offset⟩

/-- `up_usm__plane_args_ok`. -/
def planeArgsOk (a : Args) (width : Int) : Bool :=
  if a.dst = none ∨ a.src = none then false else if a.dstStride < width ∨ a.srcStride < width then false else true

/-- `usm_pool_validate_args` of a pool that is not null; whether it returned 0. -/
def validateArgs (p : Pool) (a : Args) : Bool :=
  if planeArgsOk a p.width = false then false
  else if a.dst = a.src ∧ a.dstStride ≠ a.srcStride then false
  else true

/-- The frame of a call. -/
def frameOf (a : Args) : Frame :=
  ⟨planePointer a.dst,a.dstStride.toNat,planePointer a.src,a.srcStride.toNat,clampAmountQ8 a.amountQ8⟩

/-- What the system does during one `up_usm_pool_apply`: the outcomes of the start,
    the order in which the workers get to their row operations, whether the barrier
    of the dispatch completes, and if not, the outcomes of the stop. -/
structure Outcome where
  start : WorkerPool.StartOutcome
  schedule : (n : Nat) → List (Fin n)
  complete : Bool
  stop : WorkerPool.StopOutcome

/-- What `up_usm_pool_apply` leaves. `start` says whether it came to start the pool,
    and whether that succeeded. -/
structure Applied where
  status : Status
  start : Option Bool
  pool : Pool
  memory : Bytes

/-- `up_worker_pool_dispatch` once the frame is set, with nothing for an order of row
    operations that does not exist. A dispatch that completes has seen all workers
    finish; one that fails may have stopped them anywhere. -/
def applyDispatch (p : Pool) (f : Frame) (m : Bytes) (o : Outcome) : Option Applied :=
  let set := setPerFrame p.slots f p.height m p.nThreads
  let (pool,complete) := WorkerPool.dispatch p.pool o.complete o.stop
  match Runs.run (sweepStep set.1) (sweepFrom set.1 p.pool.nWorkers set.2) (o.schedule p.pool.nWorkers) with
  | none => none
  | some s =>
    if complete then
      if Swept s then some ⟨.ok,some true,{ p with slots := set.1, pool := pool },s.memory⟩ else none
    else some ⟨.outputUncertain,some true,{ p with slots := set.1, pool := pool },s.memory⟩

/-- `up_usm_pool_apply`. -/
def apply (p : Pool) (m : Bytes) (a : Args) (o : Outcome) : Option Applied :=
  if validateArgs p a = false then some ⟨.failedUnchanged,none,p,m⟩
  else if p.pool.broken then some ⟨.failedUnchanged,none,p,m⟩
  else
    let f := frameOf a
    if f.amountQ8 = 0 then
      some ⟨.ok,none,p,applyIdentity m f.dst f.dstStride f.src f.srcStride p.width p.height⟩
    else
      let (p,started) := ensureStarted p o.start
      if started = false then some ⟨.failedUnchanged,some false,p,m⟩ else applyDispatch p f m o

end AutoUpscale.UsmPool
