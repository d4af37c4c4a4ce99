import AutoUpscale.ZimgFrame
import AutoUpscale.ZimgPictures
import AutoUpscale.ZimgPlan
import AutoUpscale.ZimgPoint

/-!
Every sequence of frames on the zimg backend, with the plans and the planes of its
dispatches: each is on planes that its plan can take (`steady_setting`), and how they are
read and written makes no difference to what the workers leave (`zimg_modes_agree`).
-/
namespace AutoUpscale.ZimgRuns
open AutoUpscale.Chroma (chromaToZimg chromaToZimg_sub)
open AutoUpscale.Footprint (State advance)
open AutoUpscale.PictureView (Picture View)
open AutoUpscale.Programs AutoUpscale.Rows
open AutoUpscale.Runs (run run_preserves)
open AutoUpscale.SizeType (SizeT size64)
open AutoUpscale.WorkerPool (PoolInv StopOutcome StartOutcome poolInv_configured poolInv_ensureStarted poolInv_poison)
open AutoUpscale.ZimgCells (Aligned Geometry Graph Plane)
open AutoUpscale.ZimgFrame
open AutoUpscale.ZimgHelpers (IoPlan IoReq resolveIoPlan resolveIoPlan_grid)
open AutoUpscale.ZimgPictures
open AutoUpscale.ZimgPlaces
open AutoUpscale.ZimgProcess
open AutoUpscale.ZimgWorker
variable {ctx : ScalerCtx} {nThreads : Int} {swap : Bool} {Good : Frame → Prop} {p q : Priv} {f : Frame} {src dst : View}

/-! ## Frames -/

/-- The planes of a dispatch are those of a frame's pictures. -/
def From (ctx : ScalerCtx) (swap : Bool) (f : Frame) (src dst : WorkerView) : Prop :=
  ∃ p srcView dstView, p.yv12SwapUv = swap ∧ frameViewsInit ctx f.src f.dst = some (srcView,dstView) ∧
    src = pointWorkersPlanes p srcView ∧ dst = pointWorkersPlanes p dstView

/-- What every sequence of good frames keeps of an opened backend. -/
structure Steady (ctx : ScalerCtx) (nThreads : Int) (swap : Bool) (Good : Frame → Prop) (p : Priv) : Prop where
  inv : Inv p
  swapped : p.yv12SwapUv = swap
  budget : p.workerBudget = nThreads
  plan : ∃ srcAligned dstAligned, p.plan = resolveIoPlan (buildIoReq ctx nThreads srcAligned dstAligned)
  pool : PoolInv zimgPoolOps p.pool
  live : p.pool.destroyed = false
  count : p.pool.lazyDone = true → p.pool.nPref = p.plan.nThreads
  origin : ∀ plan src dst, .dispatch plan src dst ∈ p.trace → ∃ f, Good f ∧ From ctx swap f src dst

theorem zimgOpen_steady {subW subH : Nat} {allocated : Bool} (supported : chromaToZimg ctx.chroma = some (subW,subH,swap))
    (opened : zimgOpen ctx nThreads allocated = some p) : Steady ctx nThreads swap Good p := by
  have inv := zimgOpen_inv opened
  simp only [zimgOpen,supported] at opened
  split_ifs at opened
  obtain rfl := Option.some.inj opened
  exact ⟨inv,rfl,rfl,⟨true,true,rfl⟩,poolInv_configured 0,rfl,fun done => Bool.noConfusion done,
    fun _ _ _ member => absurd member List.not_mem_nil⟩

theorem prepareFirstFrameIo_steady (steady : Steady ctx nThreads swap Good p) :
    Steady ctx nThreads swap Good (prepareFirstFrameIo p ctx src dst) := by
  have inv : Inv (prepareFirstFrameIo p ctx src dst) := prepareFirstFrameIo_inv steady.inv
  obtain settled | ⟨done,failed⟩ := settled_or_fresh p
  · rw [prepareFirstFrameIo_settled settled]
    exact steady
  · have fresh : ¬(p.pool.lazyDone || p.pool.lazyFailed) = true := by simp [done,failed]
    rw [prepareFirstFrameIo,if_neg fresh] at inv ⊢
    refine ⟨inv,steady.swapped,steady.budget,⟨viewAligned src,viewAligned dst,?_⟩,steady.pool,steady.live,fun started => ?_,
      steady.origin⟩
    · show resolveIoPlan (buildIoReq ctx p.workerBudget _ _) = _
      rw [steady.budget]
    · exact absurd (done.symm.trans started) (by decide)

theorem poison_steady (steady : Steady ctx nThreads swap Good p) (settled : Settled p) (stop : StopOutcome) :
    Steady ctx nThreads swap Good { p with pool := WorkerPool.poison p.pool stop } := by
  obtain ⟨stopped,-⟩ := WorkerPool.poison_stopped p.pool stop
  have config := stopped.config
  refine ⟨pool_stopped_inv steady.inv settled stopped,steady.swapped,steady.budget,steady.plan,poolInv_poison steady.pool stop,
    config.destroyed.trans steady.live,fun done => ?_,steady.origin⟩
  exact config.nPref.trans (steady.count (config.lazyDone.symm.trans done))

theorem noteAlignmentDrift_steady (steady : Steady ctx nThreads swap Good p) (settled : Settled p) (whole : p.pool.broken = false)
    (stop : StopOutcome) : Steady ctx nThreads swap Good (noteAlignmentDrift p stop).1 ∧
      (noteAlignmentDrift p stop).2 ≠ .ok := by
  have inv := noteAlignmentDrift_inv steady.inv settled whole stop
  have origin : ∀ {status : Status} {plan : IoPlan} {src dst : WorkerView}, .dispatch plan src dst ∈ .miss status :: p.trace →
      ∃ f, Good f ∧ From ctx swap f src dst := by
    intro status plan src dst member
    exact steady.origin plan src dst (by simpa using member)
  rw [noteAlignmentDrift] at inv ⊢
  dsimp only at inv ⊢
  split at inv <;> rename_i last
  · rw [if_pos last]
    have poisoned := poison_steady steady settled stop
    exact ⟨⟨inv,steady.swapped,steady.budget,steady.plan,poisoned.pool,poisoned.live,poisoned.count,fun _ _ _ => origin⟩,Status.noConfusion⟩
  · rw [if_neg last]
    exact ⟨⟨inv,steady.swapped,steady.budget,steady.plan,steady.pool,steady.live,steady.count,fun _ _ _ => origin⟩,Status.noConfusion⟩

theorem ensureLazyInit_steady (steady : Steady ctx nThreads swap Good p) (o : StartOutcome) :
    Steady ctx nThreads swap Good (ensureLazyInit p o).1 := by
  obtain ⟨inv,-⟩ := ensureLazyInit_spec steady.inv o
  obtain settled | ⟨done,failed⟩ := settled_or_fresh p
  · have same : (ensureLazyInit p o).1 = p := by
      rw [ensureLazyInit]
      obtain started | gone := settled
      · rw [if_pos started]
      · by_cases started : p.pool.lazyDone = true
        · rw [if_pos started]
        · rw [if_neg started,if_pos gone]
    rw [same]
    exact steady
  · obtain ⟨untouched,-,-⟩ := steady.inv.fresh done failed
    have configured : PoolInv zimgPoolOps { p.pool with nPref := p.plan.nThreads, nWorkers := 0 } := by
      have slots := steady.pool.slots
      refine ⟨⟨?_,fun i running => ?_,slots.prepares⟩,fun _ _ _ => ⟨untouched.trace,untouched.started,untouched.threads,rfl⟩,
        steady.pool.either,fun started => absurd (done.symm.trans started) (by decide),fun _ => rfl⟩
      · have life := slots.life
        rwa [untouched.nWorkers] at life
      · have running : p.pool.started i = true := running
        rw [untouched.started] at running
        cases running
    have pool := poolInv_ensureStarted configured steady.live o
    obtain ⟨count,live⟩ := WorkerPool.ensureStarted_config configured steady.live o
    rw [ensureLazyInit,if_neg (by simp [done]),if_neg (by simp [failed])] at inv ⊢
    exact ⟨inv,steady.swapped,steady.budget,steady.plan,pool,live.trans steady.live,fun _ => count,steady.origin⟩

/-- A dispatch of the planes of a frame, and what it takes for the workers to have
    succeeded. -/
theorem dispatchAndWait_steady {src dst : WorkerView} (steady : Steady ctx nThreads swap Good p) (done : p.pool.lazyDone = true)
    (good : Good f) (shown : From ctx swap f src dst) (srcAligned : p.plan.srcZerocopy = true → ZimgProcess.Aligned src)
    (dstAligned : p.plan.dstZerocopy = true → ZimgProcess.Aligned dst) :
    Steady ctx nThreads swap Good (dispatchAndWait (p.emit (.dispatch p.plan src dst)) f).1 ∧
    (dispatchAndWait (p.emit (.dispatch p.plan src dst)) f).1.trace = .dispatch p.plan src dst :: p.trace ∧
    ((dispatchAndWait (p.emit (.dispatch p.plan src dst)) f).2 = .ok → ∀ i < p.plan.nThreads.toNat, f.results i = true) := by
  obtain ⟨inv,-⟩ := dispatchAndWait_inv (f := f) steady.inv done src dst srcAligned dstAligned
  have settled : Settled p := Or.inl done
  have origin : ∀ plan from_ to_, .dispatch plan from_ to_ ∈ (Event.dispatch p.plan src dst :: p.trace) →
      ∃ f, Good f ∧ From ctx swap f from_ to_ := by
    intro plan from_ to_ member
    obtain same | older := List.mem_cons.mp member
    · cases same
      exact ⟨f,good,shown⟩
    · exact steady.origin plan from_ to_ older
  -- The pool stays as it is, or it is stopped.
  have kept : PoolInv zimgPoolOps (WorkerPool.dispatch p.pool f.complete f.stop).1 := by
    unfold WorkerPool.dispatch
    split
    · exact steady.pool
    · split
      · exact steady.pool
      · exact poolInv_poison steady.pool f.stop
  obtain ⟨stopped,-⟩ := WorkerPool.dispatch_stopped p.pool f.complete f.stop
  have config := stopped.config
  have emitted : (p.emit (.dispatch p.plan src dst)).pool = p.pool := rfl
  rw [dispatchAndWait,emitted] at inv ⊢
  generalize WorkerPool.dispatch p.pool f.complete f.stop = out at kept stopped config inv ⊢
  obtain ⟨pool,completed⟩ := out
  dsimp only at kept stopped config inv ⊢
  have workers : pool.nWorkers = p.pool.nWorkers := by rw [stopped.same]
  have all : pool.nWorkers = p.plan.nThreads.toNat := by
    have number := (steady.pool.up done steady.live).all rfl
    have preferred := steady.count done
    omega
  have live := config.destroyed.trans steady.live
  have count : pool.lazyDone = true → pool.nPref = p.plan.nThreads := fun _ => config.nPref.trans (steady.count done)
  cases completed with
  | false =>
    rw [if_pos rfl] at inv ⊢
    exact ⟨⟨inv,steady.swapped,steady.budget,steady.plan,kept,live,count,origin⟩,rfl,Status.noConfusion⟩
  | true =>
    rw [if_neg (by decide),checkWorkerResults] at inv ⊢
    dsimp only at inv ⊢
    split at inv <;> rename_i succeeded
    · rw [if_pos succeeded]
      refine ⟨⟨inv,steady.swapped,steady.budget,steady.plan,kept,live,count,origin⟩,rfl,fun _ i inside => ?_⟩
      rw [all] at succeeded
      exact List.all_eq_true.mp succeeded i (List.mem_range.mpr inside)
    · rw [if_neg succeeded]
      obtain ⟨retired,-⟩ := WorkerPool.poison_stopped pool f.stop
      refine ⟨⟨inv,steady.swapped,steady.budget,steady.plan,poolInv_poison kept f.stop,retired.config.destroyed.trans live,
        fun started => ?_,origin⟩,rfl,Status.noConfusion⟩
      exact retired.config.nPref.trans (count (retired.config.lazyDone.symm.trans started))

theorem processViews_steady (steady : Steady ctx nThreads swap Good p) (whole : p.pool.broken = false) (good : Good f)
    (viewed : frameViewsInit ctx f.src f.dst = some (src,dst)) :
    Steady ctx nThreads swap Good (processViews ctx p f src dst).1 ∧
    ((processViews ctx p f src dst).2 = .ok → ∃ plan from_ to_,
      (processViews ctx p f src dst).1.trace = .dispatch plan from_ to_ :: p.trace ∧ From ctx swap f from_ to_ ∧
      ∀ i < plan.nThreads.toNat, f.results i = true) := by
  have prepared : Steady ctx nThreads swap Good (prepareFirstFrameIo p ctx src dst) := prepareFirstFrameIo_steady steady
  have trace : (prepareFirstFrameIo p ctx src dst).trace = p.trace ∧ (prepareFirstFrameIo p ctx src dst).pool = p.pool := by
    rw [prepareFirstFrameIo]
    split_ifs <;> exact ⟨rfl,rfl⟩
  have refusal : frameIoSafe (prepareFirstFrameIo p ctx src dst) src dst = false → Settled (prepareFirstFrameIo p ctx src dst) := by
    intro refused
    obtain settled | ⟨done,failed⟩ := settled_or_fresh p
    · simpa only [Settled,trace.2] using settled
    · exact absurd ((prepareFirstFrameIo_safe done failed).symm.trans refused) (by decide)
  rw [processViews]
  generalize prepareFirstFrameIo p ctx src dst = r at prepared trace refusal ⊢
  obtain ⟨sameTrace,samePool⟩ := trace
  dsimp only
  cases safe : frameIoSafe r src dst with
  | false =>
    rw [if_pos rfl]
    obtain ⟨after,answer⟩ := noteAlignmentDrift_steady prepared (refusal safe) (by rw [samePool]; exact whole) f.stop
    exact ⟨after,fun ok => absurd ok answer⟩
  | true =>
    rw [if_neg (by decide)]
    have started := ensureLazyInit_steady prepared f.start
    obtain ⟨-,plan,-,-,ready⟩ := ensureLazyInit_spec prepared.inv f.start
    have kept : (ensureLazyInit r f.start).1.trace = r.trace := by
      rw [ensureLazyInit]
      split_ifs <;> rfl
    obtain ⟨srcSafe,dstSafe⟩ : (!r.plan.srcZerocopy || viewAligned src) = true ∧
        (!r.plan.dstZerocopy || viewAligned dst) = true := by simpa [frameIoSafe] using safe
    generalize ensureLazyInit r f.start = out at started plan ready kept ⊢
    obtain ⟨q,up⟩ := out
    dsimp only at started plan ready kept ⊢
    cases up with
    | false =>
      rw [if_pos rfl]
      exact ⟨started,Status.noConfusion⟩
    | true =>
      rw [if_neg (by decide)]
      have shown : From ctx swap f (pointWorkersPlanes q src) (pointWorkersPlanes q dst) :=
        ⟨q,src,dst,started.swapped,viewed,rfl,rfl⟩
      obtain ⟨after,history,succeeded⟩ := dispatchAndWait_steady started (ready rfl) good shown
        (fun direct => pointWorkersPlanes_aligned (by simpa [← plan,direct] using srcSafe))
        (fun direct => pointWorkersPlanes_aligned (by simpa [← plan,direct] using dstSafe))
      exact ⟨after,fun ok => ⟨_,_,_,by rw [history,kept,sameTrace],shown,succeeded ok⟩⟩

/-- One frame: a success is that of all workers on the planes of its pictures. -/
theorem process_steady (steady : Steady ctx nThreads swap Good p) (good : Good f) :
    Steady ctx nThreads swap Good (process ctx p f).1 ∧
    ((process ctx p f).2 = .ok → ∃ plan src dst, (process ctx p f).1.trace = .dispatch plan src dst :: .inspect :: p.trace ∧
      From ctx swap f src dst ∧ ∀ i < plan.nThreads.toNat, f.results i = true) := by
  cases broken : p.pool.broken with
  | true =>
    rw [process_broken broken]
    exact ⟨steady,Status.noConfusion⟩
  | false =>
    have inspected : Steady ctx nThreads swap Good (p.emit .inspect) :=
      ⟨emit_inspect_inv steady.inv,steady.swapped,steady.budget,steady.plan,steady.pool,steady.live,steady.count,
        fun plan src dst member => steady.origin plan src dst (by simpa [Priv.emit] using member)⟩
    cases viewed : frameViewsInit ctx f.src f.dst with
    | none =>
      rw [process,if_neg (by simp [broken])]
      simp only [viewed]
      exact ⟨⟨warnBadGeometry_inv inspected.inv,inspected.swapped,inspected.budget,inspected.plan,inspected.pool,inspected.live,
        inspected.count,inspected.origin⟩,Status.noConfusion⟩
    | some views =>
      rw [process_views broken viewed]
      exact processViews_steady inspected broken good viewed

/-! ## Pictures -/

/-- Sizes of pictures that a planar format with this subsampling can have. -/
structure Sizes (ctx : ScalerCtx) (subW subH : Nat) : Prop where
  positive : 0 < ctx.srcW ∧ 0 < ctx.srcH ∧ 0 < ctx.dstW ∧ 0 < ctx.dstH
  evenW : subW = 1 → 2 ∣ ctx.srcW ∧ 2 ∣ ctx.dstW
  evenH : subH = 1 → 2 ∣ ctx.srcH ∧ 2 ∣ ctx.dstH

/-- The rows and the columns of a plan. -/
structure Gridded (ctx : ScalerCtx) (subW subH : Nat) (plan : IoPlan) (n m : Nat) : Prop where
  threads : plan.nThreads = (n * m : Nat)
  aligned : Aligned (geometry ctx subW subH plan) n m
  tiles : plan.colTiled = true → plan.dstZerocopy = false

theorem resolve_gridded {subW subH : Nat} (supported : chromaToZimg ctx.chroma = some (subW,subH,swap)) (sizes : Sizes ctx subW subH)
    (srcAligned dstAligned : Bool) : ∃ n m, Gridded ctx subW subH (resolveIoPlan (buildIoReq ctx nThreads srcAligned dstAligned)) n m := by
  obtain ⟨n,m,rowsPos,colsPos,rows,cols,threads,tiled,srcZerocopy,rowsOk,colsOk,copies⟩ :=
    resolveIoPlan_grid (buildIoReq ctx nThreads srcAligned dstAligned)
  obtain ⟨halvedW,halvedH⟩ := chromaToZimg_sub supported
  obtain ⟨srcW,srcH,dstW,dstH⟩ := sizes.positive
  refine ⟨n,m,threads,?_,fun tiled => (ZimgPlan.resolve_tiled tiled).2⟩
  exact ⟨halvedW,halvedH,srcW,srcH,dstW,dstH,sizes.evenW,sizes.evenH,rows,cols,rowsPos,colsPos,rowsOk,colsOk,tiled,
    fun off => copies (srcZerocopy.symm.trans off)⟩

variable {z : SizeT} {zimg : Library} {resample : Graph → Image → Image} {subW subH n m : Nat}

/-- The dispatches of a steady backend are on planes that their plan can take. -/
theorem steady_setting (supported : chromaToZimg ctx.chroma = some (subW,subH,swap)) (sizes : Sizes ctx subW subH)
    (steady : Steady ctx nThreads swap (fun f => Separate f.src f.dst) p) {plan : IoPlan} {src dst : WorkerView}
    (dispatched : .dispatch plan src dst ∈ p.trace) :
    plan = p.plan ∧ ∃ n m, Gridded ctx subW subH plan n m ∧
      ∀ z, Buffered z (geometry ctx subW subH plan) n m → Setting z (geometry ctx subW subH plan) n m src dst := by
  obtain ⟨-,same,srcAligned,dstAligned⟩ := steady.inv.dispatched plan src dst dispatched
  obtain ⟨srcWhole,dstWhole,resolved⟩ := steady.plan
  obtain ⟨f,separate,q,srcView,dstView,swapped,viewed,rfl,rfl⟩ := steady.origin plan src dst dispatched
  obtain ⟨n,m,gridded⟩ : ∃ n m, Gridded ctx subW subH (resolveIoPlan (buildIoReq ctx nThreads srcWhole dstWhole)) n m :=
    resolve_gridded supported sizes srcWhole dstWhole
  rw [← resolved,← same] at gridded
  have pictures : Pictures (geometry ctx subW subH plan) _ _ :=
    views_pictures (swapped.symm ▸ supported) sizes.evenW sizes.evenH viewed separate srcAligned dstAligned
  exact ⟨same,n,m,gridded,fun z buffered => ⟨gridded.aligned,gridded.tiles,pictures,buffered⟩⟩

/-- A frame of 32 by 32 pixels, doubled, with planes that share no byte. -/
def apartFrame : Frame :=
  let fine : StopOutcome := ⟨true,fun _ => true,fun _ => true⟩
  let picture (side address : Nat) : Picture :=
    ⟨Chroma.fourcc 'I' '4' '2' '0',side,side,side,side,3,fun i => ⟨address + 4096 * i,64,64,1⟩⟩
  ⟨picture 32 4096,picture 64 65536,⟨true,true,true,true,fun _ => true,fun _ => true,fine⟩,true,fine,fun _ => true⟩

theorem apartFrame_separate : Separate apartFrame.src apartFrame.dst := by
  have apart : ∀ i < 3, ∀ j < 3, (apartFrame.src.p i).pixels + 4096 ≤ (apartFrame.dst.p j).pixels := by decide
  have separate : ∀ i < 3, ∀ j < 3, i ≠ j → (apartFrame.dst.p i).pixels + 4096 ≤ (apartFrame.dst.p j).pixels ∨
      (apartFrame.dst.p j).pixels + 4096 ≤ (apartFrame.dst.p i).pixels := by decide
  exact ⟨fun i inside j inside' => row_apart (Or.inl (apart i inside j inside')),
    fun i inside j inside' different => row_apart (separate i inside j inside' different)⟩

/-! ## Copies and direct access -/

/-- Filters that resample the same pictures to the same size: they may read and write them
    in place or not, and crop them from other pictures. -/
structure SameJob (ctx ctx' : ScalerCtx) : Prop where
  srcW : ctx'.srcW = ctx.srcW
  srcH : ctx'.srcH = ctx.srcH
  dstW : ctx'.dstW = ctx.dstW
  dstH : ctx'.dstH = ctx.dstH
  chroma : ctx'.chroma = ctx.chroma
  minStripeLines : ctx'.minStripeLines = ctx.minStripeLines

theorem sameJob_req {ctx' : ScalerCtx} (job : SameJob ctx ctx') (nThreads : Int) (srcAligned dstAligned : Bool) :
    buildIoReq ctx' nThreads srcAligned dstAligned =
      { buildIoReq ctx nThreads true true with srcZerocopy := (buildIoReq ctx' nThreads srcAligned dstAligned).srcZerocopy,
                                               dstZerocopy := (buildIoReq ctx' nThreads srcAligned dstAligned).dstZerocopy } := by
  simp only [buildIoReq,job.srcW,job.srcH,job.dstW,job.dstH,job.minStripeLines]

/-- The grid of a request whose best plan has no columns does not depend on how the planes
    are read and written. -/
theorem grid_modes (req : IoReq) (sizes : TileGrid.Positive (ZimgPlan.geometry req)) (srcZerocopy dstZerocopy : Bool)
    (narrow : (resolveIoPlan { req with srcZerocopy := true }).nCols = 1) :
    ZimgPlan.grid (resolveIoPlan { req with srcZerocopy := srcZerocopy, dstZerocopy := dstZerocopy }) =
      ZimgPlan.grid (resolveIoPlan { req with srcZerocopy := true }) := by
  cases srcZerocopy with
  | true => rfl
  | false => exact (ZimgPlan.resolve_copied req sizes).1 narrow

/-- What is resampled depends on a plan by its grid alone. -/
theorem resampledFrame_plan {ctx' : ScalerCtx} (job : SameJob ctx ctx') (plan plan' : IoPlan) (image : Image) :
    resampledFrame resample (geometry ctx' subW subH plan') n m image = resampledFrame resample (geometry ctx subW subH plan) n m image := by
  have same : geometry ctx' subW subH plan' = geometry ctx subW subH plan' := by
    simp only [geometry,job.srcW,job.srcH,job.dstW,job.dstH]
  rw [same]
  rfl

/-- A dispatch whose workers have all succeeded, on a source that shows this image. -/
structure Dispatched (zimg : Library) (z : SizeT) (g : Geometry) (n m : Nat) (src dst : WorkerView) (image : Image) (after : Bytes) :
    Prop where
  rows : g.plan.nRows = n
  cols : g.plan.nCols = m
  buffered : Buffered z g n m
  ran : ∃ memory schedule t, ShowsImage src (sourceSize g) image memory ∧
    run (advance Programs.step) (frameStart zimg g n m src dst memory) schedule = some t ∧
    (∀ i, ∃ v, t.cursor i = .done v ∧ v.result = 0) ∧ t.memory = after

/-- Without an error of the library there is such a dispatch, from any memory. -/
theorem dispatched_succeeds (succeeds : Succeeds zimg) {g : Geometry} (rows : g.plan.nRows = n) (cols : g.plan.nCols = m)
    (buffered : Buffered z g n m) (src dst : WorkerView) (memory : Bytes) :
    ∃ after, Dispatched zimg z g n m src dst (imageOf src memory) after := by
  obtain ⟨schedule,t,executed,ended⟩ := frame_succeeds succeeds g n m src dst memory
  exact ⟨t.memory,rows,cols,buffered,memory,schedule,t,imageOf_shown src _ memory,executed,ended,rfl⟩

/-- A steady backend's dispatch that has succeeded shows its source resampled. -/
theorem dispatched_shows (contract : Contract zimg resample) (supported : chromaToZimg ctx.chroma = some (subW,subH,swap))
    (sizes : Sizes ctx subW subH) (steady : Steady ctx nThreads swap (fun f => Separate f.src f.dst) p) {plan : IoPlan}
    {src dst : WorkerView} (member : .dispatch plan src dst ∈ p.trace) {image : Image} {after : Bytes}
    (dispatched : Dispatched zimg z (geometry ctx subW subH plan) n m src dst image after) :
    ShowsImage dst (targetSize (geometry ctx subW subH plan)) (resampledFrame resample (geometry ctx subW subH plan) n m image)
      after := by
  obtain ⟨rows,cols,buffered,memory,schedule,t,shown,executed,succeeded,rfl⟩ := dispatched
  obtain ⟨-,k,l,gridded,setting⟩ := steady_setting supported sizes steady member
  obtain rfl : k = n := Int.ofNat_inj.mp (gridded.aligned.rows.symm.trans rows)
  obtain rfl : l = m := Int.ofNat_inj.mp (gridded.aligned.cols.symm.trans cols)
  exact left_shows gridded.aligned (frame_resampled (setting z buffered) contract shown executed) succeeded

/-- Two backends with the same job, whatever each reads and writes in place or through its
    buffers: from the same image, and on the same grid, their workers leave the same bytes
    in the pictures. The grid is the same where the best one has no columns. -/
theorem zimg_modes_agree {ctx' : ScalerCtx} {allocated allocated' : Bool} {opened opened' p' : Priv} {frames frames' : List Frame}
    (contract : Contract zimg resample) (supported : chromaToZimg ctx.chroma = some (subW,subH,swap)) (sizes : Sizes ctx subW subH)
    (job : SameJob ctx ctx') (begun : zimgOpen ctx nThreads allocated = some opened)
    (executed : run (ZimgProcess.step ctx) opened frames = some p) (separate : ∀ f ∈ frames, Separate f.src f.dst)
    (begun' : zimgOpen ctx' nThreads allocated' = some opened') (executed' : run (ZimgProcess.step ctx') opened' frames' = some p')
    (separate' : ∀ f ∈ frames', Separate f.src f.dst) :
    ∀ (plan plan' : IoPlan) (src dst src' dst' : WorkerView), .dispatch plan src dst ∈ p.trace → .dispatch plan' src' dst' ∈ p'.trace →
      ((resolveIoPlan { buildIoReq ctx nThreads true true with srcZerocopy := true }).nCols = 1 →
        ZimgPlan.grid plan = ZimgPlan.grid plan') ∧
      (ZimgPlan.grid plan = ZimgPlan.grid plan' → ∀ z z' n m n' m' image after after',
        Dispatched zimg z (geometry ctx subW subH plan) n m src dst image after →
        Dispatched zimg z' (geometry ctx' subW subH plan') n' m' src' dst' image after' →
        ∀ q y x, y < (targetSize (geometry ctx subW subH plan) q).2 → x < (targetSize (geometry ctx subW subH plan) q).1 →
          after ((pictureView dst q).pixel x y) = after' ((pictureView dst' q).pixel x y)) := by
  have supported' : chromaToZimg ctx'.chroma = some (subW,subH,swap) := job.chroma ▸ supported
  have sizes' : Sizes ctx' subW subH := by
    obtain ⟨positive,evenW,evenH⟩ := sizes
    exact ⟨by rw [job.srcW,job.srcH,job.dstW,job.dstH]; exact positive,by rw [job.srcW,job.dstW]; exact evenW,
      by rw [job.srcH,job.dstH]; exact evenH⟩
  have steady : Steady ctx nThreads swap (fun f => Separate f.src f.dst) p :=
    run_preserves (fun s f t good before moved => by cases moved; exact (process_steady before good).1) separate
      (zimgOpen_steady supported begun) executed
  have steady' : Steady ctx' nThreads swap (fun f => Separate f.src f.dst) p' :=
    run_preserves (fun s f t good before moved => by cases moved; exact (process_steady before good).1) separate'
      (zimgOpen_steady supported' begun') executed'
  have sides : TileGrid.Positive (ZimgPlan.geometry (buildIoReq ctx nThreads true true)) := by
    obtain ⟨srcW,srcH,dstW,dstH⟩ := sizes.positive
    exact ⟨srcW,srcH,dstW,dstH⟩
  intro plan plan' src dst src' dst' member member'
  constructor
  · intro narrow
    have ours : ZimgPlan.grid plan =
        ZimgPlan.grid (resolveIoPlan { buildIoReq ctx nThreads true true with srcZerocopy := true }) := by
      obtain ⟨a,b,resolved⟩ := steady.plan
      rw [(steady_setting supported sizes steady member).1,resolved,sameJob_req ⟨rfl,rfl,rfl,rfl,rfl,rfl⟩]
      exact grid_modes _ sides _ _ narrow
    have theirs : ZimgPlan.grid plan' =
        ZimgPlan.grid (resolveIoPlan { buildIoReq ctx nThreads true true with srcZerocopy := true }) := by
      obtain ⟨a,b,resolved⟩ := steady'.plan
      rw [(steady_setting supported' sizes' steady' member').1,resolved,sameJob_req job]
      exact grid_modes _ sides _ _ narrow
    exact ours.trans theirs.symm
  · intro same z z' n m n' m' image after after' dispatched dispatched' q y x row column
    have left := dispatched_shows contract supported sizes steady member dispatched q y x row column
    obtain ⟨rows,cols⟩ := Prod.mk.inj same
    obtain rfl : n = n' := Int.ofNat_inj.mp (dispatched.rows.symm.trans (rows.trans dispatched'.rows))
    obtain rfl : m = m' := Int.ofNat_inj.mp (dispatched.cols.symm.trans (cols.trans dispatched'.cols))
    have size : targetSize (geometry ctx' subW subH plan') = targetSize (geometry ctx subW subH plan) := by
      simp only [targetSize,geometry,job.dstW,job.dstH]
    have right := dispatched_shows contract supported' sizes' steady' member' dispatched' q y x (size ▸ row) (size ▸ column)
    rw [left,right,resampledFrame_plan job]

/-- The same through the buffers of the backend. -/
def copying : ScalerCtx := { doubling with zerocopy := 0, srcZerocopy := 0 }

/-- Memory in which the bytes count up. -/
def counting : Bytes := fun a => UInt8.ofNat a.offset

/-- The planes of the frame of 32 by 32 pixels. -/
def apartSource : WorkerView := ⟨⟨4096,64⟩,⟨8192,64⟩,⟨12288,64⟩⟩

def apartTarget : WorkerView := ⟨⟨65536,64⟩,⟨69632,64⟩,⟨73728,64⟩⟩

/-- Two rows of cells, with the planes as they are or through the buffers. -/
def inPlace : IoPlan := ⟨2,1,2,false,true,true⟩

def throughBuffers : IoPlan := ⟨2,1,2,false,false,false⟩

theorem apart_buffered : Buffered size64 (geometry doubling 1 1 inPlace) 2 1 ∧
    Buffered size64 (geometry copying 1 1 throughBuffers) 2 1 := by
  have source : PlaneBuffer.Sizable size64 32 32 1 1 :=
    (PlaneBuffer.sizable_iff (le_refl 1) (le_refl 1)).mpr (by decide +kernel)
  have target : PlaneBuffer.Sizable size64 64 64 1 1 :=
    (PlaneBuffer.sizable_iff (le_refl 1) (le_refl 1)).mpr (by decide +kernel)
  exact ⟨⟨nofun,nofun,nofun⟩,⟨fun _ => source,fun _ _ => target,nofun⟩⟩

/-- A backend that doubles in place and one that copies leave the same picture. -/
theorem zimg_modes_agree_doubling : ∃ opened opened' after after', zimgOpen doubling 2 true = some opened ∧
    zimgOpen copying 2 true = some opened' ∧
    (process doubling opened apartFrame).1.trace = [.dispatch inPlace apartSource apartTarget,.inspect] ∧
    (process copying opened' apartFrame).1.trace = [.dispatch throughBuffers apartSource apartTarget,.inspect] ∧
    Dispatched ZimgPoint.pointProcess size64 (geometry doubling 1 1 inPlace) 2 1 apartSource apartTarget
      (imageOf apartSource counting) after ∧
    Dispatched ZimgPoint.pointProcess size64 (geometry copying 1 1 throughBuffers) 2 1 apartSource apartTarget
      (imageOf apartSource counting) after' ∧
    ∀ q y x, y < (targetSize (geometry doubling 1 1 inPlace) q).2 → x < (targetSize (geometry doubling 1 1 inPlace) q).1 →
      after ((pictureView apartTarget q).pixel x y) = after' ((pictureView apartTarget q).pixel x y) := by
  obtain ⟨opened,begun,trace⟩ : ∃ opened, zimgOpen doubling 2 true = some opened ∧
      (process doubling opened apartFrame).1.trace = [.dispatch inPlace apartSource apartTarget,.inspect] :=
    Option.map_eq_some_iff.mp rfl
  obtain ⟨opened',begun',trace'⟩ : ∃ opened, zimgOpen copying 2 true = some opened ∧
      (process copying opened apartFrame).1.trace = [.dispatch throughBuffers apartSource apartTarget,.inspect] :=
    Option.map_eq_some_iff.mp rfl
  have supported : chromaToZimg doubling.chroma = some (1,1,false) := by decide
  have sizes : Sizes doubling 1 1 := ⟨by decide,by decide,by decide⟩
  have separate : ∀ f ∈ [apartFrame], Separate f.src f.dst := by
    intro f member
    obtain rfl := List.mem_singleton.mp member
    exact apartFrame_separate
  have job : SameJob doubling copying := ⟨rfl,rfl,rfl,rfl,rfl,rfl⟩
  have ran : run (ZimgProcess.step doubling) opened [apartFrame] = some (process doubling opened apartFrame).1 := rfl
  have ran' : run (ZimgProcess.step copying) opened' [apartFrame] = some (process copying opened' apartFrame).1 := rfl
  have agree := zimg_modes_agree ZimgPoint.pointProcess_contract supported sizes job begun ran separate begun' ran' separate
  obtain ⟨grids,pictures⟩ := agree inPlace throughBuffers apartSource apartTarget apartSource apartTarget
    (trace ▸ List.mem_cons_self) (trace' ▸ List.mem_cons_self)
  obtain ⟨after,dispatched⟩ := dispatched_succeeds ZimgPoint.pointProcess_succeeds (g := geometry doubling 1 1 inPlace) rfl rfl
    apart_buffered.1 apartSource apartTarget counting
  obtain ⟨after',dispatched'⟩ := dispatched_succeeds ZimgPoint.pointProcess_succeeds (g := geometry copying 1 1 throughBuffers) rfl rfl
    apart_buffered.2 apartSource apartTarget counting
  refine ⟨opened,opened',after,after',begun,begun',trace,trace',dispatched,dispatched',?_⟩
  exact pictures (grids (by decide)) size64 size64 2 1 2 1 _ after after' dispatched dispatched'

end AutoUpscale.ZimgRuns
