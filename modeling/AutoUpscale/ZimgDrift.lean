import AutoUpscale.PoolLifecycle
import AutoUpscale.ZimgProcess
import Mathlib.Data.List.GetD

/-!
What every sequence of frames keeps of the zimg backend (`Inv`): the plan stands
once the pool has started, the planes that workers touch directly are aligned, and
the misses count up to the one that poisons the pool.
-/
namespace AutoUpscale.ZimgProcess
open AutoUpscale.PictureView (Picture PlaneView View)
open AutoUpscale.Runs (run run_relates reachable_preserves)
open AutoUpscale.WorkerPool (Pool Untouched StartOutcome StopOutcome Stopped poison_stopped dispatch_stopped
  ensureStarted_settles)
open AutoUpscale.ZimgHelpers (IoPlan resolveIoPlan)
variable {ctx : ScalerCtx} {p q : Priv} {f : Frame} {src dst : View}

/-- Every plane of a worker is where zimg may read and write it directly. -/
def Aligned (w : WorkerView) : Prop :=
  ∀ plane ∈ [w.y,w.u,w.v], bufferAlign ∣ plane.pixels ∧ (bufferAlign : Int) ∣ plane.pitch

/-- The answers to the misses so far, the last first. -/
def missed (trace : List Event) : List Status :=
  trace.filterMap fun
    | .miss status => some status
    | _ => none

/-- The answers to `n` misses. -/
def missAnswers (n : Nat) : List Status :=
  if n < driftFatalMisses then List.replicate n .transient else .fatal :: List.replicate (n - 1) .transient

/-- The backend between two frames. -/
structure Inv (p : Priv) : Prop where
  fresh : p.pool.lazyDone = false → p.pool.lazyFailed = false →
    Untouched p.pool ∧ p.pool.broken = false ∧ p.driftMisses = 0
  either : ¬ (p.pool.lazyDone = true ∧ p.pool.lazyFailed = true)
  misses : missed p.trace = missAnswers p.driftMisses
  count : (missed p.trace).length = p.driftMisses
  limit : p.driftMisses ≤ driftFatalMisses
  going : p.pool.broken = false → p.driftMisses < driftFatalMisses
  dispatched : ∀ plan src dst, .dispatch plan src dst ∈ p.trace → p.pool.lazyDone = true ∧ plan = p.plan ∧
    (plan.srcZerocopy = true → Aligned src) ∧ (plan.dstZerocopy = true → Aligned dst)

theorem zimgOpen_inv {nThreads : Int} {allocated : Bool} (opened : zimgOpen ctx nThreads allocated = some p) : Inv p := by
  rw [zimgOpen] at opened
  cases found : Chroma.chromaToZimg ctx.chroma with
  | none => simp [found] at opened
  | some format =>
    obtain ⟨subW,subH,swap⟩ := format
    simp only [found] at opened
    split_ifs at opened
    cases opened
    exact ⟨fun _ _ => ⟨⟨rfl,rfl,rfl,rfl⟩,rfl,rfl⟩,by simp [WorkerPool.configured],rfl,rfl,Nat.zero_le _,
      fun _ => by simp [driftFatalMisses],fun _ _ _ member => absurd member List.not_mem_nil⟩

/-! ## Alignment -/

theorem planeAligned_iff (plane : PlaneView) :
    planeAligned plane = true ↔ bufferAlign ∣ plane.pixels ∧ (bufferAlign : Int) ∣ plane.pitch := by
  simp only [planeAligned,Bool.and_eq_true,decide_eq_true_eq]
  exact and_congr Nat.dvd_iff_mod_eq_zero.symm Int.dvd_iff_emod_eq_zero.symm

/-- Whatever planes a worker takes of an aligned view are aligned. -/
theorem pointWorkersPlanes_aligned (aligned : viewAligned src = true) : Aligned (pointWorkersPlanes p src) := by
  have each (i : Nat) : planeAligned (src.plane.getD i ⟨0,0⟩) = true := by
    by_cases inside : i < src.plane.length
    · rw [List.getD_eq_getElem _ _ inside]
      exact List.all_eq_true.mp aligned _ (List.getElem_mem inside)
    · rw [List.getD_eq_default _ _ (by omega)]
      rfl
  intro plane member
  refine (planeAligned_iff plane).mp ?_
  simp only [pointWorkersPlanes,List.mem_cons,List.not_mem_nil,or_false] at member
  obtain rfl | rfl | rfl := member <;> exact each _

/-- The plan of the first frame takes that frame. -/
theorem prepareFirstFrameIo_safe (done : p.pool.lazyDone = false) (failed : p.pool.lazyFailed = false) :
    frameIoSafe (prepareFirstFrameIo p ctx src dst) src dst = true := by
  simp only [prepareFirstFrameIo,done,failed,frameIoSafe,resolveIoPlan,buildIoReq]
  cases viewAligned src <;> cases viewAligned dst <;> simp

/-! ## One frame -/

/-- The pool has started or failed, so that the plan stands. -/
def Settled (p : Priv) : Prop := p.pool.lazyDone = true ∨ p.pool.lazyFailed = true

theorem settled_or_fresh (p : Priv) : Settled p ∨ (p.pool.lazyDone = false ∧ p.pool.lazyFailed = false) := by
  cases done : p.pool.lazyDone with
  | true => exact .inl (.inl done)
  | false =>
    cases failed : p.pool.lazyFailed with
    | true => exact .inl (.inr failed)
    | false => exact .inr ⟨rfl,rfl⟩

theorem emit_inspect_inv (inv : Inv p) : Inv (p.emit .inspect) := by
  refine ⟨inv.fresh,inv.either,inv.misses,inv.count,inv.limit,inv.going,fun plan src dst member => ?_⟩
  exact inv.dispatched plan src dst (by simpa [Priv.emit] using member)

theorem warnBadGeometry_inv (inv : Inv p) : Inv (warnBadGeometry p) :=
  ⟨inv.fresh,inv.either,inv.misses,inv.count,inv.limit,inv.going,inv.dispatched⟩

theorem prepareFirstFrameIo_settled (settled : Settled p) : prepareFirstFrameIo p ctx src dst = p := by
  obtain done | failed := settled
  · simp [prepareFirstFrameIo,done]
  · simp [prepareFirstFrameIo,failed]

/-- Only the plan differs, and only before the pool is settled. -/
theorem prepareFirstFrameIo_inv (inv : Inv p) : Inv (prepareFirstFrameIo p ctx src dst) := by
  obtain settled | ⟨done,failed⟩ := settled_or_fresh p
  · rw [prepareFirstFrameIo_settled settled]
    exact inv
  · have nothing : ∀ plan src dst, .dispatch plan src dst ∉ p.trace := by
      intro plan src dst member
      obtain ⟨started,_⟩ := inv.dispatched plan src dst member
      rw [done] at started
      contradiction
    simp only [prepareFirstFrameIo,done,failed,Bool.or_false,Bool.false_eq_true,if_false]
    exact ⟨inv.fresh,inv.either,inv.misses,inv.count,inv.limit,inv.going,
      fun plan src dst member => absurd member (nothing plan src dst)⟩

/-- The pool of a settled backend can be stopped. -/
theorem pool_stopped_inv {pool : Pool} (inv : Inv p) (settled : Settled p) (stopped : Stopped p.pool pool) :
    Inv { p with pool := pool } := by
  have config := stopped.config
  refine ⟨fun done failed => ?_,?_,inv.misses,inv.count,inv.limit,fun whole => inv.going ?_,
    fun plan src dst member => ?_⟩
  · have undone : p.pool.lazyDone = false := config.lazyDone.symm.trans done
    have unfailed : p.pool.lazyFailed = false := config.lazyFailed.symm.trans failed
    simp [Settled,undone,unfailed] at settled
  · show ¬ (pool.lazyDone = true ∧ pool.lazyFailed = true)
    rw [config.lazyDone,config.lazyFailed]
    exact inv.either
  · by_contra broken
    have still : pool.broken = true := stopped.sticky (by simpa using broken)
    exact absurd (still.symm.trans whole) (by decide)
  · obtain ⟨done,rest⟩ := inv.dispatched plan src dst member
    exact ⟨config.lazyDone.trans done,rest⟩

/-- A miss is answered by its number. -/
theorem noteAlignmentDrift_answer (p : Priv) (stop : StopOutcome) :
    (noteAlignmentDrift p stop).2 = (if p.driftMisses + 1 < driftFatalMisses then .transient else .fatal) ∧
    (noteAlignmentDrift p stop).1.driftMisses = p.driftMisses + 1 ∧
    (noteAlignmentDrift p stop).1.plan = p.plan ∧
    missed (noteAlignmentDrift p stop).1.trace = (noteAlignmentDrift p stop).2 :: missed p.trace ∧
    (driftFatalMisses ≤ p.driftMisses + 1 → (noteAlignmentDrift p stop).1.pool.broken = true) ∧
    (noteAlignmentDrift p stop).1.pool.lazyDone = p.pool.lazyDone := by
  rw [noteAlignmentDrift]
  by_cases last : p.driftMisses + 1 ≥ driftFatalMisses
  · simp only
    rw [if_pos last,if_neg (not_lt.mpr last)]
    obtain ⟨stopped,broken⟩ := poison_stopped p.pool stop
    exact ⟨rfl,rfl,rfl,rfl,fun _ => broken,stopped.config.lazyDone⟩
  · simp only
    rw [if_neg last,if_pos (not_le.mp last)]
    exact ⟨rfl,rfl,rfl,rfl,fun more => absurd more last,rfl⟩

theorem missAnswers_succ (n : Nat) (below : n < driftFatalMisses) :
    missAnswers (n + 1) = (if n + 1 < driftFatalMisses then .transient else .fatal) :: missAnswers n := by
  simp only [missAnswers,if_pos below]
  by_cases more : n + 1 < driftFatalMisses
  · rw [if_pos more,if_pos more,List.replicate_succ]
  · rw [if_neg more,if_neg more,Nat.add_sub_cancel]

/-- Counting a miss keeps the invariant, where the last one finds the pool broken. -/
theorem count_inv (inv : Inv p) (settled : Settled p) (below : p.driftMisses < driftFatalMisses)
    (last : driftFatalMisses ≤ p.driftMisses + 1 → p.pool.broken = true) :
    Inv { p with driftWarned := true, driftMisses := p.driftMisses + 1,
                 trace := .miss (if p.driftMisses + 1 < driftFatalMisses then .transient else .fatal) :: p.trace } := by
  refine ⟨fun done failed => ?_,inv.either,?_,congrArg (· + 1) inv.count,below,fun whole => ?_,
    fun plan src dst member => ?_⟩
  · obtain started | gone := settled
    · exact absurd (started.symm.trans done) (by decide)
    · exact absurd (gone.symm.trans failed) (by decide)
  · show _ :: missed p.trace = missAnswers (p.driftMisses + 1)
    rw [missAnswers_succ _ below,inv.misses]
  · by_contra reached
    exact absurd ((last (not_lt.mp reached)).symm.trans whole) (by decide)
  · exact inv.dispatched plan src dst (by simpa using member)

theorem noteAlignmentDrift_inv (inv : Inv p) (settled : Settled p) (whole : p.pool.broken = false) (stop : StopOutcome) :
    Inv (noteAlignmentDrift p stop).1 := by
  have below := inv.going whole
  simp only [noteAlignmentDrift]
  by_cases last : p.driftMisses + 1 ≥ driftFatalMisses
  · obtain ⟨stopped,broken⟩ := poison_stopped p.pool stop
    have config := stopped.config
    have again : Settled { p with pool := WorkerPool.poison p.pool stop } :=
      settled.imp config.lazyDone.trans config.lazyFailed.trans
    have counted := count_inv (pool_stopped_inv inv settled stopped) again below (fun _ => broken)
    rw [if_neg (not_lt.mpr last)] at counted
    rw [if_pos last]
    exact counted
  · have counted := count_inv inv settled below (fun more => absurd more last)
    rw [if_pos (not_le.mp last)] at counted
    rw [if_neg last]
    exact counted

/-- A start settles the backend and touches neither the plan nor the misses. -/
theorem ensureLazyInit_spec (inv : Inv p) (o : StartOutcome) :
    Inv (ensureLazyInit p o).1 ∧ (ensureLazyInit p o).1.plan = p.plan ∧
    (ensureLazyInit p o).1.driftMisses = p.driftMisses ∧
    (p.pool.lazyDone = true → (ensureLazyInit p o).1 = p) ∧
    ((ensureLazyInit p o).2 = true → (ensureLazyInit p o).1.pool.lazyDone = true) := by
  obtain settled | ⟨done,failed⟩ := settled_or_fresh p
  · have same : (ensureLazyInit p o) = (p,p.pool.lazyDone) := by
      obtain started | gone := settled
      · simp [ensureLazyInit,started]
      · have undone : p.pool.lazyDone = false := by
          by_contra started
          exact inv.either ⟨by simpa using started,gone⟩
        simp [ensureLazyInit,undone,gone]
    rw [same]
    exact ⟨inv,rfl,rfl,fun _ => rfl,id⟩
  · obtain ⟨untouched,whole,none⟩ := inv.fresh done failed
    have configured : Untouched { p.pool with nPref := p.plan.nThreads, nWorkers := 0 } :=
      ⟨untouched.trace,untouched.started,untouched.threads,rfl⟩
    obtain ⟨started,gone⟩ := ensureStarted_settles zimgPoolOps configured done failed o
    rw [ensureLazyInit,if_neg (by simp [done]),if_neg (by simp [failed])]
    generalize WorkerPool.ensureStarted zimgPoolOps { p.pool with nPref := p.plan.nThreads, nWorkers := 0 } o = out
      at started gone
    obtain ⟨pool,ok⟩ := out
    dsimp only at started gone ⊢
    refine ⟨⟨fun undone unfailed => ?_,?_,inv.misses,inv.count,inv.limit,fun _ => inv.going whole,
      fun plan src dst member => ?_⟩,rfl,rfl,fun early => ?_,fun ready => started.trans ready⟩
    · simp_all
    · show ¬ (pool.lazyDone = true ∧ pool.lazyFailed = true)
      rw [started,gone]
      cases ok <;> decide
    · obtain ⟨early,_⟩ := inv.dispatched plan src dst member
      exact absurd (done.symm.trans early) (by decide)
    · exact absurd (done.symm.trans early) (by decide)

/-- The workers of a started pool are dispatched on planes that the plan can take. -/
theorem dispatchAndWait_inv (inv : Inv p) (done : p.pool.lazyDone = true) (src dst : WorkerView)
    (srcAligned : p.plan.srcZerocopy = true → Aligned src) (dstAligned : p.plan.dstZerocopy = true → Aligned dst) :
    Inv (dispatchAndWait (p.emit (.dispatch p.plan src dst)) f).1 ∧
    (dispatchAndWait (p.emit (.dispatch p.plan src dst)) f).1.driftMisses = p.driftMisses ∧
    (dispatchAndWait (p.emit (.dispatch p.plan src dst)) f).1.plan = p.plan ∧
    (dispatchAndWait (p.emit (.dispatch p.plan src dst)) f).2 ≠ .transient ∧
    (dispatchAndWait (p.emit (.dispatch p.plan src dst)) f).1.pool.lazyDone = true := by
  have emitted : Inv (p.emit (.dispatch p.plan src dst)) := by
    refine ⟨inv.fresh,inv.either,inv.misses,inv.count,inv.limit,inv.going,fun plan from_ to_ member => ?_⟩
    obtain same | older := List.mem_cons.mp member
    · cases same
      exact ⟨done,rfl,srcAligned,dstAligned⟩
    · exact inv.dispatched plan from_ to_ older
  obtain ⟨stopped,_⟩ := dispatch_stopped p.pool f.complete f.stop
  have after := pool_stopped_inv emitted (.inl done) stopped
  have ready : (WorkerPool.dispatch p.pool f.complete f.stop).1.lazyDone = true := stopped.config.lazyDone.trans done
  simp only [dispatchAndWait]
  split_ifs
  · exact ⟨after,rfl,rfl,nofun,ready⟩
  · simp only [checkWorkerResults]
    split_ifs
    · exact ⟨after,rfl,rfl,nofun,ready⟩
    · have poison := (poison_stopped (WorkerPool.dispatch p.pool f.complete f.stop).1 f.stop).1
      have poisoned := pool_stopped_inv after (.inl ready) poison
      exact ⟨poisoned,rfl,rfl,nofun,poison.config.lazyDone.trans ready⟩

/-- A frame with two views: refused by the plan it counts as a miss, else it is
    processed or the backend is lost. -/
theorem processViews_spec (inv : Inv p) (whole : p.pool.broken = false) (ctx : ScalerCtx) (f : Frame) (src dst : View) :
    Inv (processViews ctx p f src dst).1 ∧
    (frameIoSafe (prepareFirstFrameIo p ctx src dst) src dst = true →
      (processViews ctx p f src dst).1.driftMisses = p.driftMisses ∧ (processViews ctx p f src dst).2 ≠ .transient) ∧
    (frameIoSafe (prepareFirstFrameIo p ctx src dst) src dst = false →
      (processViews ctx p f src dst).1.driftMisses = p.driftMisses + 1 ∧
      (processViews ctx p f src dst).2 = (if p.driftMisses + 1 < driftFatalMisses then .transient else .fatal) ∧
      (driftFatalMisses ≤ p.driftMisses + 1 → (processViews ctx p f src dst).1.pool.broken = true)) ∧
    (p.pool.lazyDone = true →
      (processViews ctx p f src dst).1.pool.lazyDone = true ∧ (processViews ctx p f src dst).1.plan = p.plan) := by
  have prepared : Inv (prepareFirstFrameIo p ctx src dst) := prepareFirstFrameIo_inv inv
  have stands (done : p.pool.lazyDone = true) : prepareFirstFrameIo p ctx src dst = p :=
    prepareFirstFrameIo_settled (.inl done)
  have pool : (prepareFirstFrameIo p ctx src dst).pool = p.pool ∧
      (prepareFirstFrameIo p ctx src dst).driftMisses = p.driftMisses := by
    rw [prepareFirstFrameIo]
    split_ifs <;> exact ⟨rfl,rfl⟩
  have refusal (unsafe_ : frameIoSafe (prepareFirstFrameIo p ctx src dst) src dst = false) : Settled p := by
    obtain settled | ⟨done,failed⟩ := settled_or_fresh p
    · exact settled
    · exact absurd ((prepareFirstFrameIo_safe done failed).symm.trans unsafe_) (by decide)
  simp only [processViews]
  generalize prepareFirstFrameIo p ctx src dst = r at prepared stands pool refusal ⊢
  obtain ⟨samePool,sameMisses⟩ := pool
  cases safe : frameIoSafe r src dst with
  | false =>
    rw [if_pos rfl]
    obtain ⟨answer,counted,plan,_,last,lazyDone⟩ := noteAlignmentDrift_answer r f.stop
    rw [sameMisses] at answer counted last
    have settled : Settled r := by simpa only [Settled,samePool] using refusal safe
    refine ⟨noteAlignmentDrift_inv prepared settled (samePool ▸ whole) f.stop,nofun,fun _ => ⟨counted,answer,last⟩,
      fun done => ?_⟩
    rw [plan,lazyDone,stands done]
    exact ⟨done,rfl⟩
  | true =>
    rw [if_neg (by decide)]
    obtain ⟨inv,plan,misses,same,started⟩ := ensureLazyInit_spec prepared f.start
    have keeps (done : p.pool.lazyDone = true) : (ensureLazyInit r f.start).1 = p := by
      rw [stands done] at same ⊢
      exact same done
    cases ready : (ensureLazyInit r f.start).2 with
    | false =>
      simp only [if_true]
      exact ⟨inv,fun _ => ⟨misses.trans sameMisses,nofun⟩,nofun,fun done => by rw [keeps done]; exact ⟨done,rfl⟩⟩
    | true =>
      obtain ⟨srcSafe,dstSafe⟩ : (!r.plan.srcZerocopy || viewAligned src) = true ∧
          (!r.plan.dstZerocopy || viewAligned dst) = true := by simpa [frameIoSafe] using safe
      obtain ⟨after,kept,stood,answer,still⟩ := dispatchAndWait_inv (f := f) inv (started ready)
        (pointWorkersPlanes (ensureLazyInit r f.start).1 src) (pointWorkersPlanes (ensureLazyInit r f.start).1 dst)
        (fun direct => pointWorkersPlanes_aligned (by simpa [← plan,direct] using srcSafe))
        (fun direct => pointWorkersPlanes_aligned (by simpa [← plan,direct] using dstSafe))
      simp only [Bool.true_eq_false,if_false]
      exact ⟨after,fun _ => ⟨kept.trans (misses.trans sameMisses),answer⟩,nofun,
        fun done => ⟨still,stood.trans (by rw [keeps done])⟩⟩

/-- A broken pool answers before it looks at a picture. -/
theorem process_broken (broken : p.pool.broken = true) (f : Frame) : process ctx p f = (p,.fatal) := by
  rw [process,if_pos broken]

theorem process_views (whole : p.pool.broken = false) (viewed : frameViewsInit ctx f.src f.dst = some (src,dst)) :
    process ctx p f = processViews ctx (p.emit .inspect) f src dst := by
  rw [process,if_neg (by simp [whole])]
  simp only [viewed]

/-- Workers that have all succeeded are not poisoned. -/
theorem checkWorkerResults_ok (ok : (checkWorkerResults p f).2 = .ok) : (checkWorkerResults p f).1 = p := by
  rw [checkWorkerResults] at ok ⊢
  split_ifs at ok ⊢
  rfl

theorem dispatchAndWait_completed (ok : (dispatchAndWait p f).2 = .ok) :
    ((dispatchAndWait p f).1.pool.inlineRun || f.complete) = true := by
  rw [dispatchAndWait,WorkerPool.dispatch] at ok ⊢
  by_cases single : p.pool.inlineRun = true
  · simp only [if_pos single,Bool.true_eq_false,if_false] at ok ⊢
    rw [checkWorkerResults_ok ok,single,Bool.true_or]
  · rw [if_neg single] at ok ⊢
    cases complete : f.complete with
    | true => exact Bool.or_true _
    | false => simp [complete] at ok

/-- A frame that is answered with success has been through its barrier, or had no thread to
    wait for. -/
theorem process_completed (ctx : ScalerCtx) (p : Priv) (f : Frame) (ok : (process ctx p f).2 = .ok) :
    ((process ctx p f).1.pool.inlineRun || f.complete) = true := by
  cases broken : p.pool.broken with
  | true =>
    rw [process_broken broken] at ok
    cases ok
  | false =>
    cases viewed : frameViewsInit ctx f.src f.dst with
    | none =>
      rw [process,if_neg (by simp [broken])] at ok
      simp [viewed] at ok
    | some views =>
      rw [process_views broken viewed,processViews] at ok ⊢
      dsimp only at ok ⊢
      split_ifs at ok ⊢ with refused unready
      · rw [noteAlignmentDrift] at ok
        dsimp only at ok
        split_ifs at ok
      · exact dispatchAndWait_completed ok

theorem process_inv (inv : Inv p) (ctx : ScalerCtx) (f : Frame) : Inv (process ctx p f).1 ∧
    (p.pool.lazyDone = true → (process ctx p f).1.pool.lazyDone = true ∧ (process ctx p f).1.plan = p.plan) := by
  cases broken : p.pool.broken with
  | true =>
    rw [process_broken broken]
    exact ⟨inv,fun done => ⟨done,rfl⟩⟩
  | false =>
    have inspected := emit_inspect_inv inv
    cases viewed : frameViewsInit ctx f.src f.dst with
    | none =>
      rw [process,if_neg (by simp [broken])]
      simp only [viewed]
      exact ⟨warnBadGeometry_inv inspected,fun done => ⟨done,rfl⟩⟩
    | some views =>
      rw [process_views broken viewed]
      obtain ⟨after,_,_,stands⟩ := processViews_spec inspected broken ctx f views.1 views.2
      exact ⟨after,stands⟩

/-! ## Runs -/

theorem step_inv (inv : Inv p) (stepped : step ctx p f = some q) : Inv q := by
  cases stepped
  exact (process_inv inv ctx f).1

/-- Over any frames a started backend keeps its plan. -/
theorem run_started {frames : List Frame} (inv : Inv p) (done : p.pool.lazyDone = true)
    (executed : run (step ctx) p frames = some q) : q.plan = p.plan := by
  have each : ∀ s f t, (Inv s ∧ s.pool.lazyDone = true ∧ s.plan = p.plan) → step ctx s f = some t →
      Inv t ∧ t.pool.lazyDone = true ∧ t.plan = p.plan := by
    rintro s f t ⟨before,started,plan⟩ stepped
    cases stepped
    obtain ⟨after,stands⟩ := process_inv before ctx f
    obtain ⟨still,same⟩ := stands started
    exact ⟨after,still,same.trans plan⟩
  exact (reachable_preserves each ⟨inv,done,rfl⟩ ⟨frames,executed⟩).2.2

/-- Over any frames a broken backend stays as it is. -/
theorem run_broken {frames : List Frame} (broken : p.pool.broken = true) (executed : run (step ctx) p frames = some q) :
    q = p := by
  refine reachable_preserves (P := fun s => s = p) (fun s f t same stepped => ?_) rfl ⟨frames,executed⟩
  subst same
  cases stepped
  rw [process_broken broken]

/-- Every sequence of frames on an opened backend: workers are dispatched on
    aligned planes alone, with the plan that stands since the pool started; before
    that no frame with a valid view is refused; misses add up over the frames
    between them, the first 29 drop their frame and the 30th poisons the pool; and
    a broken pool answers without looking at the pictures. -/
theorem zimg_frames_contract {nThreads : Int} {allocated : Bool} {opened : Priv} {frames : List Frame}
    (begun : zimgOpen ctx nThreads allocated = some opened) (executed : run (step ctx) opened frames = some p) :
    (∀ plan src dst, .dispatch plan src dst ∈ p.trace → plan = p.plan ∧
      (plan.srcZerocopy = true → Aligned src) ∧ (plan.dstZerocopy = true → Aligned dst)) ∧
    (p.pool.lazyDone = true → ∀ later q, run (step ctx) p later = some q → q.plan = p.plan) ∧
    (∀ f src dst, p.pool.lazyDone = false → p.pool.lazyFailed = false →
      frameViewsInit ctx f.src f.dst = some (src,dst) →
      (process ctx p f).1.driftMisses = p.driftMisses ∧ (process ctx p f).2 ≠ .transient) ∧
    ((missed p.trace).length = p.driftMisses ∧ missed p.trace = missAnswers p.driftMisses) ∧
    (∀ f src dst, p.pool.broken = false → frameViewsInit ctx f.src f.dst = some (src,dst) →
      if frameIoSafe (prepareFirstFrameIo p ctx src dst) src dst then
        (process ctx p f).1.driftMisses = p.driftMisses ∧ (process ctx p f).2 ≠ .transient
      else
        (process ctx p f).1.driftMisses = p.driftMisses + 1 ∧ p.driftMisses + 1 ≤ 30 ∧
        (p.driftMisses + 1 < 30 → (process ctx p f).2 = .transient) ∧
        (p.driftMisses + 1 = 30 → (process ctx p f).2 = .fatal ∧ (process ctx p f).1.pool.broken = true)) ∧
    (p.pool.broken = true → ∀ later q, run (step ctx) p later = some q → q = p ∧ ∀ f, process ctx q f = (q,.fatal)) := by
  have inv : Inv p := reachable_preserves (fun _ _ _ => step_inv) (zimgOpen_inv begun) ⟨frames,executed⟩
  have inspected := emit_inspect_inv inv
  refine ⟨fun plan src dst member => (inv.dispatched plan src dst member).2,fun done later q => run_started inv done,
    fun f src dst done failed viewed => ?_,⟨inv.count,inv.misses⟩,fun f src dst whole viewed => ?_,
    fun broken later q continued => ?_⟩
  · obtain ⟨_,whole,_⟩ := inv.fresh done failed
    rw [process_views whole viewed]
    obtain ⟨_,safe,_,_⟩ := processViews_spec inspected whole ctx f src dst
    exact safe (prepareFirstFrameIo_safe done failed)
  · rw [process_views whole viewed]
    obtain ⟨_,safe,refused,_⟩ := processViews_spec inspected whole ctx f src dst
    have same : frameIoSafe (prepareFirstFrameIo (p.emit .inspect) ctx src dst) src dst =
        frameIoSafe (prepareFirstFrameIo p ctx src dst) src dst := by
      obtain settled | ⟨done,failed⟩ := settled_or_fresh p
      · have again : Settled (p.emit .inspect) := settled
        rw [prepareFirstFrameIo_settled settled,prepareFirstFrameIo_settled again]
        rfl
      · have again : (p.emit .inspect).pool = p.pool := rfl
        rw [prepareFirstFrameIo_safe done failed]
        exact prepareFirstFrameIo_safe (again ▸ done) (again ▸ failed)
    rw [same] at safe refused
    have below : p.driftMisses < 30 := inv.going whole
    split_ifs with fits
    · exact safe fits
    · obtain ⟨counted,answer,last⟩ := refused (by simpa using fits)
      refine ⟨counted,below,fun early => answer.trans (if_pos early),fun final => ⟨?_,last (le_of_eq final.symm)⟩⟩
      exact answer.trans (if_neg (not_lt.mpr (le_of_eq final.symm)))
  · obtain rfl := run_broken broken continued
    exact ⟨rfl,process_broken broken⟩

/-- From 32 by 32 to 64 by 64 pixels in 4:2:0 without a copy. -/
def doubling : ScalerCtx := ⟨32,32,32,32,0,0,64,64,Chroma.fourcc 'I' '4' '2' '0',0,1,1⟩

/-- A frame whose planes all start at an address. -/
def frameAt (address : Nat) : Frame :=
  let fine : StopOutcome := ⟨true,fun _ => true,fun _ => true⟩
  let picture (side : Nat) : Picture :=
    ⟨Chroma.fourcc 'I' '4' '2' '0',side,side,side,side,3,fun _ => ⟨address,64,64,1⟩⟩
  ⟨picture 32,picture 64,⟨true,true,true,true,fun _ => true,fun _ => true,fine⟩,true,fine,fun _ => true⟩

/-- An aligned frame starts the pool, 30 others drift. -/
theorem zimg_frames_contract_drifting : ∃ opened p, zimgOpen doubling 2 true = some opened ∧
    run (step doubling) opened (frameAt 4096 :: List.replicate 30 (frameAt 4097)) = some p ∧
    p.driftMisses = 30 ∧ (missed p.trace).length = 30 ∧ ∀ f, process doubling p f = (p,.fatal) := by
  obtain ⟨opened,begun⟩ := Option.isSome_iff_exists.mp (by decide +kernel : (zimgOpen doubling 2 true).isSome = true)
  have counted : ((zimgOpen doubling 2 true).bind fun opened =>
      (run (step doubling) opened (frameAt 4096 :: List.replicate 30 (frameAt 4097))).map fun p =>
        (p.driftMisses,p.pool.broken)) = some (30,true) := by decide +kernel
  rw [begun,Option.bind_some] at counted
  obtain ⟨p,executed,same⟩ := Option.map_eq_some_iff.mp counted
  obtain ⟨misses,broken⟩ := Prod.mk.inj same
  obtain ⟨_,_,_,⟨answers,_⟩,_,ended⟩ := zimg_frames_contract begun executed
  obtain ⟨_,fatal⟩ := ended broken [] p rfl
  exact ⟨opened,p,begun,executed,misses,answers.trans misses,fatal⟩

end AutoUpscale.ZimgProcess
