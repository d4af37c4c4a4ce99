import AutoUpscale.UsmParallel
import AutoUpscale.PoolLifecycle

/-!
Whole runs of `up_usm_pool_apply` on one pool. A call refuses its arguments, copies
the plane, fails to start the workers or dispatches them (`apply_cases`); once the
workers are up, their slots are as a sweep needs them (`ensureStarted_ready`). From
this follows what each status promises, whatever failed before (`status_contract`).
-/
namespace AutoUpscale.UsmPool
open AutoUpscale.Rows AutoUpscale.Usm
open AutoUpscale.Runs (run)
open AutoUpscale.WorkerPool (Event PoolInv Untouched finalized constructs)

/-! ## Hooks -/

/-- What the hooks of a trace, its last event first, leave. -/
def runHooks (p : Pool) (trace : List Event) : Pool := trace.foldr (fun e p => runHook p e) p

variable {p q : Pool} {trace : List Event} {n i : Nat}

/-- The hooks leave the size of the plane and the pool beneath alone. -/
structure SameSize (p q : Pool) : Prop where
  wide : q.width = p.width
  tall : q.height = p.height
  pool : q.pool = p.pool

theorem runHook_size (p : Pool) (e : Event) : SameSize p (runHook p e) := by
  cases e with
  | construct i ok => cases ok <;> exact ⟨rfl,rfl,rfl⟩
  | _ => exact ⟨rfl,rfl,rfl⟩

theorem runHooks_size (p : Pool) (trace : List Event) : SameSize p (runHooks p trace) := by
  induction trace with
  | nil => exact ⟨rfl,rfl,rfl⟩
  | cons e rest ih =>
    have last := runHook_size (runHooks p rest) e
    exact ⟨last.wide.trans ih.wide,last.tall.trans ih.tall,last.pool.trans ih.pool⟩

/-- Slot `i` has its size and its scratch block. -/
def Built (width height i : Nat) (w : Worker) : Prop :=
  w.width = width ∧ w.height = height ∧ w.scratch = ⟨.scratch,i * scratchRows * width⟩

theorem runHooks_built (p : Pool) (member : .construct i true ∈ trace) :
    Built p.width p.height i ((runHooks p trace).slots i) := by
  induction trace with
  | nil => exact absurd member List.not_mem_nil
  | cons e rest ih =>
    have size := runHooks_size p rest
    show Built p.width p.height i ((runHook (runHooks p rest) e).slots i)
    by_cases own : e = .construct i true
    · rw [own,← size.wide,← size.tall]
      simp only [runHook,constructWorker,Function.update_self]
      exact ⟨rfl,rfl,rfl⟩
    · have earlier := ih ((List.mem_cons.mp member).resolve_left fun same => own same.symm)
      cases e with
      | construct j ok =>
        cases ok with
        | false => exact earlier
        | true =>
          have other : i ≠ j := fun same => own (same ▸ rfl)
          simp only [runHook,constructWorker,Function.update_of_ne other]
          exact earlier
      | finalize k =>
        simp only [runHook,repartitionStripes]
        split
        · exact earlier
        · exact earlier
      | _ => exact earlier

/-- The stripes are those of the only call of `usm_pool_finalize`. -/
theorem runHooks_finalized (p : Pool) (once : finalized trace = [n]) : (runHooks p trace).nThreads = n ∧
    ∀ i, i < n → ((runHooks p trace).slots i).yStart = stripeCut n p.height i ∧
      ((runHooks p trace).slots i).yEnd = stripeCut n p.height (i + 1) := by
  induction trace with
  | nil => exact absurd once (by simp [finalized])
  | cons e rest ih =>
    have size := runHooks_size p rest
    show (runHook (runHooks p rest) e).nThreads = n ∧ ∀ i, i < n →
      ((runHook (runHooks p rest) e).slots i).yStart = _ ∧ ((runHook (runHooks p rest) e).slots i).yEnd = _
    cases e with
    | finalize k =>
      obtain ⟨rfl,_⟩ : k = n ∧ finalized rest = [] := by simpa [finalized] using once
      refine ⟨rfl,fun i inside => ?_⟩
      have slot := partition_stripe ((runHooks p rest).slots i) (runHooks p rest).height inside
      rw [size.tall] at slot
      simpa only [runHook,repartitionStripes,if_pos inside,size.tall] using slot
    | construct j ok =>
      obtain ⟨count,stripes⟩ := ih (by simpa [finalized] using once)
      cases ok with
      | false => exact ⟨count,stripes⟩
      | true =>
        refine ⟨count,fun i inside => ?_⟩
        by_cases same : i = j
        · simp only [runHook,constructWorker,same,Function.update_self]
          exact same ▸ stripes i inside
        · simp only [runHook,constructWorker,Function.update_of_ne same]
          exact stripes i inside
    | _ => exact ih (by simpa [finalized] using once)

/-! ## What calls keep -/

/-- What every sequence of calls keeps of a pool for planes of the given size. -/
structure Inv (width height : Nat) (p : Pool) : Prop where
  wide : p.width = width
  tall : p.height = height
  lifecycle : PoolInv usmPoolOps p.pool
  live : p.pool.destroyed = false
  few : p.pool.nPref ≤ height
  ready : p.pool.lazyDone = true → p.nThreads = p.pool.nWorkers ∧
    ∀ i, i < p.pool.nWorkers → Slot width height p.pool.nWorkers i (p.slots i)

variable {width height : Nat}

/-- A started pool has a worker, and not more than one for each row. -/
theorem inv_count (inv : Inv width height p) (done : p.pool.lazyDone = true) :
    0 < p.pool.nWorkers ∧ p.pool.nWorkers ≤ height := by
  obtain ⟨low,high,_⟩ := (inv.lifecycle.up done inv.live).count
  have few := inv.few
  omega

theorem ensureStarted_pool (p : Pool) (o : WorkerPool.StartOutcome) :
    (ensureStarted p o).1.pool = (WorkerPool.ensureStarted usmPoolOps p.pool { o with construct := fun _ => true }).1 :=
  (runHooks_size _ _).pool

theorem ensureStarted_result (p : Pool) (o : WorkerPool.StartOutcome) :
    (ensureStarted p o).2 = (WorkerPool.ensureStarted usmPoolOps p.pool { o with construct := fun _ => true }).2 := rfl

/-- A start that has succeeded or failed before is not repeated. -/
theorem ensureStarted_again (o : WorkerPool.StartOutcome) (settled : p.pool.lazyDone = true ∨ p.pool.lazyFailed = true) :
    (ensureStarted p o).1 = p := by
  have same : (WorkerPool.ensureStarted usmPoolOps p.pool { o with construct := fun _ => true }).1 = p.pool := by
    by_cases done : p.pool.lazyDone = true
    · simp only [WorkerPool.ensureStarted,done,if_true]
    · have failed := settled.resolve_left done
      simp only [WorkerPool.ensureStarted,done,failed,if_true,Bool.false_eq_true,if_false]
  simp only [ensureStarted,same,Nat.sub_self,List.take_zero,List.foldr_nil]

theorem ensureStarted_done {o : WorkerPool.StartOutcome} (started : (ensureStarted p o).2 = true) :
    (ensureStarted p o).1.pool.lazyDone = true := by
  rw [ensureStarted_pool]
  exact WorkerPool.ensureStarted_done started

/-- The first start leaves slots that are ready for a frame, if it succeeds. -/
theorem ensureStarted_inv (inv : Inv width height p) (o : WorkerPool.StartOutcome) :
    Inv width height (ensureStarted p o).1 := by
  by_cases settled : p.pool.lazyDone = true ∨ p.pool.lazyFailed = true
  · rw [ensureStarted_again o settled]
    exact inv
  have undone : p.pool.lazyDone = false := by simpa using fun done => settled (Or.inl done)
  have whole : p.pool.lazyFailed = false := by simpa using fun failed => settled (Or.inr failed)
  have untouched := inv.lifecycle.untouched undone whole inv.live
  have lifecycle := WorkerPool.poolInv_ensureStarted inv.lifecycle inv.live { o with construct := fun _ => true }
  have config := WorkerPool.ensureStarted_config inv.lifecycle inv.live { o with construct := fun _ => true }
  have size := runHooks_size { p with pool := (ensureStarted p o).1.pool } (ensureStarted p o).1.pool.trace
  have called : (ensureStarted p o).1 =
      runHooks { p with pool := (ensureStarted p o).1.pool } (ensureStarted p o).1.pool.trace := by
    rw [ensureStarted_pool]
    simp only [ensureStarted,runHooks,untouched.trace,List.length_nil,Nat.sub_zero,List.take_length]
  rw [← ensureStarted_pool] at lifecycle config
  generalize (ensureStarted p o).1 = q at lifecycle config size called ⊢
  rw [← called] at size
  have live : q.pool.destroyed = false := config.2.trans inv.live
  refine ⟨size.wide.trans inv.wide,size.tall.trans inv.tall,lifecycle,live,by rw [config.1]; exact inv.few,fun done => ?_⟩
  have up := lifecycle.up done live
  obtain ⟨count,stripes⟩ := runHooks_finalized { p with pool := q.pool } (up.finalized rfl)
  rw [← called] at count stripes
  refine ⟨count,fun i inside => ?_⟩
  have constructed : Event.construct i true ∈ q.pool.trace := by
    have once := (lifecycle.slots.life.alive i inside).1
    exact List.count_pos_iff.mp (by simp only [constructs] at once; omega)
  obtain ⟨wide,tall,scratch⟩ := runHooks_built { p with pool := q.pool } constructed
  rw [← called] at wide tall scratch
  obtain ⟨start,stop⟩ := stripes i inside
  rw [inv.wide] at wide scratch
  rw [inv.tall] at tall start stop
  exact ⟨wide,tall,scratch,start,stop⟩

theorem create_inv {nThreads width height stripeMinRows : Int} (created : create nThreads width height stripeMinRows = some p) :
    Inv p.width p.height p ∧ 0 < p.width ∧ 0 < p.height := by
  simp only [create] at created
  split at created
  · cases created
  · cases created
    have tall : 0 < height.toNat := by omega
    have rows := resolveThreads_le nThreads stripeMinRows tall
    rw [Int.toNat_of_nonneg (by omega)] at rows
    refine ⟨⟨rfl,rfl,WorkerPool.poolInv_configured _,rfl,?_,fun done => Bool.noConfusion done⟩,by show 0 < width.toNat; omega,tall⟩
    show resolveThreads nThreads height stripeMinRows ≤ (height.toNat : Int)
    omega

/-! ## The outcomes of a call -/

/-- How a call ends: refused, by the identity copy, without workers, or by a dispatch. -/
inductive Outcomes (p : Pool) (m : Bytes) (a : Args) (o : Outcome) : Applied → Prop
  | refused : Outcomes p m a o ⟨.failedUnchanged,none,p,m⟩
  | identity (valid : validateArgs p a = true) (zero : clampAmountQ8 a.amountQ8 = 0) : Outcomes p m a o
      ⟨.ok,none,p,applyIdentity m (frameOf a).dst (frameOf a).dstStride (frameOf a).src (frameOf a).srcStride p.width p.height⟩
  | unstarted (failed : (ensureStarted p o.start).2 = false) :
      Outcomes p m a o ⟨.failedUnchanged,some false,(ensureStarted p o.start).1,m⟩
  | dispatch {r : Applied} (valid : validateArgs p a = true) (amount : clampAmountQ8 a.amountQ8 ≠ 0)
      (started : (ensureStarted p o.start).2 = true)
      (dispatched : applyDispatch (ensureStarted p o.start).1 (frameOf a) m o = some r) : Outcomes p m a o r

variable {m : Bytes} {a : Args} {o : Outcome} {r : Applied}

theorem apply_cases (applied : apply p m a o = some r) : Outcomes p m a o r := by
  simp only [apply] at applied
  by_cases valid : validateArgs p a = false
  · rw [if_pos valid] at applied
    cases applied
    exact .refused
  rw [if_neg valid] at applied
  by_cases broken : p.pool.broken = true
  · rw [if_pos broken] at applied
    cases applied
    exact .refused
  rw [if_neg broken] at applied
  have valid : validateArgs p a = true := by simpa using valid
  by_cases zero : (frameOf a).amountQ8 = 0
  · rw [if_pos zero] at applied
    cases applied
    exact .identity valid zero
  rw [if_neg zero] at applied
  by_cases failed : (ensureStarted p o.start).2 = false
  · rw [if_pos failed] at applied
    cases applied
    exact .unstarted failed
  · rw [if_neg failed] at applied
    exact .dispatch valid zero (by simpa using failed) applied

/-- A broken pool refuses every call. -/
theorem apply_broken (broken : p.pool.broken = true) (applied : apply p m a o = some r) :
    r = ⟨.failedUnchanged,none,p,m⟩ := by
  simp only [apply,broken,if_true] at applied
  split at applied <;> exact (Option.some.inj applied).symm

/-- After a failed start a call starts nothing. -/
theorem apply_failed (inv : Inv width height p) (failed : p.pool.lazyFailed = true) (amount : clampAmountQ8 a.amountQ8 ≠ 0)
    (applied : apply p m a o = some r) : r.status = .failedUnchanged := by
  cases apply_cases applied with
  | refused => rfl
  | identity _ zero => exact absurd zero amount
  | unstarted => rfl
  | dispatch _ _ started _ =>
    have undone : p.pool.lazyDone = false := by
      by_contra done
      exact inv.lifecycle.either ⟨by simpa using done,failed⟩
    rw [ensureStarted_result] at started
    simp [WorkerPool.ensureStarted,undone,failed] at started

variable {f : Frame}

/-- What a dispatch comes to: some row operations were performed, all of them where it
    completes, and the pool is broken where it does not. -/
theorem applyDispatch_spec (applied : applyDispatch p f m o = some r) :
    r.start = some true ∧ r.pool = { p with
      slots := (setPerFrame p.slots f p.height m p.nThreads).1
      pool := (WorkerPool.dispatch p.pool o.complete o.stop).1 } ∧
    (r.status = .outputUncertain ∧ r.pool.pool.broken = true ∨ r.status = .ok ∧ ∃ s,
      Runs.run (sweepStep (setPerFrame p.slots f p.height m p.nThreads).1)
        (sweepFrom (setPerFrame p.slots f p.height m p.nThreads).1 p.pool.nWorkers
          (setPerFrame p.slots f p.height m p.nThreads).2) (o.schedule p.pool.nWorkers) = some s ∧
      Swept s ∧ r.memory = s.memory) := by
  have broken := (WorkerPool.dispatch_stopped p.pool o.complete o.stop).2
  simp only [applyDispatch] at applied
  split at applied
  · cases applied
  · rename_i s performed
    split at applied
    · split at applied
      · cases applied
        exact ⟨rfl,rfl,Or.inr ⟨rfl,s,performed,‹_›,rfl⟩⟩
      · cases applied
    · rename_i incomplete
      cases applied
      exact ⟨rfl,rfl,Or.inl ⟨rfl,broken (by simpa using incomplete)⟩⟩

theorem applyDispatch_inv (inv : Inv width height p) (done : p.pool.lazyDone = true)
    (applied : applyDispatch p f m o = some r) : Inv width height r.pool := by
  obtain ⟨_,pool,_⟩ := applyDispatch_spec applied
  have stopped := (WorkerPool.dispatch_stopped p.pool o.complete o.stop).1
  have moved : WorkerPool.step usmPoolOps p.pool (.dispatch o.complete o.stop) =
      some (WorkerPool.dispatch p.pool o.complete o.stop).1 := by
    simp only [WorkerPool.step,WorkerPool.call,inv.live,done,Bool.false_eq_true,if_false,if_true,Option.map_some]
  obtain ⟨count,team⟩ := inv.ready done
  have nWorkers : (WorkerPool.dispatch p.pool o.complete o.stop).1.nWorkers = p.pool.nWorkers := by rw [stopped.same]
  rw [pool]
  refine ⟨inv.wide,inv.tall,WorkerPool.poolInv_step inv.lifecycle moved,stopped.config.destroyed.trans inv.live,
    by rw [stopped.config.nPref]; exact inv.few,fun _ => ⟨count.trans nWorkers.symm,fun i inside => ?_⟩⟩
  simp only [nWorkers] at inside ⊢
  rw [setPerFrame_fst]
  split
  · exact dressed_slot (team i inside)
  · exact team i inside

theorem apply_inv (inv : Inv width height p) (applied : apply p m a o = some r) : Inv width height r.pool := by
  cases apply_cases applied with
  | refused => exact inv
  | identity => exact inv
  | unstarted => exact ensureStarted_inv inv o.start
  | dispatch _ _ started dispatched =>
    exact applyDispatch_inv (ensureStarted_inv inv o.start) (ensureStarted_done started) dispatched

/-! ## Promises of the statuses -/

/-- Planes as a caller may pass them: one plane, or two without a common pixel. -/
def SameOrApart (width height : Nat) (a : Args) : Prop :=
  a.dst = a.src ∨ Disjoint (Band (frameOf a).src (frameOf a).srcStride width 0 height)
    (Band (frameOf a).dst (frameOf a).dstStride width 0 height)

theorem validateArgs_fits (valid : validateArgs p a = true) (planes : SameOrApart p.width p.height a) :
    Fits (frameOf a) p.width p.height := by
  obtain ⟨args,strides⟩ : planeArgsOk a p.width = true ∧ ¬ (a.dst = a.src ∧ a.dstStride ≠ a.srcStride) := by
    simp only [validateArgs] at valid
    split at valid
    · cases valid
    · rename_i args
      split at valid
      · cases valid
      · rename_i strides
        exact ⟨by simpa using args,strides⟩
  obtain ⟨pointers,room⟩ : ¬ (a.dst = none ∨ a.src = none) ∧ ¬ (a.dstStride < p.width ∨ a.srcStride < p.width) := by
    simp only [planeArgsOk] at args
    split at args
    · cases args
    · rename_i pointers
      split at args
      · cases args
      · rename_i room
        exact ⟨pointers,room⟩
  have plane : ∀ q : Option Nat, q ≠ none → (planePointer q).block = .plane := by
    intro q present
    cases q with
    | none => exact absurd rfl present
    | some offset => rfl
  refine ⟨?_,plane a.dst fun none => pointers (Or.inl none),plane a.src fun none => pointers (Or.inr none),?_⟩
  · simp only [frameOf]
    omega
  · rcases planes with same | apart
    · refine Or.inl ⟨congrArg planePointer same,?_⟩
      have equal : a.dstStride = a.srcStride := by
        by_contra different
        exact strides ⟨same,different⟩
      simp only [frameOf,equal]
    · exact Or.inr apart

/-- The plane that a successful call promises: a copy for a zero amount, else the
    reference. -/
def promised (m : Bytes) (a : Args) (width height x y : Nat) : Nat :=
  if clampAmountQ8 a.amountQ8 = 0 then sourcePlane m (frameOf a) y x
  else sharpened (sourcePlane m (frameOf a)) width height (clampAmountQ8 a.amountQ8) x y

theorem apply_ok (inv : Inv width height p) (wide : 0 < width) (planes : SameOrApart width height a)
    (applied : apply p m a o = some r) (ok : r.status = .ok) {x y : Nat} (column : x < width) (row : y < height) :
    bytesAt r.memory (rowAt (frameOf a).dst (frameOf a).dstStride y) x = promised m a width height x y := by
  cases apply_cases applied with
  | refused => exact absurd ok Status.noConfusion
  | identity valid zero =>
    rw [← inv.wide,← inv.tall] at planes
    have fits := validateArgs_fits valid planes
    rw [inv.wide,inv.tall] at fits
    have copied := congrArg UInt8.toNat (applyIdentity_value (m := m) fits.room fits.aliasing column row)
    rw [promised,if_pos zero,bytesAt]
    dsimp only
    rw [inv.wide,inv.tall]
    exact copied
  | unstarted => exact absurd ok Status.noConfusion
  | dispatch valid amount started dispatched =>
    rw [← inv.wide,← inv.tall] at planes
    have fits := validateArgs_fits valid planes
    rw [inv.wide,inv.tall] at fits
    have up := ensureStarted_inv inv o.start
    have done := ensureStarted_done started
    obtain ⟨positive,few⟩ := inv_count up done
    obtain ⟨count,team⟩ := up.ready done
    obtain ⟨_,_,outcome⟩ := applyDispatch_spec dispatched
    rcases outcome with ⟨uncertain,_⟩ | ⟨_,s,executed,swept,memory⟩
    · rw [uncertain] at ok
      exact absurd ok Status.noConfusion
    · rw [count,up.tall] at executed
      rw [memory,promised,if_neg amount]
      exact sweep_reference team positive few wide fits executed swept column row

/-- A call that succeeds writes the pixels of the destination and no other pixel. -/
theorem apply_frame (inv : Inv width height p) (wide : 0 < width) (planes : SameOrApart width height a)
    (applied : apply p m a o = some r) (ok : r.status = .ok) {k : Pointer Block} (block : k.block = .plane)
    (outside : k ∉ Band (frameOf a).dst (frameOf a).dstStride width 0 height) : r.memory k = m k := by
  cases apply_cases applied with
  | refused => rfl
  | identity =>
    rw [← inv.wide,← inv.tall] at outside
    exact applyIdentity_frame outside
  | unstarted => rfl
  | dispatch valid amount started dispatched =>
    rw [← inv.wide,← inv.tall] at planes
    have fits := validateArgs_fits valid planes
    rw [inv.wide,inv.tall] at fits
    have up := ensureStarted_inv inv o.start
    have done := ensureStarted_done started
    obtain ⟨_,few⟩ := inv_count up done
    obtain ⟨count,team⟩ := up.ready done
    obtain ⟨_,_,⟨uncertain,_⟩ | ⟨_,s,executed,_,memory⟩⟩ := applyDispatch_spec dispatched
    · exact absurd (uncertain.symm.trans ok) Status.noConfusion
    · rw [count,up.tall] at executed
      rw [memory]
      exact sweep_frame team few wide fits executed block outside

theorem apply_failed_unchanged (applied : apply p m a o = some r) (failed : r.status = .failedUnchanged) : r.memory = m := by
  cases apply_cases applied with
  | refused => rfl
  | identity => exact absurd failed Status.noConfusion
  | unstarted => rfl
  | dispatch _ _ _ dispatched =>
    obtain ⟨_,_,⟨uncertain,_⟩ | ⟨ok,_⟩⟩ := applyDispatch_spec dispatched
    · rw [uncertain] at failed
      exact absurd failed Status.noConfusion
    · rw [ok] at failed
      exact absurd failed Status.noConfusion

/-! ## Runs -/

/-- A call with what the caller's memory holds before it. -/
structure Call where
  planes : Nat → UInt8
  args : Args
  outcome : Outcome

/-- The status of a call, and whether it started the pool. -/
structure Entry where
  status : Status
  start : Option Bool

/-- The pool, the memory, and what the calls so far returned, the last one first. -/
structure World where
  pool : Pool
  memory : Bytes
  log : List Entry

/-- The memory that a call finds. -/
def given (w : World) (c : Call) : Bytes := fun a => if a.block = .plane then c.planes a.offset else w.memory a

def step (w : World) (c : Call) : Option World :=
  (apply w.pool (given w c) c.args c.outcome).map fun r => ⟨r.pool,r.memory,⟨r.status,r.start⟩ :: w.log⟩

/-- The log tells of every failure that the pool remembers. -/
structure Remembers (w : World) : Prop where
  uncertain : (∃ e ∈ w.log, e.status = .outputUncertain) → w.pool.pool.broken = true
  failed : (∃ e ∈ w.log, e.start = some false) → w.pool.pool.lazyFailed = true

variable {w w' : World} {c : Call}

theorem step_iff : step w c = some w' ↔
    ∃ r, apply w.pool (given w c) c.args c.outcome = some r ∧ w' = ⟨r.pool,r.memory,⟨r.status,r.start⟩ :: w.log⟩ := by
  simp only [step,Option.map_eq_some_iff]
  constructor
  · rintro ⟨r,applied,rfl⟩
    exact ⟨r,applied,rfl⟩
  · rintro ⟨r,applied,rfl⟩
    exact ⟨r,applied,rfl⟩

theorem ensureStarted_failed {o : WorkerPool.StartOutcome} (failed : (ensureStarted p o).2 = false) :
    (ensureStarted p o).1.pool.lazyFailed = true := by
  rw [ensureStarted_pool]
  exact WorkerPool.ensureStarted_failed failed

/-- What a call adds to the log. -/
theorem apply_remembers (inv : Inv width height p) (applied : apply p m a o = some r) :
    (r.status = .outputUncertain → r.pool.pool.broken = true) ∧ (r.start = some false → r.pool.pool.lazyFailed = true) ∧
      (p.pool.broken = true → r.pool.pool.broken = true) ∧ (p.pool.lazyFailed = true → r.pool.pool.lazyFailed = true) := by
  refine ⟨fun uncertain => ?_,fun failed => ?_,fun broken => ?_,fun failed => ?_⟩
  · cases apply_cases applied with
    | refused => exact absurd uncertain Status.noConfusion
    | identity => exact absurd uncertain Status.noConfusion
    | unstarted => exact absurd uncertain Status.noConfusion
    | dispatch _ _ _ dispatched =>
      obtain ⟨_,_,⟨_,broken⟩ | ⟨ok,_⟩⟩ := applyDispatch_spec dispatched
      · exact broken
      · rw [ok] at uncertain
        exact absurd uncertain Status.noConfusion
  · cases apply_cases applied with
    | refused => cases failed
    | identity => cases failed
    | unstarted unable => exact ensureStarted_failed unable
    | dispatch _ _ _ dispatched =>
      rw [(applyDispatch_spec dispatched).1] at failed
      cases failed
  · rw [apply_broken broken applied]
    exact broken
  · cases apply_cases applied with
    | refused => exact failed
    | identity => exact failed
    | unstarted => rwa [ensureStarted_again o.start (Or.inr failed)]
    | dispatch _ amount started dispatched =>
      have refused := apply_failed inv failed amount applied
      obtain ⟨_,_,⟨uncertain,_⟩ | ⟨ok,_⟩⟩ := applyDispatch_spec dispatched
      · rw [uncertain] at refused
        cases refused
      · rw [ok] at refused
        cases refused

theorem step_remembers (inv : Inv width height w.pool) (remembers : Remembers w) (stepped : step w c = some w') :
    Inv width height w'.pool ∧ Remembers w' := by
  obtain ⟨r,applied,rfl⟩ := step_iff.mp stepped
  obtain ⟨uncertain,failed,broken,sticky⟩ := apply_remembers inv applied
  refine ⟨apply_inv inv applied,?_,?_⟩
  · rintro ⟨e,member,status⟩
    rcases List.mem_cons.mp member with rfl | earlier
    · exact uncertain status
    · exact broken (remembers.uncertain ⟨e,earlier,status⟩)
  · rintro ⟨e,member,start⟩
    rcases List.mem_cons.mp member with rfl | earlier
    · exact failed start
    · exact sticky (remembers.failed ⟨e,earlier,start⟩)

theorem run_remembers {calls : List Call} (inv : Inv width height p) (executed : run step ⟨p,m,[]⟩ calls = some w) :
    Inv width height w.pool ∧ Remembers w :=
  Runs.reachable_preserves (P := fun w => Inv width height w.pool ∧ Remembers w)
    (fun _ _ _ both stepped => step_remembers both.1 both.2 stepped) ⟨inv,⟨fun none => by simp at none,fun none => by simp at none⟩⟩
    ⟨calls,executed⟩

/-- What the status of any call in any run of calls says, whatever the starts and
    dispatches before it came to. A call that failed without touching its output did
    not; a successful one delivers the reference, or the copy for a zero amount. After
    an uncertain output every call is refused, and after a failed start every call
    that needs workers. -/
theorem status_contract {nThreads width height stripeMinRows : Int}
    (created : create nThreads width height stripeMinRows = some p) {calls : List Call}
    (executed : run step ⟨p,m,[]⟩ calls = some w) (called : step w c = some w')
    (planes : SameOrApart p.width p.height c.args) : ∃ e, w'.log = e :: w.log ∧
    (e.status = .failedUnchanged → ∀ k, w'.memory ⟨.plane,k⟩ = c.planes k) ∧
    (e.status = .ok → ∀ x y, x < p.width → y < p.height →
      bytesAt w'.memory (rowAt (frameOf c.args).dst (frameOf c.args).dstStride y) x =
        promised (given w c) c.args p.width p.height x y) ∧
    ((∃ d ∈ w.log, d.status = .outputUncertain) → e.status = .failedUnchanged) ∧
    ((∃ d ∈ w.log, d.start = some false) → clampAmountQ8 c.args.amountQ8 ≠ 0 → e.status = .failedUnchanged) := by
  obtain ⟨fresh,wide,_⟩ := create_inv created
  obtain ⟨inv,remembers⟩ := run_remembers fresh executed
  obtain ⟨r,applied,rfl⟩ := step_iff.mp called
  refine ⟨⟨r.status,r.start⟩,rfl,fun failed k => ?_,fun ok x y column row => ?_,fun uncertain => ?_,fun failed amount => ?_⟩
  · show r.memory ⟨.plane,k⟩ = c.planes k
    rw [apply_failed_unchanged applied failed]
    exact if_pos rfl
  · exact apply_ok inv wide planes applied ok column row
  · rw [apply_broken (remembers.uncertain uncertain) applied]
  · exact apply_failed inv (remembers.failed failed) amount applied

/-- A pool of two workers for planes of two by two pixels. -/
def smallPool : Pool := ⟨2,2,2,2,fun _ => zeroed,WorkerPool.configured 2⟩

/-- A call in place on a plane of two by two pixels; `turns` is the order of the
    workers, and the dispatch completes or not. -/
def smallCall (amountQ8 : Int) (turns : (n : Nat) → List (Fin n)) (complete : Bool) : Call :=
  let fine : WorkerPool.StopOutcome := ⟨true,fun _ => true,fun _ => true⟩
  ⟨fun _ => 7,⟨some 0,2,some 0,2,amountQ8⟩,⟨⟨true,true,true,true,fun _ => true,fun _ => true,fine⟩,turns,complete,fine⟩⟩

/-- A dispatch that completes, then one that fails before any row. -/
def uncertainCalls : List Call :=
  [smallCall 256 (fun n => (List.finRange n).flatMap fun i => [i,i,i,i]) true,smallCall 256 (fun _ => []) false]

/-- Even a copy is refused after them. -/
theorem status_contract_uncertain : ∃ w w' e, run step ⟨smallPool,fun _ => 0,[]⟩ uncertainCalls = some w ∧
    w.log.map Entry.status = [.outputUncertain,.ok] ∧ step w (smallCall 0 (fun _ => []) true) = some w' ∧
    w'.log = e :: w.log ∧ e.status = .failedUnchanged ∧ ∀ k, w'.memory ⟨.plane,k⟩ = 7 := by
  obtain ⟨w',whole⟩ := Option.isSome_iff_exists.mp (by decide +kernel :
    (run step ⟨smallPool,fun _ => 0,[]⟩ (uncertainCalls ++ [smallCall 0 (fun _ => []) true])).isSome = true)
  obtain ⟨w,executed,last⟩ := Runs.run_append_iff.mp whole
  obtain ⟨_,called,same⟩ := Runs.run_cons_iff.mp last
  cases same
  have statuses : w.log.map Entry.status = [.outputUncertain,.ok] :=
    Runs.run_value (fun w => w.log.map Entry.status) executed (by decide +kernel)
  have uncertain : ∃ d ∈ w.log, d.status = .outputUncertain := by
    have member : Status.outputUncertain ∈ w.log.map Entry.status := by rw [statuses]; decide
    simpa using member
  obtain ⟨e,log,unchanged,_,refused,_⟩ := status_contract (show create 2 2 2 1 = some smallPool from rfl) executed called
    (Or.inl rfl)
  exact ⟨w,w',e,executed,statuses,called,log,refused uncertain,unchanged (refused uncertain)⟩

end AutoUpscale.UsmPool
