import AutoUpscale.PoolWork
import AutoUpscale.UsmApply

/-!
Whole runs of `up_usm_pool_apply` whose workers are threads at the gate of their pool. What
the threads do in a dispatch, however they interleave and whatever fails, is what a dispatch
of the sharpening pool may do (`dispatchThreads_sweeps`), so every run with threads is a run
of calls as `apply` describes them (`threads_refine`).
-/
namespace AutoUpscale.UsmThreads
open AutoUpscale.Footprint (advance run_embed)
open AutoUpscale.PoolWork (Callbacks Dispatched Reached dispatchBy dispatchBy_spec)
open AutoUpscale.Rows
open AutoUpscale.Runs
open AutoUpscale.Usm (applyIdentity bytesAt)
open AutoUpscale.UsmPool
variable {q n width height : Nat}

/-! ## A call -/

/-- `usm_pool_execute_worker`, row operation by row operation. -/
def executeWorker (q : Nat) : Callbacks q (Worker × Cursor) (Pointer Block) UInt8 where
  step _ c m := (rowStep c.1 c.2 m).map (Prod.map (Prod.mk c.1) id)
  returned c := c.2.phase = .finished

/-- The threads of a pool of `q` requested workers at work. -/
abbrev Threads (q : Nat) := PoolWork.State q (Worker × Cursor) (Pointer Block) UInt8

/-- The slots as the callbacks find them. -/
def loaded (slots : Nat → Worker) (i : Fin q) : Worker × Cursor := (slots i,enter (slots i))

/-- What happens during a call: the outcomes of the start, with the calls of the pool that the
    owner then makes; what the threads do before the dispatch and until it returns, or in which
    order the rows are swept where the pool has no thread; and the outcomes of the stop. -/
structure Turns (q : Nat) where
  start : WorkerPool.StartOutcome
  calls : List Gate.Call
  before : List (PoolWork.Action q (Worker × Cursor) (Pointer Block) UInt8)
  after : List (PoolWork.Action q (Worker × Cursor) (Pointer Block) UInt8)
  inline : (n : Nat) → List (Fin n)
  stop : WorkerPool.StopOutcome

/-- The dispatch of `up_usm_pool_apply` by its threads, once the frame is set. -/
def dispatchThreads (p : Pool) (threads : Threads q) (f : Frame) (m : Bytes) (e : Turns q) : Option (Applied × Threads q) :=
  let set := setPerFrame p.slots f p.height m p.nThreads
  (dispatchBy (executeWorker q) threads e.before set.2 (loaded set.1) e.after).map fun (complete,t) =>
    (⟨if complete then .ok else .outputUncertain,some true,
      { p with slots := set.1, pool := (WorkerPool.dispatch p.pool complete e.stop).1 },t.memory⟩,t)

/-- The threads that the dispatch of a started pool finds. -/
def threadsOf (p : Pool) (threads : Option (Threads q)) (m : Bytes) (e : Turns q) : Threads q :=
  threads.getD (PoolWork.initial q p.pool.nWorkers e.calls m (loaded p.slots))

/-- `up_usm_pool_apply` with its threads, once there are any. -/
def applyThreads (p : Pool) (threads : Option (Threads q)) (m : Bytes) (a : Args) (e : Turns q) :
    Option (Applied × Option (Threads q)) :=
  if validateArgs p a = false then some (⟨.failedUnchanged,none,p,m⟩,threads)
  else if p.pool.broken then some (⟨.failedUnchanged,none,p,m⟩,threads)
  else
    let f := frameOf a
    if f.amountQ8 = 0 then
      some (⟨.ok,none,p,applyIdentity m f.dst f.dstStride f.src f.srcStride p.width p.height⟩,threads)
    else
      let (p,started) := ensureStarted p e.start
      if started = false then some (⟨.failedUnchanged,some false,p,m⟩,threads)
      else if p.pool.inlineRun then
        (applyDispatch p f m ⟨e.start,e.inline,true,e.stop⟩).map fun r => (r,threads)
      else (dispatchThreads p (threadsOf p threads m e) f m e).map fun (r,t) => (r,some t)

variable {p : Pool} {threads : Threads q} {f : Frame} {m : Bytes} {e : Turns q} {r : Applied} {t : Threads q}

/-- The callbacks of the threads that came up are the workers of a sweep. -/
theorem woven_sweep {set : Nat → Worker} {schedule : List (Fin q)} {m' : Bytes} {reached : Fin q → Worker × Cursor} (fits : n ≤ q)
    (only : ∀ i ∈ schedule, i.val < n)
    (woven : run (advance (executeWorker q).step) ⟨m,loaded set⟩ schedule = some ⟨m',reached⟩) :
    ∃ order finish, run (sweepStep set) (sweepFrom set n m) order = some finish ∧ m' = finish.memory ∧
      ∀ i, reached (Fin.castLE fits i) = (set i,finish.cursor i) := by
  have same : ∀ (i : Fin n) c m, (executeWorker q).step (Fin.castLE fits i) (set i,c) m =
      (rowStep (set i) c m).map (Prod.map (fun c => (set i,c)) id) := fun _ _ _ => rfl
  exact run_embed (r := sweepFrom set n m) (Fin.castLE_injective fits) same rfl (fun _ => rfl)
    (fun i member => ⟨⟨i,only i member⟩,rfl⟩) woven

/-- What the threads do in a dispatch is what the workers of the pool may do. -/
theorem dispatchThreads_sweeps (fits : p.pool.nWorkers ≤ q) (threaded : p.pool.inlineRun = false)
    (reached : Reached (executeWorker q) p.pool.nWorkers threads) (dispatched : dispatchThreads p threads f m e = some (r,t)) :
    (∃ o, o.start = e.start ∧ applyDispatch p f m o = some r) ∧ ∃ complete memory slots,
      Dispatched (executeWorker q) p.pool.nWorkers memory slots complete t ∧ (r.status = .outputUncertain → complete = false) := by
  obtain ⟨⟨complete,u⟩,executed,pair⟩ := Option.map_eq_some_iff.mp dispatched
  obtain ⟨rfl,rfl⟩ := Prod.mk.inj pair
  have spec := dispatchBy_spec fits reached executed
  refine ⟨?_,complete,_,_,spec,by cases complete <;> simp⟩
  obtain ⟨schedule,only,woven⟩ := spec.woven
  obtain ⟨order,finish,swept,memory,cursors⟩ := woven_sweep fits only woven
  refine ⟨⟨e.start,fun k => if same : k = p.pool.nWorkers then same ▸ order else [],complete,e.stop⟩,rfl,?_⟩
  simp only [applyDispatch,WorkerPool.dispatch,threaded,dif_pos,swept,Bool.false_eq_true,if_false,memory]
  cases complete with
  | false => rfl
  | true =>
    have all : Swept finish := by
      intro i
      have ceased := spec.returned _ (spec.all rfl (Fin.castLE fits i) i.isLt)
      rw [cursors i] at ceased
      exact of_decide_eq_true ceased
    simp only [if_true,all]

/-! ## What calls keep -/

/-- The threads of a started pool between two calls. -/
structure Settled (p : Pool) (threads : Threads q) : Prop where
  done : p.pool.lazyDone = true
  threaded : p.pool.inlineRun = false
  reached : Reached (executeWorker q) p.pool.nWorkers threads
  back : ∃ last, threads.gate.main = .idle last

/-- No row is swept any more. -/
def Silent (threads : Threads q) : Prop :=
  ∀ more t, run (PoolWork.step (executeWorker q)) threads more = some t → ∀ i, PoolWork.step (executeWorker q) t (.work i) = none

variable {pool pool' : Option (Threads q)} {a : Args}

/-- What a call comes to: it is one as `apply` describes it, leaves its threads settled, and
    where its output is uncertain they sweep no row any more. -/
structure Kept (p : Pool) (pool : Option (Threads q)) (m : Bytes) (a : Args) (e : Turns q) (r : Applied) (pool' : Option (Threads q)) :
    Prop where
  call : ∃ o, o.start = e.start ∧ apply p m a o = some r
  size : r.pool.pool.nPref.toNat = q
  settled : ∀ threads, pool' = some threads → Settled r.pool threads
  silent : r.status = .outputUncertain → ∀ threads, pool' = some threads → Silent threads
  refused : p.pool.broken = true → pool' = pool

/-- A start finds threads only where it was done before. -/
theorem settled_started (settled : ∀ threads, pool = some threads → Settled p threads) (o : WorkerPool.StartOutcome) :
    ∀ threads, pool = some threads → Settled (ensureStarted p o).1 threads := by
  intro threads found
  rw [ensureStarted_again o (.inl (settled threads found).done)]
  exact settled threads found

/-- The threads that a dispatch finds have been reached. -/
theorem threadsOf_reached (settled : ∀ threads, pool = some threads → Settled p threads) (m : Bytes) (e : Turns q) :
    Reached (executeWorker q) p.pool.nWorkers (threadsOf p pool m e) := by
  cases pool with
  | none => exact ⟨e.calls,m,loaded p.slots,[],rfl⟩
  | some threads => exact (settled threads rfl).reached

theorem dispatchThreads_kept {threads : Threads q} (fits : p.pool.nWorkers ≤ q) (done : p.pool.lazyDone = true)
    (threaded : p.pool.inlineRun = false) (size : p.pool.nPref.toNat = q) (reached : Reached (executeWorker q) p.pool.nWorkers threads)
    (dispatched : dispatchThreads p threads f m e = some (r,t)) :
    (∃ o, o.start = e.start ∧ applyDispatch p f m o = some r) ∧ r.pool.pool.nPref.toNat = q ∧ Settled r.pool t ∧
      (r.status = .outputUncertain → Silent t) := by
  obtain ⟨⟨o,same,applied⟩,complete,memory,slots,spec,uncertain⟩ := dispatchThreads_sweeps fits threaded reached dispatched
  obtain ⟨-,left,-⟩ := applyDispatch_spec applied
  have stopped := (WorkerPool.dispatch_stopped p.pool o.complete o.stop).1
  obtain ⟨answer,back,faulty⟩ := spec.back
  refine ⟨⟨o,same,applied⟩,?_,⟨?_,?_,?_,⟨_,back⟩⟩,fun lost more u later i => ?_⟩
  · rw [left]
    exact (congrArg Int.toNat stopped.config.nPref).trans size
  · rw [left]
    exact stopped.config.lazyDone.trans done
  · rw [left,stopped.same]
    exact threaded
  · rw [left,stopped.same]
    exact spec.reached
  · exact PoolWork.faulty_still fits spec.reached back (faulty (uncertain lost)) later i

theorem applyThreads_kept (inv : Inv width height p) (size : p.pool.nPref.toNat = q)
    (settled : ∀ threads, pool = some threads → Settled p threads) (applied : applyThreads p pool m a e = some (r,pool')) :
    Kept p pool m a e r pool' := by
  -- A call that comes to no dispatch answers as it does without threads.
  let plain : Outcome := ⟨e.start,e.inline,true,e.stop⟩
  simp only [applyThreads] at applied
  by_cases valid : validateArgs p a = false
  · rw [if_pos valid] at applied
    cases applied
    exact ⟨⟨plain,rfl,by simp [apply,valid]⟩,size,settled,Status.noConfusion,fun _ => rfl⟩
  by_cases broken : p.pool.broken = true
  · rw [if_neg valid,if_pos broken] at applied
    cases applied
    exact ⟨⟨plain,rfl,by simp [apply,valid,broken]⟩,size,settled,Status.noConfusion,fun _ => rfl⟩
  by_cases zero : (frameOf a).amountQ8 = 0
  · rw [if_neg valid,if_neg broken,if_pos zero] at applied
    cases applied
    exact ⟨⟨plain,rfl,by simp [apply,valid,broken,zero]⟩,size,settled,Status.noConfusion,fun _ => rfl⟩
  have inv' := ensureStarted_inv inv e.start
  have size' : (ensureStarted p e.start).1.pool.nPref.toNat = q := by
    rw [ensureStarted_pool]
    exact (congrArg Int.toNat (WorkerPool.ensureStarted_config inv.lifecycle inv.live _).1).trans size
  have settled' := settled_started settled e.start
  rw [if_neg valid,if_neg broken,if_neg zero] at applied
  by_cases started : (ensureStarted p e.start).2 = false
  · rw [if_pos started] at applied
    cases applied
    exact ⟨⟨plain,rfl,by simp [apply,valid,broken,zero,plain,started]⟩,size',settled',Status.noConfusion,
      fun odd => absurd odd broken⟩
  have done := ensureStarted_done (by simpa using started)
  have fits : (ensureStarted p e.start).1.pool.nWorkers ≤ q := by
    have bound := (inv'.lifecycle.up done inv'.live).count.2.1
    omega
  rw [if_neg started] at applied
  by_cases single : (ensureStarted p e.start).1.pool.inlineRun = true
  · rw [if_pos single] at applied
    obtain ⟨r',dispatched,pair⟩ := Option.map_eq_some_iff.mp applied
    obtain ⟨rfl,rfl⟩ := Prod.mk.inj pair
    have alone : ∀ threads : Threads q, pool ≠ some threads := fun threads found => by
      have threaded := (settled' threads found).threaded
      rw [single] at threaded
      cases threaded
    have stopped := (WorkerPool.dispatch_stopped (ensureStarted p e.start).1.pool true e.stop).1
    refine ⟨⟨plain,rfl,?_⟩,?_,fun threads found => absurd found (alone threads),fun _ threads found => absurd found (alone threads),
      fun odd => absurd odd broken⟩
    · simp only [apply,valid,broken,zero,plain,started,if_false]
      exact dispatched
    · rw [(applyDispatch_spec dispatched).2.1]
      exact (congrArg Int.toNat stopped.config.nPref).trans size'
  · rw [if_neg single] at applied
    obtain ⟨⟨r',t⟩,dispatched,pair⟩ := Option.map_eq_some_iff.mp applied
    obtain ⟨rfl,rfl⟩ := Prod.mk.inj pair
    obtain ⟨⟨o,same,performed⟩,sized,left,silent⟩ := dispatchThreads_kept fits done (by simpa using single) size'
      (threadsOf_reached settled' m e) dispatched
    refine ⟨⟨o,same,?_⟩,sized,?_,?_,fun odd => absurd odd broken⟩
    · simp only [apply,valid,broken,zero,same,started,if_false]
      exact performed
    · rintro threads found
      obtain rfl := Option.some.inj found
      exact left
    · rintro lost threads found
      obtain rfl := Option.some.inj found
      exact silent lost

/-! ## Runs -/

/-- A call, on planes whose bytes are the caller's. -/
structure Call (q : Nat) where
  planes : Nat → UInt8
  args : Args
  turns : Turns q

/-- The pool, the memory, the threads once there are any, and what the calls returned. -/
structure World (q : Nat) where
  pool : Pool
  memory : Bytes
  threads : Option (Threads q)
  log : List Entry

/-- The world but for its threads. -/
def World.seen (w : World q) : UsmPool.World := ⟨w.pool,w.memory,w.log⟩

/-- The memory that a call finds. -/
def given (w : World q) (c : Call q) : Bytes := fun a => if a.block = .plane then c.planes a.offset else w.memory a

def step (w : World q) (c : Call q) : Option (World q) :=
  (applyThreads w.pool w.threads (given w c) c.args c.turns).map fun (r,threads) =>
    ⟨r.pool,r.memory,threads,⟨r.status,r.start⟩ :: w.log⟩

variable {w w' : World q} {c : Call q}

theorem step_iff : step w c = some w' ↔ ∃ r threads, applyThreads w.pool w.threads (given w c) c.args c.turns = some (r,threads) ∧
    w' = ⟨r.pool,r.memory,threads,⟨r.status,r.start⟩ :: w.log⟩ := by
  simp only [step,Option.map_eq_some_iff,Prod.exists,eq_comm (b := w')]

/-- A call as it is described without threads. -/
structure Describes (c : Call q) (d : UsmPool.Call) : Prop where
  planes : d.planes = c.planes
  args : d.args = c.args
  start : d.outcome.start = c.turns.start

/-- What every sequence of calls keeps. -/
structure Good (width height : Nat) (w : World q) : Prop where
  inv : UsmPool.Inv width height w.pool
  remembers : Remembers w.seen
  size : w.pool.pool.nPref.toNat = q
  settled : ∀ threads, w.threads = some threads → Settled w.pool threads
  silent : (∃ e ∈ w.log, e.status = .outputUncertain) → ∀ threads, w.threads = some threads → Silent threads

theorem step_good (good : Good width height w) (stepped : step w c = some w') :
    Good width height w' ∧ ∃ d, Describes c d ∧ UsmPool.step w.seen d = some w'.seen := by
  obtain ⟨r,threads,applied,rfl⟩ := step_iff.mp stepped
  have kept := applyThreads_kept good.inv good.size good.settled applied
  obtain ⟨o,start,called⟩ := kept.call
  have described : UsmPool.step w.seen ⟨c.planes,c.args,o⟩ = some ⟨r.pool,r.memory,⟨r.status,r.start⟩ :: w.log⟩ :=
    UsmPool.step_iff.mpr ⟨r,called,rfl⟩
  obtain ⟨inv,remembers⟩ := step_remembers good.inv good.remembers described
  refine ⟨⟨inv,remembers,kept.size,kept.settled,fun uncertain threads' found => ?_⟩,_,⟨rfl,rfl,start⟩,described⟩
  obtain ⟨e,member,lost⟩ := uncertain
  rcases List.mem_cons.mp member with rfl | earlier
  · exact kept.silent lost threads' found
  · have same := kept.refused (good.remembers.uncertain ⟨e,earlier,lost⟩)
    exact good.silent ⟨e,earlier,lost⟩ threads' (same ▸ found)

theorem run_good {calls : List (Call q)} (good : Good width height w) (executed : run step w calls = some w') :
    Good width height w' ∧ ∃ described, List.Forall₂ Describes calls described ∧ run UsmPool.step w.seen described = some w'.seen := by
  induction calls generalizing w with
  | nil =>
    cases executed
    exact ⟨good,[],.nil,rfl⟩
  | cons c rest ih =>
    obtain ⟨next,first,tail⟩ := run_cons_iff.mp executed
    obtain ⟨good',d,describes,described⟩ := step_good good first
    obtain ⟨last,later,same,performed⟩ := ih good' tail
    exact ⟨last,d :: later,.cons describes same,run_cons_iff.mpr ⟨next.seen,described,performed⟩⟩

/-- Sharpening with threads, over whole runs of a pool, however the threads interleave and
    whatever operations of the gate fail. A run is one of calls on the same planes with the
    same outcomes of the starts, whose dispatches are sweeps in some order. Between two calls
    no thread is at work, and once an output was uncertain none ever is. A call that
    succeeds delivers the reference, and one that failed has left the planes alone. -/
theorem threads_refine {nThreads width height stripeMinRows : Int} (created : create nThreads width height stripeMinRows = some p)
    {calls : List (Call p.pool.nPref.toNat)} {w : World p.pool.nPref.toNat} (executed : run step ⟨p,m,none,[]⟩ calls = some w) :
    (∃ described, List.Forall₂ Describes calls described ∧ run UsmPool.step ⟨p,m,[]⟩ described = some w.seen) ∧
    (∀ threads, w.threads = some threads → (∀ i, PoolWork.step (executeWorker _) threads (.work i) = none) ∧
      ((∃ e ∈ w.log, e.status = .outputUncertain) → Silent threads)) ∧
    ∀ c w', step w c = some w' → SameOrApart p.width p.height c.args → ∃ e, w'.log = e :: w.log ∧
      (e.status = .ok → ∀ x y, x < p.width → y < p.height →
        bytesAt w'.memory (rowAt (frameOf c.args).dst (frameOf c.args).dstStride y) x =
          promised (given w c) c.args p.width p.height x y) ∧
      (e.status = .failedUnchanged → ∀ k, w'.memory ⟨.plane,k⟩ = c.planes k) := by
  obtain ⟨fresh,wide,-⟩ := create_inv created
  have start : Good p.width p.height (⟨p,m,none,[]⟩ : World p.pool.nPref.toNat) :=
    ⟨fresh,⟨by simp [World.seen],by simp [World.seen]⟩,rfl,by simp,by simp⟩
  obtain ⟨good,described⟩ := run_good start executed
  refine ⟨described,fun threads found => ⟨fun i => ?_,fun uncertain => good.silent uncertain threads found⟩,
    fun c w' called planes => ?_⟩
  · have settled := good.settled threads found
    obtain ⟨last,back⟩ := settled.back
    have fits : w.pool.pool.nWorkers ≤ p.pool.nPref.toNat := by
      have bound := (good.inv.lifecycle.up settled.done good.inv.live).count.2.1
      have size := good.size
      omega
    exact PoolWork.resting_still fits settled.reached back i
  · obtain ⟨r,threads,applied,rfl⟩ := step_iff.mp called
    obtain ⟨o,-,performed⟩ := (applyThreads_kept good.inv good.size good.settled applied).call
    refine ⟨⟨r.status,r.start⟩,rfl,fun ok x y column row => apply_ok good.inv wide planes performed ok column row,fun failed k => ?_⟩
    show r.memory ⟨.plane,k⟩ = c.planes k
    rw [apply_failed_unchanged performed failed]
    exact if_pos rfl

/-- A call in place on a plane of two by two pixels with one bright one; both threads enter
    their callbacks, and the second one sweeps its row first. -/
def brightCall (before : List (PoolWork.Action 2 (Worker × Cursor) (Pointer Block) UInt8)) : Call 2 :=
  let fine : WorkerPool.StopOutcome := ⟨true,fun _ => true,fun _ => true⟩
  let first : Fin 2 := ⟨0,Nat.zero_lt_two⟩
  let second : Fin 2 := ⟨1,Nat.one_lt_two⟩
  let enters : List (PoolWork.Action 2 (Worker × Cursor) (Pointer Block) UInt8) :=
    List.replicate 11 (.gate (.main .ok)) ++ List.replicate 6 (.gate (.worker first .ok)) ++ List.replicate 6 (.gate (.worker second .ok))
  let leaves : List (PoolWork.Action 2 (Worker × Cursor) (Pointer Block) UInt8) :=
    List.replicate 2 (.gate (.worker first .ok)) ++ List.replicate 5 (.gate (.worker second .ok)) ++ List.replicate 6 (.gate (.main .ok))
  ⟨fun k => if k = 0 then 100 else 0,⟨some 0,2,some 0,2,256⟩,
    ⟨⟨true,true,true,true,fun _ => true,fun _ => true,fine⟩,[.dispatch,.dispatch],before,
      enters ++ List.replicate 4 (.work second) ++ List.replicate 4 (.work first) ++ leaves,fun _ => [],fine⟩⟩

/-- The second of two such calls. -/
theorem threads_refine_bright : ∃ w w' e, run step ⟨smallPool,fun _ => 0,none,[]⟩ [brightCall [.gate (.worker 0 .ok),.gate (.worker 1 .ok)]] =
    some w ∧ step w (brightCall []) = some w' ∧ w'.log = e :: w.log ∧ e.status = .ok ∧ bytesAt w'.memory ⟨.plane,0⟩ 0 = 144 := by
  obtain ⟨w',whole⟩ := Option.isSome_iff_exists.mp (by decide +kernel : (run step (⟨smallPool,fun _ => 0,none,[]⟩ : World 2)
    ([brightCall [.gate (.worker 0 .ok),.gate (.worker 1 .ok)]] ++ [brightCall []])).isSome = true)
  have statuses : w'.log.map Entry.status = [.ok,.ok] := run_value (fun w => w.log.map Entry.status) whole (by decide +kernel)
  obtain ⟨w,executed,last⟩ := run_append_iff.mp whole
  obtain ⟨_,called,same⟩ := run_cons_iff.mp last
  cases same
  obtain ⟨-,-,each⟩ := threads_refine (show create 2 2 2 1 = some smallPool from rfl) executed
  obtain ⟨e,log,delivers,-⟩ := each _ _ called (Or.inl rfl)
  have ok : e.status = .ok := by
    rw [log] at statuses
    exact List.head_eq_of_cons_eq statuses
  have pixel : bytesAt w'.memory ⟨.plane,0⟩ 0 = promised (given w (brightCall [])) (brightCall []).args 2 2 0 0 :=
    delivers ok 0 0 (by decide) (by decide)
  have source : sourcePlane (given w (brightCall [])) (frameOf (brightCall []).args) =
      sourcePlane (fun a => if a.offset = 0 then 100 else 0) (frameOf (brightCall []).args) := rfl
  rw [promised,source] at pixel
  exact ⟨w,w',e,executed,called,log,ok,pixel.trans (by decide)⟩

end AutoUpscale.UsmThreads
