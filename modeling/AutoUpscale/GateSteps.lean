import AutoUpscale.GateMoves
import AutoUpscale.Mutex

/-!
What one step of the gate can do, said once: to the two locks (`Moved`), to
the history of a worker (`WorkerRule`) and to the dispatch in progress
(`MainRule`). The invariants of the gate follow from these without looking at the
program points again.
-/
namespace AutoUpscale.Gate
open AutoUpscale.Mutex (Change)
variable {p : Nat} {s t : State p}

/-! ## Classes of program points -/

/-- The worker holds the gate lock. -/
def WorkerPc.holdsLock : WorkerPc → Bool
  | .enable | .test | .wait | .disable _ | .take | .unlock _ | .cancelUnlock => true
  | .report back | .notifyLock back | .notifySignal back | .signalFailed back
  | .notifyUnlock back _ => back = .locked
  | _ => false

/-- The worker holds the completion lock. -/
def WorkerPc.holdsDone : WorkerPc → Bool
  | .notifySignal _ | .signalFailed _ | .notifyUnlock _ _ => true
  | _ => false

def MainPc.holdsLock : MainPc → Bool
  | .arm | .bump | .cast _ | .unlock _ _ | .exitSet _ => true
  | _ => false

def MainPc.holdsDone : MainPc → Bool
  | .loadFailed | .loadPending | .timedwait | .timedOut | .doneUnlock _ => true
  | _ => false

/-- The worker can still come back to the gate for another generation. -/
def WorkerPc.live : WorkerPc → Bool
  | .start | .lock | .enable | .test | .wait | .blocked _ | .take | .run | .workerDone | .doneFailed => true
  | .disable waited => waited
  | .unlock result => result = .run
  | .report back | .notifyLock back | .notifySignal back | .signalFailed back
  | .notifyUnlock back _ => back = .finished
  | _ => false

/-- The worker took a generation and has not counted itself off yet. -/
def WorkerPc.owes : WorkerPc → Bool
  | .unlock result => result = .run
  | .run | .workerDone => true
  | _ => false

/-- The worker found a generation or an exit request and has not read it yet. -/
def WorkerPc.decides : WorkerPc → Bool
  | .disable waited => waited
  | .take => true
  | _ => false

/-- The worker published its exit. -/
def WorkerPc.gone : WorkerPc → Bool
  | .leaving | .terminated => true
  | _ => false

/-- No dispatch is between its generation and its return. -/
def MainPc.quiet : MainPc → Bool
  | .idle _ | .lock | .arm | .bump => true
  | .cast caster | .unlock caster _ | .castFailed caster => caster ≠ .dispatch ∧ caster ≠ .exit .armed
  | .preFailed | .deadline | .doneLock | .loadFailed | .loadPending | .timedwait | .asleep _ | .timedOut
  | .doneUnlock _ | .finalPending | .finalFailed => false
  | .mark why | .exitLock why | .exitLockFailed why | .exitSet why | .exitFailed why | .cancel why _
  | .join why _ _ _ | .stopped why _ _ | .await why _ _ => why ≠ .armed

/-- The completion wait found no worker pending. -/
def MainPc.finished : MainPc → Bool
  | .doneUnlock complete => complete
  | .finalPending | .finalFailed => true
  | _ => false

@[simp] theorem signal_quiet (pc : MainPc) : pc.signal.quiet = pc.quiet := by cases pc <;> rfl
@[simp] theorem signal_holdsLock (pc : MainPc) : pc.signal.holdsLock = pc.holdsLock := by cases pc <;> rfl
@[simp] theorem signal_holdsDone (pc : MainPc) : pc.signal.holdsDone = pc.holdsDone := by cases pc <;> rfl
@[simp] theorem signal_finished (pc : MainPc) : pc.signal.finished = pc.finished := by cases pc <;> rfl

theorem owes_live {pc : WorkerPc} (owes : pc.owes = true) : pc.live = true := by
  cases pc <;> simp_all [WorkerPc.owes,WorkerPc.live]

theorem gone_not_live {pc : WorkerPc} (gone : pc.gone = true) : pc.live = false := by
  cases pc <;> simp_all [WorkerPc.gone,WorkerPc.live]

@[simp] theorem set_workers (s : State p) (i : Fin p) (w : Worker) :
    (s.set i w).workers = Function.update s.workers i w := rfl

/-! ## Locks -/

/-- What a worker's step leaves alone, and what it does to the locks. -/
structure Moved (s t : State p) (i : Fin p) : Prop where
  others : ∀ j, j ≠ i → t.workers j = s.workers j
  main : t.main = s.main ∨ t.main = s.main.signal
  calls : t.calls = s.calls
  generation : t.generation = s.generation
  exitRequested : t.exitRequested = s.exitRequested
  broken : t.broken = s.broken
  nWorkers : t.nWorkers = s.nWorkers
  round : t.round = s.round
  healthy : t.healthy = s.healthy
  started : (t.workers i).started = (s.workers i).started
  cancelled : (t.workers i).cancelled = (s.workers i).cancelled
  ownFailed : (s.workers i).ownFailed = true → (t.workers i).ownFailed = true
  lock : Change (Tid.worker i) s.lock t.lock (s.workers i).pc.holdsLock (t.workers i).pc.holdsLock
  done : Change (Tid.worker i) s.doneLock t.doneLock (s.workers i).pc.holdsDone (t.workers i).pc.holdsDone

/-- A step that puts `v` in the place of worker `i`. -/
theorem moved_set {i : Fin p} {v : Worker} (worker : t.workers = Function.update s.workers i v)
    (pool : t.calls = s.calls ∧ t.generation = s.generation ∧ t.exitRequested = s.exitRequested ∧ t.broken = s.broken ∧
      t.nWorkers = s.nWorkers ∧ t.round = s.round ∧ t.healthy = s.healthy)
    (main : t.main = s.main ∨ t.main = s.main.signal)
    (thread : v.started = (s.workers i).started ∧ v.cancelled = (s.workers i).cancelled)
    (ownFailed : (s.workers i).ownFailed = true → v.ownFailed = true)
    (lock : Change (Tid.worker i) s.lock t.lock (s.workers i).pc.holdsLock v.pc.holdsLock)
    (done : Change (Tid.worker i) s.doneLock t.doneLock (s.workers i).pc.holdsDone v.pc.holdsDone) : Moved s t i := by
  obtain ⟨calls,generation,exitRequested,broken,nWorkers,round,healthy⟩ := pool
  have self : t.workers i = v := by rw [worker,Function.update_self]
  rw [← self] at thread ownFailed lock done
  refine ⟨fun j other => ?_,main,calls,generation,exitRequested,broken,nWorkers,round,healthy,thread.1,thread.2,ownFailed,lock,done⟩
  rw [worker,Function.update_of_ne other]

variable {i : Fin p} {outcome : Option Outcome}

theorem WorkerMove.moved (move : WorkerMove s i outcome t) : Moved s t i := by
  cases move <;> (try cases ‹Notify›) <;> (try cases ‹Bool›) <;>
    refine moved_set rfl ⟨rfl,rfl,rfl,rfl,rfl,rfl,rfl⟩ (by simp [State.goto,State.set,State.fault]) ⟨rfl,rfl⟩ (by simp) ?_ ?_ <;>
    simp_all [Change,State.set,State.goto,State.fault,Notify.notified,Notify.failed,WorkerPc.holdsLock,WorkerPc.holdsDone]

/-! ## The steps of a worker -/

/-- Nothing changed in what the worker saw, ran and completed. -/
structure SameHistory (w v : Worker) : Prop where
  seenGen : v.seenGen = w.seenGen
  seenRound : v.seenRound = w.seenRound
  ran : v.ran = w.ran
  completed : v.completed = w.completed

/-- What a worker's step does to its history and to the pending count. -/
inductive WorkerRule (s t : State p) (i : Fin p) : Prop
  | inner (same : SameHistory (s.workers i) (t.workers i))
      (idle : (s.workers i).pc.owes = false ∧ (t.workers i).pc.owes = false) (pending : t.pending = s.pending)
  | take (before : (s.workers i).pc = .take)
      (worker : t.workers i = { s.workers i with
        pc := .unlock (if s.generation = (s.workers i).seenGen then .exit else .run)
        seenGen := s.generation
        seenRound := s.round })
      (pending : t.pending = s.pending)
  | enter (before : (s.workers i).pc = .unlock .run)
      (worker : t.workers i = { s.workers i with pc := .run, ran := s.round :: (s.workers i).ran })
      (pending : t.pending = s.pending)
  | leave (before : (s.workers i).pc = .run)
      (worker : t.workers i =
        { s.workers i with pc := .workerDone, completed := s.round :: (s.workers i).completed })
      (pending : t.pending = s.pending)
  | count (before : (s.workers i).pc = .workerDone) (same : SameHistory (s.workers i) (t.workers i))
      (after : (t.workers i).pc.owes = false) (pending : t.pending = s.pending - 1)

theorem WorkerMove.rule (move : WorkerMove s i outcome t) : WorkerRule s t i := by
  cases move with
  | take pc => exact .take pc (by simp) rfl
  | run pc => exact .leave pc (by simp) rfl
  | enter pc => exact .enter pc (by simp) rfl
  | workerDone pc | lastDone pc =>
    exact .count pc ⟨by simp [State.goto],by simp [State.goto],by simp [State.goto],by simp [State.goto]⟩
      (by simp [State.goto,WorkerPc.owes]) rfl
  | _ =>
    (try cases ‹Notify›) <;> (try cases ‹Bool›) <;> refine .inner ⟨?_,?_,?_,?_⟩ ?_ rfl <;>
      simp_all [State.set,State.goto,State.fault,Notify.notified,Notify.failed,WorkerPc.owes]

/-- A worker is never revived, and dies only of a failed operation of its own,
    where it took no new generation, or of a cancellation. Its flag `exited` is
    set as it goes, and it stops waiting where there is something to read. -/
structure Lives (s t : State p) (i : Fin p) : Prop where
  revive : (t.workers i).pc.live = true → (s.workers i).pc.live = true
  dies : (s.workers i).pc.live = true → (t.workers i).pc.live = false →
    (t.workers i).ownFailed = true ∨ (s.workers i).cancelled = true ∨
      (s.workers i).pc = .take ∧ s.generation = (s.workers i).seenGen
  gone : (s.workers i).pc.gone = true → (t.workers i).pc.gone = true
  exited : (s.workers i).exited = (s.workers i).pc.gone → (t.workers i).exited = (t.workers i).pc.gone
  terminated : (s.workers i).pc ≠ .terminated
  present : (s.workers i).pc ≠ .absent ∧ (t.workers i).pc ≠ .absent
  decides : (t.workers i).pc.decides = true → (t.workers i).seenGen = (s.workers i).seenGen ∧
    ((s.workers i).pc.decides = true ∨ (s.generation = (s.workers i).seenGen → s.exitRequested = true))

theorem WorkerMove.lives (move : WorkerMove s i outcome t) : Lives s t i := by
  cases move <;> (try cases ‹Notify›) <;> (try cases ‹Bool›) <;> constructor <;>
    simp_all [State.set,State.goto,State.fault,Notify.notified,Notify.failed,WorkerPc.live,WorkerPc.gone,
      WorkerPc.decides]

/-! ## The steps of the dispatching thread -/

/-- What a step of another thread leaves of a worker: at most it wakes it up. -/
structure Kept (w v : Worker) : Prop where
  same : SameHistory w v
  exited : v.exited = w.exited
  ownFailed : v.ownFailed = w.ownFailed
  place : v.pc = w.pc ∨ (∃ woken, w.pc = .blocked woken) ∧ v.pc = .blocked true

theorem kept_refl (w : Worker) : Kept w w :=
  ⟨⟨rfl,rfl,rfl,rfl⟩,rfl,rfl,.inl rfl⟩

theorem kept_wake (w : Worker) : Kept w w.wake := by
  unfold Worker.wake
  split
  · rename_i woken blocked
    exact ⟨⟨rfl,rfl,rfl,rfl⟩,rfl,rfl,.inr ⟨⟨woken,blocked⟩,rfl⟩⟩
  · exact kept_refl w

/-- A class of program points that does not tell the two waits apart. -/
theorem Kept.class {w v : Worker} (kept : Kept w v) {α : Type} (f : WorkerPc → α)
    (waits : ∀ woken, f (.blocked woken) = f (.blocked true)) : f v.pc = f w.pc := by
  rcases kept.place with same | ⟨⟨woken,blocked⟩,waken⟩
  · rw [same]
  · rw [waken,blocked,waits woken]

theorem Kept.live {w v : Worker} (kept : Kept w v) : v.pc.live = w.pc.live :=
  kept.class WorkerPc.live (fun _ => rfl)
theorem Kept.owes {w v : Worker} (kept : Kept w v) : v.pc.owes = w.pc.owes :=
  kept.class WorkerPc.owes (fun _ => rfl)
theorem Kept.gone {w v : Worker} (kept : Kept w v) : v.pc.gone = w.pc.gone :=
  kept.class WorkerPc.gone (fun _ => rfl)
theorem Kept.holdsLock {w v : Worker} (kept : Kept w v) : v.pc.holdsLock = w.pc.holdsLock :=
  kept.class WorkerPc.holdsLock (fun _ => rfl)
theorem Kept.holdsDone {w v : Worker} (kept : Kept w v) : v.pc.holdsDone = w.pc.holdsDone :=
  kept.class WorkerPc.holdsDone (fun _ => rfl)

/-- A program point outside the wait is kept. -/
theorem Kept.at_iff {w v : Worker} (kept : Kept w v) {pc : WorkerPc} (steady : ∀ woken, pc ≠ .blocked woken) :
    v.pc = pc ↔ w.pc = pc := by
  rcases kept.place with same | ⟨⟨woken,blocked⟩,waken⟩
  · rw [same]
  · rw [waken,blocked]
    exact iff_of_false (steady true).symm (steady woken).symm

/-- No step but a worker's own puts it to sleep. -/
theorem Kept.blocked {w v : Worker} (kept : Kept w v) (asleep : v.pc = .blocked false) : w.pc = .blocked false := by
  rcases kept.place with same | ⟨_,awake⟩
  · rw [← same]
    exact asleep
  · cases awake.symm.trans asleep

theorem wake_started (w : Worker) : w.wake.started = w.started := by unfold Worker.wake; split <;> rfl

/-- What a step of the dispatching thread leaves alone, and what it does to the
    locks. -/
structure MainMoved (s t : State p) : Prop where
  workers : ∀ i, Kept (s.workers i) (t.workers i)
  started : ∀ i, (t.workers i).started = (s.workers i).started ∨
    (s.workers i).pc = .terminated ∧ (t.workers i).started = false
  nWorkers : t.nWorkers = s.nWorkers
  lock : Change .main s.lock t.lock s.main.holdsLock t.main.holdsLock
  done : Change .main s.doneLock t.doneLock s.main.holdsDone t.main.holdsDone

theorem kept_set {s : State p} {i : Fin p} {v : Worker} (kept : Kept (s.workers i) v) (j : Fin p) :
    Kept (s.workers j) (Function.update s.workers i v j) := by
  rcases eq_or_ne j i with rfl | other
  · simpa using kept
  · simpa [other] using kept_refl (s.workers j)

/-- A step that changes nothing of the workers. -/
theorem mainMoved_same (workers : t.workers = s.workers) (nWorkers : t.nWorkers = s.nWorkers)
    (lock : Change .main s.lock t.lock s.main.holdsLock t.main.holdsLock)
    (done : Change .main s.doneLock t.doneLock s.main.holdsDone t.main.holdsDone) : MainMoved s t := by
  refine ⟨fun i => ?_,fun i => .inl ?_,nWorkers,lock,done⟩
  · rw [workers]; exact kept_refl _
  · rw [workers]

theorem MainMove.moved {outcome : Outcome} (move : MainMove s outcome t) : MainMoved s t := by
  cases move with
  | @cancel why k inside pc started =>
    refine ⟨kept_set ⟨⟨rfl,rfl,rfl,rfl⟩,rfl,rfl,.inl rfl⟩,fun i => .inl ?_,rfl,
      by simp [Change,State.set,MainPc.holdsLock,pc],by simp [Change,State.set,MainPc.holdsDone,pc]⟩
    rcases eq_or_ne i ⟨k,inside⟩ with rfl | other
    · simp
    · simp [other]
  | @join why exitOk bad k inside pc started ended =>
    refine ⟨kept_set ⟨⟨rfl,rfl,rfl,rfl⟩,rfl,rfl,.inl rfl⟩,fun i => ?_,rfl,
      by simp [Change,State.set,MainPc.holdsLock,pc],by simp [Change,State.set,MainPc.holdsDone,pc]⟩
    rcases eq_or_ne i ⟨k,inside⟩ with rfl | other
    · exact .inr (by simpa using ended)
    · exact .inl (by simp [other])
  | cast pc =>
    exact ⟨fun i => kept_wake _,fun i => .inl (wake_started _),rfl,by simp [Change,MainPc.holdsLock,pc],
      by simp [Change,MainPc.holdsDone,pc]⟩
  | @unlock caster pc =>
    refine mainMoved_same rfl rfl ?_ ?_ <;> cases caster <;>
      simp [Change,MainPc.holdsLock,MainPc.holdsDone,Caster.sent,pc]
  | @castFailed caster pc =>
    refine mainMoved_same rfl rfl ?_ ?_ <;> cases caster <;>
      simp [Change,MainPc.holdsLock,MainPc.holdsDone,Caster.lost,pc]
  | _ => refine mainMoved_same rfl rfl ?_ ?_ <;> simp_all [Change,MainPc.holdsLock,MainPc.holdsDone]

/-- What a step of the dispatching thread does to the dispatch in progress. -/
inductive MainRule (s t : State p) : Prop
  | inner (quiet : t.main.quiet = s.main.quiet) (before : s.main ≠ .bump) (after : t.main ≠ .bump)
      (generation : t.generation = s.generation) (round : t.round = s.round)
      (pending : t.pending = s.pending)
  | arm (before : s.main = .arm) (after : t.main = .bump) (generation : t.generation = s.generation)
      (round : t.round = s.round) (pending : t.pending = s.nWorkers)
  | bump (before : s.main = .bump) (after : t.main = .cast .dispatch)
      (generation : t.generation = s.generation + 1) (round : t.round = s.round + 1)
      (pending : t.pending = s.pending)
  | done (before : s.main = .finalFailed) (after : t.main = .idle (some .done))
      (generation : t.generation = s.generation) (round : t.round = s.round)
      (pending : t.pending = s.pending)
  | failed (exitOk : Bool)
      (before : s.main = .stopped .armed exitOk false ∨ ∃ k, p ≤ k ∧ s.main = .await .armed exitOk k)
      (after : t.main = .idle (some (.failed true exitOk))) (generation : t.generation = s.generation)
      (round : t.round = s.round) (pending : t.pending = s.pending)

theorem MainMove.rule {outcome : Outcome} (move : MainMove s outcome t) : MainRule s t := by
  cases move with
  | arm pc => exact .arm pc rfl rfl rfl rfl
  | bump pc => exact .bump pc rfl rfl rfl rfl
  | done pc => exact .done pc rfl rfl rfl rfl
  | @stopped why exitOk bad pc ends =>
    cases why with
    | armed =>
      obtain rfl : bad = false := ends.resolve_right nofun
      exact .failed exitOk (.inl pc) rfl rfl rfl rfl
    | _ => exact .inner (by simp [pc,MainPc.quiet]) (by simp [pc]) (by simp) rfl rfl rfl
  | @awaited why exitOk k all pc =>
    cases why with
    | armed => exact .failed exitOk (.inr ⟨k,all,pc⟩) rfl rfl rfl rfl
    | _ => exact .inner (by simp [pc,MainPc.quiet]) (by simp [pc]) (by simp) rfl rfl rfl
  | @unlock caster pc | @castFailed caster pc =>
    cases caster <;> (try cases ‹Recovery›) <;>
      exact .inner (by simp [pc,MainPc.quiet,Caster.sent,Caster.lost]) (by simp [pc]) (by simp [Caster.sent,Caster.lost])
        rfl rfl rfl
  | _ => refine .inner ?_ ?_ ?_ rfl rfl rfl <;> simp_all [MainPc.quiet]

/-! ## Spurious wake-ups and cancellations -/

/-- A wake-up changes nothing but a thread's place in its wait. -/
structure Woken (s t : State p) : Prop where
  workers : ∀ i, Kept (s.workers i) (t.workers i)
  threads : ∀ i, (t.workers i).started = (s.workers i).started ∧ (t.workers i).cancelled = (s.workers i).cancelled
  main : t.main = s.main ∨ t.main = s.main.signal
  lock : t.lock = s.lock
  done : t.doneLock = s.doneLock
  calls : t.calls = s.calls
  generation : t.generation = s.generation
  exitRequested : t.exitRequested = s.exitRequested
  pending : t.pending = s.pending
  syncFailed : t.syncFailed = s.syncFailed
  broken : t.broken = s.broken
  nWorkers : t.nWorkers = s.nWorkers
  round : t.round = s.round
  healthy : t.healthy = s.healthy

theorem wake_woken {i : Fin p} (moved : step s (.wake i) = some t) : Woken s t := by
  simp only [step] at moved
  split at moved <;> cases moved
  rename_i blocked
  refine ⟨fun j => kept_set ?_ j,?_,.inl rfl,rfl,rfl,rfl,rfl,rfl,rfl,rfl,rfl,rfl,rfl,rfl⟩
  · exact ⟨⟨rfl,rfl,rfl,rfl⟩,rfl,rfl,.inr ⟨⟨false,blocked⟩,rfl⟩⟩
  · intro j
    rcases eq_or_ne j i with rfl | other
    · simp [State.goto]
    · simp [State.goto,other]

theorem wakeMain_woken (moved : step s .wakeMain = some t) : Woken s t := by
  simp only [step] at moved
  split at moved <;> cases moved
  rename_i asleep
  exact ⟨fun i => kept_refl _,fun i => ⟨rfl,rfl⟩,.inr (by simp [asleep,MainPc.signal]),rfl,rfl,rfl,rfl,rfl,rfl,
    rfl,rfl,rfl,rfl,rfl⟩

/-- Every step is one of the main thread, one of a worker, or a wake-up. -/
theorem step_cases {a : Action p} (moved : step s a = some t) :
    (∃ outcome, MainMove s outcome t) ∨ (∃ i, Moved s t i ∧ WorkerRule s t i ∧ Lives s t i) ∨
      Woken s t := by
  cases a with
  | main outcome => exact .inl ⟨outcome,mainStep_moves moved⟩
  | worker i outcome =>
    have move := workerStep_moves moved
    exact .inr (.inl ⟨i,move.moved,move.rule,move.lives⟩)
  | wake i => exact .inr (.inr (wake_woken moved))
  | wakeMain => exact .inr (.inr (wakeMain_woken moved))
  | cancelled i =>
    have move := cancelledStep_moves moved
    exact .inr (.inl ⟨i,move.moved,move.rule,move.lives⟩)

end AutoUpscale.Gate
