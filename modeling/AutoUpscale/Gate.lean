import AutoUpscale.Runs
import Mathlib.Data.Fintype.Card
import Mathlib.Logic.Function.Basic

/-!
The dispatch gate and completion barrier of a started pool whose workers have
threads: `pool_gate.h` with the callers `up__pool_worker_loop`,
`up_worker_pool_dispatch`, `up_worker_pool_poison` and `up_worker_pool_stop` of
`worker_pool.h`. Every mutex, condition variable and atomic operation is a step
of its own, and every step of every thread can interleave. A failed operation is
a step too, so a run without failing outcomes is a run without faults.

Unlocking does not fail here, and the two condition variables wake on their
signals, on a spurious wake-up or on a cancellation.
-/
namespace AutoUpscale.Gate

/-! ## Program points -/

/-- Where a worker's notification of the completion condition returns to. -/
inductive Notify
  /-- `up_pool_gate_worker_done`, from the worker loop. -/
  | finished
  /-- `up__pool_gate_report_worker_failure`, under the gate lock. -/
  | locked
  /-- `up__pool_gate_report_worker_failure`, without the gate lock. -/
  | unlocked
  deriving DecidableEq, Repr

/-- What `up_pool_gate_wait_for_go` returns: 1, 0 or -1. -/
inductive Go
  | run
  | exit
  | failed
  deriving DecidableEq, Repr

/-- The next operation of a worker's thread. -/
inductive WorkerPc
  /-- The slot has no thread: fewer workers came up than were requested. -/
  | absent
  /-- `pthread_setcancelstate(DISABLE)` of the worker loop. -/
  | start
  /-- `pthread_mutex_lock(&g->lock)` of `up_pool_gate_wait_for_go`. -/
  | lock
  | enable
  /-- The loop condition of `up__pool_gate_wait_locked`. -/
  | test
  | wait
  /-- Inside `pthread_cond_wait`, with or without a wake-up pending. -/
  | blocked (woken : Bool)
  /-- `pthread_setcancelstate(DISABLE)` after the wait; whether the wait succeeded. -/
  | disable (waited : Bool)
  /-- Reads the generation into `seen_gen`. -/
  | take
  | unlock (result : Go)
  /-- Inside `ops->run`. -/
  | run
  /-- `atomic_fetch_sub` of `up_pool_gate_worker_done`. -/
  | workerDone
  /-- Stores `sync_failed` in `up__pool_gate_report_worker_failure`. -/
  | report (back : Notify)
  | notifyLock (back : Notify)
  | notifySignal (back : Notify)
  /-- Stores `sync_failed` after a failed signal. -/
  | signalFailed (back : Notify)
  | notifyUnlock (back : Notify) (signalled : Bool)
  /-- Stores `sync_failed` in `up_pool_gate_worker_done`. -/
  | doneFailed
  /-- The handler `up__pool_gate_cancel_unlock` of a cancelled wait. -/
  | cancelUnlock
  /-- The handler `up__pool_worker_exited`. -/
  | publish
  /-- The exit is published, the thread still exists. -/
  | leaving
  | terminated
  deriving DecidableEq, Repr

/-- On whose behalf the pool is stopped. -/
inductive Recovery
  /-- A dispatch that could not lock the gate. -/
  | unarmed
  /-- A dispatch that failed once its generation was published. -/
  | armed
  /-- The owner called `up_worker_pool_poison`. -/
  | poison
  /-- The owner called `up_worker_pool_stop`. -/
  | stop
  deriving DecidableEq, Repr

/-- Who broadcasts through `up_pool_gate_unlock_broadcast`. -/
inductive Caster
  | dispatch
  | exit (why : Recovery)
  deriving DecidableEq, Repr

/-- The calls of the pool's owner. -/
inductive Call
  | dispatch
  | poison
  | stop
  deriving DecidableEq, Repr

/-- What the owner's last call returned. -/
inductive Return
  /-- `up_worker_pool_dispatch` returned 0. -/
  | done
  /-- `up_worker_pool_dispatch` returned -1; whether its generation was armed and
      whether its exit request succeeded. -/
  | failed (armed exitOk : Bool)
  | poisoned
  | stopped (bad : Bool)
  deriving DecidableEq, Repr

/-- The next operation of the dispatching thread. -/
inductive MainPc
  | idle (last : Option Return)
  -- up_worker_pool_dispatch
  | lock
  | arm
  | bump
  | cast (caster : Caster)
  | unlock (caster : Caster) (sent : Bool)
  | castFailed (caster : Caster)
  -- up_pool_gate_wait_all
  | preFailed
  | deadline
  | doneLock
  | loadFailed
  | loadPending
  | timedwait
  | asleep (woken : Bool)
  | timedOut
  | doneUnlock (complete : Bool)
  | finalPending
  | finalFailed
  -- up_worker_pool_poison and up_worker_pool_stop
  | mark (why : Recovery)
  | exitLock (why : Recovery)
  | exitLockFailed (why : Recovery)
  | exitSet (why : Recovery)
  | exitFailed (why : Recovery)
  | cancel (why : Recovery) (i : Nat)
  | join (why : Recovery) (exitOk : Bool) (i : Nat) (bad : Bool)
  | stopped (why : Recovery) (exitOk : Bool) (bad : Bool)
  | await (why : Recovery) (exitOk : Bool) (i : Nat)
  deriving DecidableEq, Repr

/-! ## States -/

/-- A thread of the process: the dispatching thread or a worker. -/
inductive Tid (p : Nat)
  | main
  | worker (i : Fin p)
  deriving DecidableEq, Repr

/-- A thread record with its program point. The last four fields are history:
    the number of the generation in `seenGen`, the dispatches for which the
    worker entered `ops->run` and returned from it, newest first, and whether
    one of its own gate operations failed. -/
structure Worker where
  pc : WorkerPc
  seenGen : UInt64
  exited : Bool
  started : Bool
  cancelled : Bool
  seenRound : Nat
  ran : List Nat
  completed : List Nat
  ownFailed : Bool

/-- The pool with `p` requested workers. The last two fields are history: the
    number of dispatches armed so far, which is the generation before it wraps,
    and whether the last dispatch found a pool neither broken nor told to exit. -/
structure State (p : Nat) where
  workers : Fin p → Worker
  main : MainPc
  calls : List Call
  lock : Option (Tid p)
  doneLock : Option (Tid p)
  generation : UInt64
  exitRequested : Bool
  pending : Int
  syncFailed : Bool
  broken : Bool
  nWorkers : Nat
  round : Nat
  healthy : Bool

/-- A worker after `up__pool_spawn`, or the record of a slot without a thread. -/
def freshWorker (spawned : Bool) : Worker where
  pc := if spawned then .start else .absent
  seenGen := 0
  exited := false
  started := spawned
  cancelled := false
  seenRound := 0
  ran := []
  completed := []
  ownFailed := false

/-- A started pool: `nWorkers` of the `p` requested workers came up, and the
    owner is about to make the given calls. -/
def initial (p nWorkers : Nat) (calls : List Call) : State p where
  workers i := freshWorker (i < nWorkers)
  main := .idle none
  calls := calls
  lock := none
  doneLock := none
  generation := 0
  exitRequested := false
  pending := 0
  syncFailed := false
  broken := false
  nWorkers := nWorkers
  round := 0
  healthy := true

/-! ## Steps -/

/-- How the operation of a step comes out. -/
inductive Outcome
  | ok
  | fail
  | timeout
  deriving DecidableEq, Repr

inductive Action (p : Nat)
  | main (outcome : Outcome)
  | worker (i : Fin p) (outcome : Outcome)
  /-- A spurious wake-up on the start condition. -/
  | wake (i : Fin p)
  /-- A spurious wake-up on the completion condition, or `EINTR`. -/
  | wakeMain
  /-- A worker with a pending cancellation acts on it in `pthread_cond_wait`. -/
  | cancelled (i : Fin p)
  deriving DecidableEq, Repr

/-- A step in which a pthread operation fails or times out. A cancellation is
    only delivered where a failed exit request made the pool ask for it. -/
def Action.fault {p : Nat} : Action p → Bool
  | .main outcome => outcome ≠ .ok
  | .worker _ outcome => outcome ≠ .ok
  | .wake _ | .wakeMain | .cancelled _ => false

variable {p : Nat}

def State.set (s : State p) (i : Fin p) (w : Worker) : State p :=
  { s with workers := Function.update s.workers i w }

def State.goto (s : State p) (i : Fin p) (pc : WorkerPc) : State p :=
  s.set i { s.workers i with pc := pc }

/-- The worker goes on after one of its own gate operations failed. -/
def State.fault (s : State p) (i : Fin p) (pc : WorkerPc) : State p :=
  s.set i { s.workers i with pc := pc, ownFailed := true }

/-- A blocked thread gets its wake-up. -/
def Worker.wake (w : Worker) : Worker :=
  match w.pc with
  | .blocked _ => { w with pc := .blocked true }
  | _ => w

/-- `pthread_cond_signal` on the completion condition. -/
def MainPc.signal : MainPc → MainPc
  | .asleep _ => .asleep true
  | pc => pc

/-- Where a worker goes on after `up__pool_gate_notify_done` returned 0. -/
def Notify.notified : Notify → WorkerPc
  | .finished => .lock
  | .locked => .unlock .failed
  | .unlocked => .publish

/-- Where a worker goes on after `up__pool_gate_notify_done` returned -1. -/
def Notify.failed : Notify → WorkerPc
  | .finished => .doneFailed
  | .locked => .unlock .failed
  | .unlocked => .publish

/-- One operation of worker `i`: `up__pool_worker_loop` with
    `up_pool_gate_wait_for_go` and `up_pool_gate_worker_done`. -/
def workerStep (s : State p) (i : Fin p) (outcome : Outcome) : Option (State p) :=
  let w := s.workers i
  match w.pc, outcome with
  | .start, .ok => some (s.goto i .lock)
  | .start, .fail => some (s.fault i (.report .unlocked))
  | .lock, .ok =>
    if s.lock = none then some { s.goto i .enable with lock := some (.worker i) } else none
  | .lock, .fail => some (s.fault i (.report .unlocked))
  | .enable, .ok => some (s.goto i .test)
  | .enable, .fail => some (s.fault i (.disable false))
  | .test, .ok =>
    if s.generation = w.seenGen ∧ s.exitRequested = false then some (s.goto i .wait)
    else some (s.goto i (.disable true))
  | .wait, .ok => some { s.goto i (.blocked false) with lock := none }
  | .wait, .fail => some (s.fault i (.disable false))
  | .blocked woken, .ok =>
    if woken = true ∧ s.lock = none then some { s.goto i .test with lock := some (.worker i) } else none
  | .blocked _, .fail =>
    if s.lock = none then some { s.fault i (.disable false) with lock := some (.worker i) } else none
  | .disable waited, .ok => some (s.goto i (if waited then .take else .report .locked))
  | .disable _, .fail => some (s.fault i (.report .locked))
  | .take, .ok =>
    some (s.set i { w with
      pc := .unlock (if s.generation = w.seenGen then .exit else .run)
      seenGen := s.generation
      seenRound := s.round })
  | .unlock .run, .ok => some { s.set i { w with pc := .run, ran := s.round :: w.ran } with lock := none }
  | .unlock _, .ok => some { s.goto i .publish with lock := none }
  | .run, .ok => some (s.set i { w with pc := .workerDone, completed := s.round :: w.completed })
  | .workerDone, .ok =>
    some { s.goto i (if s.pending = 1 then .notifyLock .finished else .lock) with
      pending := s.pending - 1 }
  | .report back, .ok => some { s.goto i (.notifyLock back) with syncFailed := true }
  | .notifyLock back, .ok =>
    if s.doneLock = none then some { s.goto i (.notifySignal back) with doneLock := some (.worker i) }
    else none
  | .notifyLock back, .fail => some (s.goto i back.failed)
  | .notifySignal back, .ok => some { s.goto i (.notifyUnlock back true) with main := s.main.signal }
  | .notifySignal back, .fail => some (s.goto i (.signalFailed back))
  | .signalFailed back, .ok => some { s.goto i (.notifyUnlock back false) with syncFailed := true }
  | .notifyUnlock back signalled, .ok =>
    some { s.goto i (if signalled then back.notified else back.failed) with doneLock := none }
  | .doneFailed, .ok => some { s.goto i .lock with syncFailed := true }
  | .cancelUnlock, .ok => some { s.goto i .publish with lock := none }
  | .publish, .ok => some (s.set i { w with pc := .leaving, exited := true })
  | .leaving, .ok => some (s.goto i .terminated)
  | _, _ => none

/-- A cancelled `pthread_cond_wait` holds the lock again when its handler runs. -/
def cancelledStep (s : State p) (i : Fin p) : Option (State p) :=
  let w := s.workers i
  match w.pc with
  | .wait => if w.cancelled then some (s.goto i .cancelUnlock) else none
  | .blocked _ =>
    if w.cancelled = true ∧ s.lock = none then
      some { s.goto i .cancelUnlock with lock := some (.worker i) }
    else none
  | _ => none

/-- Where `up_pool_gate_unlock_broadcast` returns 0 to. -/
def Caster.sent : Caster → MainPc
  | .dispatch => .preFailed
  | .exit why => .join why true 0 false

/-- Where `up_pool_gate_unlock_broadcast` returns -1 to. -/
def Caster.lost : Caster → MainPc
  | .dispatch => .mark .armed
  | .exit why => .exitFailed why

/-- What the owner's call returns once the pool is stopped for it. -/
def Recovery.returns (exitOk bad : Bool) : Recovery → Return
  | .unarmed => .failed false exitOk
  | .armed => .failed true exitOk
  | .poison => .poisoned
  | .stop => .stopped bad

/-- Where the owner's next call begins. -/
def callStep (s : State p) : Option (State p) :=
  match s.calls with
  | [] => none
  | .dispatch :: rest =>
    some { s with main := .lock, calls := rest, healthy := !s.broken && !s.exitRequested }
  | .poison :: rest => some { s with main := .mark .poison, calls := rest }
  | .stop :: rest => some { s with main := .exitLock .stop, calls := rest }

/-- One round of the cancellation loop of `up__pool_cancel_started`. -/
def cancelStep (s : State p) (why : Recovery) (i : Nat) (outcome : Outcome) : Option (State p) :=
  if inside : i < p then
    let w := s.workers ⟨i,inside⟩
    match w.started, outcome with
    | false, .ok => some { s with main := .cancel why (i + 1) }
    | true, .ok =>
      some { s.set ⟨i,inside⟩ { w with cancelled := true } with main := .cancel why (i + 1) }
    | true, .fail => some { s with main := .cancel why (i + 1), broken := true }
    | _, _ => none
  else match outcome with
    | .ok => some { s with main := .join why false 0 false }
    | _ => none

/-- One round of the join loop of `up_worker_pool_stop`. -/
def joinStep (s : State p) (why : Recovery) (exitOk : Bool) (i : Nat) (bad : Bool) (outcome : Outcome) :
    Option (State p) :=
  if inside : i < p then
    let w := s.workers ⟨i,inside⟩
    match w.started, outcome with
    | false, .ok => some { s with main := .join why exitOk (i + 1) bad }
    | true, .ok =>
      if w.pc = .terminated then
        some { s.set ⟨i,inside⟩ { w with started := false } with main := .join why exitOk (i + 1) bad }
      else none
    | true, .fail => some { s with main := .join why exitOk (i + 1) true, broken := true }
    | _, _ => none
  else match outcome with
    | .ok => some { s with main := .stopped why exitOk bad }
    | _ => none

/-- One round of the loop of `up_worker_pool_poison` that waits for the exit of
    every worker that was not joined. -/
def awaitStep (s : State p) (why : Recovery) (exitOk : Bool) (i : Nat) : Option (State p) :=
  if inside : i < p then
    let w := s.workers ⟨i,inside⟩
    if w.started = true ∧ w.exited = false then none
    else some { s with main := .await why exitOk (i + 1) }
  else some { s with main := .idle (some (why.returns exitOk true)) }

/-- Locks the completion lock and goes on at `pc`. -/
def State.takeDone (s : State p) (pc : MainPc) : Option (State p) :=
  if s.doneLock = none then some { s with main := pc, doneLock := some .main } else none

/-- One operation of the dispatching thread: `up_worker_pool_dispatch`,
    `up_worker_pool_poison` and `up_worker_pool_stop`. -/
def mainStep (s : State p) (outcome : Outcome) : Option (State p) :=
  match s.main, outcome with
  | .idle _, .ok => callStep s
  | .lock, .ok => if s.lock = none then some { s with main := .arm, lock := some .main } else none
  | .lock, .fail => some { s with main := .mark .unarmed }
  | .arm, .ok => some { s with main := .bump, pending := s.nWorkers }
  | .bump, .ok =>
    some { s with main := .cast .dispatch, generation := s.generation + 1, round := s.round + 1 }
  | .cast caster, .ok => some { s with main := .unlock caster true, workers := fun i => (s.workers i).wake }
  | .cast caster, .fail => some { s with main := .unlock caster false }
  | .unlock caster sent, .ok =>
    some { s with main := if sent then caster.sent else .castFailed caster, lock := none }
  | .castFailed caster, .ok => some { s with main := caster.lost, syncFailed := true }
  | .preFailed, .ok => some { s with main := if s.syncFailed then .mark .armed else .deadline }
  | .deadline, .ok => some { s with main := .doneLock }
  | .deadline, .fail => some { s with main := .mark .armed }
  | .doneLock, .ok => s.takeDone .loadFailed
  | .doneLock, .fail => some { s with main := .mark .armed }
  | .loadFailed, .ok => some { s with main := if s.syncFailed then .doneUnlock false else .loadPending }
  | .loadPending, .ok => some { s with main := if s.pending = 0 then .doneUnlock true else .timedwait }
  | .timedwait, .ok => some { s with main := .asleep false, doneLock := none }
  | .timedwait, .fail => some { s with main := .doneUnlock false }
  | .asleep woken, .ok => if woken then s.takeDone .loadFailed else none
  | .asleep _, .fail => s.takeDone (.doneUnlock false)
  | .asleep _, .timeout => s.takeDone .timedOut
  | .timedOut, .ok => some { s with main := .doneUnlock (s.pending = 0) }
  | .doneUnlock complete, .ok =>
    some { s with main := if complete then .finalPending else .mark .armed, doneLock := none }
  | .finalPending, .ok => some { s with main := if s.pending = 0 then .finalFailed else .mark .armed }
  | .finalFailed, .ok => some { s with main := if s.syncFailed then .mark .armed else .idle (some .done) }
  | .mark why, .ok => some { s with main := .exitLock why, broken := true }
  | .exitLock why, .ok =>
    if s.lock = none then some { s with main := .exitSet why, lock := some .main } else none
  | .exitLock why, .fail => some { s with main := .exitLockFailed why }
  | .exitLockFailed why, .ok => some { s with main := .exitFailed why, syncFailed := true }
  | .exitSet why, .ok => some { s with main := .cast (.exit why), exitRequested := true }
  | .exitFailed why, .ok => some { s with main := .cancel why 0, broken := true }
  | .cancel why i, outcome => cancelStep s why i outcome
  | .join why exitOk i bad, outcome => joinStep s why exitOk i bad outcome
  | .stopped why exitOk bad, .ok =>
    some { s with main := if bad = true ∧ why ≠ .stop then .await why exitOk 0
                          else .idle (some (why.returns exitOk bad)) }
  | .await why exitOk i, .ok => awaitStep s why exitOk i
  | _, _ => none

/-- One step of the pool. -/
def step (s : State p) : Action p → Option (State p)
  | .main outcome => mainStep s outcome
  | .worker i outcome => workerStep s i outcome
  | .wake i => if (s.workers i).pc = .blocked false then some (s.goto i (.blocked true)) else none
  | .wakeMain => if s.main = .asleep false then some { s with main := .asleep true } else none
  | .cancelled i => cancelledStep s i

end AutoUpscale.Gate
