import AutoUpscale.Runs
import Mathlib.Logic.Function.Basic
import Mathlib.Order.Basic

/-!
The lifecycle of a worker pool: `worker_pool.h` above its gate. Whatever the
pool asks of its owner's hooks or of the system can fail (`StartOutcome`,
`StopOutcome`), and a trace records what it asked. The dispatch barrier itself
is a model of its own; here a dispatch either completes or poisons the pool.
-/
namespace AutoUpscale.WorkerPool

/-- What a pool asks of its owner and of the system, with the outcome. -/
inductive Event
  | prepare (ok : Bool)
  | construct (i : Nat) (ok : Bool)
  | create (i : Nat) (ok : Bool)
  | release (i : Nat)
  | finalize (n : Nat)
  | requestExit (ok : Bool)
  | cancel (i : Nat) (ok : Bool)
  | join (i : Nat) (ok : Bool)
  deriving DecidableEq, Repr

/-- The optional members of `up_worker_pool_ops_t` that are set, and its policy. -/
structure Ops where
  prepare : Bool
  release : Bool
  finalize : Bool
  allOrNothing : Bool

/-- `UP_THREADS_MAX`. -/
def threadsMax : Int := 64

/-- A pool. `workers` and `threads` say whether the arrays are allocated,
    `started` holds the markers of the thread records. `destroyed` and `trace`,
    newest first, are history. -/
structure Pool where
  workers : Bool
  threads : Bool
  started : Nat → Bool
  gateReady : Bool
  nPref : Int
  nWorkers : Nat
  inlineRun : Bool
  lazyDone : Bool
  lazyFailed : Bool
  broken : Bool
  destroyed : Bool
  trace : List Event

/-- A zeroed pool after `up_worker_pool_config`. -/
def configured (nPref : Int) : Pool where
  workers := false
  threads := false
  started _ := false
  gateReady := false
  nPref := nPref
  nWorkers := 0
  inlineRun := false
  lazyDone := false
  lazyFailed := false
  broken := false
  destroyed := false
  trace := []

/-- The outcomes of a stop: of the exit request, and for each slot of its
    cancellation and of its join. -/
structure StopOutcome where
  requestExit : Bool
  cancel : Nat → Bool
  join : Nat → Bool

/-- The outcomes of a start: of the pool's own setup, and for each slot of its
    construction and of `pthread_create`. A failed start stops the pool. -/
structure StartOutcome where
  prepare : Bool
  workers : Bool
  threads : Bool
  gate : Bool
  construct : Nat → Bool
  create : Nat → Bool
  stop : StopOutcome

def Pool.emit (p : Pool) (e : Event) : Pool := { p with trace := e :: p.trace }

/-! ## Stopping -/

/-- The loop of `up__pool_cancel_started`, from slot `i` on. -/
def cancelFrom (p : Pool) (o : StopOutcome) : Nat → Nat → Pool
  | 0, _ => p
  | left + 1, i =>
    if p.started i = false then cancelFrom p o left (i + 1)
    else cancelFrom { p.emit (.cancel i (o.cancel i)) with broken := p.broken || !o.cancel i } o left (i + 1)

/-- The join loop of `up_worker_pool_stop`, from slot `i` on; whether no join failed. -/
def joinFrom (p : Pool) (o : StopOutcome) : Nat → Nat → Bool → Pool × Bool
  | 0, _, result => (p,result)
  | left + 1, i, result =>
    if p.started i = false then joinFrom p o left (i + 1) result
    else if o.join i = false then
      joinFrom { p.emit (.join i false) with broken := true } o left (i + 1) false
    else
      joinFrom { p.emit (.join i true) with started := Function.update p.started i false } o left (i + 1) result

/-- `up_pool_gate_request_exit`; a gate that was never initialized has no waiters. -/
def requestExit (p : Pool) (o : StopOutcome) : Pool × Bool :=
  if p.gateReady = false then (p,true) else (p.emit (.requestExit o.requestExit),o.requestExit)

/-- `up_worker_pool_stop`; whether it returned 0. -/
def stop (p : Pool) (o : StopOutcome) : Pool × Bool :=
  if p.threads = false then (p,true)
  else
    let (p,asked) := requestExit p o
    let p := if asked then p else cancelFrom { p with broken := true } o p.nPref.toNat 0
    joinFrom p o p.nPref.toNat 0 true

/-- `up_worker_pool_poison`. The wait for the exits of workers that were not
    joined changes nothing of the pool. -/
def poison (p : Pool) (o : StopOutcome) : Pool :=
  (stop { p with broken := true } o).1

/-! ## Starting -/

/-- The hook `ops->release`, where it is set. -/
def releaseHook (ops : Ops) (p : Pool) (i : Nat) : Pool :=
  if ops.release then p.emit (.release i) else p

/-- The loop of `up__pool_release_slots`, from slot `i` on. -/
def releaseFrom (ops : Ops) (p : Pool) : Nat → Nat → Pool
  | 0, _ => p
  | left + 1, i => releaseFrom ops (releaseHook ops p i) left (i + 1)

/-- `up__pool_release_slots`. -/
def releaseSlots (ops : Ops) (p : Pool) (n : Nat) : Pool := releaseFrom ops p n 0

/-- `up__pool_spawn`; whether the thread was created. -/
def spawn (p : Pool) (o : StartOutcome) (i : Nat) : Pool × Bool :=
  if o.create i then ({ p.emit (.create i true) with started := Function.update p.started i true },true)
  else (p.emit (.create i false),false)

/-- `up__pool_construct_one`. -/
def constructOne (ops : Ops) (p : Pool) (o : StartOutcome) (i : Nat) : Pool × Bool :=
  if o.construct i = false then (p.emit (.construct i false),false)
  else
    let p := p.emit (.construct i true)
    if p.inlineRun then (p,true)
    else
      let (p,created) := spawn p o i
      if created then (p,true) else (releaseHook ops p i,false)

/-- The loop of `up__pool_construct_all`, from slot `i` on; how many came up whole. -/
def constructFrom (ops : Ops) (p : Pool) (o : StartOutcome) : Nat → Nat → Pool × Nat
  | 0, i => (p,i)
  | left + 1, i =>
    let (p,built) := constructOne ops p o i
    if built then constructFrom ops p o left (i + 1) else (p,i)

/-- `up__pool_construct_all`. -/
def constructAll (ops : Ops) (p : Pool) (o : StartOutcome) : Pool × Nat :=
  constructFrom ops p o (if p.inlineRun then 1 else p.nPref.toNat) 0

/-- `up__pool_alloc`. -/
def alloc (p : Pool) (o : StartOutcome) : Pool × Bool :=
  if o.workers = false then ({ p with workers := false },false)
  else
    let p := { p with workers := true }
    if p.nPref = 1 then (p,true)
    else if o.threads = false then ({ p with threads := false },false)
    else ({ p with threads := true, started := fun _ => false },true)

/-- `up__pool_setup`. -/
def setup (ops : Ops) (p : Pool) (o : StartOutcome) : Pool × Bool :=
  if p.nPref < 1 ∨ p.nPref > threadsMax then (p,false)
  else
    let p := if ops.prepare then p.emit (.prepare o.prepare) else p
    if ops.prepare = true ∧ o.prepare = false then (p,false)
    else
      let (p,allocated) := alloc p o
      if allocated = false then (p,false)
      else
        let p := { p with inlineRun := p.nPref = 1 }
        if p.inlineRun then (p,true)
        else if o.gate = false then (p,false)
        else ({ p with gateReady := true },true)

/-- `up__pool_build_ok`. -/
def buildOk (ops : Ops) (p : Pool) (built : Nat) : Bool :=
  let need := if p.inlineRun then 1 else p.nPref
  if built = 0 then false else !ops.allOrNothing || decide (need ≤ built)

/-- `up__pool_retire_failed_start`. -/
def retireFailedStart (ops : Ops) (p : Pool) (o : StartOutcome) (built : Nat) : Pool :=
  let (p,stopped) := stop { p with nWorkers := built } o.stop
  if stopped = false then p else { releaseSlots ops p built with nWorkers := 0 }

/-- `up_worker_pool_start`; whether it returned 0. -/
def start (ops : Ops) (p : Pool) (o : StartOutcome) : Pool × Bool :=
  let (p,ready) := setup ops p o
  if ready = false then (p,false)
  else
    let (p,built) := constructAll ops p o
    if buildOk ops p built = false then (retireFailedStart ops p o built,false)
    else
      let p := { p with nWorkers := built }
      (if ops.finalize then p.emit (.finalize built) else p,true)

/-- `up_worker_pool_ensure_started`; whether it returned 0. -/
def ensureStarted (ops : Ops) (p : Pool) (o : StartOutcome) : Pool × Bool :=
  if p.lazyDone then (p,true)
  else if p.lazyFailed then (p,false)
  else
    let (p,started) := start ops p o
    if started then ({ p with lazyDone := true },true) else ({ p with lazyFailed := true },false)

/-! ## Calls of the owner -/

/-- `up_worker_pool_dispatch`; whether its barrier completed. -/
def dispatch (p : Pool) (complete : Bool) (o : StopOutcome) : Pool × Bool :=
  if p.inlineRun then (p,true) else if complete then (p,true) else (poison p o,false)

/-- `up_worker_pool_destroy`; whether it returned 0. -/
def destroy (ops : Ops) (p : Pool) (o : StopOutcome) : Pool × Bool :=
  let (p,stopped) := stop p o
  if stopped = false then (p,false)
  else
    let p := releaseSlots ops p p.nWorkers
    ({ p with nWorkers := 0, workers := false, threads := false, gateReady := false, destroyed := true },true)

inductive Call
  | ensureStarted (o : StartOutcome)
  | dispatch (complete : Bool) (o : StopOutcome)
  | poison (o : StopOutcome)
  | stop (o : StopOutcome)
  | destroy (o : StopOutcome)

/-- One call of the owner, with whether it returned 0: a dispatch only while the
    pool is started, and nothing after a destroy that returned 0. -/
def call (ops : Ops) (p : Pool) (c : Call) : Option (Pool × Bool) :=
  if p.destroyed then none
  else match c with
    | .ensureStarted o => some (ensureStarted ops p o)
    | .dispatch complete o => if p.lazyDone then some (dispatch p complete o) else none
    | .poison o => some (poison p o,true)
    | .stop o => some (stop p o)
    | .destroy o => some (destroy ops p o)

def step (ops : Ops) (p : Pool) (c : Call) : Option Pool := (call ops p c).map Prod.fst

end AutoUpscale.WorkerPool
