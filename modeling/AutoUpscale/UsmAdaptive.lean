import AutoUpscale.Runs
import AutoUpscale.UsmPool
import AutoUpscale.TunerInvariant

/-!
The adaptive choice between two sharpening pools: `usm_adaptive.h`. A trial pool
may run beside the best one while the tuner explores. Pools are numbered as they
are created; what a pool, an allocation or a clock answers is an argument of each
call, and the trace records what became of the pools.
-/
namespace AutoUpscale.UsmAdaptive
open AutoUpscale.Tuner (Double Phase)
open AutoUpscale.UsmPool (Status)
universe u
variable {R : Type u} [Double R]

structure Timespec where
  tvSec : Int
  tvNsec : Int

/-- `up_usm_adaptive_t`; a pool is its number. -/
structure Adaptive (R : Type u) where
  tuner : Tuner.State R
  trial : Option Nat
  trialCount : Int
  width : Int
  height : Int
  stripeRows : Int
  enabled : Bool
  stopped : Bool
  retained : Bool
  framePending : Bool
  frameTimed : Bool
  frameStart : Timespec

/-- `swap` is the assignment `*best = a->trial`, with the count of the trial pool
    and the new best of the tuner. -/
inductive Event
  | create (pool : Nat)
  | destroy (pool : Nat)
  | apply (pool : Nat) (status : Status)
  | swap (trial : Option Nat) (trialCount best : Int)
  deriving DecidableEq, Repr

/-- The structure, the owner's `*best`, the number of the next pool, and what
    happened, the last event first. -/
structure World (R : Type u) where
  adaptive : Adaptive R
  best : Option Nat
  next : Nat
  trace : List Event

/-- What the environment answers during one `up_usm_adaptive_apply`: whether a
    pool can be created, what the selected pool and then the best one answer, how
    many workers the selected pool has, and the clock before and after. -/
structure Outcome where
  create : Bool
  selected : Status
  recovered : Status
  threads : Int
  start : Option Timespec
  finish : Option Timespec

/-- `up_usm_adaptive_init` beside a best pool of the owner. -/
def init (initial limit width height stripeRows : Int) : World R :=
  let rows := if stripeRows > 0 then stripeRows else 8
  let byHeight := height.tdiv rows
  let limit := if limit > byHeight then byHeight else limit
  let tuner := Tuner.init initial limit
  { adaptive :=
      { tuner := tuner, trial := none, trialCount := 0, width := width, height := height, stripeRows := stripeRows,
        enabled := decide (tuner.limit > 1), stopped := false, retained := false, framePending := false,
        frameTimed := false, frameStart := ⟨0,0⟩ },
    best := some 0, next := 1, trace := [.create 0] }

/-! ## The pools -/

/-- `up_usm_pool_destroy`; of NULL it is nothing. -/
def poolDestroy (w : World R) : Option Nat → World R
  | none => w
  | some pool => { w with trace := .destroy pool :: w.trace }

/-- `up_usm_pool_create`. -/
def poolCreate (w : World R) (created : Bool) : World R × Option Nat :=
  if created then ({ w with next := w.next + 1, trace := .create w.next :: w.trace },some w.next) else (w,none)

/-- `up_usm_pool_apply`, which refuses NULL. -/
def poolApply (w : World R) (status : Status) : Option Nat → World R × Status
  | none => (w,.failedUnchanged)
  | some pool => ({ w with trace := .apply pool status :: w.trace },status)

/-- `up_usm_pool_effective_threads`. -/
def effectiveThreads (threads : Int) : Option Nat → Int
  | none => 0
  | some _ => threads

/-! ## The calls -/

/-- `up_usm_adaptive_clear_trial`. -/
def clearTrial (w : World R) : World R :=
  let w := poolDestroy w w.adaptive.trial
  { w with adaptive := { w.adaptive with trial := none, trialCount := 0 } }

/-- `up_usm_adaptive_stop`. -/
def stop (w : World R) : World R :=
  let w := clearTrial w
  { w with adaptive := { w.adaptive with enabled := false, stopped := true, framePending := false } }

/-- `up_usm_adaptive_begin`. -/
def begin (w : World R) (clock : Option Timespec) : World R :=
  if w.adaptive.enabled = false then w
  else match clock with
    | some time => { w with adaptive := { w.adaptive with framePending := true, frameTimed := true, frameStart := time } }
    | none => { w with adaptive := { w.adaptive with framePending := true, frameTimed := false } }

/-- `up_usm_adaptive_take_start`. -/
def takeStart (w : World R) (clock : Option Timespec) : World R × Option Timespec :=
  if w.adaptive.framePending = false then (w,clock)
  else ({ w with adaptive := { w.adaptive with framePending := false } },
    if w.adaptive.frameTimed then some w.adaptive.frameStart else none)

/-- The rest of `up_usm_adaptive_select` once the old trial pool is gone. -/
def startTrial (w : World R) (created : Bool) : World R × Option Nat :=
  match poolCreate w created with
  | (w,none) => (stop { w with adaptive := { w.adaptive with trial := none } },w.best)
  | (w,some pool) =>
    ({ w with adaptive := { w.adaptive with trial := some pool, trialCount := w.adaptive.tuner.current } },some pool)

/-- `up_usm_adaptive_select`. -/
def select (w : World R) (created : Bool) : World R × Option Nat :=
  if w.adaptive.tuner.current = w.adaptive.tuner.best then (w,w.best)
  else if w.adaptive.trialCount = w.adaptive.tuner.current then (w,w.adaptive.trial)
  else startTrial (clearTrial w) created

/-- `up_usm_adaptive_elapsed`. -/
def elapsed (start : Timespec) (clock : Option Timespec) : Option R :=
  match clock with
  | none => none
  | some finish =>
    let time : R := ((finish.tvSec : R) - (start.tvSec : R)) * 1.0e6 + ((finish.tvNsec : R) - (start.tvNsec : R)) / 1000.0
    if Double.isFinite time && Double.less ((0 : Nat) : R) time then some time else none

/-- The tuner observes a time. -/
def observed (w : World R) (elapsed : R) : World R :=
  { w with adaptive := { w.adaptive with tuner := Tuner.observe w.adaptive.tuner elapsed } }

/-- The trial pool takes the place of `*best`, at the end of `up_usm_adaptive_accept`. -/
def promote (w : World R) : World R :=
  let w := poolDestroy w w.best
  { w with best := w.adaptive.trial, adaptive := { w.adaptive with trial := none, trialCount := 0 },
           trace := .swap w.adaptive.trial w.adaptive.trialCount w.adaptive.tuner.best :: w.trace }

/-- `up_usm_adaptive_accept`. -/
def accept (w : World R) (elapsed : R) : World R :=
  let previous := w.adaptive.tuner.best
  let phase := w.adaptive.tuner.phase
  let w := observed w elapsed
  if w.adaptive.tuner.best = previous then
    if phase = .confirm ∧ w.adaptive.tuner.phase = .base then clearTrial w else w
  else promote w

/-- `up_usm_adaptive_recover`. -/
def recover (w : World R) (status again : Status) : World R × Status :=
  let w := stop w
  if status = .outputUncertain then ({ w with adaptive := { w.adaptive with retained := true } },status)
  else poolApply w again w.best

/-- The end of `up_usm_adaptive_apply` after an apply that returned OK. -/
def measure (w : World R) (o : Outcome) (selected : Option Nat) (start : Option Timespec) : World R :=
  if effectiveThreads o.threads selected ≠ w.adaptive.tuner.current then stop w
  else match start.bind (fun start => elapsed start o.finish) with
    | none => stop w
    | some time => accept w time

/-- The pool that `up_usm_adaptive_apply` applies first. -/
def choose (w : World R) (created : Bool) : World R × Option Nat :=
  if w.adaptive.enabled then select w created else (w,w.best)

/-- The time from which `up_usm_adaptive_apply` counts, if it is timed. -/
def timing (w : World R) (clock : Option Timespec) : World R × Option Timespec :=
  if w.adaptive.enabled then takeStart w clock else (w,none)

/-- The rest of `up_usm_adaptive_apply`. -/
def applySelected (w : World R) (o : Outcome) (selected : Option Nat) (start : Option Timespec) : World R × Status :=
  let (w,status) := poolApply w o.selected selected
  if status ≠ .ok ∧ selected ≠ w.best then recover w status o.recovered
  else if status ≠ .ok ∨ w.adaptive.enabled = false then (w,status)
  else (measure w o selected start,status)

/-- `up_usm_adaptive_apply`. -/
def apply (w : World R) (o : Outcome) : World R × Status :=
  let w := { w with adaptive := { w.adaptive with retained := false } }
  let (w,selected) := choose w o.create
  let (w,start) := timing w o.start
  applySelected w o selected start

inductive Call
  | begin (clock : Option Timespec)
  | apply (o : Outcome)
  | stop

/-- One call of the owner. -/
def step (w : World R) : Call → Option (World R)
  | .begin clock => some (begin w clock)
  | .apply o => some (apply w o).1
  | .stop => some (stop w)

/-- The owner's end: exploration is stopped and `*best` destroyed. -/
def close (w : World R) : World R :=
  let w := stop w
  poolDestroy w w.best

end AutoUpscale.UsmAdaptive
