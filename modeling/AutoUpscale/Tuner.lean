import Mathlib.Data.List.Basic
import Mathlib.Data.Rat.Defs
import Mathlib.Algebra.Order.Ring.Rat

/-!
The search for the number of workers: `worker_tuner.h`. A tuner observes the
time of every frame, scores windows of samples, tries the counts of a fixed list
one after the other and settles on the best. What a comparison of two times
answers is left to the type of the times (`Double`), so that what holds here
holds for any rounding.
-/
namespace AutoUpscale.Tuner
universe u

/-- The arithmetic that the tuner does with `double`, without any law. -/
class Double (R : Type u) extends Add R, Sub R, Mul R, Div R, NatCast R, IntCast R, OfScientific R where
  /-- The comparison `<`, which is false for a NaN. -/
  less : R → R → Bool
  isFinite : R → Bool

/-- Times read as exact rationals. -/
instance : Double ℚ where
  less x y := x < y
  isFinite _ := true

variable {R : Type u} [Double R]

/-- The bounds `UP_TUNER_SAMPLES`, `UP_TUNER_WARMUP`, `UP_TUNER_RECHECK_FRAMES`
    and `UP_TUNER_COOLDOWN_FRAMES`. -/
def tunerSamples : Nat := 64
def tunerWarmup : Nat := 2
def tunerRecheckFrames : Nat := 16384
def tunerCooldownFrames : Nat := 256

/-- `UP_THREADS_MAX`. -/
def threadsMax : Int := 64

inductive Phase
  | base
  | trial
  | confirm
  | settled
  deriving DecidableEq, Repr

structure Score (R : Type u) where
  mean : R
  p95 : R
  p99 : R

/-- The state of a tuner. `samples` holds the first `used` samples of the source's
    array. -/
structure State (R : Type u) where
  limit : Int
  best : Int
  current : Int
  candidate : Int
  cursor : Int
  warmup : Nat
  remaining : Nat
  drift : Nat
  changes : UInt32
  samples : List R
  base : Score R
  trial : Score R
  steady : Score R
  phase : Phase

/-- How many samples the window holds. -/
def State.used (t : State R) : Nat := t.samples.length

def zeroScore : Score R := ⟨((0 : Nat) : R),((0 : Nat) : R),((0 : Nat) : R)⟩

/-- `up_worker_tuner_init`. -/
def init (initial limit : Int) : State R :=
  let limit := if limit < 1 then 1 else limit
  let limit := if limit > threadsMax then threadsMax else limit
  let initial := if initial < 1 then 1 else initial
  let initial := if initial > limit then limit else initial
  { limit := limit, best := initial, current := initial, candidate := 0, cursor := 0, warmup := tunerWarmup,
    remaining := 0, drift := 0, changes := 0, samples := [], base := zeroScore, trial := zeroScore,
    steady := zeroScore, phase := .base }

def counts : List Int := [1,2,4,8,12,16,24,32,48,64]

/-- `up_tuner_next_count`. -/
def nextCount (previous limit : Int) : Int :=
  if previous ≥ limit then 0
  else match counts.find? (· > previous) with
    | some count => if count < limit then count else limit
    | none => 0

/-- The inner loop of `up_tuner_score`: `value` moves down past the greater ones
    among the values before it, which are given from the last to the first. -/
def shiftDown (value : R) : List R → List R
  | [] => [value]
  | last :: before => if Double.less value last then last :: shiftDown value before else value :: last :: before

/-- The outer loop of `up_tuner_score` over the values from index `i` on: the
    sorted values before them, from the last to the first, and their mean. -/
def scoreFrom (mean : R) (before : List R) (i : Nat) : List R → R × List R
  | [] => (mean,before)
  | value :: rest =>
    scoreFrom (mean + (value - mean) / ((i + 1 : Nat) : R)) (shiftDown value before) (i + 1) rest

/-- `up_tuner_score`, with the values as it leaves them. It is called with one
    value at least. -/
def score (values : List R) : Score R × List R :=
  match values with
  | [] => (zeroScore,[])
  | first :: rest =>
    let (mean,sorted) := scoreFrom first [first] 1 rest
    let sorted := sorted.reverse
    let count := values.length
    (⟨mean,sorted.getD (count - count / 20 - 1) mean,sorted.getD (count - count / 100 - 1) mean⟩,sorted)

/-- `up_tuner_tail_regressed`. -/
def tailRegressed (score baseline : Score R) : Bool :=
  Double.less baseline.p95 (score.p95 / 1.05) || Double.less baseline.p99 (score.p99 / 1.05)

/-- `up_tuner_improves`. -/
def improves (score baseline : Score R) : Bool :=
  Double.less score.mean (baseline.mean * 0.95) && !tailRegressed score baseline

/-- `up_tuner_settle`. -/
def settle (t : State R) (score : Score R) : State R :=
  { t with phase := .settled, current := t.best, steady := score, remaining := tunerRecheckFrames, drift := 0 }

/-- `up_tuner_begin_trial`. -/
def beginTrial (t : State R) (score : Score R) : State R :=
  let cursor := nextCount t.cursor t.limit
  let cursor := if cursor = t.best then nextCount cursor t.limit else cursor
  let t := { t with cursor := cursor }
  if t.cursor = 0 then settle t score
  else { t with base := score, candidate := t.cursor, current := t.cursor, phase := .trial }

/-- `up_tuner_confirm`. -/
def confirm (t : State R) (score : Score R) : State R :=
  let t := if improves t.trial t.base && improves t.trial score
    then { t with best := t.candidate, changes := t.changes + 1 } else t
  { t with current := t.best, phase := .base }

/-- `up_tuner_monitor`. -/
def monitor (t : State R) (score : Score R) : State R :=
  if t.remaining > tunerRecheckFrames - tunerCooldownFrames then t
  else
    let shifted := Double.less t.steady.mean (score.mean / 1.35) || Double.less score.mean (t.steady.mean * 0.65)
      || tailRegressed score t.steady
    let t := { t with drift := if shifted then t.drift + 1 else 0 }
    if t.remaining > 0 ∧ t.drift < 3 then t else { t with cursor := 0, phase := .base, drift := 0 }

/-- `up_tuner_window`. -/
def window (t : State R) (score : Score R) : State R :=
  match t.phase with
  | .base => beginTrial t score
  | .trial => { t with trial := score, current := t.best, phase := .confirm }
  | .confirm => confirm t score
  | .settled => monitor t score

/-- `up_tuner_trial_too_slow`, with the samples as its score leaves them. -/
def trialTooSlow (t : State R) : Bool × State R :=
  if t.phase = .trial ∧ t.used = 4 then
    let (score,sorted) := score t.samples
    (Double.less t.base.mean (score.mean / 1.5),{ t with samples := sorted })
  else (false,t)

/-- A sample enters the window of `up_tuner_observe_with`. -/
def sample (t : State R) (elapsed : R) : State R :=
  { t with remaining := if t.remaining > 0 then t.remaining - 1 else t.remaining, samples := t.samples ++ [elapsed] }

/-- Whether the window is scored now: it is full, or a trial is too slow. -/
def windowEnds (t : State R) : Bool × State R :=
  if t.used < tunerSamples then trialTooSlow t else (true,t)

/-- The rest of `up_tuner_observe_with` once the window ends. -/
def closeWindow (t : State R) : State R :=
  let u := { window t (score t.samples).1 with samples := [] }
  if t.current ≠ u.current then { u with warmup := tunerWarmup } else u

/-- `up_worker_tuner_observe`, that is `up_tuner_observe_with` of `up_tuner_window`. -/
def observe (t : State R) (elapsed : R) : State R :=
  if !Double.isFinite elapsed || !Double.less ((0 : Nat) : R) elapsed then t
  else if t.warmup > 0 then { t with warmup := t.warmup - 1 }
  else
    let (ends,t) := windowEnds (sample t elapsed)
    if ends then closeWindow t else t

end AutoUpscale.Tuner
