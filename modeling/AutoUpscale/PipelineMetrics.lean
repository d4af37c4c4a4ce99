import AutoUpscale.Filter
import Mathlib.Logic.Function.Basic

/-!
The metrics of the time spent: `pipeline_metrics.h`, and the frame path of
`autoupscale.c` that reads the clocks. The frames are those of `Filter`; what the
clocks answer is an argument of each frame, in which a read that a frame does not
come to is not looked at. A report is what `ReportMetrics` tells, the last one last.
-/
namespace AutoUpscale.PipelineMetrics
open AutoUpscale.Filter (Backend Event Outcome Sys)
open AutoUpscale.PictureView (Picture)
open AutoUpscale.Tuner (Double Score)
universe u
variable {R : Type u} [Double R]

/-- `struct timespec`. -/
structure Timespec where
  tvSec : Int64
  tvNsec : Int64
  deriving DecidableEq

/-- `UP_METRICS_WINDOW` and `UP_METRICS_FIELDS`. -/
def metricsWindow : Nat := 256
def metricsFields : Nat := 4

/-- `UP_METRICS_SCALE`, `UP_METRICS_USM`, `UP_METRICS_TOTAL` and `UP_METRICS_CPU`. -/
def metricsScale : Nat := 0
def metricsUsm : Nat := 1
def metricsTotal : Nat := 2
def metricsCpu : Nat := 3

/-- `up_pipeline_metrics_t`; a sample has a field and an index. -/
structure Metrics (R : Type u) where
  samples : Nat → Nat → R
  startWall : UInt64
  startCpu : UInt64
  stageUs : Nat → R
  attempts : UInt32
  failed : UInt32
  invalid : UInt32
  used : UInt32
  valid : Bool

/-- Metrics that `calloc` has cleared. -/
def cleared : Metrics R where
  samples _ _ := ((0 : Nat) : R)
  startWall := 0
  startCpu := 0
  stageUs _ := ((0 : Nat) : R)
  attempts := 0
  failed := 0
  invalid := 0
  used := 0
  valid := false

/-! ## Reading the clocks -/

/-- `up_metrics_clock`; the answer of `clock_gettime` is nothing where it fails. -/
def clock (answer : Option Timespec) : Option UInt64 :=
  match answer with
  | none => none
  | some now =>
    if now.tvSec < 0 ∨ now.tvNsec < 0 ∨ now.tvNsec ≥ 1000000000 then none
    else
      let nanos := now.tvNsec.toUInt64
      if now.tvSec.toUInt64 > (18446744073709551615 - nanos) / 1000000000 then none
      else some (now.tvSec.toUInt64 * 1000000000 + nanos)

/-- `(double)(end - start) / 1000.0`. -/
def micros (start finish : UInt64) : R := ((finish - start).toNat : R) / 1000.0

/-- `up_metrics_mark` of metrics that are there; a read that fails is 0. -/
def markOf (m : Metrics R) (answer : Option Timespec) : Metrics R × UInt64 :=
  match clock answer with
  | some now => (m,now)
  | none => ({ m with valid := false },0)

/-- `up_metrics_mark`; NULL is nothing. -/
def mark (m : Option (Metrics R)) (answer : Option Timespec) : Option (Metrics R) × UInt64 :=
  match m with
  | none => (none,0)
  | some m => (some (markOf m answer).1,(markOf m answer).2)

/-- `up_metrics_begin` of metrics that are there. A start that cannot be read stays as
    it was. -/
def beginOf (m : Metrics R) (wall cpu : Option Timespec) : Metrics R :=
  let m := { m with stageUs := fun _ => ((0 : Nat) : R) }
  let m := match clock wall with
    | some now => { m with startWall := now, valid := true }
    | none => { m with valid := false }
  match clock cpu with
  | some now => { m with startCpu := now }
  | none => { m with valid := false }

/-- `up_metrics_begin`. -/
def begin (m : Option (Metrics R)) (wall cpu : Option Timespec) : Option (Metrics R) := m.map fun m => beginOf m wall cpu

/-- `up_metrics_stage` of metrics that are there. -/
def stageOf (m : Metrics R) (stage : Nat) (start : UInt64) (answer : Option Timespec) : Metrics R :=
  if stage ≥ 2 then m
  else
    let (m,finish) := markOf m answer
    if finish < start then { m with valid := false }
    else { m with stageUs := Function.update m.stageUs stage (micros start finish) }

/-- `up_metrics_stage`. -/
def stage (m : Option (Metrics R)) (stage : Nat) (start : UInt64) (answer : Option Timespec) : Option (Metrics R) :=
  m.map fun m => stageOf m stage start answer

/-! ## The end of a frame -/

/-- An assignment to `samples[field][index]`. -/
def setSample (samples : Nat → Nat → R) (field index : Nat) (value : R) : Nat → Nat → R :=
  Function.update samples field (Function.update (samples field) index value)

/-- `up_metrics_store`. -/
def store (m : Metrics R) (wall cpu : UInt64) : Metrics R :=
  if m.valid = false ∨ m.used ≥ 256 then m
  else
    let index := m.used.toNat
    let samples := setSample m.samples metricsScale index (m.stageUs 0)
    let samples := setSample samples metricsUsm index (m.stageUs 1)
    let samples := setSample samples metricsTotal index (micros m.startWall wall)
    let samples := setSample samples metricsCpu index (micros m.startCpu cpu)
    { m with samples := samples, used := m.used + 1 }

/-- What `up_metrics_end` makes of the flag of the record. -/
def endRecord (m : Metrics R) (wall cpu : Option Timespec) : Metrics R :=
  let m := if clock wall = none then { m with valid := false } else m
  let m := if clock cpu = none then { m with valid := false } else m
  if (clock wall).getD 0 < m.startWall ∨ (clock cpu).getD 0 < m.startCpu then { m with valid := false } else m

/-- `up_metrics_end` of metrics that are there. -/
def endOf (m : Metrics R) (output : Bool) (wall cpu : Option Timespec) : Metrics R × Bool :=
  let m := endRecord m wall cpu
  let m := { m with attempts := m.attempts + 1 }
  let m := if output = false then { m with failed := m.failed + 1 } else m
  let m := if m.valid = false then { m with invalid := m.invalid + 1 } else m
  let m := if output then store m ((clock wall).getD 0) ((clock cpu).getD 0) else m
  (m,decide (m.attempts ≥ 256))

/-- `up_metrics_end`. -/
def finish (m : Option (Metrics R)) (output : Bool) (wall cpu : Option Timespec) : Option (Metrics R) × Bool :=
  match m with
  | none => (none,false)
  | some m => (some (endOf m output wall cpu).1,(endOf m output wall cpu).2)

/-- The first `used` samples of a field. -/
def Metrics.values (m : Metrics R) (field : Nat) : List R := (List.range m.used.toNat).map (m.samples field)

/-- `up_metrics_score`, which sorts the samples of the field in place. -/
def score (m : Metrics R) (field : Nat) : Metrics R × Score R :=
  if m.used = 0 ∨ field ≥ metricsFields then (m,Tuner.zeroScore)
  else
    let (score,sorted) := Tuner.score (m.values field)
    let row := fun index => sorted.getD index (m.samples field index)
    ({ m with samples := Function.update m.samples field row },score)

/-- `up_metrics_reset`. -/
def reset (m : Metrics R) : Metrics R := { m with attempts := 0, failed := 0, invalid := 0, used := 0 }

/-! ## The filter with its metrics -/

/-- What `ReportMetrics` tells of a window: the counters, and the scores of the fields
    where there are samples. -/
structure Report (R : Type u) where
  attempts : UInt32
  used : UInt32
  failed : UInt32
  invalid : UInt32
  scores : List (Score R)

/-- `filter_sys_t` with its metrics, if it has any, and the reports so far. -/
structure Metered (R : Type u) where
  sys : Sys R
  metrics : Option (Metrics R)
  reports : List (Report R)

/-- What the clocks answer during one frame, in the order of the reads. -/
structure Clocks where
  startWall : Option Timespec
  startCpu : Option Timespec
  scaleStart : Option Timespec
  scaleEnd : Option Timespec
  usmStart : Option Timespec
  usmEnd : Option Timespec
  endWall : Option Timespec
  endCpu : Option Timespec

def Metered.emit (x : Metered R) (e : Event) : Metered R := { x with sys := x.sys.emit e }

/-- The loop of `ReportMetrics` over the fields from `field` on. -/
def scoreFields (m : Metrics R) : Nat → Nat → Metrics R × List (Score R)
  | 0, _ => (m,[])
  | left + 1, field =>
    let (m,first) := score m field
    let (m,rest) := scoreFields m left (field + 1)
    (m,first :: rest)

/-- `ReportMetrics`. -/
def reportMetrics (x : Metered R) : Metered R :=
  match x.metrics with
  | none => x
  | some m =>
    if m.attempts = 0 then x
    else if m.used = 0 then
      { x with metrics := some (reset m), reports := x.reports ++ [⟨m.attempts,m.used,m.failed,m.invalid,[]⟩] }
    else
      let (scored,scores) := scoreFields m metricsFields 0
      { x with
        metrics := some (reset scored)
        reports := x.reports ++ [⟨m.attempts,m.used,m.failed,m.invalid,scores⟩] }

/-- `FinishScaledFrame`. -/
def finishScaledFrame (x : Metered R) (src dst : Nat) (pic : Picture) (o : UsmAdaptive.Outcome) (c : Clocks) :
    Metered R × Option Nat :=
  let (m,start) := mark x.metrics c.usmStart
  let (s,result) := Filter.applyUsmIfEnabled x.sys dst pic o
  let x := { x with sys := s, metrics := stage m metricsUsm start c.usmEnd }
  if result = .outputUncertain then ((x.emit (.release dst)).emit (.release src),none)
  else ((x.emit (.release src)).emit (.deliver dst),some dst)

/-- `FilterFrame` from the start of the timing on. -/
def scaleFrame (x : Metered R) (b : Backend) (src dst : Nat) (pic : Picture) (o : Outcome) (c : Clocks) :
    Metered R × Option Nat :=
  let x := { x with sys := { x.sys with usm := UsmAdaptive.begin x.sys.usm o.clock } }
  let (m,start) := mark x.metrics c.scaleStart
  let x := x.emit (.process b x.sys.priv src dst o.status)
  let x := { x with metrics := stage m metricsScale start c.scaleEnd }
  if o.status ≠ .ok then
    let s := if o.status = .fatal then Filter.tryBackendFallback x.sys o.openFallback else x.sys
    let x := { x with sys := s }
    ((x.emit (.release dst)).emit (.release src),none)
  else finishScaledFrame x src dst pic o.usm c

/-- `FilterFrame` of a picture that has got a number. -/
def filterFrame (x : Metered R) (src : Nat) (input : Picture) (o : Outcome) (c : Clocks) : Metered R × Option Nat :=
  match x.sys.backend with
  | none => (x.emit (.release src),none)
  | some b =>
    let s := if x.sys.probeActive = true ∧ input.planes ≥ 1 then Filter.runProbe x.sys input o.luma else x.sys
    let x := { x with sys := s }
    match o.newPicture with
    | none => (x.emit (.release src),none)
    | some pic =>
      let dst := x.sys.nextPicture
      let x := { x with sys := { x.sys.emit (.newPicture dst) with nextPicture := dst + 1 } }
      scaleFrame x b src dst pic o c

/-- `Filter` up to the report; whether there is one. -/
def meteredFrame (x : Metered R) (picture : Picture) (o : Outcome) (c : Clocks) : Metered R × Option Nat × Bool :=
  let src := x.sys.nextPicture
  let x := { x with
    sys := { x.sys.emit (.input src) with nextPicture := src + 1 }
    metrics := begin x.metrics c.startWall c.startCpu }
  let (x,output) := filterFrame x src picture o c
  let (m,full) := finish x.metrics output.isSome c.endWall c.endCpu
  ({ x with metrics := m },output,full)

/-- `Filter`. -/
def filter (x : Metered R) (input : Option Picture) (o : Outcome) (c : Clocks) : Metered R × Option Nat :=
  match input with
  | none => (x,none)
  | some picture =>
    let (x,output,full) := meteredFrame x picture o c
    (if full then reportMetrics x else x,output)

/-- `up_autoupscale_close`. -/
def close (x : Metered R) : Metered R := reportMetrics { x with sys := Filter.close x.sys }

/-- The filter just after `InitMetrics`, where its metrics could be allocated. -/
def opened (s : Sys R) : Metered R := ⟨s,some cleared,[]⟩

/-- A picture for `Filter`, or NULL, with what the clocks answer. -/
structure Call where
  input : Option Picture
  outcome : Outcome
  clocks : Clocks

def step (x : Metered R) (call : Call) : Option (Metered R) := some (filter x call.input call.outcome call.clocks).1

end AutoUpscale.PipelineMetrics
