import AutoUpscale.PipelineMetrics
import AutoUpscale.Windows

/-!
What the metrics count. A frame fails, or gives output with a record of its times that
is valid or not (`Verdict`); the times are read in whole nanoseconds, so that nothing
wraps (`clock_nanos`). The counters and the samples are those of the frames since the
last report (`Tally`), and a report comes after every 256 frames
(`metrics_accounting`).
-/
namespace AutoUpscale.PipelineMetrics
open AutoUpscale.Filter (Backend Outcome Sys)
open AutoUpscale.PictureView (Picture)
open AutoUpscale.Runs (run)
open AutoUpscale.Tuner (Double Score)
open AutoUpscale.Windows (Cut push windows windows_snoc windows_join windows_current windows_complete)
set_option linter.unusedSectionVars false
universe u
variable {R : Type u} [Double R]

/-! ## Times in nanoseconds -/

/-- The nanoseconds of an answer of a clock, if it is one and they fit 64 bits. -/
def nanos (answer : Option Timespec) : Option Nat :=
  answer.bind fun now =>
    let sec := now.tvSec.toInt
    let nsec := now.tvNsec.toInt
    if 0 ≤ sec ∧ 0 ≤ nsec ∧ nsec < 1000000000 ∧ sec * 1000000000 + nsec < 18446744073709551616
    then some (sec * 1000000000 + nsec).toNat else none

/-- A duration in microseconds, of instants in nanoseconds. -/
def exactMicros (start finish : Nat) : R := ((finish - start : Nat) : R) / 1000.0

theorem int64_toNat {x : Int64} (nonneg : 0 ≤ x) : (x.toUInt64.toNat : Int) = x.toInt := by
  rw [Int64.toNat_toUInt64_of_le nonneg,Int64.toInt_eq_toNatClampNeg nonneg]

/-- What `up_metrics_clock` reads is exact. -/
theorem clock_nanos (answer : Option Timespec) : (clock answer).map UInt64.toNat = nanos answer := by
  cases answer with
  | none => rfl
  | some now =>
    obtain ⟨sec,nsec⟩ := now
    have zero : (0 : Int64).toInt = 0 := rfl
    have second : (1000000000 : Int64).toInt = 1000000000 := rfl
    simp only [clock,nanos,Option.bind_some]
    by_cases malformed : sec < 0 ∨ nsec < 0 ∨ nsec ≥ 1000000000
    · rw [if_pos malformed,if_neg]
      · rfl
      · simp only [ge_iff_le,Int64.lt_iff_toInt_lt,Int64.le_iff_toInt_le,zero,second] at malformed
        omega
    rw [if_neg malformed]
    have whole : 0 ≤ sec ∧ 0 ≤ nsec := by
      simp only [Int64.lt_iff_toInt_lt,Int64.le_iff_toInt_le,zero] at malformed ⊢
      omega
    have secs := int64_toNat whole.1
    have nsecs := int64_toNat whole.2
    have proper : 0 ≤ sec.toInt ∧ 0 ≤ nsec.toInt ∧ nsec.toInt < 1000000000 := by
      simp only [ge_iff_le,Int64.lt_iff_toInt_lt,Int64.le_iff_toInt_le,zero,second] at malformed
      omega
    have most := nsec.toUInt64.toNat_lt
    have room : ((18446744073709551615 - nsec.toUInt64) / 1000000000 : UInt64).toNat =
        (18446744073709551615 - nsec.toUInt64.toNat) / 1000000000 := by
      rw [UInt64.toNat_div,UInt64.toNat_sub_of_le]
      · rfl
      · rw [UInt64.le_iff_toNat_le]
        show _ ≤ 18446744073709551615
        omega
    by_cases far : sec.toUInt64 > (18446744073709551615 - nsec.toUInt64) / 1000000000
    · rw [if_pos far,if_neg]
      · rfl
      · rw [gt_iff_lt,UInt64.lt_iff_toNat_lt,room] at far
        omega
    · rw [if_neg far,if_pos]
      · rw [gt_iff_lt,UInt64.lt_iff_toNat_lt,room] at far
        rw [Option.map_some,UInt64.toNat_add,UInt64.toNat_mul]
        have scale : (1000000000 : UInt64).toNat = 1000000000 := rfl
        rw [scale]
        congr 1
        omega
      · rw [gt_iff_lt,UInt64.lt_iff_toNat_lt,room] at far
        omega

theorem clock_cases (answer : Option Timespec) :
    (∃ now, clock answer = some now ∧ nanos answer = some now.toNat) ∨ clock answer = none ∧ nanos answer = none := by
  rw [← clock_nanos]
  cases clock answer with
  | none => exact .inr ⟨rfl,rfl⟩
  | some now => exact .inl ⟨now,rfl,rfl⟩

theorem micros_exact {start finish : UInt64} (forward : start ≤ finish) :
    (micros start finish : R) = exactMicros start.toNat finish.toNat := by
  rw [micros,exactMicros,UInt64.toNat_sub_of_le _ _ forward]

/-! ## Verdicts -/

/-- The times of a frame that gave output, in nanoseconds. -/
structure Readings where
  startWall : Nat
  startCpu : Nat
  scaleStart : Nat
  scaleEnd : Nat
  usmStart : Nat
  usmEnd : Nat
  endWall : Nat
  endCpu : Nat
  deriving DecidableEq, Repr

/-- The readings of a frame, if every read succeeded. -/
def readings (c : Clocks) : Option Readings := do
  let startWall ← nanos c.startWall
  let startCpu ← nanos c.startCpu
  let scaleStart ← nanos c.scaleStart
  let scaleEnd ← nanos c.scaleEnd
  let usmStart ← nanos c.usmStart
  let usmEnd ← nanos c.usmEnd
  let endWall ← nanos c.endWall
  let endCpu ← nanos c.endCpu
  some ⟨startWall,startCpu,scaleStart,scaleEnd,usmStart,usmEnd,endWall,endCpu⟩

/-- No time ends before it starts. -/
structure Readings.Forward (r : Readings) : Prop where
  scale : r.scaleStart ≤ r.scaleEnd
  usm : r.usmStart ≤ r.usmEnd
  wall : r.startWall ≤ r.endWall
  cpu : r.startCpu ≤ r.endCpu

instance (r : Readings) : Decidable r.Forward :=
  decidable_of_iff (r.scaleStart ≤ r.scaleEnd ∧ r.usmStart ≤ r.usmEnd ∧ r.startWall ≤ r.endWall ∧ r.startCpu ≤ r.endCpu)
    ⟨fun ⟨scale,usm,wall,cpu⟩ => ⟨scale,usm,wall,cpu⟩,fun ⟨scale,usm,wall,cpu⟩ => ⟨scale,usm,wall,cpu⟩⟩

/-- The sample of a field. -/
def Readings.sample (r : Readings) (field : Nat) : R :=
  if field = metricsScale then exactMicros r.scaleStart r.scaleEnd
  else if field = metricsUsm then exactMicros r.usmStart r.usmEnd
  else if field = metricsTotal then exactMicros r.startWall r.endWall
  else exactMicros r.startCpu r.endCpu

/-- What comes of a frame: it fails, its record is invalid, or it is stored. -/
inductive Verdict
  | failed
  | invalid
  | stored (r : Readings)
  deriving DecidableEq, Repr

/-- The frames that gave output with valid readings are stored. -/
def verdict (output : Bool) (c : Clocks) : Verdict :=
  if output = false then .failed
  else match readings c with
    | none => .invalid
    | some r => if r.Forward then .stored r else .invalid

/-- The readings that are stored. -/
def stored (window : List Verdict) : List Readings :=
  window.filterMap fun
    | .failed => none
    | .invalid => none
    | .stored r => some r

theorem readings_iff {c : Clocks} {r : Readings} : readings c = some r ↔
    (nanos c.startWall = some r.startWall ∧ nanos c.startCpu = some r.startCpu) ∧
    (nanos c.scaleStart = some r.scaleStart ∧ nanos c.scaleEnd = some r.scaleEnd) ∧
    (nanos c.usmStart = some r.usmStart ∧ nanos c.usmEnd = some r.usmEnd) ∧
    nanos c.endWall = some r.endWall ∧ nanos c.endCpu = some r.endCpu := by
  constructor
  · intro read
    simp only [readings,Option.bind_eq_bind,Option.bind_eq_some_iff] at read
    obtain ⟨_,startWall,_,startCpu,_,scaleStart,_,scaleEnd,_,usmStart,_,usmEnd,_,endWall,_,endCpu,same⟩ := read
    cases same
    exact ⟨⟨startWall,startCpu⟩,⟨scaleStart,scaleEnd⟩,⟨usmStart,usmEnd⟩,endWall,endCpu⟩
  · rintro ⟨⟨startWall,startCpu⟩,⟨scaleStart,scaleEnd⟩,⟨usmStart,usmEnd⟩,endWall,endCpu⟩
    simp only [readings,startWall,startCpu,scaleStart,scaleEnd,usmStart,usmEnd,endWall,endCpu,Option.bind_eq_bind,Option.bind_some]

/-- A frame is stored if and only if it gave output, every read succeeded, and no time
    ends before it starts. -/
theorem verdict_stored {output : Bool} {c : Clocks} {r : Readings} :
    verdict output c = .stored r ↔ output = true ∧ readings c = some r ∧ r.Forward := by
  rw [verdict]
  cases output with
  | false => simp
  | true =>
    cases readings c with
    | none => simp
    | some s =>
      by_cases forward : s.Forward
      · simp only [Bool.true_eq_false,if_false,if_pos forward,Verdict.stored.injEq,Option.some.injEq,true_and]
        exact ⟨fun same => ⟨same,same ▸ forward⟩,And.left⟩
      · simp only [Bool.true_eq_false,if_false,if_neg forward,reduceCtorEq,Option.some.injEq,true_and,false_iff]
        exact fun ⟨same,other⟩ => forward (same ▸ other)

theorem stored_append (window : List Verdict) (v : Verdict) : stored (window ++ [v]) = stored window ++ stored [v] :=
  List.filterMap_append

/-- Every frame is counted once. -/
theorem length_verdicts (window : List Verdict) :
    window.length = (stored window).length + window.count .failed + window.count .invalid := by
  induction window with
  | nil => rfl
  | cons v rest ih =>
    rw [List.length_cons,ih]
    cases v <;> simp [stored] <;> omega

/-! ## The record of a frame -/

/-- The counters and the samples are as they were. -/
structure SameWindow (m n : Metrics R) : Prop where
  samples : n.samples = m.samples
  attempts : n.attempts = m.attempts
  failed : n.failed = m.failed
  invalid : n.invalid = m.invalid
  used : n.used = m.used

variable {m n : Metrics R}

theorem SameWindow.trans {k : Metrics R} (first : SameWindow m n) (second : SameWindow n k) : SameWindow m k :=
  ⟨second.samples.trans first.samples,second.attempts.trans first.attempts,second.failed.trans first.failed,
    second.invalid.trans first.invalid,second.used.trans first.used⟩

/-- A record with its start: valid only if both clocks were read. -/
structure Begun (m n : Metrics R) (wall cpu : Option Timespec) : Prop where
  window : SameWindow m n
  sound : n.valid = true → nanos wall = some n.startWall.toNat ∧ nanos cpu = some n.startCpu.toNat
  complete : nanos wall ≠ none → nanos cpu ≠ none → n.valid = true

theorem beginOf_spec (m : Metrics R) (wall cpu : Option Timespec) : Begun m (beginOf m wall cpu) wall cpu := by
  simp only [beginOf]
  obtain ⟨now,read,time⟩ | ⟨unread,untimed⟩ := clock_cases wall
  · obtain ⟨now',read',time'⟩ | ⟨unread',untimed'⟩ := clock_cases cpu
    · rw [read,read']
      exact ⟨⟨rfl,rfl,rfl,rfl,rfl⟩,fun _ => ⟨time,time'⟩,fun _ _ => rfl⟩
    · rw [read,unread']
      exact ⟨⟨rfl,rfl,rfl,rfl,rfl⟩,nofun,fun _ other => absurd untimed' other⟩
  · rw [unread]
    refine ⟨?_,?_,fun other => absurd untimed other⟩
    · cases clock cpu <;> exact ⟨rfl,rfl,rfl,rfl,rfl⟩
    · cases clock cpu <;> nofun

/-- The two reads of a stage. -/
def timed (m : Metrics R) (which : Nat) (start finish : Option Timespec) : Metrics R :=
  stageOf (markOf m start).1 which (markOf m start).2 finish

/-- A record after a stage: valid only if it was and the stage does not end before it
    starts; then the duration is exact. -/
structure Timed (m n : Metrics R) (which : Nat) (start finish : Option Timespec) : Prop where
  window : SameWindow m n
  starts : n.startWall = m.startWall ∧ n.startCpu = m.startCpu
  sound : n.valid = true → m.valid = true ∧ ∃ s f, nanos start = some s ∧ nanos finish = some f ∧ s ≤ f ∧
    n.stageUs = Function.update m.stageUs which (exactMicros s f)
  complete : ∀ s f, m.valid = true → nanos start = some s → nanos finish = some f → s ≤ f → n.valid = true

theorem timed_spec {which : Nat} (small : which < 2) (m : Metrics R) (start finish : Option Timespec) :
    Timed m (timed m which start finish) which start finish := by
  have inside : ¬ which ≥ 2 := by omega
  have spoiled (k : Metrics R) (same : SameWindow m k) (starts : k.startWall = m.startWall ∧ k.startCpu = m.startCpu)
      (invalid : k.valid = false) (unread : nanos start = none ∨ nanos finish = none) : Timed m k which start finish := by
    refine ⟨same,starts,fun valid => absurd (invalid.symm.trans valid) (by decide),fun s f _ first last => ?_⟩
    obtain none | none := unread
    · exact absurd (none.symm.trans first) nofun
    · exact absurd (none.symm.trans last) nofun
  simp only [timed,stageOf]
  rw [if_neg inside]
  obtain ⟨now,read,time⟩ | ⟨unread,untimed⟩ := clock_cases start
  · obtain ⟨now',read',time'⟩ | ⟨unread',untimed'⟩ := clock_cases finish
    · simp only [markOf,read,read']
      by_cases backward : now' < now
      · rw [if_pos backward]
        refine ⟨⟨rfl,rfl,rfl,rfl,rfl⟩,⟨rfl,rfl⟩,nofun,fun s f _ first last forward => ?_⟩
        cases time.symm.trans first
        cases time'.symm.trans last
        rw [UInt64.lt_iff_toNat_lt] at backward
        omega
      · rw [if_neg backward]
        have forward : now ≤ now' := UInt64.not_lt.mp backward
        refine ⟨⟨rfl,rfl,rfl,rfl,rfl⟩,⟨rfl,rfl⟩,fun valid => ⟨valid,_,_,time,time',UInt64.le_iff_toNat_le.mp forward,?_⟩,
          fun _ _ valid _ _ _ => valid⟩
        rw [micros_exact forward]
    · simp only [markOf,read,unread']
      split_ifs
      · exact spoiled _ ⟨rfl,rfl,rfl,rfl,rfl⟩ ⟨rfl,rfl⟩ rfl (.inr untimed')
      · exact spoiled _ ⟨rfl,rfl,rfl,rfl,rfl⟩ ⟨rfl,rfl⟩ rfl (.inr untimed')
  · simp only [markOf,unread]
    cases clock finish <;> split_ifs <;> exact spoiled _ ⟨rfl,rfl,rfl,rfl,rfl⟩ ⟨rfl,rfl⟩ rfl (.inl untimed)

/-- A record at the end of its frame. -/
structure Ended (m n : Metrics R) (wall cpu : Option Timespec) : Prop where
  window : SameWindow m n
  times : n.stageUs = m.stageUs ∧ n.startWall = m.startWall ∧ n.startCpu = m.startCpu
  sound : n.valid = true → m.valid = true ∧ ∃ w p, clock wall = some w ∧ clock cpu = some p ∧ m.startWall ≤ w ∧ m.startCpu ≤ p
  complete : ∀ w p, m.valid = true → clock wall = some w → clock cpu = some p → m.startWall ≤ w → m.startCpu ≤ p →
    n.valid = true

theorem endRecord_spec (m : Metrics R) (wall cpu : Option Timespec) : Ended m (endRecord m wall cpu) wall cpu := by
  cases read : clock wall with
  | none =>
    simp only [endRecord,read,if_true]
    split_ifs <;> exact ⟨⟨rfl,rfl,rfl,rfl,rfl⟩,⟨rfl,rfl,rfl⟩,nofun,fun _ _ _ other => absurd (read.symm.trans other) nofun⟩
  | some w =>
    cases read' : clock cpu with
    | none =>
      simp only [endRecord,read,read',if_true,reduceCtorEq,if_false]
      split_ifs <;>
        exact ⟨⟨rfl,rfl,rfl,rfl,rfl⟩,⟨rfl,rfl,rfl⟩,nofun,fun _ _ _ _ other => absurd (read'.symm.trans other) nofun⟩
    | some p =>
      simp only [endRecord,read,read',reduceCtorEq,if_false,Option.getD_some]
      by_cases backward : w < m.startWall ∨ p < m.startCpu
      · rw [if_pos backward]
        refine ⟨⟨rfl,rfl,rfl,rfl,rfl⟩,⟨rfl,rfl,rfl⟩,nofun,fun _ _ _ same same' wall cpu => ?_⟩
        cases read.symm.trans same
        cases read'.symm.trans same'
        exact absurd backward (not_or.mpr ⟨UInt64.not_lt.mpr wall,UInt64.not_lt.mpr cpu⟩)
      · rw [if_neg backward]
        obtain ⟨wall,cpu⟩ := not_or.mp backward
        exact ⟨⟨rfl,rfl,rfl,rfl,rfl⟩,⟨rfl,rfl,rfl⟩,
          fun valid => ⟨valid,w,p,read,read',UInt64.not_lt.mp wall,UInt64.not_lt.mp cpu⟩,fun _ _ valid _ _ _ _ => valid⟩

/-- The record of a frame that gave output. -/
def record (m : Metrics R) (c : Clocks) : Metrics R :=
  let m := timed (beginOf m c.startWall c.startCpu) metricsScale c.scaleStart c.scaleEnd
  endRecord (timed m metricsUsm c.usmStart c.usmEnd) c.endWall c.endCpu

/-- What is stored of a record is the sample of the readings. -/
structure Measured (m : Metrics R) (c : Clocks) (r : Readings) : Prop where
  scale : m.stageUs 0 = r.sample metricsScale
  usm : m.stageUs 1 = r.sample metricsUsm
  wall : micros m.startWall ((clock c.endWall).getD 0) = (r.sample metricsTotal : R)
  cpu : micros m.startCpu ((clock c.endCpu).getD 0) = (r.sample metricsCpu : R)

theorem nanos_clock {answer : Option Timespec} {now : UInt64} (read : clock answer = some now) :
    nanos answer = some now.toNat := by
  rw [← clock_nanos,read]
  rfl

/-- The steps of a record. -/
theorem record_steps (m : Metrics R) (c : Clocks) : ∃ b t u, Begun m b c.startWall c.startCpu ∧
    Timed b t metricsScale c.scaleStart c.scaleEnd ∧ Timed t u metricsUsm c.usmStart c.usmEnd ∧
    Ended u (record m c) c.endWall c.endCpu :=
  ⟨_,_,_,beginOf_spec m c.startWall c.startCpu,timed_spec (by decide) _ _ _,timed_spec (by decide) _ _ _,endRecord_spec _ _ _⟩

/-- A record that is valid at the end has all its readings. -/
theorem record_sound {c : Clocks} (valid : (record m c).valid = true) :
    ∃ r, readings c = some r ∧ r.Forward ∧ Measured (record m c) c r := by
  obtain ⟨b,t,u,begun,scaled,sharpened,ended⟩ := record_steps m c
  obtain ⟨sharpenedValid,w,p,endWall,endCpu,wall,cpu⟩ := ended.sound valid
  obtain ⟨scaledValid,usmStart,usmEnd,readUsmStart,readUsmEnd,usm,usmUs⟩ := sharpened.sound sharpenedValid
  obtain ⟨begunValid,scaleStart,scaleEnd,readScaleStart,readScaleEnd,scale,scaleUs⟩ := scaled.sound scaledValid
  obtain ⟨startWall,startCpu⟩ := begun.sound begunValid
  have sameWall : u.startWall = b.startWall := sharpened.starts.1.trans scaled.starts.1
  have sameCpu : u.startCpu = b.startCpu := sharpened.starts.2.trans scaled.starts.2
  obtain ⟨stages,recordWall,recordCpu⟩ := ended.times
  refine ⟨⟨b.startWall.toNat,b.startCpu.toNat,scaleStart,scaleEnd,usmStart,usmEnd,w.toNat,p.toNat⟩,?_,?_,?_⟩
  · exact readings_iff.mpr ⟨⟨startWall,startCpu⟩,⟨readScaleStart,readScaleEnd⟩,⟨readUsmStart,readUsmEnd⟩,
      nanos_clock endWall,nanos_clock endCpu⟩
  · rw [sameWall] at wall
    rw [sameCpu] at cpu
    exact ⟨scale,usm,UInt64.le_iff_toNat_le.mp wall,UInt64.le_iff_toNat_le.mp cpu⟩
  · constructor
    · rw [stages,usmUs,scaleUs]
      rfl
    · rw [stages,usmUs]
      rfl
    · rw [endWall,recordWall,Option.getD_some,micros_exact wall,sameWall]
      rfl
    · rw [endCpu,recordCpu,Option.getD_some,micros_exact cpu,sameCpu]
      rfl

theorem record_complete {c : Clocks} {r : Readings} (read : readings c = some r) (forward : r.Forward) :
    (record m c).valid = true := by
  obtain ⟨b,t,u,begun,scaled,sharpened,ended⟩ := record_steps m c
  obtain ⟨⟨startWall,startCpu⟩,⟨scaleStart,scaleEnd⟩,⟨usmStart,usmEnd⟩,endWall,endCpu⟩ := readings_iff.mp read
  have begunValid := begun.complete (by rw [startWall]; exact nofun) (by rw [startCpu]; exact nofun)
  obtain ⟨wall,cpu⟩ := begun.sound begunValid
  have scaledValid := scaled.complete _ _ begunValid scaleStart scaleEnd forward.scale
  have sharpenedValid := sharpened.complete _ _ scaledValid usmStart usmEnd forward.usm
  obtain ⟨w,readWall,timeWall⟩ | ⟨_,untimed⟩ := clock_cases c.endWall
  · obtain ⟨p,readCpu,timeCpu⟩ | ⟨_,untimed⟩ := clock_cases c.endCpu
    · refine ended.complete w p sharpenedValid readWall readCpu ?_ ?_
      · have start := Option.some.inj (wall.symm.trans startWall)
        have last := Option.some.inj (timeWall.symm.trans endWall)
        rw [sharpened.starts.1,scaled.starts.1,UInt64.le_iff_toNat_le,start,last]
        exact forward.wall
      · have start := Option.some.inj (cpu.symm.trans startCpu)
        have last := Option.some.inj (timeCpu.symm.trans endCpu)
        rw [sharpened.starts.2,scaled.starts.2,UInt64.le_iff_toNat_le,start,last]
        exact forward.cpu
    · exact absurd (untimed.symm.trans endCpu) nofun
  · exact absurd (untimed.symm.trans endWall) nofun

/-! ## The counters -/

/-- The counters and the samples of the frames since the last report. -/
structure Tally (m : Metrics R) (window : List Verdict) : Prop where
  attempts : m.attempts.toNat = window.length
  failed : m.failed.toNat = window.count .failed
  used : m.used.toNat = (stored window).length
  invalid : window.count .invalid ≤ m.invalid.toNat ∧ m.invalid.toNat ≤ window.count .invalid + window.count .failed
  samples : ∀ field, field < metricsFields → m.values field = (stored window).map fun r => r.sample field

variable {window : List Verdict} {c : Clocks}

theorem tally_reset (m : Metrics R) : Tally (reset m) [] := ⟨rfl,rfl,rfl,⟨le_refl 0,le_refl 0⟩,fun _ _ => rfl⟩

theorem tally_cleared : Tally (cleared : Metrics R) [] := ⟨rfl,rfl,rfl,⟨le_refl 0,le_refl 0⟩,fun _ _ => rfl⟩

theorem tally_same (tally : Tally m window) (same : SameWindow m n) : Tally n window := by
  obtain ⟨samples,attempts,failed,invalid,used⟩ := same
  refine ⟨?_,?_,?_,?_,fun field inside => ?_⟩
  · rw [attempts,tally.attempts]
  · rw [failed,tally.failed]
  · rw [used,tally.used]
  · rw [invalid]
    exact tally.invalid
  · rw [← tally.samples field inside,Metrics.values,Metrics.values,samples,used]

/-- In a window with room no counter is near its limit. -/
theorem tally_small (tally : Tally m window) (room : window.length < metricsWindow) : m.attempts.toNat < 256 ∧
    m.used.toNat < 256 ∧ m.failed.toNat < 256 ∧ m.invalid.toNat < 256 := by
  have once := length_verdicts window
  have spoiled := tally.invalid
  rw [tally.used,tally.failed,tally.attempts]
  rw [metricsWindow] at room
  omega

theorem succ_toNat {k : UInt32} (small : k.toNat < 256) : (k + 1).toNat = k.toNat + 1 := by
  rw [UInt32.toNat_add]
  show (k.toNat + 1) % 4294967296 = k.toNat + 1
  omega

theorem endOf_failed (m : Metrics R) (wall cpu : Option Timespec) :
    ∃ e invalid, Ended m e wall cpu ∧ (invalid = e.invalid ∨ invalid = e.invalid + 1) ∧ (endOf m false wall cpu).1 =
      { e with attempts := e.attempts + 1, failed := e.failed + 1, invalid := invalid } := by
  refine ⟨_,if (endRecord m wall cpu).valid = false then (endRecord m wall cpu).invalid + 1 else (endRecord m wall cpu).invalid,
    endRecord_spec m wall cpu,?_,?_⟩
  · split_ifs
    · exact .inr rfl
    · exact .inl rfl
  · simp only [endOf,if_true,Bool.false_eq_true,if_false]
    split_ifs <;> rfl

/-- One more verdict, if every counter grows by its share of it. -/
theorem tally_push (tally : Tally m window) {v : Verdict} (attempts : n.attempts.toNat = m.attempts.toNat + 1)
    (failed : n.failed.toNat = m.failed.toNat + [v].count .failed) (used : n.used.toNat = m.used.toNat + (stored [v]).length)
    (invalid : m.invalid.toNat + [v].count .invalid ≤ n.invalid.toNat ∧
      n.invalid.toNat ≤ m.invalid.toNat + ([v].count .invalid + [v].count .failed))
    (values : ∀ field, field < metricsFields → n.values field = m.values field ++ (stored [v]).map fun r => r.sample field) :
    Tally n (window ++ [v]) := by
  obtain ⟨low,high⟩ := tally.invalid
  constructor
  · rw [attempts,tally.attempts,List.length_append,List.length_singleton]
  · rw [failed,tally.failed,List.count_append]
  · rw [used,tally.used,stored_append,List.length_append]
  · rw [List.count_append,List.count_append]
    omega
  · intro field inside
    rw [values field inside,tally.samples field inside,stored_append,List.map_append]

/-- A frame that failed. -/
theorem tally_failed (tally : Tally m window) (room : window.length < metricsWindow) (wall cpu : Option Timespec) :
    Tally (endOf m false wall cpu).1 (window ++ [.failed]) := by
  obtain ⟨e,invalid,ended,counted,value⟩ := endOf_failed m wall cpu
  have before := tally_same tally ended.window
  obtain ⟨attempts,_,failed,spoiled⟩ := tally_small before room
  rw [value]
  refine tally_push before (succ_toNat attempts) (succ_toNat failed) rfl ?_ fun field _ => (List.append_nil _).symm
  show e.invalid.toNat + 0 ≤ invalid.toNat ∧ invalid.toNat ≤ e.invalid.toNat + (0 + 1)
  obtain rfl | rfl := counted
  · omega
  · rw [succ_toNat spoiled]
    omega

/-- A frame that gave output without a valid record. -/
theorem tally_invalid (tally : Tally m window) (room : window.length < metricsWindow) {wall cpu : Option Timespec}
    (invalid : (endRecord m wall cpu).valid = false) : Tally (endOf m true wall cpu).1 (window ++ [.invalid]) := by
  have value : (endOf m true wall cpu).1 = { endRecord m wall cpu with
      attempts := (endRecord m wall cpu).attempts + 1, invalid := (endRecord m wall cpu).invalid + 1 } := by
    simp only [endOf,Bool.true_eq_false,if_false,if_true,invalid,store,true_or]
  have before := tally_same tally (endRecord_spec m wall cpu).window
  rw [value]
  generalize endRecord m wall cpu = e at before
  obtain ⟨attempts,_,_,spoiled⟩ := tally_small before room
  refine tally_push before (succ_toNat attempts) rfl rfl ?_ fun field _ => (List.append_nil _).symm
  show e.invalid.toNat + 1 ≤ (e.invalid + 1).toNat ∧ (e.invalid + 1).toNat ≤ e.invalid.toNat + (1 + 0)
  rw [succ_toNat spoiled]
  omega

/-! ## Storing a sample -/

theorem setSample_apply (samples : Nat → Nat → R) (field index : Nat) (value : R) (f i : Nat) :
    setSample samples field index value f i = if f = field ∧ i = index then value else samples f i := by
  rw [setSample]
  by_cases own : f = field
  · rw [own,Function.update_self]
    by_cases same : i = index
    · rw [same,Function.update_self,if_pos ⟨rfl,rfl⟩]
    · rw [Function.update_of_ne same,if_neg fun ⟨_,other⟩ => same other]
  · rw [Function.update_of_ne own,if_neg fun ⟨other,_⟩ => own other]

/-- One more sample. -/
structure Stored (m n : Metrics R) (sample : Nat → R) : Prop where
  attempts : n.attempts = m.attempts
  failed : n.failed = m.failed
  invalid : n.invalid = m.invalid
  used : n.used = m.used + 1
  samples : ∀ field, field < metricsFields → ∀ index,
    n.samples field index = if index = m.used.toNat then sample field else m.samples field index

/-- `up_metrics_store` writes every field of the sample. -/
theorem store_stored (valid : m.valid = true) (room : ¬ m.used ≥ 256) {w p : UInt64} {sample : Nat → R}
    (scale : m.stageUs 0 = sample metricsScale) (usm : m.stageUs 1 = sample metricsUsm)
    (wall : micros m.startWall w = sample metricsTotal) (cpu : micros m.startCpu p = sample metricsCpu) :
    Stored m (store m w p) sample := by
  have taken : ¬ (m.valid = false ∨ m.used ≥ 256) := by
    simp only [valid,Bool.true_eq_false,false_or]
    exact room
  rw [store,if_neg taken]
  refine ⟨rfl,rfl,rfl,rfl,fun field inside index => ?_⟩
  simp only [setSample_apply,scale,usm,wall,cpu]
  by_cases last : index = m.used.toNat
  · simp only [last,and_true,if_true]
    have which : field = metricsScale ∨ field = metricsUsm ∨ field = metricsTotal ∨ field = metricsCpu := by
      simp only [metricsFields,metricsScale,metricsUsm,metricsTotal,metricsCpu] at inside ⊢
      omega
    obtain rfl | rfl | rfl | rfl := which <;> rfl
  · simp only [last,and_false,if_false]

theorem stored_values {sample : Nat → R} (one : Stored m n sample) (small : m.used.toNat < 256) {field : Nat}
    (inside : field < metricsFields) : n.values field = m.values field ++ [sample field] := by
  rw [Metrics.values,one.used,succ_toNat small,List.range_succ,List.map_append,List.map_singleton,
    one.samples field inside,if_pos rfl,Metrics.values]
  congr 1
  refine List.map_congr_left fun index member => ?_
  rw [one.samples field inside,if_neg (List.mem_range.mp member).ne]

/-- A frame that gave output with a valid record. -/
theorem tally_stored (tally : Tally m window) (room : window.length < metricsWindow) {wall cpu : Option Timespec} {r : Readings}
    (valid : (endRecord m wall cpu).valid = true) (scale : (endRecord m wall cpu).stageUs 0 = r.sample metricsScale)
    (usm : (endRecord m wall cpu).stageUs 1 = r.sample metricsUsm)
    (total : micros (endRecord m wall cpu).startWall ((clock wall).getD 0) = (r.sample metricsTotal : R))
    (process : micros (endRecord m wall cpu).startCpu ((clock cpu).getD 0) = (r.sample metricsCpu : R)) :
    Tally (endOf m true wall cpu).1 (window ++ [.stored r]) := by
  have value : (endOf m true wall cpu).1 = store { endRecord m wall cpu with attempts := (endRecord m wall cpu).attempts + 1 }
      ((clock wall).getD 0) ((clock cpu).getD 0) := by
    simp only [endOf,Bool.true_eq_false,if_false,if_true,valid]
  have before := tally_same tally (endRecord_spec m wall cpu).window
  rw [value]
  generalize endRecord m wall cpu = e at *
  obtain ⟨attempts,used,_,_⟩ := tally_small before room
  have open_ : ¬ e.used ≥ 256 := by
    rw [ge_iff_le,UInt32.le_iff_toNat_le]
    exact not_le.mpr used
  have one := store_stored (m := { e with attempts := e.attempts + 1 }) valid open_ scale usm total process
  generalize store { e with attempts := e.attempts + 1 } ((clock wall).getD 0) ((clock cpu).getD 0) = n at one
  refine tally_push before ?_ (congrArg UInt32.toNat one.failed) ?_ ?_ fun field inside => stored_values one used inside
  · rw [one.attempts,succ_toNat attempts]
  · rw [one.used,succ_toNat used]
    rfl
  · rw [one.invalid]
    exact ⟨le_refl _,le_refl _⟩

/-! ## Frames -/

variable {x y : Metered R}

/-- What a frame makes of its metrics, which begin as `m`: it may end before a stage. -/
inductive Path (m : Metrics R) (c : Clocks) : Metrics R → Option Nat → Prop
  | dropped : Path m c m none
  | unscaled : Path m c (timed m metricsScale c.scaleStart c.scaleEnd) none
  | scaled (output : Option Nat) :
      Path m c (timed (timed m metricsScale c.scaleStart c.scaleEnd) metricsUsm c.usmStart c.usmEnd) output

/-- What a part of a frame leaves of the metrics, and that nothing is reported. -/
structure Framed (reports : List (Report R)) (m : Metrics R) (c : Clocks) (out : Metered R × Option Nat) : Prop where
  path : ∃ n, out.1.metrics = some n ∧ Path m c n out.2
  reports : out.1.reports = reports

variable {reports : List (Report R)}

theorem finishScaledFrame_framed (found : x.metrics = some (timed m metricsScale c.scaleStart c.scaleEnd))
    (told : x.reports = reports) (src dst : Nat) (pic : Picture) (o : UsmAdaptive.Outcome) :
    Framed reports m c (finishScaledFrame x src dst pic o c) := by
  simp only [finishScaledFrame,found,mark]
  split_ifs
  · exact ⟨⟨_,rfl,.scaled none⟩,told⟩
  · exact ⟨⟨_,rfl,.scaled (some dst)⟩,told⟩

theorem scaleFrame_framed (found : x.metrics = some m) (told : x.reports = reports) (b : Backend) (src dst : Nat) (pic : Picture)
    (o : Outcome) : Framed reports m c (scaleFrame x b src dst pic o c) := by
  simp only [scaleFrame,found,mark]
  by_cases bad : o.status ≠ .ok
  · rw [if_pos bad]
    exact ⟨⟨_,rfl,.unscaled⟩,told⟩
  · rw [if_neg bad]
    exact finishScaledFrame_framed (by rfl) (by exact told) src dst pic o.usm

theorem filterFrame_framed (found : x.metrics = some m) (told : x.reports = reports) (src : Nat) (input : Picture) (o : Outcome) :
    Framed reports m c (filterFrame x src input o c) := by
  simp only [filterFrame]
  cases x.sys.backend with
  | none => exact ⟨⟨m,found,.dropped⟩,told⟩
  | some b =>
    cases o.newPicture with
    | none => exact ⟨⟨m,found,.dropped⟩,told⟩
    | some pic => exact scaleFrame_framed (by exact found) (by exact told) b src _ pic o

/-! The frames are those of the filter without metrics. -/

theorem finishScaledFrame_sys (x : Metered R) (src dst : Nat) (pic : Picture) (o : UsmAdaptive.Outcome) (c : Clocks) :
    (finishScaledFrame x src dst pic o c).1.sys = (Filter.finishScaledFrame x.sys src dst pic o).1 ∧
    (finishScaledFrame x src dst pic o c).2 = (Filter.finishScaledFrame x.sys src dst pic o).2 := by
  simp only [finishScaledFrame,Filter.finishScaledFrame]
  split_ifs <;> exact ⟨rfl,rfl⟩

theorem scaleFrame_sys (x : Metered R) (b : Backend) (src dst : Nat) (pic : Picture) (o : Outcome) (c : Clocks) :
    (scaleFrame x b src dst pic o c).1.sys = (Filter.scaleFrame x.sys b src dst pic o).1 ∧
    (scaleFrame x b src dst pic o c).2 = (Filter.scaleFrame x.sys b src dst pic o).2 := by
  simp only [scaleFrame,Filter.scaleFrame]
  by_cases bad : o.status ≠ .ok
  · rw [if_pos bad,if_pos bad]
    exact ⟨rfl,rfl⟩
  · rw [if_neg bad,if_neg bad]
    exact finishScaledFrame_sys _ src dst pic o.usm c

theorem filterFrame_sys (x : Metered R) (src : Nat) (input : Picture) (o : Outcome) (c : Clocks) :
    (filterFrame x src input o c).1.sys = (Filter.filterFrame x.sys src input o).1 ∧
    (filterFrame x src input o c).2 = (Filter.filterFrame x.sys src input o).2 := by
  simp only [filterFrame,Filter.filterFrame]
  cases x.sys.backend with
  | none => exact ⟨rfl,rfl⟩
  | some b =>
    cases o.newPicture with
    | none => exact ⟨rfl,rfl⟩
    | some pic => exact scaleFrame_sys _ b src _ pic o c

theorem reportMetrics_sys (x : Metered R) : (reportMetrics x).sys = x.sys := by
  simp only [reportMetrics]
  cases x.metrics with
  | none => rfl
  | some m =>
    simp only
    split_ifs <;> rfl

theorem meteredFrame_sys (x : Metered R) (picture : Picture) (o : Outcome) (c : Clocks) :
    (meteredFrame x picture o c).1.sys = (Filter.filter x.sys (some picture) o).1 ∧
    (meteredFrame x picture o c).2.1 = (Filter.filter x.sys (some picture) o).2 :=
  filterFrame_sys _ x.sys.nextPicture picture o c

/-- The metrics change nothing of what the filter does. -/
theorem filter_sys (x : Metered R) (input : Option Picture) (o : Outcome) (c : Clocks) :
    (filter x input o c).1.sys = (Filter.filter x.sys input o).1 ∧ (filter x input o c).2 = (Filter.filter x.sys input o).2 := by
  cases input with
  | none => exact ⟨rfl,rfl⟩
  | some picture =>
    obtain ⟨sys,output⟩ := meteredFrame_sys x picture o c
    simp only [filter]
    refine ⟨?_,output⟩
    split_ifs
    · rw [reportMetrics_sys]
      exact sys
    · exact sys

/-! ## The end of a frame -/

theorem path_window {begun : Metrics R} {output : Option Nat} (same : SameWindow m begun) (path : Path begun c n output) :
    SameWindow m n := by
  have scaled : Timed begun _ metricsScale c.scaleStart c.scaleEnd := timed_spec (by decide) begun c.scaleStart c.scaleEnd
  cases path with
  | dropped => exact same
  | unscaled => exact same.trans scaled.window
  | scaled output =>
    have sharpened : Timed _ _ metricsUsm c.usmStart c.usmEnd :=
      timed_spec (by decide) (timed begun metricsScale c.scaleStart c.scaleEnd) c.usmStart c.usmEnd
    exact same.trans (scaled.window.trans sharpened.window)

/-- A frame that gave output is stored exactly if its record is valid. -/
theorem verdict_record (m : Metrics R) (c : Clocks) :
    (∃ r, (record m c).valid = true ∧ verdict true c = .stored r ∧ Measured (record m c) c r) ∨
    (record m c).valid = false ∧ verdict true c = .invalid := by
  cases valid : (record m c).valid with
  | true =>
    obtain ⟨r,read,forward,measured⟩ := record_sound valid
    exact .inl ⟨r,rfl,verdict_stored.mpr ⟨rfl,read,forward⟩,measured⟩
  | false =>
    refine .inr ⟨rfl,?_⟩
    simp only [verdict,Bool.true_eq_false,if_false]
    cases read : readings c with
    | none => rfl
    | some r =>
      refine if_neg fun forward => ?_
      exact absurd (valid.symm.trans (record_complete read forward)) (by decide)

/-- The end of a frame adds what comes of it. -/
theorem endOf_tally {output : Option Nat} (tally : Tally m window) (room : window.length < metricsWindow)
    (path : Path (beginOf m c.startWall c.startCpu) c n output) :
    Tally (endOf n output.isSome c.endWall c.endCpu).1 (window ++ [verdict output.isSome c]) := by
  have before := tally_same tally (path_window (beginOf_spec m c.startWall c.startCpu).window path)
  cases output with
  | none => exact tally_failed before room c.endWall c.endCpu
  | some number =>
    cases path with
    | scaled =>
      rw [Option.isSome_some]
      obtain ⟨r,valid,kept,measured⟩ | ⟨invalid,spoiled⟩ := verdict_record m c
      · rw [kept]
        exact tally_stored before room valid measured.scale measured.usm measured.wall measured.cpu
      · rw [spoiled]
        exact tally_invalid before room invalid

/-- A frame before the report; the window is full at the last frame. -/
theorem meteredFrame_tally (found : x.metrics = some m) (tally : Tally m window) (room : window.length < metricsWindow)
    (picture : Picture) (o : Outcome) (c : Clocks) : ∃ n, (meteredFrame x picture o c).1.metrics = some n ∧
      Tally n (window ++ [verdict (meteredFrame x picture o c).2.1.isSome c]) ∧
      (meteredFrame x picture o c).1.reports = x.reports ∧
      ((meteredFrame x picture o c).2.2 = true ↔ window.length + 1 = metricsWindow) := by
  simp only [meteredFrame,found,begin,Option.map_some]
  generalize started : ({ x with
    sys := { x.sys.emit (.input x.sys.nextPicture) with nextPicture := x.sys.nextPicture + 1 }
    metrics := some (beginOf m c.startWall c.startCpu) } : Metered R) = y
  have told : y.reports = x.reports := by rw [← started]
  obtain ⟨⟨n,after,path⟩,reports⟩ := filterFrame_framed (c := c) (by rw [← started]) told x.sys.nextPicture picture o
  generalize filterFrame y x.sys.nextPicture picture o c = out at after path reports
  have counted := endOf_tally tally room path
  simp only [after,finish]
  refine ⟨_,rfl,counted,reports,?_⟩
  have last : (endOf n out.2.isSome c.endWall c.endCpu).2 =
      decide ((endOf n out.2.isSome c.endWall c.endCpu).1.attempts ≥ 256) := rfl
  have attempts := counted.attempts
  rw [List.length_append,List.length_singleton] at attempts
  rw [last,decide_eq_true_eq,ge_iff_le,UInt32.le_iff_toNat_le,attempts]
  rw [metricsWindow] at room ⊢
  show 256 ≤ window.length + 1 ↔ _
  omega

/-! ## Reports -/

/-- What is told of a window. -/
structure Reported (r : Report R) (window : List Verdict) : Prop where
  attempts : r.attempts.toNat = window.length
  used : r.used.toNat = (stored window).length
  failed : r.failed.toNat = window.count .failed
  invalid : window.count .invalid ≤ r.invalid.toNat ∧ r.invalid.toNat ≤ window.count .invalid + window.count .failed
  scores : r.scores = if stored window = [] then []
    else (List.range metricsFields).map fun field => (Tuner.score ((stored window).map fun r => r.sample field)).1

/-- Scoring a field leaves the others. -/
theorem score_values (m : Metrics R) {field other : Nat} (apart : other ≠ field) :
    (score m field).1.values other = m.values other ∧ (score m field).1.used = m.used := by
  rw [score]
  split_ifs
  · exact ⟨rfl,rfl⟩
  · refine ⟨?_,rfl⟩
    simp only [Metrics.values,Function.update_of_ne apart]

theorem scoreFields_scores (left field : Nat) (bound : field + left = metricsFields) (m : Metrics R) (some_ : m.used ≠ 0) :
    (scoreFields m left field).2 = (List.range' field left).map fun f => (Tuner.score (m.values f)).1 := by
  induction left generalizing field m with
  | zero => rfl
  | succ left ih =>
    have inside : ¬ (m.used = 0 ∨ field ≥ metricsFields) := by
      rintro (none | beyond)
      · exact some_ none
      · omega
    have first : (score m field).2 = (Tuner.score (m.values field)).1 := by
      rw [score,if_neg inside]
    have used : (score m field).1.used = m.used := (score_values m (Nat.succ_ne_self field)).2
    simp only [scoreFields]
    rw [ih (field + 1) (by omega) _ (by rw [used]; exact some_),first,List.range'_succ,List.map_cons]
    congr 1
    refine List.map_congr_left fun other member => ?_
    have later := (List.mem_range'_1.mp member).1
    rw [(score_values m (by omega : other ≠ field)).1]

theorem tally_reported (tally : Tally m window) {scores : List (Score R)}
    (scored : scores = if stored window = [] then []
      else (List.range metricsFields).map fun field => (Tuner.score ((stored window).map fun r => r.sample field)).1) :
    Reported ⟨m.attempts,m.used,m.failed,m.invalid,scores⟩ window :=
  ⟨tally.attempts,tally.used,tally.failed,tally.invalid,scored⟩

/-- A report of a window that is not empty tells of it, and a new one starts. -/
theorem reportMetrics_tally (found : x.metrics = some m) (tally : Tally m window) (filled : window ≠ []) :
    ∃ n r, (reportMetrics x).metrics = some (reset n) ∧ (reportMetrics x).reports = x.reports ++ [r] ∧ Reported r window := by
  have some_ : m.attempts ≠ 0 := by
    intro none
    have length := tally.attempts
    rw [none] at length
    exact filled (List.eq_nil_of_length_eq_zero length.symm)
  simp only [reportMetrics,found]
  rw [if_neg some_]
  by_cases empty : m.used = 0
  · rw [if_pos empty]
    refine ⟨_,_,rfl,rfl,tally_reported tally ?_⟩
    have length := tally.used
    rw [empty] at length
    rw [if_pos (List.eq_nil_of_length_eq_zero length.symm)]
  · rw [if_neg empty]
    refine ⟨_,_,rfl,rfl,tally_reported tally ?_⟩
    have sampled : stored window ≠ [] := by
      intro none
      have length := tally.used
      rw [none] at length
      exact empty (UInt32.toNat_inj.mp length)
    rw [if_neg sampled,scoreFields_scores metricsFields 0 (Nat.zero_add _) m empty,List.range_eq_range']
    refine List.map_congr_left fun field member => ?_
    rw [tally.samples field (by simpa using (List.mem_range'_1.mp member).2)]

/-! ## Runs -/

/-- What comes of the frames of a run, which the filter without metrics says. -/
def verdicts (s : Sys R) : List Call → List Verdict
  | [] => []
  | call :: rest =>
    match call.input with
    | none => verdicts s rest
    | some picture =>
      let (t,output) := Filter.filter s (some picture) call.outcome
      verdict output.isSome call.clocks :: verdicts t rest

/-- The books after frames that have come to `told`. -/
structure Books (x : Metered R) (told : List Verdict) : Prop where
  current : ∃ m, x.metrics = some m ∧ Tally m (windows metricsWindow told).current
  complete : List.Forall₂ Reported x.reports (windows metricsWindow told).complete

variable {told : List Verdict}

theorem opened_books (s : Sys R) : Books (opened s) [] := ⟨⟨cleared,rfl,tally_cleared⟩,.nil⟩

theorem filter_books (books : Books x told) (picture : Picture) (o : Outcome) (c : Clocks) :
    Books (filter x (some picture) o c).1 (told ++ [verdict (filter x (some picture) o c).2.isSome c]) := by
  obtain ⟨⟨m,found,tally⟩,complete⟩ := books
  have room := windows_current (by decide : 0 < metricsWindow) told
  obtain ⟨n,after,counted,reports,full⟩ := meteredFrame_tally found tally room picture o c
  simp only [filter]
  generalize meteredFrame x picture o c = out at after counted reports full ⊢
  by_cases last : out.2.2 = true
  · have whole := full.mp last
    obtain ⟨scored,r,fresh,told',reported⟩ := reportMetrics_tally after counted (by simp)
    rw [if_pos last]
    refine ⟨?_,?_⟩
    · rw [windows_snoc,push,if_neg (by omega)]
      exact ⟨reset scored,fresh,tally_reset scored⟩
    · rw [windows_snoc,push,if_neg (by omega),told',reports]
      exact List.rel_append complete (.cons reported .nil)
  · have short : (windows metricsWindow told).current.length + 1 < metricsWindow := by
      have other : (windows metricsWindow told).current.length + 1 ≠ metricsWindow := fun whole => last (full.mpr whole)
      omega
    rw [if_neg last]
    refine ⟨?_,?_⟩
    · rw [windows_snoc,push,if_pos short]
      exact ⟨n,after,counted⟩
    · rw [windows_snoc,push,if_pos short,reports]
      exact complete

theorem run_books {calls : List Call} (books : Books x told) (executed : run step x calls = some y) :
    Books y (told ++ verdicts x.sys calls) := by
  induction calls generalizing x told with
  | nil =>
    cases executed
    rw [verdicts,List.append_nil]
    exact books
  | cons call rest ih =>
    obtain ⟨next,stepped,tail⟩ := Runs.run_cons_iff.mp executed
    cases stepped
    rw [verdicts]
    cases input : call.input with
    | none =>
      rw [input] at tail
      exact ih books tail
    | some picture =>
      obtain ⟨sys,output⟩ := filter_sys x (some picture) call.outcome call.clocks
      have later := filter_books books picture call.outcome call.clocks
      rw [input] at tail
      simp only
      rw [← output,← sys,List.append_cons]
      exact ih later tail

/-! ## The accounts -/

/-- The accounts of a window: every frame was stored, failed, or gave output with an invalid
    record. -/
structure Accounts (m : Metrics R) (window : List Verdict) : Prop where
  once : m.attempts.toNat = m.used.toNat + m.failed.toNat + window.count .invalid
  used : m.used.toNat ≤ m.attempts.toNat
  few : m.attempts.toNat ≤ metricsWindow

theorem tally_accounts (tally : Tally m window) (room : window.length ≤ metricsWindow) : Accounts m window := by
  have once := length_verdicts window
  rw [← tally.attempts,← tally.used,← tally.failed] at once
  exact ⟨once,by omega,by rw [tally.attempts]; exact room⟩

/-- What one more frame does to the metrics `m`: they are `n` before the report and `k`
    after it. -/
structure OneMore (m n k : Metrics R) (output : Bool) (c : Clocks) : Prop where
  attempts : n.attempts.toNat = m.attempts.toNat + 1
  stored : n.used.toNat = m.used.toNat + 1 ↔ output = true ∧ ∃ r, readings c = some r ∧ r.Forward
  durations : ∀ r, output = true → readings c = some r → r.Forward →
    ∀ field, field < metricsFields → n.values field = m.values field ++ [r.sample field]
  others : n.used.toNat ≠ m.used.toNat + 1 → n.used = m.used ∧ ∀ field, field < metricsFields → n.values field = m.values field
  full : n.attempts.toNat = metricsWindow → k.attempts = 0 ∧ k.failed = 0 ∧ k.invalid = 0 ∧ k.used = 0
  short : n.attempts.toNat ≠ metricsWindow → k = n

/-- A verdict adds its readings, or nothing where it stores none. -/
theorem stored_cases (output : Bool) (c : Clocks) :
    (∃ r, output = true ∧ readings c = some r ∧ r.Forward ∧ stored [verdict output c] = [r]) ∨
    (¬ (output = true ∧ ∃ r, readings c = some r ∧ r.Forward)) ∧ stored [verdict output c] = [] := by
  cases told : verdict output c with
  | stored r =>
    obtain ⟨gave,read,forward⟩ := verdict_stored.mp told
    exact .inl ⟨r,gave,read,forward,rfl⟩
  | failed =>
    refine .inr ⟨fun ⟨gave,r,read,forward⟩ => ?_,rfl⟩
    exact absurd (told.symm.trans (verdict_stored.mpr ⟨gave,read,forward⟩)) nofun
  | invalid =>
    refine .inr ⟨fun ⟨gave,r,read,forward⟩ => ?_,rfl⟩
    exact absurd (told.symm.trans (verdict_stored.mpr ⟨gave,read,forward⟩)) nofun

theorem tally_oneMore {k : Metrics R} {output : Bool} (before : Tally m window)
    (after : Tally n (window ++ [verdict output c]))
    (full : n.attempts.toNat = metricsWindow → ∃ scored, k = reset scored) (short : n.attempts.toNat ≠ metricsWindow → k = n) :
    OneMore m n k output c := by
  have used := after.used
  have values := after.samples
  rw [stored_append] at used
  simp only [stored_append,List.map_append] at values
  have attempts : n.attempts.toNat = m.attempts.toNat + 1 := by
    rw [after.attempts,before.attempts,List.length_append,List.length_singleton]
  have reseted (whole : n.attempts.toNat = metricsWindow) : k.attempts = 0 ∧ k.failed = 0 ∧ k.invalid = 0 ∧ k.used = 0 := by
    obtain ⟨scored,rfl⟩ := full whole
    exact ⟨rfl,rfl,rfl,rfl⟩
  obtain ⟨r,gave,read,forward,one⟩ | ⟨unread,nothing⟩ := stored_cases output c
  · rw [one,List.length_append,List.length_singleton,← before.used] at used
    refine ⟨attempts,⟨fun _ => ⟨gave,r,read,forward⟩,fun _ => used⟩,fun s _ same _ field inside => ?_,absurd used,reseted,short⟩
    cases read.symm.trans same
    rw [values field inside,one,before.samples field inside,List.map_singleton]
  · rw [nothing,List.append_nil,← before.used] at used
    refine ⟨attempts,⟨fun more => by omega,fun kept => absurd kept unread⟩,
      fun r gave read forward => absurd ⟨gave,r,read,forward⟩ unread,fun _ => ⟨UInt32.toNat_inj.mp used,fun field inside => ?_⟩,
      reseted,short⟩
    rw [values field inside,nothing,before.samples field inside,List.map_nil,List.append_nil]

theorem filter_oneMore (found : x.metrics = some m) (tally : Tally m window) (room : window.length < metricsWindow)
    (picture : Picture) (o : Outcome) (c : Clocks) : ∃ n k, (meteredFrame x picture o c).1.metrics = some n ∧
      (filter x (some picture) o c).1.metrics = some k ∧
      Accounts n (window ++ [verdict (meteredFrame x picture o c).2.1.isSome c]) ∧
      OneMore m n k (meteredFrame x picture o c).2.1.isSome c := by
  obtain ⟨n,after,counted,_,full⟩ := meteredFrame_tally found tally room picture o c
  have accounts := tally_accounts counted (by rw [List.length_append,List.length_singleton]; omega)
  have attempts := counted.attempts
  rw [List.length_append,List.length_singleton] at attempts
  simp only [filter]
  by_cases last : (meteredFrame x picture o c).2.2 = true
  · obtain ⟨scored,_,fresh,_,_⟩ := reportMetrics_tally after counted (by simp)
    rw [if_pos last]
    refine ⟨n,reset scored,after,fresh,accounts,tally_oneMore tally counted (fun _ => ⟨scored,rfl⟩) fun other => ?_⟩
    exact absurd (attempts.trans (full.mp last)) other
  · rw [if_neg last]
    refine ⟨n,n,after,after,accounts,tally_oneMore tally counted (fun whole => ?_) fun _ => rfl⟩
    exact absurd (full.mpr (attempts.symm.trans whole)) last

/-- What is left at the end is reported. -/
theorem close_reported (found : x.metrics = some m) (tally : Tally m window) (filled : window ≠ []) :
    ∃ r, (close x).reports = x.reports ++ [r] ∧ Reported r window := by
  obtain ⟨_,r,_,reports,reported⟩ := reportMetrics_tally (x := { x with sys := Filter.close x.sys }) found tally filled
  exact ⟨r,reports,reported⟩

/-- What holds of a filter and its metrics between two frames, where the frames so far are
    cut into windows. -/
structure Accounted (x : Metered R) (cut : Cut Verdict) (m : Metrics R) : Prop where
  found : x.metrics = some m
  accounts : Accounts m cut.current
  tally : Tally m cut.current
  short : m.attempts.toNat < metricsWindow
  complete : List.Forall₂ Reported x.reports cut.complete
  next : ∀ picture o c, ∃ n k, (meteredFrame x picture o c).1.metrics = some n ∧
    (filter x (some picture) o c).1.metrics = some k ∧
    Accounts n (cut.current ++ [verdict (meteredFrame x picture o c).2.1.isSome c]) ∧
    OneMore m n k (meteredFrame x picture o c).2.1.isSome c
  rest : cut.current ≠ [] → ∃ r, (close x).reports = x.reports ++ [r] ∧ Reported r cut.current

/-- The accounts of the metrics over every run of frames, whatever they come to and
    whatever the clocks answer. The times are read without a wrap. The frames are cut into
    windows of 256; the counters and the samples are those of the current window, and the
    others were reported. One more frame is counted once, stored exactly if it gave output
    with readings that all succeeded and do not go backwards, with exact durations, and
    starts a new window where it is the last of its own. -/
theorem metrics_accounting {s : Sys R} {calls : List Call} (executed : run step (opened s) calls = some x) :
    (∀ answer, (clock answer).map UInt64.toNat = nanos answer) ∧
    (windows metricsWindow (verdicts s calls)).complete.flatten ++ (windows metricsWindow (verdicts s calls)).current =
      verdicts s calls ∧
    (∀ w ∈ (windows metricsWindow (verdicts s calls)).complete, w.length = metricsWindow) ∧
    ∃ m, Accounted x (windows metricsWindow (verdicts s calls)) m := by
  obtain ⟨⟨m,found,tally⟩,complete⟩ := run_books (opened_books s) executed
  rw [List.nil_append] at tally complete
  have positive : 0 < metricsWindow := by decide
  have room := windows_current positive (verdicts s calls)
  refine ⟨clock_nanos,windows_join _,windows_complete positive _,m,found,tally_accounts tally (le_of_lt room),tally,?_,complete,
    filter_oneMore found tally room,close_reported found tally⟩
  rw [tally.attempts]
  exact room

/-- swscale is in use, and nothing is sharpened. -/
def scaling : Sys ℚ :=
  let chroma := Chroma.fourcc 'I' '4' '2' '0'
  { Filter.configured ⟨⟨32,32,32,32,0,0,64,64,chroma,0,1,1⟩,Filter.backendAuto,fun _ => true,0,UsmAdaptive.init 2 4 64 64 0,
      false,false,0⟩ with backend := some .swscale }

/-- A frame whose scaling takes 5 microseconds, where the process clock answers `cpu` at
    the end. -/
def scaledFrame (status : Filter.ProcessStatus) (cpu : Option Timespec) : Call :=
  let picture (side : Nat) : Picture := ⟨Chroma.fourcc 'I' '4' '2' '0',side,side,side,side,3,fun _ => ⟨4096,64,64,1⟩⟩
  let at_ (nsec : Int64) : Option Timespec := some ⟨1,nsec⟩
  ⟨some (picture 32),⟨fun _ => 0,some (picture 64),none,status,true,⟨true,.ok,.ok,2,none,none⟩⟩,
    ⟨at_ 0,at_ 0,at_ 1000,at_ 6000,at_ 6000,at_ 6000,at_ 7000,cpu⟩⟩

/-- A frame that is stored, one that fails, and one whose process clock goes backwards. -/
def threeFrames : List Call :=
  [scaledFrame .ok (some ⟨1,9000⟩),scaledFrame .transient (some ⟨1,9000⟩),scaledFrame .ok (some ⟨0,9000⟩)]

/-- Each of them is counted, and one is stored. -/
theorem metrics_accounting_three : ∃ x, ∃ m : Metrics ℚ, run step (opened scaling) threeFrames = some x ∧
    Accounts m (windows metricsWindow (verdicts scaling threeFrames)).current ∧ m.attempts = 3 ∧ m.used = 1 ∧ m.failed = 1 ∧
    [metricsScale,metricsUsm,metricsTotal,metricsCpu].map m.values = [[5],[0],[7],[9]] := by
  have computed : ((run step (opened scaling) threeFrames).bind Metered.metrics).map (fun m =>
      (m.attempts,m.used,m.failed,[metricsScale,metricsUsm,metricsTotal,metricsCpu].map m.values)) =
      some (3,1,1,[[5],[0],[7],[9]]) := by decide +kernel
  obtain ⟨n,found,shown⟩ := Option.map_eq_some_iff.mp computed
  obtain ⟨x,executed,metrics⟩ := Option.bind_eq_some_iff.mp found
  obtain ⟨_,_,_,m,accounted⟩ := metrics_accounting executed
  cases accounted.found.symm.trans metrics
  simp only [Prod.mk.injEq] at shown
  obtain ⟨attempts,used,failed,values⟩ := shown
  exact ⟨x,n,executed,accounted.accounts,attempts,used,failed,values⟩

end AutoUpscale.PipelineMetrics
