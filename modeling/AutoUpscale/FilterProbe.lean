import AutoUpscale.FilterPools
import AutoUpscale.PictureViewBounds
import AutoUpscale.ProbeBounds

/-!
The content probe over a run of the filter. By itself the probe takes the metrics of
one frame after another and closes with the last frame of the window (`Probe.observe`);
the filter does the same to the frames of which it has a view while a backend is in use
(`filter_probe`). What the probe has come to depends on the frames that it observed, not
on their order (`run_window`, `after_perm`). The life of the probe is put together in
`probe_lifecycle`.
-/
namespace AutoUpscale.Filter
open AutoUpscale.ContentProbe
open AutoUpscale.PictureView (Picture View viewInit)
open AutoUpscale.Runs (run run_cons_iff reachable_preserves)
open AutoUpscale.Tuner (Double)
open AutoUpscale.UpscaleLogic (maxDim planUpscale)
open AutoUpscale.UsmAdaptive (creates destroys)
open AutoUpscale.ZimgProcess (ScalerCtx srcRegion)
set_option linter.unusedSectionVars false
universe u
variable {R : Type u} [Double R] {s t : Sys R}

/-! ## The probe by itself -/

/-- The part of the filter that concerns the probe. -/
structure Probe where
  ctx : ScalerCtx
  advice : Bool
  active : Bool
  logged : Bool
  accum : ProbeAccum
  threshold : Int
  skip : Bool
  messages : List ProbeMessage

def Sys.probe (s : Sys R) : Probe :=
  ⟨s.ctx,s.probeAdvice,s.probeActive,s.adviceLogged,s.accum,s.usmSharpThreshold,s.usmSkipSharp,s.messages⟩

/-- Sharpening is skipped for a source that is too sharp. -/
def Probe.gate (p : Probe) : Probe :=
  if shouldSkipUsmForSharpness p.accum p.threshold = true then
    { p with skip := true, messages := .textured (p.accum.lapSum / p.accum.lapSamples) p.threshold :: p.messages }
  else p

/-- The verdict is told; a division by no samples counts as 0. -/
def Probe.tell (p : Probe) : Probe :=
  let lapMean := p.accum.lapSum / p.accum.lapSamples
  let edgeMean := p.accum.edgeSum / p.accum.edgeSamples
  if shouldBypassForContent p.accum = true ∧ p.logged = false then
    { p with
      logged := true,
      messages := .advice lapMean edgeMean (decide (p.ctx.dstH > 720) && decide (p.ctx.srcH < 720)) :: p.messages }
  else { p with messages := .appropriate lapMean edgeMean :: p.messages }

/-- The end of the window. -/
def Probe.close (p : Probe) : Probe :=
  let p := Probe.gate { p with active := false }
  if p.advice then p.tell else p

/-- The metrics of one frame more. -/
def Probe.observe (p : Probe) (m : Metrics) : Probe :=
  let p := { p with accum := probeObserve p.accum m }
  if p.accum.frames < probeWindowFrames then p else p.close

/-! ## The filter observes as the probe does -/

/-- What the probe sees of the input of a call: nothing unless a backend is in use, the
    probe is active and there is a valid view. -/
def observes (s : Sys R) (c : Call) : Option LumaView :=
  if s.backend = none ∨ s.probeActive = false then none
  else c.input.bind fun picture => (viewInit picture s.ctx.chroma (srcRegion s.ctx)).map fun view =>
    ⟨c.outcome.luma,(view.plane.getD 0 ⟨0,0⟩).pitch⟩

/-- The frames that a run observes. -/
def observed (s : Sys R) : List Call → List LumaView
  | [] => []
  | c :: rest => (observes s c).toList ++ observed (filter s c.input c.outcome).1 rest

/-- The probe after it has seen something, or nothing. -/
def Probe.sees (p : Probe) : Option LumaView → Probe
  | none => p
  | some v => p.observe (metricsOf p.ctx.srcW p.ctx.srcH v)

theorem quotient_mean (sum n : UInt64) : (if none : n = 0 then 0 else mean sum n none) = sum / n := by
  split_ifs with none
  · rw [none,UInt64.div_zero]
  · rfl

@[simp] theorem emit_probe (s : Sys R) (e : Event) : (s.emit e).probe = s.probe := rfl

theorem logProbeVerdict_probe (s : Sys R) : (logProbeVerdict s).probe = s.probe.tell := by
  simp only [logProbeVerdict,quotient_mean]
  by_cases bypass : shouldBypassForContent s.accum = true ∧ s.adviceLogged = false
  · have told : s.probe.tell = _ := if_pos bypass
    rw [if_pos bypass,told]
    rfl
  · have told : s.probe.tell = _ := if_neg bypass
    rw [if_neg bypass,told]
    rfl

theorem gateSharpness_probe (s : Sys R) : (gateSharpness s).probe = s.probe.gate := by
  by_cases skip : shouldSkipUsmForSharpness s.accum s.usmSharpThreshold = true
  · have gated : s.probe.gate = _ := if_pos skip
    rw [gateSharpness,dif_pos skip,gated]
    rfl
  · have gated : s.probe.gate = _ := if_neg skip
    rw [gateSharpness,dif_neg skip,gated]

theorem closeProbe_probe (s : Sys R) : (closeProbe s).probe = s.probe.close := by
  have gated := gateSharpness_probe { s with probeActive := false }
  have ended : ({ s with probeActive := false } : Sys R).probe = { s.probe with active := false } := rfl
  have advice : (gateSharpness { s with probeActive := false }).probeAdvice =
      (Probe.gate { s.probe with active := false }).advice := congrArg Probe.advice (gated.trans (congrArg _ ended))
  simp only [closeProbe,Probe.close]
  rw [← advice]
  split_ifs
  · rw [logProbeVerdict_probe,gated,ended]
  · rw [gated,ended]

theorem runProbe_probe (s : Sys R) (pic : Picture) (luma : Int → UInt8) :
    (runProbe s pic luma).probe = s.probe.sees ((viewInit pic s.ctx.chroma (srcRegion s.ctx)).map fun view =>
      ⟨luma,(view.plane.getD 0 ⟨0,0⟩).pitch⟩) := by
  rw [runProbe]
  cases viewInit pic s.ctx.chroma (srcRegion s.ctx) with
  | none => rfl
  | some view =>
    simp only [Option.map_some,Probe.sees,Probe.observe]
    split_ifs with more full full
    · rfl
    · exact absurd more full
    · exact absurd full more
    · exact closeProbe_probe _

/-- A picture of which there is a view has planes. -/
theorem view_planes {pic : Picture} {chroma : Nat} {region : PictureView.Region} {view : View}
    (valid : viewInit pic chroma region = some view) : pic.planes ≥ 1 := by
  rw [viewInit] at valid
  split_ifs at valid
  split at valid
  · cases valid
  · rename_i layout found
    obtain ⟨known,enough⟩ := (PictureView.viewLayout_iff pic chroma layout).mp found
    have some : ∀ desc ∈ Chroma.descriptors, 1 ≤ desc.planeCount := by decide
    have one := some layout (Chroma.descriptor_mem known).1
    omega

/-! ## What else the filter does -/

theorem tryBackendFallback_probe (s : Sys R) (ok : Bool) : (tryBackendFallback s ok).probe = s.probe := by
  obtain ⟨_,_,_,_,_,same⟩ := tryBackendFallback_rest s ok
  rw [same]
  rfl

theorem applyUsmIfEnabled_probe (s : Sys R) (number : Nat) (pic : Picture) (o : UsmAdaptive.Outcome) :
    (applyUsmIfEnabled s number pic o).1.probe = s.probe := by
  simp only [applyUsmIfEnabled]
  split
  · rfl
  · split
    · rfl
    · simp only [runUsm]
      split_ifs <;> rfl

theorem finishScaledFrame_probe (s : Sys R) (src dst : Nat) (pic : Picture) (o : UsmAdaptive.Outcome) :
    (finishScaledFrame s src dst pic o).1.probe = s.probe := by
  simp only [finishScaledFrame]
  split_ifs
  · simp only [emit_probe,applyUsmIfEnabled_probe]
  · simp only [emit_probe,applyUsmIfEnabled_probe]

theorem scaleFrame_probe (s : Sys R) (b : Backend) (src dst : Nat) (pic : Picture) (o : Outcome) :
    (scaleFrame s b src dst pic o).1.probe = s.probe := by
  have begun : ({ s with usm := UsmAdaptive.begin s.usm o.clock } : Sys R).probe = s.probe := rfl
  simp only [scaleFrame]
  split_ifs
  · simp only [emit_probe,tryBackendFallback_probe,begun]
  · simp only [emit_probe,begun]
  · simp only [finishScaledFrame_probe,emit_probe,begun]

/-- The filter as it is when it asks for an output. -/
def probed (s : Sys R) (input : Picture) (o : Outcome) : Sys R :=
  if s.probeActive = true ∧ input.planes ≥ 1 then runProbe s input o.luma else s

theorem probed_probe (s : Sys R) (input : Picture) (o : Outcome) (live : s.backend ≠ none) :
    (probed s input o).probe = s.probe.sees (observes s ⟨some input,o⟩) := by
  simp only [probed,observes,Option.bind_some]
  by_cases active : s.probeActive = true
  · rw [if_neg (show ¬(s.backend = none ∨ s.probeActive = false) by simp [live,active]),← runProbe_probe]
    by_cases planes : input.planes ≥ 1
    · rw [if_pos ⟨active,planes⟩]
    · rw [if_neg (fun both => planes both.2),runProbe]
      cases valid : viewInit input s.ctx.chroma (srcRegion s.ctx) with
      | none => rfl
      | some view => exact absurd (view_planes valid) planes
  · rw [if_neg (fun both => active both.1),if_pos (.inr (by simpa using active))]
    rfl

theorem filterFrame_probe (s : Sys R) (src : Nat) (input : Picture) (o : Outcome) :
    (filterFrame s src input o).1.probe = s.probe.sees (observes s ⟨some input,o⟩) := by
  cases live : s.backend with
  | none =>
    simp only [filterFrame,live,observes,true_or,if_true]
    rfl
  | some b =>
    rw [← probed_probe s input o (by simp [live])]
    simp only [filterFrame,live]
    split
    · rfl
    · exact scaleFrame_probe _ b src _ _ o

/-- A call of the filter, as far as the probe is concerned. -/
theorem filter_probe (s : Sys R) (c : Call) : (filter s c.input c.outcome).1.probe = s.probe.sees (observes s c) := by
  obtain ⟨input,o⟩ := c
  cases input with
  | none =>
    simp only [observes,Option.bind_none]
    split_ifs <;> rfl
  | some picture =>
    exact filterFrame_probe { s.emit (.input s.nextPicture) with nextPicture := s.nextPicture + 1 } s.nextPicture picture o

/-! ## The window -/

/-- A probe that has not seen anything. -/
structure Fresh (p : Probe) : Prop where
  logged : p.logged = false
  accum : p.accum = accumOf []
  skip : p.skip = false
  messages : p.messages = []

/-- What a fresh probe has come to after some metrics. -/
def Probe.after (p : Probe) (ms : List Metrics) : Probe :=
  if ms.length < 60 then { p with accum := accumOf ms } else Probe.close { p with accum := accumOf ms }

/-- A probe that has seen the metrics, which are not more than a window. -/
structure Window (p : Probe) (ms : List Metrics) (q : Probe) : Prop where
  few : ms.length ≤ 60
  state : q = p.after ms

variable {p q : Probe} {ms ms' : List Metrics}

theorem after_perm (same : ms.Perm ms') : p.after ms = p.after ms' := by
  rw [Probe.after,Probe.after,accumOf_perm same,same.length_eq]

theorem fresh_window (fresh : Fresh p) : Window p [] p := by
  refine ⟨by simp,?_⟩
  rw [Probe.after,if_pos (by simp),← fresh.accum]

/-- The end of the window keeps all but the verdict. -/
theorem close_fields (p : Probe) : p.close.ctx = p.ctx ∧ p.close.accum = p.accum ∧ p.close.active = false := by
  have gated (p : Probe) : p.gate.ctx = p.ctx ∧ p.gate.accum = p.accum ∧ p.gate.active = p.active := by
    rw [Probe.gate]
    split_ifs <;> exact ⟨rfl,rfl,rfl⟩
  have told (p : Probe) : p.tell.ctx = p.ctx ∧ p.tell.accum = p.accum ∧ p.tell.active = p.active := by
    simp only [Probe.tell]
    split_ifs <;> exact ⟨rfl,rfl,rfl⟩
  obtain ⟨ctx,accum,active⟩ := gated { p with active := false }
  simp only [Probe.close]
  split_ifs
  · obtain ⟨ctx',accum',active'⟩ := told (Probe.gate { p with active := false })
    exact ⟨ctx'.trans ctx,accum'.trans accum,active'.trans active⟩
  · exact ⟨ctx,accum,active⟩

theorem after_fields (p : Probe) (ms : List Metrics) : (p.after ms).ctx = p.ctx ∧ (p.after ms).accum = accumOf ms ∧
    (p.after ms).active = (p.active && decide (ms.length < 60)) := by
  rw [Probe.after]
  split_ifs with more
  · exact ⟨rfl,rfl,by simp [more]⟩
  · obtain ⟨ctx,accum,active⟩ := close_fields { p with accum := accumOf ms }
    exact ⟨ctx,accum,by rw [active]; simp [more]⟩

/-- While the probe is active there is room for one frame more. -/
theorem observe_window (window : Window p ms q) (active : q.active = true) (m : Metrics) : Window p (ms ++ [m]) (q.observe m) := by
  obtain ⟨_,rfl⟩ := window
  obtain ⟨_,_,open_⟩ := after_fields p ms
  obtain ⟨_,more⟩ : p.active = true ∧ ms.length < 60 := by simpa [active] using open_.symm
  have frames : (accumOf (ms ++ [m])).frames = (ms.length : Int) + 1 := by simp [accumOf]
  have room : probeObserve (accumOf ms) m = accumOf (ms ++ [m]) := (accumOf_snoc ms m).symm
  refine ⟨by rw [List.length_append,List.length_singleton]; omega,?_⟩
  rw [Probe.after,if_pos more,Probe.observe,Probe.after]
  simp only [room,frames,probeWindowFrames,List.length_append,List.length_singleton]
  by_cases last : ms.length + 1 < 60
  · rw [if_pos (by omega),if_pos last]
  · rw [if_neg (by omega),if_neg last]

/-! ## Runs -/

/-- The metrics of frames, in the geometry of a probe. -/
def Probe.measures (p : Probe) (frames : List LumaView) : List Metrics := frames.map (metricsOf p.ctx.srcW p.ctx.srcH)

theorem step_window (window : Window p ms s.probe) (c : Call) :
    Window p (ms ++ p.measures (observes s c).toList) (filter s c.input c.outcome).1.probe := by
  rw [filter_probe]
  cases seen : observes s c with
  | none => simpa [Probe.measures,Probe.sees] using window
  | some v =>
    have active : s.probe.active = true := by
      by_contra closed
      have idle : s.probeActive = false := eq_false_of_ne_true closed
      rw [observes,if_pos (.inr idle)] at seen
      cases seen
    have ctx : s.probe.ctx = p.ctx := by
      rw [window.state]
      exact (after_fields p ms).1
    simp only [Probe.sees,Probe.measures,Option.toList_some,List.map_cons,List.map_nil,ctx]
    exact observe_window window active _

/-- What the probe has come to after a run. -/
theorem run_window {calls : List Call} (window : Window p ms s.probe) (executed : run step s calls = some t) :
    Window p (ms ++ p.measures (observed s calls)) t.probe := by
  induction calls generalizing s ms with
  | nil =>
    cases executed
    simpa [observed,Probe.measures] using window
  | cons c rest ih =>
    obtain ⟨next,first,tail⟩ := run_cons_iff.mp executed
    obtain rfl := Option.some.inj first
    have later := ih (step_window window c) tail
    simpa [observed,Probe.measures] using later

/-- A full window does not change any more. -/
theorem run_closed {calls : List Call} (window : Window p ms s.probe) (full : ms.length = 60)
    (executed : run step s calls = some t) : t.probe = s.probe := by
  obtain ⟨few,state⟩ := run_window window executed
  have nothing : p.measures (observed s calls) = [] := by
    rw [List.length_append,full] at few
    exact List.eq_nil_of_length_eq_zero (by omega)
  rw [state,nothing,List.append_nil,window.state]

/-! ## The verdict -/

/-- Whether a message advises against scaling. -/
def advises : ProbeMessage → Bool
  | .textured _ _ => false
  | .advice _ _ _ => true
  | .appropriate _ _ => false

/-- What a window has led to: each verdict is that of its sums, and the advice is given
    once. -/
structure Verdict (p : Probe) : Prop where
  skip : p.skip = true ↔ p.accum.frames = probeWindowFrames ∧ shouldSkipUsmForSharpness p.accum p.threshold = true
  logged : p.logged = true ↔ p.accum.frames = probeWindowFrames ∧ p.advice = true ∧ shouldBypassForContent p.accum = true
  once : (p.messages.filter advises).length ≤ 1

theorem samples_of_bypass {a : ProbeAccum} (bypass : shouldBypassForContent a = true) : a.lapSamples ≠ 0 ∧ a.edgeSamples ≠ 0 := by
  rw [shouldBypassForContent] at bypass
  split_ifs at bypass with few lap edge
  exact ⟨samples_of_many lap,samples_of_many edge⟩

theorem gate_verdict (skip : p.skip = false) (messages : p.messages = []) :
    ∃ told, p.gate = { p with skip := shouldSkipUsmForSharpness p.accum p.threshold, messages := told } ∧ told.filter advises = [] := by
  rw [Probe.gate]
  split_ifs with sharp
  · exact ⟨_,by rw [sharp],by rw [messages]; rfl⟩
  · exact ⟨[],by rw [eq_false_of_ne_true sharp,← skip,← messages],rfl⟩

theorem tell_verdict (logged : p.logged = false) (quiet : p.messages.filter advises = []) :
    p.tell.logged = shouldBypassForContent p.accum ∧ (p.tell.messages.filter advises).length ≤ 1 ∧
    p.tell.skip = p.skip ∧ p.tell.advice = p.advice ∧ p.tell.threshold = p.threshold ∧ p.tell.accum = p.accum := by
  simp only [Probe.tell]
  split_ifs with bypass
  · exact ⟨bypass.1.symm,by rw [List.filter_cons_of_pos rfl,quiet]; exact le_refl 1,rfl,rfl,rfl,rfl⟩
  · have appropriate : shouldBypassForContent p.accum = false := eq_false_of_ne_true fun bad => bypass ⟨bad,logged⟩
    refine ⟨logged.trans appropriate.symm,?_,rfl,rfl,rfl,rfl⟩
    rw [List.filter_cons_of_neg (by simp [advises]),quiet]
    exact Nat.zero_le 1

/-- The end of a window of a probe that has not said anything. -/
theorem close_verdict (logged : p.logged = false) (skip : p.skip = false) (messages : p.messages = [])
    (full : p.accum.frames = probeWindowFrames) : Verdict p.close := by
  obtain ⟨told,value,quiet⟩ := gate_verdict (p := { p with active := false }) skip messages
  simp only [Probe.close]
  rw [value]
  by_cases advice : p.advice = true
  · obtain ⟨sameLogged,once,sameSkip,sameAdvice,sameThreshold,sameAccum⟩ := tell_verdict (p := { p with
      active := false, skip := shouldSkipUsmForSharpness p.accum p.threshold, messages := told }) logged quiet
    rw [if_pos advice]
    refine ⟨?_,?_,once⟩
    · rw [sameSkip,sameThreshold,sameAccum]
      simp [full]
    · rw [sameLogged,sameAdvice,sameAccum]
      simp [full,advice]
  · rw [if_neg advice]
    exact ⟨by simp [full],by simp [logged,advice],by rw [quiet]; exact Nat.zero_le 1⟩

theorem after_verdict (fresh : Fresh p) (few : ms.length ≤ 60) : Verdict (p.after ms) := by
  obtain ⟨logged,_,skip,messages⟩ := fresh
  have frames : (accumOf ms).frames = (ms.length : Int) := rfl
  rw [Probe.after]
  split_ifs with more
  · have short : ¬(accumOf ms).frames = probeWindowFrames := by
      rw [frames,probeWindowFrames]
      omega
    exact ⟨by simp [skip,short],by simp [logged,short],by simp [messages]⟩
  · refine close_verdict logged skip messages ?_
    simp only [frames,probeWindowFrames]
    omega

/-! ## After the sharpness gate -/

theorem sees_skip (v : Option LumaView) (skip : p.skip = true) : (p.sees v).skip = true := by
  cases v with
  | none => exact skip
  | some v =>
    simp only [Probe.sees,Probe.observe,Probe.close,Probe.gate,Probe.tell]
    split_ifs <;> first | rfl | exact skip

theorem run_skip {calls : List Call} (skip : s.usmSkipSharp = true) (executed : run step s calls = some t) :
    t.usmSkipSharp = true := by
  refine reachable_preserves (P := fun s : Sys R => s.usmSkipSharp = true) (fun s c t skip stepped => ?_) skip ⟨calls,executed⟩
  obtain rfl := Option.some.inj stepped
  have seen := congrArg Probe.skip (filter_probe s c)
  exact seen.trans (sees_skip (p := s.probe) (observes s c) skip)

def sharpens : Event → Bool
  | .sharpen _ _ => true
  | .input _ => false
  | .newPicture _ => false
  | .release _ => false
  | .deliver _ => false
  | .openBackend _ _ _ => false
  | .process _ _ _ _ _ => false
  | .closeBackend _ _ => false

/-- The sharpenings on a trace. -/
def sharpenings (trace : List Event) : List Event := trace.filter sharpens

theorem swap_sharpenings {c d : Scaler} {events : List Event} (swapped : Swap c d events) : sharpenings events = [] := by
  cases swapped <;> rfl

theorem applyUsmIfEnabled_skip (skip : s.usmSkipSharp = true) (number : Nat) (pic : Picture) (o : UsmAdaptive.Outcome) :
    applyUsmIfEnabled s number pic o = (s,.ok) := if_pos (.inr (.inr (.inr skip)))

theorem finishScaledFrame_sharpenings (skip : s.usmSkipSharp = true) (src dst : Nat) (pic : Picture) (o : UsmAdaptive.Outcome) :
    sharpenings (finishScaledFrame s src dst pic o).1.trace = sharpenings s.trace := by
  simp only [finishScaledFrame,applyUsmIfEnabled_skip skip]
  rfl

theorem scaleFrame_sharpenings (skip : s.usmSkipSharp = true) (b : Backend) (src dst : Nat) (pic : Picture) (o : Outcome) :
    sharpenings (scaleFrame s b src dst pic o).1.trace = sharpenings s.trace := by
  simp only [scaleFrame]
  split_ifs
  · obtain ⟨events,swapped,_,trace⟩ := tryBackendFallback_spec
      (({ s with usm := UsmAdaptive.begin s.usm o.clock }).emit (.process b s.priv src dst o.status)) o.openFallback
    have quiet := swap_sharpenings swapped
    rw [sharpenings] at quiet
    simp only [emit_trace,trace,sharpenings,List.filter_cons,List.filter_append,quiet,sharpens]
    rfl
  · rfl
  · have scaled : (({ s with usm := UsmAdaptive.begin s.usm o.clock } : Sys R).emit
        (.process b s.priv src dst o.status)).usmSkipSharp = true := skip
    exact finishScaledFrame_sharpenings scaled src dst pic o.usm

theorem probed_same (s : Sys R) (input : Picture) (o : Outcome) : Same s (probed s input o) := by
  rw [probed]
  split_ifs
  · exact runProbe_same s input o.luma
  · exact ⟨rfl,rfl,rfl,rfl⟩

theorem filterFrame_sharpenings (src : Nat) (input : Picture) (o : Outcome)
    (skip : (filterFrame s src input o).1.usmSkipSharp = true) :
    sharpenings (filterFrame s src input o).1.trace = sharpenings s.trace := by
  cases live : s.backend with
  | none =>
    simp only [filterFrame,live]
    rfl
  | some b =>
    have before := congrArg sharpenings (probed_same s input o).trace
    cases made : o.newPicture with
    | none =>
      have value : filterFrame s src input o = ((probed s input o).emit (.release src),none) := by
        simp only [filterFrame,live,made]
        rfl
      rw [value]
      exact before
    | some pic =>
      obtain ⟨allocated,value,quiet⟩ : ∃ allocated : Sys R,
          filterFrame s src input o = scaleFrame allocated b src (probed s input o).nextPicture pic o ∧
          sharpenings allocated.trace = sharpenings (probed s input o).trace := by
        refine ⟨{ (probed s input o).emit (.newPicture (probed s input o).nextPicture) with
          nextPicture := (probed s input o).nextPicture + 1 },?_,rfl⟩
        simp only [filterFrame,live,made]
        rfl
      rw [value] at skip ⊢
      have same := congrArg Probe.skip (scaleFrame_probe allocated b src (probed s input o).nextPicture pic o)
      exact (scaleFrame_sharpenings (same.symm.trans skip) b src _ pic o).trans (quiet.trans before)

/-- A call at whose end sharpening is skipped has not sharpened. -/
theorem filter_sharpenings (c : Call) (skip : (filter s c.input c.outcome).1.usmSkipSharp = true) :
    sharpenings (filter s c.input c.outcome).1.trace = sharpenings s.trace := by
  obtain ⟨input,o⟩ := c
  cases input with
  | none => rfl
  | some picture =>
    exact filterFrame_sharpenings (s := { s.emit (.input s.nextPicture) with nextPicture := s.nextPicture + 1 })
      s.nextPicture picture o skip

/-- From the call on that makes the filter skip sharpening there is none. -/
theorem run_sharpenings {calls : List Call} (skip : s.usmSkipSharp = true) (executed : run step s calls = some t) :
    sharpenings t.trace = sharpenings s.trace := by
  induction calls generalizing s with
  | nil =>
    cases executed
    rfl
  | cons c rest ih =>
    obtain ⟨next,first,tail⟩ := run_cons_iff.mp executed
    have one : run step s [c] = some next := run_cons_iff.mpr ⟨next,first,rfl⟩
    have still := run_skip skip one
    obtain rfl := Option.some.inj first
    exact (ih still tail).trans (filter_sharpenings c still)

/-! ## From the opening to the end -/

/-- The life of the probe from the opening on. -/
structure Lifecycle (start : Sys R) (calls : List Call) (s : Sys R) : Prop where
  counted : s.accum.frames = (observed start calls).length
  window : s.probeActive = (start.probeActive && decide (s.accum.frames < probeWindowFrames)) ∧
    s.accum.frames ≤ probeWindowFrames
  closed : s.accum.frames = probeWindowFrames →
    ∀ later t, run step s later = some t → t.probe = s.probe ∧ t.probeActive = false
  skips : s.usmSkipSharp = true ↔
    s.accum.frames = probeWindowFrames ∧ shouldSkipUsmForSharpness s.accum s.usmSharpThreshold = true
  advice : s.adviceLogged = true ↔
    s.accum.frames = probeWindowFrames ∧ s.probeAdvice = true ∧ shouldBypassForContent s.accum = true
  unordered : ∀ others t, run step start others = some t →
    (start.probe.measures (observed start calls)).Perm (start.probe.measures (observed start others)) → t.probe = s.probe
  exact : Exact s.accum ((observed start calls).flatMap fun v => lapSamples v.shown v.pitch s.ctx.srcW s.ctx.srcH)
    ((observed start calls).flatMap fun v => edgeSamples v.shown v.pitch s.ctx.srcW s.ctx.srcH)
  divided : (s.usmSkipSharp = true → s.accum.lapSamples ≠ 0) ∧
    (s.adviceLogged = true → s.accum.lapSamples ≠ 0 ∧ s.accum.edgeSamples ≠ 0)
  gated : ∀ c later t, run step s (c :: later) = some t → (filter s c.input c.outcome).1.usmSkipSharp = true →
    sharpenings t.trace = sharpenings s.trace
  destroyed : ∀ pool, creates (close s).usm.trace pool ≤ 1 ∧
    destroys (close s).usm.trace pool = creates (close s).usm.trace pool
  advised : (s.messages.filter advises).length ≤ 1

theorem openScalerOrFallback_probe (s : Sys R) (be : Backend) (opens : Backend → Bool) :
    (openScalerOrFallback s be opens).1.probe = s.probe ∧ (openScalerOrFallback s be opens).1.usm = s.usm := by
  simp only [openScalerOrFallback,openBackendAttempt,Sys.emit]
  split_ifs
  all_goals first | exact ⟨rfl,rfl⟩ | (split; exact ⟨rfl,rfl⟩; split_ifs <;> exact ⟨rfl,rfl⟩)

theorem openFilter_probe {c : Config R} {opens : Backend → Bool} (opened : openFilter c opens = some s) :
    s.probe = (configured c).probe ∧ s.usm = c.usm := by
  obtain ⟨be,_,opened⟩ := Option.bind_eq_some_iff.mp opened
  simp only at opened
  split_ifs at opened
  obtain rfl := Option.some.inj opened
  exact openScalerOrFallback_probe (configured c) be opens

/-- A filter that no frame has come to. -/
structure Start (s : Sys R) : Prop where
  fresh : Fresh s.probe
  pools : Pools s.usm
  positive : 1 ≤ s.ctx.srcW
  width : s.ctx.srcW ≤ maxDim
  height : s.ctx.srcH ≤ maxDim

theorem opened_start {f : FilterT R} {options : Tunable → Int} {o : OpenOutcome} {r : Opening R} {sys : FilterSys R}
    (opened : upAutoupscaleOpen f options o = some r) (success : r.status = .success) (own : r.filter.sys = .own sys) :
    Start sys.sys := by
  obtain ⟨src,target,found,same,planned,opens⟩ := open_filter opened success
  obtain rfl : found = sys := by simpa using same.symm.trans own
  obtain ⟨probe,usm⟩ := openFilter_probe opens
  obtain ⟨ok,out,value,accepted,_⟩ := UpscaleLogic.plan_upscale_contract src.dims.width src.dims.height
    (openConfig options).skip (openConfig options).preset o.cores 0
  obtain rfl : ok = true := by simpa using congrArg (Option.map Prod.fst) (value.symm.trans planned)
  obtain ⟨⟨positive,width⟩,⟨_,height⟩,_⟩ := accepted.mp rfl
  have ctx : found.sys.ctx = configureScaler options f.fmtIn src target := congrArg Probe.ctx probe
  refine ⟨?_,?_,?_,?_,?_⟩
  · rw [probe]
    exact ⟨rfl,rfl,rfl,rfl⟩
  · rw [usm]
    exact initUsmPool_pools options _ target o.cores _ o.poolAllocated
  · rw [ctx]
    exact positive
  · rw [ctx]
    exact width
  · rw [ctx]
    exact height

theorem run_pools {calls : List Call} (pools : Pools s.usm) (executed : run step s calls = some t) : Pools t.usm := by
  refine reachable_preserves (P := fun s : Sys R => Pools s.usm) (fun s c t pools stepped => ?_) pools ⟨calls,executed⟩
  obtain rfl := Option.some.inj stepped
  exact filter_pools pools c.input c.outcome

theorem start_lifecycle {start : Sys R} {calls : List Call} (begun : Start start) (executed : run step start calls = some s) :
    Lifecycle start calls s := by
  have window := run_window (fresh_window begun.fresh) executed
  rw [List.nil_append] at window
  have few := window.few
  have state := window.state
  obtain ⟨ctx,accum,active⟩ := after_fields start.probe (start.probe.measures (observed start calls))
  obtain ⟨skips,logged,once⟩ := after_verdict begun.fresh few
  rw [← state] at ctx accum active skips logged once
  have length : (start.probe.measures (observed start calls)).length = (observed start calls).length := List.length_map _
  have frames : s.accum.frames = (observed start calls).length := by
    rw [← length]
    exact congrArg ProbeAccum.frames accum
  have more : decide ((start.probe.measures (observed start calls)).length < 60) = decide (s.accum.frames < probeWindowFrames) := by
    rw [decide_eq_decide,length,frames,probeWindowFrames]
    omega
  rw [more] at active
  rw [length] at few
  have sharp : s.usmSkipSharp = true ↔ s.accum.frames = probeWindowFrames ∧
    shouldSkipUsmForSharpness s.accum s.usmSharpThreshold = true := skips
  have advice : s.adviceLogged = true ↔ s.accum.frames = probeWindowFrames ∧ s.probeAdvice = true ∧
    shouldBypassForContent s.accum = true := logged
  constructor
  case counted => exact frames
  case window => exact ⟨active,by rw [frames,probeWindowFrames]; omega⟩
  case closed =>
    intro full later t executedLater
    have idle : s.probe.active = false := by rw [active]; simp [full]
    rw [frames,probeWindowFrames] at full
    have still := run_closed window (by rw [length]; exact_mod_cast full) executedLater
    exact ⟨still,(congrArg Probe.active still).trans idle⟩
  case skips => exact sharp
  case advice => exact advice
  case unordered =>
    intro others t executedOther same
    obtain ⟨_,other⟩ := run_window (fresh_window begun.fresh) executedOther
    rw [other,List.nil_append,← after_perm same,state]
  case exact =>
    have geometry : s.ctx = start.ctx := ctx
    have sums : s.accum = accumOf (start.probe.measures (observed start calls)) := accum
    rw [geometry,sums]
    exact accumOf_exact few begun.positive begun.width begun.height
  case divided => exact ⟨fun skip => samples_of_skip (sharp.mp skip).2,fun given => samples_of_bypass (advice.mp given).2.2⟩
  case gated =>
    intro c later t executedLater skip
    obtain ⟨next,first,tail⟩ := run_cons_iff.mp executedLater
    obtain rfl := Option.some.inj first
    exact (run_sharpenings skip tail).trans (filter_sharpenings c skip)
  case destroyed => exact close_pools (run_pools begun.pools executed)
  case advised => exact once

/-- The life of the probe in every run of a filter that was opened. It counts the frames
    of which there is a view while a backend is in use, up to the end of its window; what
    it comes to does not depend on their order; its sums are exact; and once sharpening
    is skipped there is none, from the frame on that ended the window. By the end all
    pools are destroyed, each once. -/
theorem probe_lifecycle {f : FilterT R} {options : Tunable → Int} {o : OpenOutcome} {r : Opening R} {sys : FilterSys R}
    {calls : List Call} (opened : upAutoupscaleOpen f options o = some r) (success : r.status = .success)
    (own : r.filter.sys = .own sys) (executed : run step sys.sys calls = some s) : Lifecycle sys.sys calls s :=
  start_lifecycle (opened_start opened success own) executed

/-- A picture of stripes that is scaled and would be sharpened. -/
def striped : Call :=
  let picture (side : Nat) : Picture := ⟨Chroma.fourcc 'I' '4' '2' '0',side,side,side,side,3,fun _ => ⟨65536,256,256,1⟩⟩
  ⟨some (picture 16),⟨fun place => if place % 2 = 0 then 255 else 0,some (picture 64),some ⟨0,0⟩,.ok,true,
    ⟨true,.ok,.ok,2,some ⟨0,0⟩,some ⟨1,0⟩⟩⟩⟩

/-- After 59 pictures that were sharpened the last one of the window is not, and a pool
    that was created is destroyed. -/
theorem probe_lifecycle_striped : ∃ r sys s, upAutoupscaleOpen unopened sharpening granted = some r ∧
    r.filter.sys = .own sys ∧ run step sys.sys (List.replicate 60 striped) = some s ∧ s.usmSkipSharp = true ∧
    (sharpenings s.trace).length = 59 ∧ s.accum.frames = probeWindowFrames ∧ creates (close s).usm.trace 0 = 1 ∧
    destroys (close s).usm.trace 0 = creates (close s).usm.trace 0 := by
  have executed : ((upAutoupscaleOpen unopened sharpening granted).bind fun r => match r.filter.sys with
      | .other _ => none
      | .own sys => (run step sys.sys (List.replicate 60 striped)).map fun s =>
        (r.status,s.usmSkipSharp,(sharpenings s.trace).length,creates (close s).usm.trace 0)) =
      some (.success,true,59,1) := by decide +kernel
  obtain ⟨r,opened,rest⟩ := Option.bind_eq_some_iff.mp executed
  cases own : r.filter.sys with
  | other address => simp [own] at rest
  | own sys =>
    rw [own] at rest
    obtain ⟨s,ran,shown⟩ := Option.map_eq_some_iff.mp rest
    simp only [Prod.mk.injEq] at shown
    obtain ⟨success,skip,sharpened,created⟩ := shown
    have life := probe_lifecycle opened success own ran
    exact ⟨r,sys,s,opened,own,ran,skip,sharpened,(life.skips.mp skip).1,created,(life.destroyed 0).2⟩

end AutoUpscale.Filter
