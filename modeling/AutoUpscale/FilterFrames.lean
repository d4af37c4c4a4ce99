import AutoUpscale.Filter

/-!
What one frame of the filter does. Sharpening and the content probe do not touch
the backend in use (`runProbe_same`, `applyUsmIfEnabled_spec`), and the fallback
retires zimg at most (`Swap`). A frame is dropped, fails in the backend, or is
scaled and then delivered or spoiled (`Frame`).
-/
namespace AutoUpscale.Filter
open AutoUpscale.PictureView (Picture)
open AutoUpscale.Tuner (Double)
set_option linter.unusedSectionVars false
universe u
variable {R : Type u} [Double R]

/-- The part of the filter that concerns its backend. -/
structure Scaler where
  backend : Option Backend
  priv : Option Nat
  backendPref : Int
  fallbackTried : Bool
  nextPriv : Nat
  deriving DecidableEq

def Sys.scaler (s : Sys R) : Scaler := ⟨s.backend,s.priv,s.backendPref,s.fallbackTried,s.nextPriv⟩

/-- Neither the backend nor the pictures are concerned. -/
structure Same (s t : Sys R) : Prop where
  scaler : t.scaler = s.scaler
  supports : t.supports = s.supports
  nextPicture : t.nextPicture = s.nextPicture
  trace : t.trace = s.trace

variable {s t : Sys R}

@[simp] theorem emit_scaler (s : Sys R) (e : Event) : (s.emit e).scaler = s.scaler := rfl

@[simp] theorem emit_nextPicture (s : Sys R) (e : Event) : (s.emit e).nextPicture = s.nextPicture := rfl

@[simp] theorem emit_trace (s : Sys R) (e : Event) : (s.emit e).trace = e :: s.trace := rfl

theorem logProbeVerdict_same (s : Sys R) : Same s (logProbeVerdict s) := by
  simp only [logProbeVerdict]
  split
  · exact ⟨rfl,rfl,rfl,rfl⟩
  · exact ⟨rfl,rfl,rfl,rfl⟩

theorem Same.trans {u : Sys R} (first : Same s t) (second : Same t u) : Same s u :=
  ⟨second.scaler.trans first.scaler,second.supports.trans first.supports,second.nextPicture.trans first.nextPicture,
    second.trace.trans first.trace⟩

theorem gateSharpness_same (s : Sys R) : Same s (gateSharpness s) := by
  rw [gateSharpness]
  split
  · exact ⟨rfl,rfl,rfl,rfl⟩
  · exact ⟨rfl,rfl,rfl,rfl⟩

theorem closeProbe_same (s : Sys R) : Same s (closeProbe s) := by
  have ended : Same s { s with probeActive := false } := ⟨rfl,rfl,rfl,rfl⟩
  have gated := ended.trans (gateSharpness_same { s with probeActive := false })
  simp only [closeProbe]
  split
  · exact gated.trans (logProbeVerdict_same _)
  · exact gated

theorem runProbe_same (s : Sys R) (pic : Picture) (luma : Int → UInt8) : Same s (runProbe s pic luma) := by
  simp only [runProbe]
  split
  · exact ⟨rfl,rfl,rfl,rfl⟩
  · split
    · exact ⟨rfl,rfl,rfl,rfl⟩
    · rename_i view _ _
      have observed : Same s { s with accum := ContentProbe.probeObserve s.accum (viewMetrics s.ctx view luma) } :=
        ⟨rfl,rfl,rfl,rfl⟩
      exact observed.trans (closeProbe_same _)

/-- A sharpening that was tried is on the trace with the status it reports; where it
    was not, the status is OK. -/
inductive Sharpened (number : Nat) : UsmStatus → List Event → Prop
  | skipped : Sharpened number .ok []
  | tried (status : UsmStatus) : Sharpened number status [.sharpen number status]

/-- The filter after sharpening. -/
structure AfterUsm (s : Sys R) (number : Nat) (t : Sys R) (status : UsmStatus) (events : List Event) : Prop where
  scaler : t.scaler = s.scaler
  nextPicture : t.nextPicture = s.nextPicture
  trace : t.trace = events ++ s.trace
  sharpened : Sharpened number status events

theorem runUsm_spec (s : Sys R) (number : Nat) (o : UsmAdaptive.Outcome) :
    AfterUsm s number (runUsm s number o).1 (runUsm s number o).2 [.sharpen number (UsmAdaptive.apply s.usm o).2] := by
  simp only [runUsm]
  generalize UsmAdaptive.apply s.usm o = applied
  obtain ⟨usm,status⟩ := applied
  dsimp only
  by_cases ok : status = .ok
  · rw [if_neg (not_not.mpr ok),ok]
    exact ⟨rfl,rfl,rfl,.tried .ok⟩
  · rw [if_pos ok]
    split
    · exact ⟨rfl,rfl,rfl,.tried status⟩
    · exact ⟨rfl,rfl,rfl,.tried status⟩

theorem applyUsmIfEnabled_spec (s : Sys R) (number : Nat) (pic : Picture) (o : UsmAdaptive.Outcome) :
    ∃ events, AfterUsm s number (applyUsmIfEnabled s number pic o).1 (applyUsmIfEnabled s number pic o).2 events := by
  simp only [applyUsmIfEnabled]
  split
  · exact ⟨[],rfl,rfl,rfl,.skipped⟩
  · split
    · exact ⟨[],rfl,rfl,rfl,.skipped⟩
    · exact ⟨_,runUsm_spec s number o⟩

/-! ## The fallback -/

/-- What a failed frame makes of the backend: it is kept, or zimg is retired, and
    unless zimg is forced swscale may be opened. -/
inductive Swap (c : Scaler) : Scaler → List Event → Prop
  | kept (tried : Bool) (sticky : c.fallbackTried = true → tried = true) : Swap c { c with fallbackTried := tried } []
  | retired (zimg : c.backend = some .zimg) (first : c.fallbackTried = false) :
      Swap c ⟨none,none,c.backendPref,true,c.nextPriv⟩ [.closeBackend .zimg c.priv]
  | swapped (zimg : c.backend = some .zimg) (first : c.fallbackTried = false) (free : c.backendPref ≠ backendZimg) (ok : Bool) :
      Swap c ⟨if ok then some .swscale else none,if ok then some c.nextPriv else none,c.backendPref,true,c.nextPriv + 1⟩
        [.openBackend .swscale c.nextPriv ok,.closeBackend .zimg c.priv]

theorem scalerPick_swscale {supports : Backend → Bool} {sw : Backend} (picked : scalerPick supports backendSwscale = some sw) :
    sw = .swscale := by
  have other : backendSwscale ≠ backendZimg := by decide
  rw [scalerPick,if_neg other,if_pos rfl,pickSwscaleIfOk] at picked
  split at picked
  · exact (Option.some.inj picked).symm
  · cases picked

theorem tryBackendFallback_spec (s : Sys R) (ok : Bool) : ∃ events, Swap s.scaler (tryBackendFallback s ok).scaler events ∧
    (tryBackendFallback s ok).nextPicture = s.nextPicture ∧ (tryBackendFallback s ok).trace = events ++ s.trace := by
  simp only [tryBackendFallback]
  by_cases tried : s.fallbackTried = true
  · rw [if_pos tried]
    exact ⟨[],.kept s.fallbackTried id,rfl,rfl⟩
  rw [if_neg tried]
  have first : s.fallbackTried = false := by simpa using tried
  by_cases other : s.backend.map Backend.id ≠ some backendZimg
  · rw [if_pos other]
    exact ⟨[],.kept true fun _ => rfl,rfl,rfl⟩
  rw [if_neg other]
  have zimg : s.backend = some .zimg := by
    cases backend : s.backend with
    | none => simp [backend] at other
    | some b =>
      cases b with
      | zimg => rfl
      | swscale => exact absurd (by rw [backend]; decide) other
  have retired : retireBackend { s with fallbackTried := true } =
      { s with fallbackTried := true, trace := .closeBackend .zimg s.priv :: s.trace, priv := none, backend := none } := by
    simp only [retireBackend,closeBackend,zimg,Sys.emit]
  by_cases forced : s.backendPref = backendZimg
  · rw [if_pos forced,retired]
    exact ⟨[.closeBackend .zimg s.priv],.retired zimg first,rfl,rfl⟩
  rw [if_neg forced,retired]
  cases picked : scalerPick s.supports backendSwscale with
  | none => exact ⟨[.closeBackend .zimg s.priv],.retired zimg first,rfl,rfl⟩
  | some sw =>
    obtain rfl := scalerPick_swscale picked
    refine ⟨[.openBackend .swscale s.nextPriv ok,.closeBackend .zimg s.priv],?_,?_,?_⟩
    · cases ok with
      | true => exact .swapped zimg first forced true
      | false => exact .swapped zimg first forced false
    · cases ok <;> rfl
    · cases ok <;> rfl

/-! ## A frame -/

/-- What the call for a picture, whose number is `n`, makes of the backend, which
    events it adds, and what it returns. The output has the number after `n`. -/
inductive Frame (c : Scaler) (n : Nat) : Scaler → Nat → List Event → Option Nat → Prop
  | dropped : Frame c n c (n + 1) [.release n,.input n] none
  | failed (b : Backend) (live : c.backend = some b) (status : ProcessStatus) (bad : status ≠ .ok) (d : Scaler) (swap : List Event)
      (swapped : Swap c d swap) (fatal : status ≠ .fatal → d = c ∧ swap = []) :
      Frame c n d (n + 2)
        (.release n :: .release (n + 1) :: swap ++ [.process b c.priv n (n + 1) status,.newPicture (n + 1),.input n]) none
  | spoiled (b : Backend) (live : c.backend = some b) :
      Frame c n c (n + 2) [.release n,.release (n + 1),.sharpen (n + 1) .outputUncertain,
        .process b c.priv n (n + 1) .ok,.newPicture (n + 1),.input n] none
  | delivered (b : Backend) (live : c.backend = some b) (status : UsmStatus) (sharp : List Event)
      (sharpened : Sharpened (n + 1) status sharp) (certain : status ≠ .outputUncertain) :
      Frame c n c (n + 2)
        (.deliver (n + 1) :: .release n :: sharp ++ [.process b c.priv n (n + 1) .ok,.newPicture (n + 1),.input n])
        (some (n + 1))

/-- What a part of the call for picture `n` leaves, where the trace was `before` when
    the call began and `c` is the backend. -/
def AfterFrame (c : Scaler) (n : Nat) (before : List Event) (out : Sys R × Option Nat) : Prop :=
  ∃ events, Frame c n out.1.scaler out.1.nextPicture events out.2 ∧ out.1.trace = events ++ before

/-- `finishScaledFrame`, once the backend has scaled picture `n`. -/
theorem finishScaledFrame_spec {n : Nat} {before : List Event} {b : Backend} (live : s.backend = some b)
    (next : s.nextPicture = n + 2)
    (scaled : s.trace = .process b s.scaler.priv n (n + 1) .ok :: .newPicture (n + 1) :: .input n :: before)
    (pic : Picture) (o : UsmAdaptive.Outcome) :
    AfterFrame s.scaler n before (finishScaledFrame s n (n + 1) pic o) := by
  have backend : s.scaler.backend = some b := live
  obtain ⟨sharp,scaler,numbers,trace,sharpened⟩ := applyUsmIfEnabled_spec s (n + 1) pic o
  simp only [AfterFrame,finishScaledFrame]
  by_cases uncertain : (applyUsmIfEnabled s (n + 1) pic o).2 = .outputUncertain
  · rw [if_pos uncertain]
    rw [uncertain] at sharpened
    cases sharpened with
    | tried =>
      simp only [emit_scaler,emit_nextPicture,emit_trace,scaler,numbers,next,trace,scaled]
      exact ⟨_,.spoiled b backend,rfl⟩
  · rw [if_neg uncertain]
    simp only [emit_scaler,emit_nextPicture,emit_trace,scaler,numbers,next,trace,scaled]
    exact ⟨_,.delivered b backend _ sharp sharpened uncertain,by simp⟩

/-- `scaleFrame`, once the input and the output have got their numbers. -/
theorem scaleFrame_spec {n : Nat} {before : List Event} {b : Backend} (live : s.backend = some b) (next : s.nextPicture = n + 2)
    (received : s.trace = .newPicture (n + 1) :: .input n :: before) (pic : Picture) (o : Outcome) :
    AfterFrame s.scaler n before (scaleFrame s b n (n + 1) pic o) := by
  have backend : s.scaler.backend = some b := live
  simp only [AfterFrame,scaleFrame]
  set processed := ({ s with usm := UsmAdaptive.begin s.usm o.clock }).emit (.process b s.priv n (n + 1) o.status) with processedIs
  have scaler : processed.scaler = s.scaler := rfl
  have numbers : processed.nextPicture = n + 2 := next
  have trace : processed.trace = .process b s.scaler.priv n (n + 1) o.status :: .newPicture (n + 1) :: .input n :: before := by
    rw [← received]
    rfl
  by_cases ok : o.status = .ok
  · rw [if_neg (not_not.mpr ok),← scaler]
    rw [ok] at trace
    exact finishScaledFrame_spec (s := processed) live numbers trace pic o.usm
  rw [if_pos ok]
  by_cases fatal : o.status = .fatal
  · rw [if_pos fatal]
    obtain ⟨swap,swapped,sameNumbers,swapTrace⟩ := tryBackendFallback_spec processed o.openFallback
    simp only [emit_nextPicture,emit_trace,sameNumbers,numbers,swapTrace,trace]
    exact ⟨_,.failed b backend o.status ok _ swap (scaler ▸ swapped) (absurd fatal),by simp⟩
  · rw [if_neg fatal]
    simp only [emit_scaler,emit_nextPicture,emit_trace,scaler,numbers,trace]
    exact ⟨_,.failed b backend o.status ok _ [] (.kept s.scaler.fallbackTried id) fun _ => ⟨rfl,rfl⟩,rfl⟩

/-- `filterFrame`, once the input has got its number. -/
theorem filterFrame_spec {n : Nat} {before : List Event} (next : s.nextPicture = n + 1)
    (received : s.trace = .input n :: before) (input : Picture) (o : Outcome) :
    AfterFrame s.scaler n before (filterFrame s n input o) := by
  simp only [AfterFrame,filterFrame]
  cases live : s.backend with
  | none =>
    simp only [emit_scaler,emit_nextPicture,emit_trace,next,received]
    exact ⟨_,.dropped,rfl⟩
  | some b =>
    dsimp only
    generalize probedIs : (if s.probeActive = true ∧ input.planes ≥ 1 then runProbe s input o.luma else s) = probed
    obtain ⟨scaler,-,numbers,trace⟩ : Same s probed := by
      rw [← probedIs]
      split
      · exact runProbe_same s input o.luma
      · exact ⟨rfl,rfl,rfl,rfl⟩
    rw [next] at numbers
    rw [received] at trace
    cases o.newPicture with
    | none =>
      simp only [emit_scaler,emit_nextPicture,emit_trace,scaler,numbers,trace]
      exact ⟨_,.dropped,rfl⟩
    | some pic =>
      have probedLive : probed.backend = some b := (congrArg Scaler.backend scaler).trans live
      dsimp only
      rw [numbers,← scaler]
      refine scaleFrame_spec (s := { probed.emit (.newPicture (n + 1)) with nextPicture := n + 2 }) probedLive rfl ?_ pic o
      rw [← trace]
      rfl

/-- The call for a picture. -/
theorem filter_spec (s : Sys R) (picture : Picture) (o : Outcome) :
    AfterFrame s.scaler s.nextPicture s.trace (filter s (some picture) o) :=
  filterFrame_spec (s := { s.emit (.input s.nextPicture) with nextPicture := s.nextPicture + 1 }) rfl rfl picture o

end AutoUpscale.Filter
