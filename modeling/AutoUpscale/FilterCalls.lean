import AutoUpscale.FilterBackends
import AutoUpscale.FilterProbe

/-!
The calls of backends that a frame makes. All but the call of `process` and the fallback
leaves the backends alone (`Quiet`): a frame makes no call, or it calls `process` once, and
only where that is fatal comes the fallback (`filter_calls`). From zimg it closes zimg and
opens swscale, unless zimg is forced (`fallback_forced`, `fallback_free`).
-/
namespace AutoUpscale.Filter
open AutoUpscale.ContentProbe (LumaView)
open AutoUpscale.PictureView (Picture)
open AutoUpscale.Tuner (Double)
set_option linter.unusedSectionVars false
universe u
variable {R : Type u} [Double R]

/-- No backend is called between two states of the filter. -/
structure Quiet (s t : Sys R) : Prop where
  scaler : t.scaler = s.scaler
  ctx : t.ctx = s.ctx
  supports : t.supports = s.supports
  trace : ∃ new, t.trace = new ++ s.trace ∧ ∀ e ∈ new, callsBackend e = false

variable {s t r : Sys R}

theorem Quiet.refl (s : Sys R) : Quiet s s := ⟨rfl,rfl,rfl,[],rfl,by simp⟩

theorem Quiet.trans (first : Quiet s t) (second : Quiet t r) : Quiet s r := by
  obtain ⟨new,newest,quiet⟩ := first.trace
  obtain ⟨later,latest,still⟩ := second.trace
  refine ⟨second.scaler.trans first.scaler,second.ctx.trans first.ctx,second.supports.trans first.supports,later ++ new,?_,?_⟩
  · rw [latest,newest,List.append_assoc]
  · intro e member
    rcases List.mem_append.mp member with inside | inside
    · exact still e inside
    · exact quiet e inside

theorem Quiet.emit (quiet : Quiet s t) {e : Event} (silent : callsBackend e = false) : Quiet s (t.emit e) := by
  refine quiet.trans ⟨rfl,rfl,rfl,[e],rfl,fun x member => ?_⟩
  rw [List.mem_singleton.mp member]
  exact silent

theorem sees_ctx (p : Probe) (seen : Option LumaView) : (p.sees seen).ctx = p.ctx := by
  cases seen with
  | none => rfl
  | some v =>
    simp only [Probe.sees,Probe.observe]
    split_ifs
    · rfl
    · exact (close_fields _).1

theorem runProbe_quiet (s : Sys R) (pic : Picture) (luma : Int → UInt8) : Quiet s (runProbe s pic luma) := by
  obtain ⟨scaler,supports,-,trace⟩ := runProbe_same s pic luma
  have ctx : (runProbe s pic luma).ctx = s.ctx := (congrArg Probe.ctx (runProbe_probe s pic luma)).trans (sees_ctx _ _)
  exact ⟨scaler,ctx,supports,[],trace,by simp⟩

theorem runUsm_supports (s : Sys R) (number : Nat) (o : UsmAdaptive.Outcome) : (runUsm s number o).1.supports = s.supports := by
  simp only [runUsm]
  split_ifs <;> rfl

theorem applyUsmIfEnabled_quiet (s : Sys R) (number : Nat) (pic : Picture) (o : UsmAdaptive.Outcome) :
    Quiet s (applyUsmIfEnabled s number pic o).1 := by
  obtain ⟨sharp,scaler,-,trace,sharpened⟩ := applyUsmIfEnabled_spec s number pic o
  have ctx : (applyUsmIfEnabled s number pic o).1.ctx = s.ctx := congrArg Probe.ctx (applyUsmIfEnabled_probe s number pic o)
  have supports : (applyUsmIfEnabled s number pic o).1.supports = s.supports := by
    simp only [applyUsmIfEnabled]
    split_ifs
    · rfl
    · split
      · rfl
      · exact runUsm_supports s number o
  refine ⟨scaler,ctx,supports,sharp,trace,fun e member => ?_⟩
  generalize (applyUsmIfEnabled s number pic o).2 = status at sharpened
  cases sharpened with
  | skipped => cases member
  | tried =>
    rw [List.mem_singleton.mp member]
    rfl

theorem finishScaledFrame_quiet (s : Sys R) (src dst : Nat) (pic : Picture) (o : UsmAdaptive.Outcome) :
    Quiet s (finishScaledFrame s src dst pic o).1 := by
  have sharpened := applyUsmIfEnabled_quiet s dst pic o
  simp only [finishScaledFrame]
  split_ifs
  · exact (sharpened.emit rfl).emit rfl
  · exact (sharpened.emit rfl).emit rfl

/-- What a frame asks of the backends, and what comes of it. -/
inductive Calls (s : Sys R) (o : Outcome) : Sys R × Option Nat → Prop
  | none (t : Sys R) (quiet : Quiet s t) : Calls s o (t,none)
  | process (b : Backend) (live : s.backend = some b) (pic : Picture) (allocated : o.newPicture = some pic) (src dst : Nat)
      (asked : Sys R) (before : Quiet s asked) (t : Sys R) (result : Option Nat)
      (after : Quiet (if o.status = .fatal then tryBackendFallback (asked.emit (.process b s.priv src dst o.status)) o.openFallback
        else asked.emit (.process b s.priv src dst o.status)) t)
      (scaled : result ≠ none → o.status = .ok) : Calls s o (t,result)

theorem scaleFrame_calls {b : Backend} (live : s.backend = some b) (before : Quiet s t) (src dst : Nat) (pic : Picture)
    {o : Outcome} (allocated : o.newPicture = some pic) : Calls s o (scaleFrame t b src dst pic o) := by
  obtain ⟨asked,begun⟩ : ∃ asked, asked = { t with usm := UsmAdaptive.begin t.usm o.clock } := ⟨_,rfl⟩
  have timed : Quiet s asked := by
    rw [begun]
    exact before.trans ⟨rfl,rfl,rfl,[],rfl,by simp⟩
  have priv : asked.priv = s.priv := congrArg Scaler.priv timed.scaler
  have frame : scaleFrame t b src dst pic o =
      let called := asked.emit (.process b asked.priv src dst o.status)
      if o.status ≠ .ok then
        ((((if o.status = .fatal then tryBackendFallback called o.openFallback else called).emit (.release dst)).emit
          (.release src)),none)
      else finishScaledFrame called src dst pic o.usm := by
    rw [begun]
    rfl
  rw [frame,priv]
  dsimp only
  by_cases ok : o.status = .ok
  · rw [if_neg (not_not.mpr ok)]
    refine .process b live pic allocated src dst asked timed _ _ ?_ fun _ => ok
    rw [if_neg (by rw [ok]; simp)]
    exact finishScaledFrame_quiet _ src dst pic o.usm
  · rw [if_pos ok]
    exact .process b live pic allocated src dst asked timed _ _ (((Quiet.refl _).emit rfl).emit rfl) fun odd => absurd rfl odd

theorem filterFrame_calls (received : Quiet s t) (src : Nat) (input : Picture) (o : Outcome) :
    Calls s o (filterFrame t src input o) := by
  have backend : t.backend = s.backend := congrArg Scaler.backend received.scaler
  simp only [filterFrame]
  cases live : t.backend with
  | none => exact .none _ (received.emit rfl)
  | some b =>
    dsimp only
    have probed : Quiet s (if t.probeActive = true ∧ input.planes ≥ 1 then runProbe t input o.luma else t) := by
      split_ifs
      · exact received.trans (runProbe_quiet t input o.luma)
      · exact received
    generalize (if t.probeActive = true ∧ input.planes ≥ 1 then runProbe t input o.luma else t) = q at probed ⊢
    cases allocated : o.newPicture with
    | none => exact .none _ (probed.emit rfl)
    | some pic =>
      have numbered : Quiet s { q.emit (.newPicture q.nextPicture) with nextPicture := q.nextPicture + 1 } :=
        (probed.emit rfl).trans ⟨rfl,rfl,rfl,[],rfl,by simp⟩
      exact scaleFrame_calls (backend.symm.trans live) numbered src q.nextPicture pic allocated

/-- A frame makes no call, or it calls `process` of the backend in use once, and the
    fallback where that is fatal. -/
theorem filter_calls (s : Sys R) (picture : Picture) (o : Outcome) : Calls s o (filter s (some picture) o) := by
  have received : Quiet s { s.emit (.input s.nextPicture) with nextPicture := s.nextPicture + 1 } :=
    ((Quiet.refl s).emit (e := .input s.nextPicture) rfl).trans ⟨rfl,rfl,rfl,[],rfl,by simp⟩
  exact filterFrame_calls received s.nextPicture picture o

/-! ## The fallback from zimg -/

section Zimg
variable (zimg : s.backend = some .zimg) (first : s.fallbackTried = false)
include zimg first

theorem fallback_forced (forced : s.backendPref = backendZimg) (ok : Bool) :
    (tryBackendFallback s ok).scaler = ⟨none,none,s.backendPref,true,s.nextPriv⟩ ∧
      (tryBackendFallback s ok).trace = .closeBackend .zimg s.priv :: s.trace := by
  rw [tryBackendFallback,if_neg (by simp [first])]
  simp [zimg,forced,Backend.id,retireBackend,closeBackend,Sys.emit,Sys.scaler]

theorem fallback_free (free : s.backendPref ≠ backendZimg) (supported : s.supports .swscale = true) (ok : Bool) :
    (tryBackendFallback s ok).scaler =
      ⟨if ok then some .swscale else none,if ok then some s.nextPriv else none,s.backendPref,true,s.nextPriv + 1⟩ ∧
      (tryBackendFallback s ok).trace = .openBackend .swscale s.nextPriv ok :: .closeBackend .zimg s.priv :: s.trace := by
  have picked : scalerPick s.supports backendSwscale = some .swscale := by rw [scalerPick_swscale_eq,if_pos supported]
  rw [tryBackendFallback,if_neg (by simp [first])]
  cases ok <;>
    simp [zimg,free,picked,Backend.id,retireBackend,closeBackend,openFallback,openBackendAttempt,Sys.emit,Sys.scaler]

end Zimg

end AutoUpscale.Filter
