import AutoUpscale.AdaptiveOwnership
import AutoUpscale.FilterOpen

/-!
The sharpening pools of the filter. While the adaptive choice is on they are those of
its invariant; where it is off, the base pool alone is live, if it is there (`Pools`).
All that a frame does to them are the calls of the adaptive choice and `DisableUsm`
(`filter_usm`), which leaves none behind (`disabled_ledger`).
-/
namespace AutoUpscale.Filter
open AutoUpscale.PictureView (Picture)
open AutoUpscale.Tuner (Double)
open AutoUpscale.UpscaleLogic (Dims)
open AutoUpscale.UsmAdaptive (Inv Ledger creates destroys)
set_option linter.unusedSectionVars false
universe u
variable {R : Type u} [Double R] {s : Sys R} {w : UsmAdaptive.World R}

/-- The pools between two frames. -/
inductive Pools (w : UsmAdaptive.World R) : Prop
  | adaptive (inv : Inv w)
  | base (off : w.adaptive.enabled = false) (absent : w.adaptive.trial = none) (ledger : Ledger w.trace w.next w.best.toList)

/-- What `disableUsm` makes of the pools. -/
def disabled (w : UsmAdaptive.World R) : UsmAdaptive.World R :=
  let usm := UsmAdaptive.stop w
  { UsmAdaptive.poolDestroy usm usm.best with best := none }

theorem disableUsm_usm (s : Sys R) : (disableUsm s).usm = disabled s.usm := rfl

/-! ## What becomes of them -/

theorem ledger_nil : Ledger [] 0 [] where
  live := List.Perm.nil
  distinct := List.nodup_nil
  created _ := rfl
  destroyed _ := rfl
  known _ member := absurd member List.not_mem_nil
  few past suffix := by simp [List.suffix_nil.mp suffix,UsmAdaptive.livePools]
  swaps _ _ _ member := absurd member List.not_mem_nil

/-- Without a trial, the live pool is the best one. -/
theorem stop_ledger (pools : Pools w) :
    Ledger (UsmAdaptive.stop w).trace (UsmAdaptive.stop w).next (UsmAdaptive.stop w).best.toList := by
  cases pools with
  | adaptive inv =>
    obtain ⟨best,found,ledger⟩ := (UsmAdaptive.stop_inv inv).owned
    rw [(UsmAdaptive.stop_stopped w).trial] at ledger
    rw [found]
    exact ledger
  | base off absent ledger =>
    simp only [UsmAdaptive.stop,UsmAdaptive.clearTrial,absent,UsmAdaptive.poolDestroy]
    exact ledger

/-- No pool is left. -/
theorem disabled_ledger (pools : Pools w) : Ledger (disabled w).trace (disabled w).next [] := by
  have ledger := stop_ledger pools
  simp only [disabled]
  cases best : (UsmAdaptive.stop w).best with
  | none =>
    rw [best] at ledger
    exact ledger
  | some pool =>
    rw [best] at ledger
    have gone := UsmAdaptive.ledger_destroy ledger List.mem_cons_self
    rwa [Option.toList,List.erase_cons_head] at gone

theorem disabled_pools (pools : Pools w) : Pools (disabled w) := by
  have ended := UsmAdaptive.stop_stopped w
  have kept (pool : Option Nat) :
      (UsmAdaptive.poolDestroy (UsmAdaptive.stop w) pool).adaptive = (UsmAdaptive.stop w).adaptive := by cases pool <;> rfl
  refine .base ?_ ?_ (disabled_ledger pools)
  · rw [disabled,kept,ended.enabled]
  · rw [disabled,kept,ended.trial]

theorem begin_pools (pools : Pools w) (clock : Option UsmAdaptive.Timespec) : Pools (UsmAdaptive.begin w clock) := by
  have same := UsmAdaptive.begin_same w clock
  cases pools with
  | adaptive inv => exact .adaptive (same.inv inv)
  | base off absent ledger =>
    refine .base (same.enabled.trans off) (same.trial.trans absent) ?_
    rw [same.trace,same.next,same.best]
    exact ledger

/-- Where the adaptive choice is off, the base pool is applied and nothing else happens. -/
theorem apply_pools (pools : Pools w) (o : UsmAdaptive.Outcome) : Pools (UsmAdaptive.apply w o).1 := by
  cases pools with
  | adaptive inv => exact .adaptive (UsmAdaptive.apply_framed inv o).1
  | base off absent ledger =>
    cases best : w.best with
    | none =>
      have value : (UsmAdaptive.apply w o).1 = { w with adaptive := { w.adaptive with retained := false } } := by
        simp [UsmAdaptive.apply,UsmAdaptive.choose,UsmAdaptive.timing,UsmAdaptive.applySelected,UsmAdaptive.poolApply,off,best]
      rw [value]
      exact .base off absent ledger
    | some pool =>
      have value : (UsmAdaptive.apply w o).1 = { w with
          adaptive := { w.adaptive with retained := false }, trace := .apply pool o.selected :: w.trace } := by
        simp [UsmAdaptive.apply,UsmAdaptive.choose,UsmAdaptive.timing,UsmAdaptive.applySelected,UsmAdaptive.poolApply,off,best]
      rw [value]
      exact .base off absent (UsmAdaptive.ledger_apply ledger)

/-! ## A frame -/

theorem retireBackend_rest (s : Sys R) : ∃ trace, retireBackend s = { s with priv := none, backend := none, trace := trace } := by
  cases live : s.backend with
  | none => exact ⟨s.trace,by simp only [retireBackend,closeBackend,live]⟩
  | some b => exact ⟨.closeBackend b s.priv :: s.trace,by simp only [retireBackend,closeBackend,live,Sys.emit]⟩

/-- The fallback concerns the backend alone. -/
theorem tryBackendFallback_rest (s : Sys R) (ok : Bool) : ∃ backend priv tried next trace, tryBackendFallback s ok =
    { s with backend := backend, priv := priv, fallbackTried := tried, nextPriv := next, trace := trace } := by
  obtain ⟨trace,retired⟩ := retireBackend_rest { s with fallbackTried := true }
  simp only [tryBackendFallback,retired]
  split_ifs
  · exact ⟨_,_,_,_,_,rfl⟩
  · exact ⟨_,_,_,_,_,rfl⟩
  · exact ⟨_,_,_,_,_,rfl⟩
  · cases scalerPick s.supports backendSwscale with
    | none => exact ⟨_,_,_,_,_,rfl⟩
    | some sw =>
      cases ok with
      | true => exact ⟨_,_,_,_,_,rfl⟩
      | false => exact ⟨_,_,_,_,_,rfl⟩

theorem tryBackendFallback_usm (s : Sys R) (ok : Bool) : (tryBackendFallback s ok).usmAmountQ8 = s.usmAmountQ8 ∧
    (tryBackendFallback s ok).usm = s.usm := by
  obtain ⟨_,_,_,_,_,same⟩ := tryBackendFallback_rest s ok
  rw [same]
  exact ⟨rfl,rfl⟩

section Closed
variable {P : Int → UsmAdaptive.World R → Prop} (disable : ∀ amount w, P amount w → P 0 (disabled w))
  (begins : ∀ amount w clock, P amount w → P amount (UsmAdaptive.begin w clock))
  (applies : ∀ amount w o, P amount w → P amount (UsmAdaptive.apply w o).1)

include disable in
theorem runProbe_usm (start : P s.usmAmountQ8 s.usm) (pic : Picture) (luma : Int → UInt8) :
    P (runProbe s pic luma).usmAmountQ8 (runProbe s pic luma).usm := by
  have told (s : Sys R) : (logProbeVerdict s).usmAmountQ8 = s.usmAmountQ8 ∧ (logProbeVerdict s).usm = s.usm := by
    simp only [logProbeVerdict]
    split <;> exact ⟨rfl,rfl⟩
  have gated (s : Sys R) (start : P s.usmAmountQ8 s.usm) : P (gateSharpness s).usmAmountQ8 (gateSharpness s).usm := by
    rw [gateSharpness]
    split
    · exact disable _ s.usm start
    · exact start
  simp only [runProbe,closeProbe]
  split
  · exact start
  · split_ifs
    · exact start
    · rw [(told _).1,(told _).2]
      exact gated _ start
    · exact gated _ start

include disable applies in
theorem applyUsmIfEnabled_usm (start : P s.usmAmountQ8 s.usm) (number : Nat) (pic : Picture) (o : UsmAdaptive.Outcome) :
    P (applyUsmIfEnabled s number pic o).1.usmAmountQ8 (applyUsmIfEnabled s number pic o).1.usm := by
  simp only [applyUsmIfEnabled]
  split
  · exact start
  · split
    · exact start
    · have applied := applies _ s.usm o start
      simp only [runUsm]
      split_ifs
      · exact applied
      · exact disable _ _ applied
      · exact applied

include disable begins applies in
theorem filterFrame_usm (start : P s.usmAmountQ8 s.usm) (src : Nat) (input : Picture) (o : Outcome) :
    P (filterFrame s src input o).1.usmAmountQ8 (filterFrame s src input o).1.usm := by
  simp only [filterFrame]
  split
  · exact start
  · generalize probedIs : (if s.probeActive = true ∧ input.planes ≥ 1 then runProbe s input o.luma else s) = probed
    have probedP : P probed.usmAmountQ8 probed.usm := by
      rw [← probedIs]
      split_ifs
      · exact runProbe_usm disable start input o.luma
      · exact start
    split
    · exact probedP
    · have begun := begins _ probed.usm o.clock probedP
      simp only [scaleFrame]
      split_ifs
      · simp only [Sys.emit,tryBackendFallback_usm]
        exact begun
      · exact begun
      · simp only [finishScaledFrame]
        split_ifs <;> exact applyUsmIfEnabled_usm disable applies begun _ _ o.usm

include disable begins applies in
/-- What holds of the amount and the pools after each of these calls holds after a frame. -/
theorem filter_usm (start : P s.usmAmountQ8 s.usm) (input : Option Picture) (o : Outcome) :
    P (filter s input o).1.usmAmountQ8 (filter s input o).1.usm := by
  cases input with
  | none => exact start
  | some picture =>
    have received : P { s.emit (.input s.nextPicture) with nextPicture := s.nextPicture + 1 }.usmAmountQ8
      { s.emit (.input s.nextPicture) with nextPicture := s.nextPicture + 1 }.usm := start
    exact filterFrame_usm disable begins applies received s.nextPicture picture o

end Closed

theorem filter_pools (pools : Pools s.usm) (input : Option Picture) (o : Outcome) : Pools (filter s input o).1.usm :=
  filter_usm (P := fun _ w => Pools w) (fun _ _ => disabled_pools) (fun _ _ clock pools => begin_pools pools clock)
    (fun _ _ o pools => apply_pools pools o) pools input o

/-- The end of the filter destroys every pool that was created. -/
theorem close_pools (pools : Pools s.usm) (pool : Nat) :
    creates (close s).usm.trace pool ≤ 1 ∧ destroys (close s).usm.trace pool = creates (close s).usm.trace pool := by
  have kept : (closeBackend s).usm = s.usm := by
    rw [closeBackend]
    cases s.backend <;> rfl
  have ledger := disabled_ledger pools
  rw [close,disableUsm_usm,kept,ledger.created,ledger.destroyed]
  split_ifs <;> simp_all

/-! ## The pools that the opening leaves -/

theorem initUsmPool_pools (options : Tunable → Int) (chroma : Nat) (target : Dims) (cores usmPct : Int) (ok : Bool) :
    Pools (initUsmPool (R := R) options chroma target cores usmPct ok).2.1 := by
  have none : Pools (noUsm (R := R)) := .base rfl rfl ledger_nil
  simp only [initUsmPool]
  split_ifs with off
  · exact none
  · split
    · exact none
    · cases ok with
      | false => exact none
      | true =>
        have one : Ledger [.create 0] 1 [0] := UsmAdaptive.ledger_create ledger_nil (Nat.zero_le 1)
        change Pools (initAdaptiveUsm _ options _ cores target _)
        rw [initAdaptiveUsm]
        split_ifs
        · exact .base rfl rfl one
        · exact .base rfl rfl one
        · exact .adaptive (UsmAdaptive.init_inv _ _ _ _ _)

end AutoUpscale.Filter
