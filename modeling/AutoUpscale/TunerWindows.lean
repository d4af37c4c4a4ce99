import AutoUpscale.TunerRuns
import AutoUpscale.TunerScore
import Mathlib.Data.List.Induction

/-!
The windows of a tuner. An observation is dropped, discarded while the workers warm up,
or scored; `windows` counts the observations that end a window. Between two of them a
tuner holds the scored samples and nothing else changes (`filled_of_open`), and what
ends a window is its last sample, or the fourth one of a trial that is too slow
(`ends_cases`).
-/
namespace AutoUpscale.Tuner
universe u
set_option linter.unusedSectionVars false
variable {R : Type u} [Double R] {t u : State R} {elapsed : R}

/-- A time that is not dropped. -/
def valid (elapsed : R) : Bool := Double.isFinite elapsed && Double.less ((0 : Nat) : R) elapsed

/-- The observation ends a window. -/
def ends (t : State R) (elapsed : R) : Bool := valid elapsed && decide (t.warmup = 0) && (windowEnds (sample t elapsed)).1

/-- The tuner after the observations. -/
def after (t : State R) (times : List R) : State R := times.foldl observe t

/-- How many windows the observations end. -/
def windows (t : State R) : List R → Nat
  | [] => 0
  | elapsed :: rest => (if ends t elapsed then 1 else 0) + windows (observe t elapsed) rest

@[simp] theorem after_nil (t : State R) : after t [] = t := rfl

theorem after_append (t : State R) (first second : List R) : after t (first ++ second) = after (after t first) second :=
  List.foldl_append

theorem after_snoc (t : State R) (times : List R) (elapsed : R) : after t (times ++ [elapsed]) = observe (after t times) elapsed :=
  after_append t times [elapsed]

theorem windows_append (t : State R) (first second : List R) :
    windows t (first ++ second) = windows t first + windows (after t first) second := by
  induction first generalizing t with
  | nil => exact (Nat.zero_add _).symm
  | cons elapsed rest ih =>
    rw [List.cons_append,windows,windows,ih,Nat.add_assoc]
    rfl

theorem windows_snoc (t : State R) (times : List R) (elapsed : R) :
    windows t (times ++ [elapsed]) = windows t times + if ends (after t times) elapsed then 1 else 0 := by
  rw [windows_append]
  rfl

/-- A run of the tuner is a fold of its observations. -/
theorem run_after (t : State R) (times : List R) : Runs.run step t times = some (after t times) := by
  induction times generalizing t with
  | nil => rfl
  | cons elapsed rest ih => exact ih (observe t elapsed)

/-! ## One observation -/

theorem dropped_iff : (!Double.isFinite elapsed || !Double.less ((0 : Nat) : R) elapsed) = true ↔ valid elapsed = false := by
  rw [valid,Bool.or_eq_true,Bool.and_eq_false_iff,Bool.not_eq_true',Bool.not_eq_true']

theorem observe_invalid (t : State R) (dropped : valid elapsed = false) : observe t elapsed = t := by
  rw [observe,if_pos (dropped_iff.mpr dropped)]

theorem observe_warm (kept : valid elapsed = true) (warming : 0 < t.warmup) :
    observe t elapsed = { t with warmup := t.warmup - 1 } := by
  rw [observe,if_neg fun dropped => Bool.noConfusion ((dropped_iff.mp dropped).symm.trans kept),if_pos warming]

theorem observe_scored (kept : valid elapsed = true) (warm : t.warmup = 0) :
    observe t elapsed = if ends t elapsed then closeWindow (windowEnds (sample t elapsed)).2 else (windowEnds (sample t elapsed)).2 := by
  rw [observe,if_neg fun dropped => Bool.noConfusion ((dropped_iff.mp dropped).symm.trans kept),if_neg (by omega),ends,kept,
    decide_eq_true warm,Bool.true_and,Bool.true_and]

theorem ends_iff : ends t elapsed = true ↔ valid elapsed = true ∧ t.warmup = 0 ∧ (windowEnds (sample t elapsed)).1 = true := by
  rw [ends,Bool.and_eq_true,Bool.and_eq_true,decide_eq_true_iff,and_assoc]

theorem observe_ends (ended : ends t elapsed = true) : observe t elapsed = closeWindow (windowEnds (sample t elapsed)).2 := by
  obtain ⟨kept,warm,_⟩ := ends_iff.mp ended
  rw [observe_scored kept warm,if_pos ended]

/-- A scored sample is added to those of the window, and nothing else changes. -/
theorem windowEnds_sample (t : State R) (elapsed : R) :
    (windowEnds (sample t elapsed)).2 = { t with
      remaining := t.remaining - 1
      samples := (windowEnds (sample t elapsed)).2.samples } ∧
    (windowEnds (sample t elapsed)).2.samples.Perm (t.samples ++ [elapsed]) ∧
    (t.phase ≠ .trial → (windowEnds (sample t elapsed)).2.samples = t.samples ++ [elapsed]) := by
  have fewer : (if t.remaining > 0 then t.remaining - 1 else t.remaining) = t.remaining - 1 := by split <;> omega
  have whole : sample t elapsed = { t with
      remaining := t.remaining - 1
      samples := t.samples ++ [elapsed] } := by
    rw [sample,fewer]
  rw [windowEnds]
  by_cases room : (sample t elapsed).used < tunerSamples
  · rw [if_pos room]
    refine ⟨?_,trialTooSlow_samples (sample t elapsed),fun other => ?_⟩
    · rw [trialTooSlow]
      split_ifs <;> rw [whole]
    · rw [trialTooSlow,if_neg fun fourth => other fourth.1]
      rfl
  · rw [if_neg room]
    exact ⟨whole,List.Perm.refl _,fun _ => rfl⟩

/-! ## Windows -/

/-- The observations that are not dropped. -/
def accepted (times : List R) : List R := times.filter valid

/-- The ones that are scored, once the workers are warm. -/
def scored (t : State R) (times : List R) : List R := (accepted times).drop t.warmup

theorem accepted_append (first second : List R) : accepted (first ++ second) = accepted first ++ accepted second :=
  List.filter_append first second

theorem accepted_valid (kept : valid elapsed = true) : accepted [elapsed] = [elapsed] := by
  rw [accepted,List.filter_singleton,kept,cond_true]

theorem accepted_invalid (dropped : valid elapsed = false) : accepted [elapsed] = [] := by
  rw [accepted,List.filter_singleton,dropped,cond_false]

variable {times : List R}

theorem scored_cold (cold : (accepted times).length < t.warmup) (elapsed : R) : scored t (times ++ [elapsed]) = scored t times := by
  have single : (accepted [elapsed]).length ≤ 1 := List.length_filter_le _ _
  rw [scored,scored,accepted_append,List.drop_eq_nil_of_le (by rw [List.length_append]; omega),List.drop_eq_nil_of_le (by omega)]

theorem scored_warm (kept : valid elapsed = true) (warm : t.warmup ≤ (accepted times).length) :
    scored t (times ++ [elapsed]) = scored t times ++ [elapsed] := by
  rw [scored,scored,accepted_append,accepted_valid kept,List.drop_append_of_le_length warm]

/-- What a tuner holds after observations that end no window. -/
structure Filled (t u : State R) (times : List R) : Prop where
  rest : ∃ warmup remaining samples, u = { t with warmup := warmup, remaining := remaining, samples := samples }
  warmup : u.warmup = t.warmup - (accepted times).length
  remaining : u.remaining = t.remaining - (scored t times).length
  samples : u.samples.Perm (t.samples ++ scored t times)
  plain : t.phase ≠ .trial → u.samples = t.samples ++ scored t times

theorem Filled.nil (t : State R) : Filled t t [] :=
  ⟨⟨_,_,_,rfl⟩,rfl,by simp [accepted,scored],by simp [accepted,scored],fun _ => by simp [accepted,scored]⟩

theorem Filled.used (filled : Filled t u times) : u.used = t.used + (scored t times).length := by
  rw [State.used,filled.samples.length_eq,List.length_append]
  rfl

theorem Filled.dropped (filled : Filled t u times) (dropped : valid elapsed = false) : Filled t u (times ++ [elapsed]) := by
  have same : accepted (times ++ [elapsed]) = accepted times := by
    rw [accepted_append,accepted_invalid dropped,List.append_nil]
  have sameScored : scored t (times ++ [elapsed]) = scored t times := by rw [scored,same,scored]
  constructor
  · exact filled.rest
  · rw [same]; exact filled.warmup
  · rw [sameScored]; exact filled.remaining
  · rw [sameScored]; exact filled.samples
  · rw [sameScored]; exact filled.plain

theorem Filled.warmed (filled : Filled t u times) (kept : valid elapsed = true) (warming : 0 < u.warmup) :
    Filled t { u with warmup := u.warmup - 1 } (times ++ [elapsed]) := by
  have warmup := filled.warmup
  have same := scored_cold (by omega : (accepted times).length < t.warmup) elapsed
  obtain ⟨_,_,_,rest⟩ := filled.rest
  constructor
  · rw [rest]
    exact ⟨_,_,_,rfl⟩
  · rw [accepted_append,accepted_valid kept,List.length_append,List.length_singleton]
    dsimp only
    omega
  · rw [same]; exact filled.remaining
  · rw [same]; exact filled.samples
  · rw [same]; exact filled.plain

/-- One more sample, before the window that it may end is closed. -/
theorem Filled.scored (filled : Filled t u times) (kept : valid elapsed = true) (warm : u.warmup = 0) :
    Filled t (windowEnds (sample u elapsed)).2 (times ++ [elapsed]) := by
  obtain ⟨whole,perm,plain⟩ := windowEnds_sample u elapsed
  obtain ⟨_,_,_,rest⟩ := filled.rest
  have warmup := filled.warmup
  have more := scored_warm kept (by omega : t.warmup ≤ (accepted times).length)
  have samePhase : u.phase = t.phase := by rw [rest]
  refine ⟨?_,?_,?_,?_,fun other => ?_⟩
  · rw [whole,rest]
    exact ⟨_,_,_,rfl⟩
  · rw [whole,accepted_append,List.length_append]
    dsimp only
    omega
  · rw [whole,more,List.length_append,List.length_singleton]
    dsimp only
    rw [filled.remaining]
    omega
  · rw [more,← List.append_assoc]
    exact perm.trans (filled.samples.append_right [elapsed])
  · rw [more,← List.append_assoc,← filled.plain other]
    exact plain (samePhase ▸ other)

theorem filled_of_open (none : windows t times = 0) : Filled t (after t times) times := by
  induction times using List.reverseRecOn with
  | nil => exact Filled.nil t
  | append_singleton times elapsed ih =>
    rw [windows_snoc] at none
    have filled := ih (by omega)
    have open_ : ends (after t times) elapsed ≠ true := by
      intro ended
      rw [if_pos ended] at none
      omega
    rw [after_snoc]
    by_cases kept : valid elapsed = true
    · by_cases warm : (after t times).warmup = 0
      · rw [observe_scored kept warm,if_neg open_]
        exact filled.scored kept warm
      · rw [observe_warm kept (by omega)]
        exact filled.warmed kept (by omega)
    · rw [Bool.not_eq_true] at kept
      rw [observe_invalid _ kept]
      exact filled.dropped kept

/-- A window ends when it is full, or with the fourth sample of a trial whose mean by then
    is half as long again as that of the best count. -/
theorem ends_cases (room : t.used < tunerSamples) (ended : ends t elapsed = true) :
    (windowEnds (sample t elapsed)).2.used = tunerSamples ∨
    (t.phase = .trial ∧ (windowEnds (sample t elapsed)).2.used = 4 ∧
      ∃ early : List R, early.Perm (windowEnds (sample t elapsed)).2.samples ∧
        Double.less t.base.mean ((score early).1.mean / 1.5) = true) := by
  obtain ⟨_,_,closed⟩ := ends_iff.mp ended
  have one : (sample t elapsed).used = t.used + 1 := List.length_append
  rw [windowEnds] at closed ⊢
  by_cases short : (sample t elapsed).used < tunerSamples
  · rw [if_pos short] at closed ⊢
    refine .inr ?_
    rw [trialTooSlow] at closed ⊢
    by_cases fourth : (sample t elapsed).phase = .trial ∧ (sample t elapsed).used = 4
    · rw [if_pos fourth] at closed ⊢
      exact ⟨fourth.1,(score_length _).trans fourth.2,(sample t elapsed).samples,(score_samples _).symm,closed⟩
    · rw [if_neg fourth] at closed
      exact Bool.noConfusion closed
  · rw [if_neg short]
    exact .inl (show (sample t elapsed).used = tunerSamples by omega)

/-- The counts change only where a window ends. -/
theorem observe_still (open_ : ends t elapsed ≠ true) : SameCounts t (observe t elapsed) := by
  by_cases kept : valid elapsed = true
  · by_cases warm : t.warmup = 0
    · rw [observe_scored kept warm,if_neg open_]
      exact (sample_same t elapsed).trans (windowEnds_same (sample t elapsed))
    · rw [observe_warm kept (by omega)]
      exact ⟨rfl,rfl,rfl,rfl,rfl,rfl⟩
  · rw [Bool.not_eq_true] at kept
    rw [observe_invalid t kept]
    exact SameCounts.refl t

theorem observe_moved (inv : Counts t) (ended : ends t elapsed = true) : Window t (observe t elapsed) := by
  have same := (sample_same t elapsed).trans (windowEnds_same (sample t elapsed))
  rw [observe_ends ended]
  exact (closeWindow_cases (same.counts inv)).2.transport same (SameCounts.refl _)

theorem window_warmup (t : State R) (score : Score R) : (window t score).warmup = t.warmup := by
  cases phase : t.phase with
  | base =>
    simp only [window,phase,beginTrial]
    split_ifs <;> rfl
  | trial => simp only [window,phase]
  | confirm =>
    simp only [window,phase,confirm]
    split_ifs <;> rfl
  | settled =>
    simp only [window,phase,monitor]
    split_ifs <;> rfl

/-- A window that ends is started again without samples; only a switch of the count asks
    for another warm-up. -/
theorem observe_closed (ended : ends t elapsed = true) : (observe t elapsed).used = 0 ∧
    (observe t elapsed).warmup = if t.current ≠ (observe t elapsed).current then tunerWarmup else 0 := by
  obtain ⟨_,warm,_⟩ := ends_iff.mp ended
  have same := (sample_same t elapsed).trans (windowEnds_same (sample t elapsed))
  have cold : (windowEnds (sample t elapsed)).2.warmup = 0 := by rw [(windowEnds_sample t elapsed).1]; exact warm
  rw [observe_ends ended,← same.current,closeWindow]
  generalize (windowEnds (sample t elapsed)).2 = u at cold
  have kept : (window u (score u.samples).1).warmup = 0 := (window_warmup u _).trans cold
  dsimp only
  by_cases moved : u.current ≠ (window u (score u.samples).1).current
  · rw [if_pos moved,if_pos moved]
    exact ⟨rfl,rfl⟩
  · rw [if_neg moved,if_neg moved]
    exact ⟨rfl,kept⟩

end AutoUpscale.Tuner
