import AutoUpscale.Runs
import AutoUpscale.TunerInvariant

/-!
Whole runs of a tuner. The counters stay in their ranges (`Counters`), and the best
count changes only at the end of a confirmation that adopts the candidate, which the
number of changes records (`Switch`).
-/
namespace AutoUpscale.Tuner
open AutoUpscale.Runs (run reachable_preserves)
universe u
set_option linter.unusedSectionVars false
variable {R : Type u} [Double R] {t u v : State R}

/-- The ranges of the counters between two observations. -/
structure Counters (t : State R) : Prop where
  warmup : t.warmup ≤ 2
  remaining : t.remaining ≤ 16384
  drift : t.drift ≤ 2

/-- The best count and the number of its changes are as they were, or a confirmation
    ends and the candidate is the best. -/
inductive Switch (t u : State R) : Prop
  | stays (best : u.best = t.best) (changes : u.changes = t.changes)
  | adopts (confirm : t.phase = .confirm) (base : u.phase = .base) (best : u.best = t.candidate)
      (changes : u.changes = t.changes + 1)

/-! ## Windows -/

theorem window_switch (score : Score R) : Switch t (window t score) := by
  cases phase : t.phase with
  | base =>
    simp only [window,phase,beginTrial]
    split_ifs <;> exact .stays rfl rfl
  | trial =>
    simp only [window,phase]
    exact .stays rfl rfl
  | confirm =>
    simp only [window,phase,confirm]
    by_cases better : improves t.trial t.base && improves t.trial score
    · rw [if_pos better]
      exact .adopts phase rfl rfl rfl
    · rw [if_neg better]
      exact .stays rfl rfl
  | settled =>
    simp only [window,phase,monitor]
    split_ifs <;> exact .stays rfl rfl

theorem monitor_counters (counters : Counters t) (score : Score R) : Counters (monitor t score) := by
  rw [monitor]
  by_cases cooling : t.remaining > tunerRecheckFrames - tunerCooldownFrames
  · rw [if_pos cooling]
    exact counters
  rw [if_neg cooling]
  have drifted (drift : Nat) : Counters (if t.remaining > 0 ∧ drift < 3 then { t with drift := drift }
      else { t with drift := 0, cursor := 0, phase := .base }) := by
    by_cases wait : t.remaining > 0 ∧ drift < 3
    · rw [if_pos wait]
      exact ⟨counters.warmup,counters.remaining,Nat.le_of_lt_succ wait.2⟩
    · rw [if_neg wait]
      exact ⟨counters.warmup,counters.remaining,Nat.zero_le 2⟩
  exact drifted _

theorem window_counters (counters : Counters t) (score : Score R) : Counters (window t score) := by
  obtain ⟨warmup,remaining,drift⟩ := counters
  cases phase : t.phase with
  | base =>
    simp only [window,phase,beginTrial]
    split_ifs
    · exact ⟨warmup,le_refl _,Nat.zero_le 2⟩
    · exact ⟨warmup,remaining,drift⟩
    · exact ⟨warmup,le_refl _,Nat.zero_le 2⟩
    · exact ⟨warmup,remaining,drift⟩
  | trial =>
    simp only [window,phase]
    exact ⟨warmup,remaining,drift⟩
  | confirm =>
    simp only [window,phase,confirm]
    split_ifs <;> exact ⟨warmup,remaining,drift⟩
  | settled => simpa only [window,phase] using monitor_counters ⟨warmup,remaining,drift⟩ score

/-! ## Observations -/

/-- A sample enters the window: only the samples differ, and fewer frames remain. -/
structure Sampled (t u : State R) : Prop where
  counts : SameCounts t u
  changes : u.changes = t.changes
  counters : Counters t → Counters u

theorem sample_windowEnds (t : State R) (elapsed : R) : Sampled t (windowEnds (sample t elapsed)).2 := by
  have same := (sample_same t elapsed).trans (windowEnds_same (sample t elapsed))
  have fields : (windowEnds (sample t elapsed)).2.changes = t.changes ∧
      (windowEnds (sample t elapsed)).2.warmup = t.warmup ∧ (windowEnds (sample t elapsed)).2.drift = t.drift ∧
      (windowEnds (sample t elapsed)).2.remaining ≤ t.remaining := by
    have fewer : (sample t elapsed).remaining ≤ t.remaining := by
      simp only [sample]
      split_ifs <;> omega
    simp only [windowEnds,trialTooSlow]
    split_ifs <;> exact ⟨rfl,rfl,rfl,fewer⟩
  obtain ⟨changes,warmup,drift,remaining⟩ := fields
  exact ⟨same,changes,fun counters =>
    ⟨warmup ▸ counters.warmup,remaining.trans counters.remaining,drift ▸ counters.drift⟩⟩

theorem closeWindow_steps (counters : Counters t) : Switch t (closeWindow t) ∧ Counters (closeWindow t) := by
  have switch := window_switch (t := t) (score t.samples).1
  have kept := window_counters counters (score t.samples).1
  simp only [closeWindow]
  generalize window t (score t.samples).1 = u at switch kept
  have switched (warmup : Nat) : Switch t { u with samples := [], warmup := warmup } := by
    cases switch with
    | stays best changes => exact .stays best changes
    | adopts confirm base best changes => exact .adopts confirm base best changes
  by_cases moved : t.current ≠ u.current
  · rw [if_pos moved]
    exact ⟨switched tunerWarmup,le_refl 2,kept.remaining,kept.drift⟩
  · rw [if_neg moved]
    exact ⟨switched u.warmup,kept.warmup,kept.remaining,kept.drift⟩

theorem observe_steps (counters : Counters t) (elapsed : R) : Switch t (observe t elapsed) ∧ Counters (observe t elapsed) := by
  rw [observe]
  by_cases dropped : (!Double.isFinite elapsed || !Double.less ((0 : Nat) : R) elapsed) = true
  · rw [if_pos dropped]
    exact ⟨.stays rfl rfl,counters⟩
  rw [if_neg dropped]
  by_cases warming : t.warmup > 0
  · rw [if_pos warming]
    exact ⟨.stays rfl rfl,(Nat.sub_le t.warmup 1).trans counters.warmup,counters.remaining,counters.drift⟩
  rw [if_neg warming]
  obtain ⟨same,changes,kept⟩ := sample_windowEnds t elapsed
  dsimp only
  cases ends : (windowEnds (sample t elapsed)).1 with
  | false => exact ⟨.stays same.best changes,kept counters⟩
  | true =>
    obtain ⟨switch,kept⟩ := closeWindow_steps (kept counters)
    refine ⟨?_,kept⟩
    cases switch with
    | stays best more => exact .stays (best.trans same.best) (more.trans changes)
    | adopts confirm base best more =>
      exact .adopts (same.phase ▸ confirm) base (best.trans same.candidate) (more.trans (congrArg (· + 1) changes))

/-! ## Runs -/

/-- One call of `up_worker_tuner_observe`. -/
def step (t : State R) (elapsed : R) : Option (State R) := some (observe t elapsed)

/-- What holds between the observations of a run. -/
structure Running (t : State R) : Prop where
  inv : TunerInv t
  counters : Counters t

theorem running_init (initial limit : Int) : Running (init initial limit : State R) :=
  ⟨init_inv initial limit,le_refl 2,Nat.zero_le _,Nat.zero_le 2⟩

theorem running_step {elapsed : R} (running : Running t) (stepped : step t elapsed = some u) : Running u := by
  obtain rfl := Option.some.inj stepped
  exact ⟨(observe_cases running.inv elapsed).1,(observe_steps running.counters elapsed).2⟩

theorem running_run {initial limit : Int} {times : List R} (executed : run step (init initial limit) times = some t) : Running t :=
  reachable_preserves (fun _ _ _ running stepped => running_step running stepped) (running_init initial limit) ⟨times,executed⟩

/-- The invariant of a tuner over all its runs, and what one more observation does to
    the best count. -/
theorem tuner_runs {initial limit : Int} {times : List R} (executed : run step (init initial limit) times = some t) :
    (1 ≤ t.limit ∧ t.limit ≤ 64) ∧ (1 ≤ t.best ∧ t.best ≤ t.limit) ∧ (1 ≤ t.current ∧ t.current ≤ t.limit) ∧
    (t.phase ≠ .trial → t.current = t.best) ∧
    (t.phase = .trial → t.current = t.candidate ∧ t.candidate = t.cursor ∧ t.current ≠ t.best) ∧
    (t.phase = .confirm → t.candidate = t.cursor ∧ t.candidate ≠ t.best) ∧
    (0 ≤ t.cursor ∧ t.cursor ≤ t.limit) ∧ t.used ≤ 63 ∧ t.warmup ≤ 2 ∧ t.remaining ≤ 16384 ∧ t.drift ≤ 2 ∧
    ∀ elapsed : R, ((observe t elapsed).best ≠ t.best ↔ (observe t elapsed).changes = t.changes + 1) ∧
      ((observe t elapsed).changes = t.changes ∨ (observe t elapsed).changes = t.changes + 1) ∧
      ((observe t elapsed).best ≠ t.best →
        t.phase = .confirm ∧ (observe t elapsed).phase = .base ∧ (observe t elapsed).best = t.candidate) := by
  obtain ⟨inv,counters⟩ := running_run executed
  have room := inv.room
  have trying : t.phase = .trial → t.current = t.candidate ∧ t.candidate = t.cursor ∧ t.current ≠ t.best := by
    intro trial
    obtain ⟨same,_,other⟩ := inv.candidate (.inl trial)
    exact ⟨inv.trying trial,same,inv.trying trial ▸ other⟩
  have current : 1 ≤ t.current ∧ t.current ≤ t.limit := by
    by_cases trial : t.phase = .trial
    · obtain ⟨same,low,_⟩ := inv.candidate (.inl trial)
      rw [inv.trying trial]
      exact ⟨low,same ▸ inv.cursor.2⟩
    · rw [inv.resting trial]
      exact inv.best
  refine ⟨inv.limit,inv.best,current,inv.resting,trying,?_,inv.cursor,Nat.le_of_lt_succ room,counters.warmup,
    counters.remaining,counters.drift,?_⟩
  · intro confirm
    obtain ⟨same,_,other⟩ := inv.candidate (.inr confirm)
    exact ⟨same,other⟩
  · intro elapsed
    obtain ⟨switch,_⟩ := observe_steps counters elapsed
    cases switch with
    | stays best changes => simp [best,changes]
    | adopts confirm base best changes =>
      obtain ⟨_,_,other⟩ := inv.candidate (.inr confirm)
      simp [best,changes,confirm,base,other]

/-- After the first window of one worker, two are on trial. -/
theorem tuner_runs_trial : ∃ t : State ℚ, run step (init 1 8) (List.replicate 66 100 ++ [100,100,900,900]) = some t ∧
    t.phase = .trial ∧ t.current = 2 ∧ t.current = t.candidate ∧ t.candidate = t.cursor ∧ t.current ≠ t.best := by
  obtain ⟨t,executed⟩ := Option.isSome_iff_exists.mp
    (by decide +kernel : (run step (init (R := ℚ) 1 8) (List.replicate 66 100 ++ [100,100,900,900])).isSome = true)
  have phase : t.phase = .trial := Runs.run_value (fun t => t.phase) executed (by decide +kernel)
  have current : t.current = 2 := Runs.run_value (fun t => t.current) executed (by decide +kernel)
  obtain ⟨_,_,_,_,trying,_⟩ := tuner_runs executed
  exact ⟨t,executed,phase,current,trying phase⟩

end AutoUpscale.Tuner
