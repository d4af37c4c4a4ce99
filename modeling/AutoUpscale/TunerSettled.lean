import AutoUpscale.TunerSearch

/-!
A tuner that has settled. It watches whole windows of 64 samples, and one counter of
frames serves as the pause before the first comparison, as the time of the last one and
as the number of windows: `watch` is the state after the samples so far, in closed form
(`watch_step`). So it takes three shifted windows in a row, from the fourth on, or the
256th window, to search again (`settled_bounds`).
-/
namespace AutoUpscale.Tuner
universe u
set_option linter.unusedSectionVars false
variable {R : Type u} [Double R] {t u s : State R} {elapsed : R}

/-- Whether a window is far from the score that the tuner settled with. -/
def shifted (steady score : Score R) : Bool :=
  Double.less steady.mean (score.mean / 1.35) || Double.less score.mean (steady.mean * 0.65) || tailRegressed score steady

/-- The `k`th window of the samples, counted from 1. -/
def block (values : List R) (k : Nat) : List R := (values.drop (64 * (k - 1))).take 64

/-- Whether the `k`th window shows a shift. -/
def shifts (steady : Score R) (values : List R) (k : Nat) : Bool := shifted steady (score (block values k)).1

/-- How many windows up to the `k`th one have shifted in a row, from the fourth on. -/
def streak (shift : Nat → Bool) : Nat → Nat
  | 0 => 0
  | k + 1 => if 4 ≤ k + 1 ∧ shift (k + 1) = true then streak shift k + 1 else 0

/-- What ends the watch with the `k`th window. -/
def Leaves (shift : Nat → Bool) (k : Nat) : Prop :=
  k = 256 ∨ (6 ≤ k ∧ shift (k - 2) = true ∧ shift (k - 1) = true ∧ shift k = true)

instance (shift : Nat → Bool) (k : Nat) : Decidable (Leaves shift k) := inferInstanceAs (Decidable (_ ∨ _))

theorem streak_congr {shift other : Nat → Bool} {k : Nat} (same : ∀ j, 1 ≤ j → j ≤ k → shift j = other j) :
    streak shift k = streak other k := by
  induction k with
  | zero => rfl
  | succ k ih =>
    rw [streak,streak,ih fun j low high => same j low (by omega),same (k + 1) (by omega) (le_refl _)]

theorem streak_early (shift : Nat → Bool) {k : Nat} (early : k < 4) : streak shift k = 0 := by
  cases k with
  | zero => rfl
  | succ k => exact if_neg fun both => by omega

theorem streak_succ (shift : Nat → Bool) (k m : Nat) :
    m + 1 ≤ streak shift (k + 1) ↔ 4 ≤ k + 1 ∧ shift (k + 1) = true ∧ m ≤ streak shift k := by
  rw [streak]
  by_cases both : 4 ≤ k + 1 ∧ shift (k + 1) = true
  · rw [if_pos both]
    exact ⟨fun more => ⟨both.1,both.2,by omega⟩,fun more => by omega⟩
  · rw [if_neg both]
    exact ⟨fun more => by omega,fun more => absurd ⟨more.1,more.2.1⟩ both⟩

/-- Three in a row end with the sixth window at the earliest. -/
theorem streak_three (shift : Nat → Bool) (k : Nat) :
    3 ≤ streak shift k ↔ 6 ≤ k ∧ shift (k - 2) = true ∧ shift (k - 1) = true ∧ shift k = true := by
  by_cases late : 3 ≤ k
  · obtain ⟨j,rfl⟩ : ∃ j, k = j + 3 := ⟨k - 3,by omega⟩
    rw [streak_succ,streak_succ,streak_succ]
    constructor
    · rintro ⟨_,last,_,middle,first,shift,_⟩
      exact ⟨by omega,shift,middle,last⟩
    · rintro ⟨six,shift,middle,last⟩
      exact ⟨by omega,last,by omega,middle,by omega,shift,Nat.zero_le _⟩
  · rw [streak_early shift (by omega)]
    omega

theorem monitor_eq (t : State R) (score : Score R) : monitor t score =
    if t.remaining > tunerRecheckFrames - tunerCooldownFrames then t
    else if t.remaining > 0 ∧ (if shifted t.steady score then t.drift + 1 else 0) < 3
      then { t with drift := if shifted t.steady score then t.drift + 1 else 0 }
      else { t with cursor := 0, phase := .base, drift := 0 } := rfl

/-- The `k + 1`st window ends the watch or adds to the streak. -/
theorem monitor_window_eq {t : State R} {score : Score R} {shift : Nat → Bool} {k : Nat} (few : k < 256)
    (remaining : t.remaining = 16384 - 64 * (k + 1)) (drift : t.drift = streak shift k)
    (last : shifted t.steady score = shift (k + 1)) :
    monitor t score = if Leaves shift (k + 1) then { t with cursor := 0, phase := .base, drift := 0 }
      else { t with drift := streak shift (k + 1) } := by
  have three := streak_three shift (k + 1)
  have pause : t.remaining > tunerRecheckFrames - tunerCooldownFrames ↔ k + 1 < 4 := by
    simp only [tunerRecheckFrames,tunerCooldownFrames]
    omega
  rw [monitor_eq,last]
  by_cases early : k + 1 < 4
  · have stays : ¬ Leaves shift (k + 1) := by
      rintro (last | ⟨six,_⟩) <;> omega
    have same : t.drift = streak shift (k + 1) := by rw [drift,streak_early shift early,streak_early shift (by omega)]
    rw [if_pos (pause.mpr early),if_neg stays,← same]
  · have next : (if shift (k + 1) = true then t.drift + 1 else 0) = streak shift (k + 1) := by
      rw [streak,drift]
      by_cases moved : shift (k + 1) = true
      · rw [if_pos moved,if_pos ⟨by omega,moved⟩]
      · rw [if_neg moved,if_neg fun both => moved both.2]
    rw [if_neg (pause.not.mpr early),next]
    by_cases leaves : Leaves shift (k + 1)
    · have done : ¬ (t.remaining > 0 ∧ streak shift (k + 1) < 3) := by
        rcases leaves with last | row
        · omega
        · have row := three.mpr row
          omega
      rw [if_neg done,if_pos leaves]
    · have stays : t.remaining > 0 ∧ streak shift (k + 1) < 3 := by
        refine ⟨?_,?_⟩
        · have other : k + 1 ≠ 256 := fun last => leaves (.inl last)
          omega
        · by_contra row
          exact leaves (.inr (three.mp (by omega)))
      rw [if_pos stays,if_neg leaves]

/-- A settled tuner after the samples, all of which leave it settled. -/
def watch (s : State R) (values : List R) : State R := { s with
  remaining := 16384 - values.length
  samples := values.drop (64 * (values.length / 64))
  drift := streak (shifts s.steady values) (values.length / 64) }

/-- What a tuner that has just settled is like. -/
structure Fresh (s : State R) : Prop where
  phase : s.phase = .settled
  warmup : s.warmup = 0
  remaining : s.remaining = 16384
  drift : s.drift = 0
  samples : s.samples = []

theorem watch_nil (fresh : Fresh s) : watch s [] = s := by
  have remaining := fresh.remaining
  have drift := fresh.drift
  have samples := fresh.samples
  cases s
  subst remaining drift samples
  simp [watch,streak]

theorem block_append {values more : List R} {k : Nat} (positive : 1 ≤ k) (within : 64 * k ≤ values.length) :
    block (values ++ more) k = block values k := by
  rw [block,block,List.drop_append_of_le_length (by omega),List.take_append_of_le_length (by rw [List.length_drop]; omega)]

theorem shifts_append (steady : Score R) {values : List R} (more : List R) {k : Nat} (positive : 1 ≤ k)
    (within : 64 * k ≤ values.length) : shifts steady (values ++ more) k = shifts steady values k := by
  rw [shifts,block_append positive within,shifts]

/-- Of a tuner that is not on trial a window ends when it is full. -/
theorem windowEnds_plain (other : t.phase ≠ .trial) : windowEnds t = (decide (t.used = tunerSamples ∨ tunerSamples < t.used),t) := by
  rw [windowEnds]
  by_cases room : t.used < tunerSamples
  · rw [if_pos room,trialTooSlow,if_neg fun fourth => other fourth.1,decide_eq_false (by omega)]
  · rw [if_neg room,decide_eq_true (by omega)]

theorem closeWindow_settled (settled : t.phase = .settled) :
    closeWindow t = { monitor t (score t.samples).1 with samples := [] } := by
  have same : (monitor t (score t.samples).1).current = t.current := by
    rw [monitor_eq]
    split_ifs <;> rfl
  rw [closeWindow,window,settled]
  dsimp only
  rw [if_neg fun moved => moved same.symm]

theorem watch_used (s : State R) (values : List R) : (watch s values).used = values.length % 64 := by
  rw [State.used,watch,List.length_drop]
  omega

/-- One more sample, before the window that it may fill is scored. -/
theorem watch_sample (s : State R) {values : List R} (few : values.length < 16384) (elapsed : R) :
    sample (watch s values) elapsed = { s with
      remaining := 16384 - (values.length + 1)
      samples := (values ++ [elapsed]).drop (64 * (values.length / 64))
      drift := streak (shifts s.steady (values ++ [elapsed])) (values.length / 64) } := by
  have shift : streak (shifts s.steady (values ++ [elapsed])) (values.length / 64) =
      streak (shifts s.steady values) (values.length / 64) :=
    streak_congr fun j low high => shifts_append s.steady [elapsed] low (by omega)
  rw [watch,shift,List.drop_append_of_le_length (by omega),sample]
  dsimp only
  rw [if_pos (by omega),Nat.sub_sub]

/-- A sample that does not fill the window is kept. -/
theorem watch_fills (s : State R) {values : List R} (few : values.length < 16384) (open_ : (values.length + 1) % 64 ≠ 0) :
    sample (watch s values) elapsed = watch s (values ++ [elapsed]) := by
  have same : (values.length + 1) / 64 = values.length / 64 := by omega
  rw [watch_sample s few,watch,List.length_append,List.length_singleton,same]

/-- One that fills it is compared with the score that the tuner settled with. -/
theorem watch_closes (fresh : Fresh s) {values : List R} (few : values.length < 16384) (full : (values.length + 1) % 64 = 0) :
    closeWindow (sample (watch s values) elapsed) =
      if Leaves (shifts s.steady (values ++ [elapsed])) ((values.length + 1) / 64)
        then { watch s (values ++ [elapsed]) with cursor := 0, phase := .base, drift := 0 }
        else watch s (values ++ [elapsed]) := by
  obtain ⟨k,count⟩ : ∃ k, values.length + 1 = 64 * (k + 1) := ⟨values.length / 64,by omega⟩
  have windows : values.length / 64 = k := by omega
  have next : (values.length + 1) / 64 = k + 1 := by omega
  have length : (values ++ [elapsed]).length = 64 * (k + 1) := by rw [List.length_append,List.length_singleton,count]
  have filled : (values ++ [elapsed]).drop (64 * k) = block (values ++ [elapsed]) (k + 1) := by
    rw [block,Nat.add_sub_cancel,List.take_of_length_le (by rw [List.length_drop]; omega)]
  have empty : (values ++ [elapsed]).drop (64 * (k + 1)) = [] := List.drop_eq_nil_of_le (le_of_eq length)
  have before := watch_sample s few elapsed
  have after : watch s (values ++ [elapsed]) = { s with
      remaining := 16384 - 64 * (k + 1)
      samples := []
      drift := streak (shifts s.steady (values ++ [elapsed])) (k + 1) } := by
    rw [watch,length,show 64 * (k + 1) / 64 = k + 1 by omega,empty]
  rw [windows,filled,count] at before
  have settled : (sample (watch s values) elapsed).phase = .settled := fresh.phase
  generalize sample (watch s values) elapsed = t at before settled
  have monitored := monitor_window_eq (by omega : k < 256) (show t.remaining = _ by rw [before])
    (show t.drift = streak (shifts s.steady (values ++ [elapsed])) k by rw [before])
    (show shifted t.steady (score t.samples).1 = shifts s.steady (values ++ [elapsed]) (k + 1) by rw [before]; rfl)
  rw [closeWindow_settled settled,monitored,before,next,after]
  split_ifs <;> rfl

theorem watch_plain (fresh : Fresh s) (values : List R) (elapsed : R) : (sample (watch s values) elapsed).phase ≠ .trial := by
  show s.phase ≠ .trial
  rw [fresh.phase]
  exact Phase.noConfusion

theorem watch_ends (fresh : Fresh s) (values : List R) (kept : valid elapsed = true) :
    ends (watch s values) elapsed = decide ((values.length + 1) % 64 = 0) := by
  have used : (sample (watch s values) elapsed).used = values.length % 64 + 1 := by
    rw [← watch_used s values]
    exact List.length_append
  have warm : (watch s values).warmup = 0 := fresh.warmup
  rw [ends,kept,decide_eq_true warm,windowEnds_plain (watch_plain fresh values elapsed),used,Bool.true_and,Bool.true_and]
  simp only [tunerSamples]
  exact decide_eq_decide.mpr (by omega)

/-- A sample of a settled tuner. -/
theorem watch_step (fresh : Fresh s) {values : List R} (few : values.length < 16384) (kept : valid elapsed = true) :
    observe (watch s values) elapsed =
      if (values.length + 1) % 64 = 0 ∧ Leaves (shifts s.steady (values ++ [elapsed])) ((values.length + 1) / 64)
        then { watch s (values ++ [elapsed]) with cursor := 0, phase := .base, drift := 0 }
        else watch s (values ++ [elapsed]) := by
  have warm : (watch s values).warmup = 0 := fresh.warmup
  rw [observe_scored kept warm,watch_ends fresh values kept,windowEnds_plain (watch_plain fresh values elapsed)]
  dsimp only
  by_cases full : (values.length + 1) % 64 = 0
  · rw [decide_eq_true full,if_pos rfl,watch_closes fresh few full]
    simp only [full,true_and]
  · rw [decide_eq_false full,if_neg Bool.false_ne_true,if_neg fun both => full both.1,watch_fills s few full]

/-- What the next observation does to a tuner that has been settled so far. -/
theorem watch_next (fresh : Fresh s) {values : List R} (few : values.length < 16384) (next : R) :
    (if ends (watch s values) next then 1 else 0) + values.length / 64 = (values ++ accepted [next]).length / 64 ∧
    ((observe (watch s values) next).phase ≠ .settled ↔
      ∃ k, valid next = true ∧ (values ++ accepted [next]).length = 64 * k ∧ Leaves (shifts s.steady (values ++ accepted [next])) k) ∧
    ((observe (watch s values) next).phase ≠ .settled →
      (observe (watch s values) next).phase = .base ∧ (observe (watch s values) next).cursor = 0) := by
  by_cases kept : valid next = true
  · rw [watch_step fresh few kept,watch_ends fresh values kept,accepted_valid kept]
    have length : (values ++ [next]).length = values.length + 1 := by rw [List.length_append,List.length_singleton]
    refine ⟨?_,?_⟩
    · rw [length]
      by_cases full : (values.length + 1) % 64 = 0
      · rw [decide_eq_true full,if_pos rfl]
        omega
      · rw [decide_eq_false full,if_neg Bool.false_ne_true]
        omega
    by_cases leaves : (values.length + 1) % 64 = 0 ∧ Leaves (shifts s.steady (values ++ [next])) ((values.length + 1) / 64)
    · rw [if_pos leaves]
      exact ⟨⟨fun _ => ⟨(values.length + 1) / 64,kept,by omega,leaves.2⟩,fun _ => Phase.noConfusion⟩,fun _ => ⟨rfl,rfl⟩⟩
    · rw [if_neg leaves]
      refine ⟨⟨fun moved => absurd fresh.phase moved,?_⟩,fun moved => absurd fresh.phase moved⟩
      rintro ⟨k,_,whole,last⟩
      rw [length] at whole
      have same : (values.length + 1) / 64 = k := by omega
      exact absurd ⟨by omega,same ▸ last⟩ leaves
  · have quiet : ends (watch s values) next ≠ true := fun ended => kept (ends_iff.mp ended).1
    have dropped : valid next = false := by simpa using kept
    rw [if_neg quiet,observe_invalid _ dropped,accepted_invalid dropped,List.append_nil]
    refine ⟨Nat.zero_add _,⟨fun moved => absurd fresh.phase moved,?_⟩,fun moved => absurd fresh.phase moved⟩
    rintro ⟨k,accepts,_⟩
    exact absurd accepts kept

/-! ## Runs -/

/-- The state after observations that leave the tuner settled. -/
theorem after_watch (fresh : Fresh s) {later : List R} (stays : ∀ before, before <+: later → (after s before).phase = .settled) :
    after s later = watch s (accepted later) ∧ (accepted later).length < 16384 ∧
      windows s later = (accepted later).length / 64 := by
  induction later using List.reverseRecOn with
  | nil => exact ⟨(watch_nil fresh).symm,by simp [accepted],by simp [accepted,windows]⟩
  | append_singleton later elapsed ih =>
    obtain ⟨state,few,count⟩ := ih fun before early => stays before (early.trans (List.prefix_append later [elapsed]))
    have last := stays (later ++ [elapsed]) (List.prefix_refl _)
    have windows := (watch_next fresh few elapsed).1
    rw [after_snoc,state] at last
    rw [after_snoc,windows_snoc,state,count,accepted_append]
    refine and_assoc.mp ⟨?_,(Nat.add_comm _ _).trans windows⟩
    by_cases kept : valid elapsed = true
    · have step := watch_step fresh few kept
      rw [accepted_valid kept,List.length_append,List.length_singleton]
      by_cases leaves : ((accepted later).length + 1) % 64 = 0 ∧
          Leaves (shifts s.steady (accepted later ++ [elapsed])) (((accepted later).length + 1) / 64)
      · rw [step,if_pos leaves] at last
        cases last
      · rw [step,if_neg leaves]
        refine ⟨rfl,?_⟩
        by_contra many
        exact leaves ⟨by omega,.inl (by omega)⟩
    · rw [Bool.not_eq_true] at kept
      rw [observe_invalid _ kept,accepted_invalid kept,List.append_nil]
      exact ⟨rfl,few⟩

theorem closeWindow_settles (base : u.phase = .base) (settles : (closeWindow u).phase = .settled) :
    (closeWindow u).remaining = 16384 ∧ (closeWindow u).drift = 0 ∧ (closeWindow u).steady = (score u.samples).1 := by
  rw [closeWindow,window,base] at settles ⊢
  dsimp only at settles ⊢
  rw [beginTrial] at settles ⊢
  dsimp only at settles ⊢
  split_ifs at settles ⊢ <;> exact ⟨rfl,rfl,rfl⟩

/-- A tuner settles at the end of a base window, with the score of its samples. -/
theorem settles_fresh (inv : Counts t) (unsettled : t.phase ≠ .settled) (settles : (observe t elapsed).phase = .settled) :
    Fresh (observe t elapsed) ∧ (observe t elapsed).steady = (score (t.samples ++ [elapsed])).1 := by
  by_cases ended : ends t elapsed = true
  · have moved : t.phase = .base ∧ (observe t elapsed).current = t.best := by
      cases observe_moved inv ended with
      | watch phase best current candidate cursor watching => exact absurd watching unsettled
      | settle base phase best current cursor => exact ⟨base,current⟩
      | explore base phase best candidate current ahead bound other => cases phase.symm.trans settles
      | tried trial phase best current candidate cursor => cases phase.symm.trans settles
      | decide confirm phase best current cursor => cases phase.symm.trans settles
      | search settled phase best current cursor => exact absurd settled unsettled
    obtain ⟨base,current⟩ := moved
    have other : t.phase ≠ .trial := by rw [base]; exact Phase.noConfusion
    have same := ((sample_same t elapsed).trans (windowEnds_same (sample t elapsed))).phase.trans base
    obtain ⟨_,_,plain⟩ := windowEnds_sample t elapsed
    obtain ⟨empty,warmup⟩ := observe_closed ended
    have still : ¬ t.current ≠ (observe t elapsed).current := fun moved => moved ((inv.resting other).trans current.symm)
    rw [if_neg still] at warmup
    have closed := observe_ends ended
    have whole := closeWindow_settles same (closed ▸ settles)
    rw [← closed,plain other] at whole
    exact ⟨⟨settles,warmup,whole.1,whole.2.1,List.length_eq_zero_iff.mp empty⟩,whole.2.2⟩
  · exact absurd ((observe_still ended).phase.symm.trans settles) unsettled

/-- From the moment a tuner settles, it searches again with the sample that completes the
    256th window, or one from the sixth on that is the third in a row to show a shift,
    and with no other. -/
theorem settled_bounds {initial limit : Int} {times : List R} (executed : Runs.run step (init initial limit) times = some t)
    (unsettled : t.phase ≠ .settled) (settles : (observe t elapsed).phase = .settled) :
    let s := observe t elapsed
    s.steady = (score (t.samples ++ [elapsed])).1 ∧
    (∀ later, (∀ before, before <+: later → (after s before).phase = .settled) → ∀ next,
      let values := accepted (later ++ [next])
      windows s (later ++ [next]) = values.length / 64 ∧
      ((after s (later ++ [next])).phase ≠ .settled ↔
        ∃ k, valid next = true ∧ values.length = 64 * k ∧ Leaves (shifts s.steady values) k) ∧
      ((after s (later ++ [next])).phase ≠ .settled →
        384 ≤ values.length ∧ (after s (later ++ [next])).phase = .base ∧ (after s (later ++ [next])).cursor = 0)) ∧
    ∀ later, 16384 ≤ (accepted later).length → ∃ before, before <+: later ∧ (after s before).phase ≠ .settled := by
  obtain ⟨fresh,steady⟩ := settles_fresh (running_run executed).inv.toCounts unsettled settles
  refine ⟨steady,fun later stays next => ?_,fun later long => ?_⟩
  · obtain ⟨state,few,count⟩ := after_watch fresh stays
    obtain ⟨windows,leaves,again⟩ := watch_next fresh few next
    dsimp only
    rw [after_snoc,windows_snoc,state,count,accepted_append]
    refine ⟨(Nat.add_comm _ _).trans windows,leaves,fun moved => ⟨?_,again moved⟩⟩
    obtain ⟨k,_,whole,last | ⟨six,_⟩⟩ := leaves.mp moved <;> omega
  · by_contra none
    have stays : ∀ before, before <+: later → (after (observe t elapsed) before).phase = .settled := fun before early =>
      by_contra fun moved => none ⟨before,early,moved⟩
    have few := (after_watch fresh stays).2.1
    omega

/-- A tuner of one worker settles with its first window. -/
theorem settled_bounds_single : ∃ s : State ℚ, after (init 1 1) (List.replicate 66 100) = s ∧
    ∃ before, before <+: List.replicate 20000 (100 : ℚ) ∧ (after s before).phase ≠ .settled := by
  refine ⟨_,rfl,?_⟩
  have start : List.replicate 66 (100 : ℚ) = List.replicate 65 100 ++ [100] := by decide +kernel
  have kept : accepted (List.replicate 20000 (100 : ℚ)) = List.replicate 20000 100 :=
    List.filter_eq_self.mpr fun elapsed member => by
      rw [List.eq_of_mem_replicate member]
      decide +kernel
  obtain ⟨_,_,moves⟩ := settled_bounds (run_after (init 1 1) (List.replicate 65 (100 : ℚ))) (by decide +kernel)
    (show (observe (after (init 1 1) (List.replicate 65 100)) 100).phase = .settled by decide +kernel)
  rw [start,after_snoc]
  refine moves _ ?_
  rw [kept,List.length_replicate]
  decide

end AutoUpscale.Tuner
