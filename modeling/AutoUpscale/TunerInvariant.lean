import AutoUpscale.Tuner

/-!
What every observation keeps of a tuner: the counts stay within the limit, only
a trial runs another count than the best, and the best changes at the end of a
confirmation, to the candidate. Nothing here depends on what comparisons of times
answer.
-/
namespace AutoUpscale.Tuner
universe u
set_option linter.unusedSectionVars false
variable {R : Type u} [Double R] {t u : State R}

/-- The counts of a tuner. -/
structure Counts (t : State R) : Prop where
  limit : 1 ≤ t.limit ∧ t.limit ≤ threadsMax
  best : 1 ≤ t.best ∧ t.best ≤ t.limit
  cursor : 0 ≤ t.cursor ∧ t.cursor ≤ t.limit
  resting : t.phase ≠ .trial → t.current = t.best
  trying : t.phase = .trial → t.current = t.candidate
  candidate : t.phase = .trial ∨ t.phase = .confirm →
    t.candidate = t.cursor ∧ 1 ≤ t.candidate ∧ t.candidate ≠ t.best

/-- A tuner between two observations. -/
structure TunerInv (t : State R) : Prop extends Counts t where
  room : t.used < tunerSamples

theorem init_inv (initial limit : Int) : TunerInv (init initial limit : State R) := by
  have bounds : ∀ x : Int, 1 ≤ (if (if x < 1 then 1 else x) > threadsMax then threadsMax else if x < 1 then 1 else x) ∧
      (if (if x < 1 then 1 else x) > threadsMax then threadsMax else if x < 1 then 1 else x) ≤ threadsMax := by
    intro x
    simp only [threadsMax]
    split_ifs <;> omega
  refine ⟨⟨?_,?_,?_,?_,?_,?_⟩,?_⟩
  · exact bounds limit
  · obtain ⟨low,_⟩ := bounds limit
    simp only [init]
    generalize (if (if limit < 1 then 1 else limit) > threadsMax then threadsMax
      else if limit < 1 then 1 else limit) = top at low ⊢
    split_ifs <;> omega
  · obtain ⟨low,_⟩ := bounds limit
    exact ⟨le_refl 0,by simpa [init] using le_trans (by decide) low⟩
  · intro _; rfl
  · intro trial; simp [init] at trial
  · intro phase; simp [init] at phase
  · simp [init,State.used,tunerSamples]

/-! ## The next count -/

theorem nextCount_bounds (previous limit : Int) :
    nextCount previous limit = 0 ∨ (previous < nextCount previous limit ∧ nextCount previous limit ≤ limit) := by
  simp only [nextCount]
  by_cases done : previous ≥ limit
  · exact .inl (if_pos done)
  · rw [if_neg done]
    cases found : counts.find? (· > previous) with
    | none => exact .inl rfl
    | some count =>
      have greater : previous < count := by simpa using List.find?_some found
      refine .inr ?_
      show previous < (if count < limit then count else limit) ∧ (if count < limit then count else limit) ≤ limit
      split_ifs <;> omega

/-! ## Windows -/

/-- What one window does to the counts of a tuner. -/
inductive Window (t u : State R) : Prop
  | watch (phase : u.phase = t.phase) (best : u.best = t.best) (current : u.current = t.current)
      (candidate : u.candidate = t.candidate) (cursor : u.cursor = t.cursor) (watching : t.phase = .settled)
  | settle (base : t.phase = .base) (phase : u.phase = .settled) (best : u.best = t.best)
      (current : u.current = t.best) (cursor : u.cursor = 0)
  | explore (base : t.phase = .base) (phase : u.phase = .trial) (best : u.best = t.best)
      (candidate : u.candidate = u.cursor) (current : u.current = u.candidate) (ahead : t.cursor < u.cursor)
      (bound : u.cursor ≤ t.limit) (other : u.cursor ≠ t.best)
  | tried (trial : t.phase = .trial) (phase : u.phase = .confirm) (best : u.best = t.best)
      (current : u.current = t.best) (candidate : u.candidate = t.candidate) (cursor : u.cursor = t.cursor)
  | decide (confirm : t.phase = .confirm) (phase : u.phase = .base)
      (best : u.best = t.best ∨ u.best = t.candidate) (current : u.current = u.best) (cursor : u.cursor = t.cursor)
  | search (settled : t.phase = .settled) (phase : u.phase = .base) (best : u.best = t.best)
      (current : u.current = t.current) (cursor : u.cursor = 0)

theorem beginTrial_window (inv : Counts t) (base : t.phase = .base) (score : Score R) :
    Window t (beginTrial t score) := by
  obtain ⟨positive,_⟩ := inv.best
  -- The count after the best is greater than it, so it is never the best again.
  have cursor : ∃ next, (if nextCount t.cursor t.limit = t.best then nextCount (nextCount t.cursor t.limit) t.limit
      else nextCount t.cursor t.limit) = next ∧
      (next = 0 ∨ (t.cursor < next ∧ next ≤ t.limit ∧ next ≠ t.best)) := by
    refine ⟨_,rfl,?_⟩
    have first := nextCount_bounds t.cursor t.limit
    by_cases same : nextCount t.cursor t.limit = t.best
    · rw [if_pos same,same]
      have second := nextCount_bounds t.best t.limit
      omega
    · rw [if_neg same]
      omega
  obtain ⟨next,found,cases⟩ := cursor
  simp only [beginTrial,found]
  by_cases done : next = 0
  · rw [if_pos done]
    exact .settle base rfl rfl rfl done
  · rw [if_neg done]
    obtain zero | ⟨ahead,bound,other⟩ := cases
    · exact absurd zero done
    · exact .explore base rfl rfl rfl rfl ahead bound other

theorem confirm_window (confirming : t.phase = .confirm) (score : Score R) : Window t (confirm t score) := by
  simp only [confirm]
  by_cases better : improves t.trial t.base && improves t.trial score
  · rw [if_pos better]
    exact .decide confirming rfl (.inr rfl) rfl rfl
  · rw [if_neg better]
    exact .decide confirming rfl (.inl rfl) rfl rfl

theorem monitor_window (settled : t.phase = .settled) (score : Score R) : Window t (monitor t score) := by
  rw [monitor]
  by_cases cooling : t.remaining > tunerRecheckFrames - tunerCooldownFrames
  · rw [if_pos cooling]
    exact .watch rfl rfl rfl rfl rfl settled
  · rw [if_neg cooling]
    have drifted (drift : Nat) : Window t (if t.remaining > 0 ∧ drift < 3 then { t with drift := drift }
        else { t with drift := 0, cursor := 0, phase := .base }) := by
      by_cases wait : t.remaining > 0 ∧ drift < 3
      · rw [if_pos wait]
        exact .watch rfl rfl rfl rfl rfl settled
      · rw [if_neg wait]
        exact .search settled rfl rfl rfl rfl
    exact drifted _

theorem window_cases (inv : Counts t) (score : Score R) : Window t (window t score) := by
  cases phase : t.phase with
  | base => simpa only [window,phase] using beginTrial_window inv phase score
  | trial =>
    simp only [window,phase]
    exact .tried phase rfl rfl rfl rfl rfl
  | confirm => simpa only [window,phase] using confirm_window phase score
  | settled => simpa only [window,phase] using monitor_window phase score

theorem window_limit (score : Score R) : (window t score).limit = t.limit := by
  cases phase : t.phase with
  | base =>
    simp only [window,phase,beginTrial]
    split_ifs <;> rfl
  | trial => simp only [window,phase]
  | confirm =>
    simp only [window,phase,confirm]
    split_ifs <;> rfl
  | settled =>
    simp only [window,phase,monitor]
    split_ifs <;> rfl

/-! ## Observations -/

/-- The counts, the phase and the limit are as they were. -/
structure SameCounts (t u : State R) : Prop where
  limit : u.limit = t.limit
  best : u.best = t.best
  current : u.current = t.current
  candidate : u.candidate = t.candidate
  cursor : u.cursor = t.cursor
  phase : u.phase = t.phase

theorem SameCounts.refl (t : State R) : SameCounts t t := ⟨rfl,rfl,rfl,rfl,rfl,rfl⟩

theorem SameCounts.trans {v : State R} (first : SameCounts t u) (second : SameCounts u v) : SameCounts t v :=
  ⟨second.limit.trans first.limit,second.best.trans first.best,second.current.trans first.current,
    second.candidate.trans first.candidate,second.cursor.trans first.cursor,second.phase.trans first.phase⟩

theorem SameCounts.counts (same : SameCounts t u) (inv : Counts t) : Counts u := by
  constructor
  · rw [same.limit]; exact inv.limit
  · rw [same.limit,same.best]; exact inv.best
  · rw [same.limit,same.cursor]; exact inv.cursor
  · rw [same.phase,same.current,same.best]; exact inv.resting
  · rw [same.phase,same.current,same.candidate]; exact inv.trying
  · rw [same.phase,same.candidate,same.cursor,same.best]; exact inv.candidate

theorem Window.counts (moved : Window t u) (inv : Counts t) (limit : u.limit = t.limit) : Counts u := by
  obtain ⟨positive,top⟩ := inv.best
  obtain ⟨low,high⟩ := inv.cursor
  have resting := inv.resting
  have candidate := inv.candidate
  cases moved with
  | watch phase best current candidate cursor watching =>
    exact SameCounts.counts ⟨limit,best,current,candidate,cursor,phase⟩ inv
  | settle base phase best current cursor =>
    exact ⟨limit ▸ inv.limit,by omega,by omega,fun _ => by omega,by simp [phase],by simp [phase]⟩
  | explore base phase best candidate current ahead bound other =>
    exact ⟨limit ▸ inv.limit,by omega,by omega,by simp [phase],fun _ => current,fun _ => by omega⟩
  | tried trial phase best current same cursor =>
    obtain ⟨equal,one,other⟩ := candidate (.inl trial)
    exact ⟨limit ▸ inv.limit,by omega,by omega,fun _ => by omega,by simp [phase],fun _ => by omega⟩
  | decide confirm phase best current cursor =>
    obtain ⟨equal,one,other⟩ := candidate (.inr confirm)
    exact ⟨limit ▸ inv.limit,by omega,by omega,fun _ => current,by simp [phase],by simp [phase]⟩
  | search settled phase best current cursor =>
    have still := resting (by simp [settled])
    exact ⟨limit ▸ inv.limit,by omega,by omega,fun _ => by omega,by simp [phase],by simp [phase]⟩

/-- A window looks at the counts and the phase alone. -/
theorem Window.transport {v w : State R} (moved : Window t u) (before : SameCounts v t) (after : SameCounts u w) :
    Window v w := by
  obtain ⟨limit,best,current,candidate,cursor,phase⟩ := before
  obtain ⟨limit',best',current',candidate',cursor',phase'⟩ := after
  cases moved with
  | watch phases bests currents candidates cursors watching =>
    exact .watch (by simp_all) (by simp_all) (by simp_all) (by simp_all) (by simp_all) (by simp_all)
  | settle base phases bests currents cursors =>
    exact .settle (by simp_all) (by simp_all) (by simp_all) (by simp_all) (by simp_all)
  | explore base phases bests candidates currents ahead bound other =>
    exact .explore (by simp_all) (by simp_all) (by simp_all) (by simp_all) (by simp_all) (by simp_all) (by simp_all)
      (by simp_all)
  | tried trial phases bests currents candidates cursors =>
    exact .tried (by simp_all) (by simp_all) (by simp_all) (by simp_all) (by simp_all) (by simp_all)
  | decide confirm phases bests currents cursors =>
    exact .decide (by simp_all) (by simp_all) (by simp_all) (by simp_all) (by simp_all)
  | search settled phases bests currents cursors =>
    exact .search (by simp_all) (by simp_all) (by simp_all) (by simp_all) (by simp_all)

theorem trialTooSlow_same (t : State R) : SameCounts t (trialTooSlow t).2 := by
  simp only [trialTooSlow]
  split_ifs
  · exact ⟨rfl,rfl,rfl,rfl,rfl,rfl⟩
  · exact SameCounts.refl t

theorem shiftDown_length (value : R) (before : List R) : (shiftDown value before).length = before.length + 1 := by
  induction before with
  | nil => rfl
  | cons last before ih =>
    rw [shiftDown]
    split_ifs
    · simp [ih]
    · rfl

theorem scoreFrom_length (mean : R) (before : List R) (i : Nat) (values : List R) :
    (scoreFrom mean before i values).2.length = before.length + values.length := by
  induction values generalizing mean before i with
  | nil => rfl
  | cons value rest ih =>
    rw [scoreFrom,ih,shiftDown_length,List.length_cons]
    omega

/-- Scoring sorts the samples in place and drops none. -/
theorem score_length (values : List R) : (score values).2.length = values.length := by
  cases values with
  | nil => rfl
  | cons first rest =>
    show (scoreFrom first [first] 1 rest).2.reverse.length = _
    rw [List.length_reverse,scoreFrom_length,List.length_singleton,List.length_cons]
    omega

theorem trialTooSlow_used (t : State R) : (trialTooSlow t).2.used = t.used := by
  rw [trialTooSlow]
  split_ifs
  · exact score_length t.samples
  · rfl

theorem sample_same (t : State R) (elapsed : R) : SameCounts t (sample t elapsed) := ⟨rfl,rfl,rfl,rfl,rfl,rfl⟩

theorem windowEnds_same (t : State R) : SameCounts t (windowEnds t).2 := by
  rw [windowEnds]
  split_ifs
  · exact trialTooSlow_same t
  · exact SameCounts.refl t

/-- A window that does not end has room for another sample. -/
theorem windowEnds_room (open_ : (windowEnds t).1 = false) : (windowEnds t).2.used < tunerSamples := by
  rw [windowEnds] at open_ ⊢
  by_cases short : t.used < tunerSamples
  · rw [if_pos short,trialTooSlow_used]
    exact short
  · rw [if_neg short] at open_
    cases open_

theorem closeWindow_cases (inv : Counts t) : TunerInv (closeWindow t) ∧ Window t (closeWindow t) := by
  obtain ⟨same,empty⟩ : SameCounts (window t (score t.samples).1) (closeWindow t) ∧ (closeWindow t).used = 0 := by
    rw [closeWindow]
    dsimp only
    split_ifs <;> exact ⟨⟨rfl,rfl,rfl,rfl,rfl,rfl⟩,rfl⟩
  have moved := (window_cases inv (score t.samples).1).transport (SameCounts.refl t) same
  refine ⟨⟨moved.counts inv ?_,?_⟩,moved⟩
  · rw [same.limit,window_limit]
  · rw [empty]; decide

/-- An observation leaves the counts alone or ends a window. -/
theorem observe_cases (inv : TunerInv t) (elapsed : R) :
    TunerInv (observe t elapsed) ∧ (SameCounts t (observe t elapsed) ∨ Window t (observe t elapsed)) := by
  rw [observe]
  by_cases dropped : (!Double.isFinite elapsed || !Double.less ((0 : Nat) : R) elapsed) = true
  · rw [if_pos dropped]
    exact ⟨inv,.inl (SameCounts.refl t)⟩
  rw [if_neg dropped]
  by_cases warming : t.warmup > 0
  · rw [if_pos warming]
    have same : SameCounts t { t with warmup := t.warmup - 1 } := ⟨rfl,rfl,rfl,rfl,rfl,rfl⟩
    exact ⟨⟨same.counts inv.toCounts,inv.room⟩,.inl same⟩
  rw [if_neg warming]
  have same := (sample_same t elapsed).trans (windowEnds_same (sample t elapsed))
  dsimp only
  cases ends : (windowEnds (sample t elapsed)).1 with
  | false => exact ⟨⟨same.counts inv.toCounts,windowEnds_room ends⟩,.inl same⟩
  | true =>
    obtain ⟨next,moved⟩ := closeWindow_cases (same.counts inv.toCounts)
    exact ⟨next,.inr (moved.transport same (SameCounts.refl _))⟩

end AutoUpscale.Tuner
