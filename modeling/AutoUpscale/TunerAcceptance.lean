import AutoUpscale.TunerSearch

/-!
What a change of the best count rests on. Every score that a tuner stores is that of a
whole window of the history that led there (`Boundary`), so a change has three windows
in a row behind it, at the best count, at the other one and at the best count again
(`accepted_windows`). Of exact times, among others that are not finite, the other count
is better than both, in a full window (`acceptance_sound`).
-/
namespace AutoUpscale.Tuner
open AutoUpscale.OrderStatistics (mean mean_pos percentile)
universe u
set_option linter.unusedSectionVars false
variable {R : Type u} [Double R] {t start : State R} {elapsed : R}

/-! ## Histories -/

/-- How many accepted observations there are since the last switch of the count, or since
    the start, when there were `n` of them before. -/
def sinceSwitch (t : State R) (n : Nat) : List R → Nat
  | [] => n
  | elapsed :: rest =>
    sinceSwitch (observe t elapsed) (if (observe t elapsed).current ≠ t.current then 0 else if valid elapsed then n + 1 else n) rest

/-- The observations `window` after `earlier` are one whole window at the count: no sample
    is held before them, only the last of them ends a window, and all of them are made at
    that count. The samples are the accepted ones but for the first two since a switch. -/
structure WholeWindow (start : State R) (earlier window : List R) (count : Int) (samples : List R) : Prop where
  empty : (after start earlier).used = 0
  closes : ∃ before last, window = before ++ [last] ∧ windows (after start earlier) before = 0 ∧
    ends (after start (earlier ++ before)) last = true
  count : ∀ before rest, window = before ++ rest → rest ≠ [] → (after start (earlier ++ before)).current = count
  samples : samples = (accepted window).drop (2 - sinceSwitch start 0 earlier)

/-- The tuner warms up for the first two observations after a switch. -/
theorem observe_warmup {n : Nat} (warmup : t.warmup = 2 - n) (elapsed : R) : (observe t elapsed).warmup =
    2 - if (observe t elapsed).current ≠ t.current then 0 else if valid elapsed then n + 1 else n := by
  by_cases ended : ends t elapsed = true
  · obtain ⟨kept,warm,_⟩ := ends_iff.mp ended
    rw [(observe_closed ended).2,kept]
    by_cases moved : (observe t elapsed).current ≠ t.current
    · rw [if_pos moved,if_pos moved.symm]
      rfl
    · rw [if_neg moved,if_neg fun other => moved other.symm,if_pos rfl]
      omega
  · have same := (observe_still ended).current
    rw [if_neg fun moved => moved same]
    by_cases kept : valid elapsed = true
    · rw [if_pos kept]
      by_cases warm : t.warmup = 0
      · rw [observe_scored kept warm,if_neg ended,(windowEnds_sample t elapsed).1]
        dsimp only
        omega
      · rw [observe_warm kept (by omega)]
        dsimp only
        omega
    · rw [if_neg kept,observe_invalid t (by simpa using kept)]
      exact warmup

theorem after_warmup {n : Nat} (warmup : t.warmup = 2 - n) (times : List R) : (after t times).warmup = 2 - sinceSwitch t n times := by
  induction times generalizing t n with
  | nil => exact warmup
  | cons elapsed rest ih => exact ih (observe_warmup warmup elapsed)

theorem after_init_warmup (initial limit : Int) (times : List R) :
    (after (init initial limit) times).warmup = 2 - sinceSwitch (init initial limit) 0 times := after_warmup rfl times

/-- Before a window ends the counts are as they were. -/
theorem after_still {times : List R} (none : windows t times = 0) : SameCounts t (after t times) := by
  obtain ⟨_,_,_,rest⟩ := (filled_of_open none).rest
  rw [rest]
  exact ⟨rfl,rfl,rfl,rfl,rfl,rfl⟩

theorem windows_before {t : State R} {before rest : List R} (none : windows t (before ++ rest) = 0) : windows t before = 0 := by
  rw [windows_append] at none
  omega

/-- The observations after a boundary up to the next one are a whole window, and the
    samples that are scored then are its samples. -/
theorem whole_window {earlier part : List R} (empty : (after start earlier).used = 0)
    (warmup : (after start earlier).warmup = 2 - sinceSwitch start 0 earlier) (none : windows (after start earlier) part = 0)
    (ended : ends (after (after start earlier) part) elapsed = true) :
    WholeWindow start earlier (part ++ [elapsed]) (after start earlier).current (scored (after start earlier) (part ++ [elapsed])) ∧
    (windowEnds (sample (after (after start earlier) part) elapsed)).2.samples.Perm (scored (after start earlier) (part ++ [elapsed])) := by
  obtain ⟨kept,warm,_⟩ := ends_iff.mp ended
  refine ⟨⟨empty,⟨part,elapsed,rfl,none,by rw [after_append]; exact ended⟩,?_,by rw [scored,warmup]⟩,?_⟩
  · intro before rest split nonempty
    obtain ⟨front,last,rfl⟩ := (List.eq_nil_or_concat' rest).resolve_left nonempty
    have same : part = before ++ front := by
      rw [← List.append_assoc] at split
      exact (List.append_inj' split rfl).1
    rw [after_append]
    exact (after_still (windows_before (same ▸ none))).current
  · have filled := ((filled_of_open none).scored kept warm).samples
    rw [List.length_eq_zero_iff.mp empty,List.nil_append] at filled
    exact filled

/-- The end of a window keeps what the window function returns, but for the samples and
    the warm-up. -/
theorem closeWindow_eq (t : State R) : ∃ warmup, closeWindow t = { window t (score t.samples).1 with samples := [], warmup := warmup } := by
  rw [closeWindow]
  dsimp only
  split_ifs
  · exact ⟨_,rfl⟩
  · exact ⟨_,rfl⟩

/-! ## Stored scores -/

/-- A score of a whole window of the history. -/
def ScoreOf (start : State R) (earlier window : List R) (count : Int) (samples : List R) (result : Score R) : Prop :=
  WholeWindow start earlier window count samples ∧ ∃ held, held.Perm samples ∧ result = (score held).1

/-- A trial that is given up at its fourth sample. -/
def TooSlow (base : Score R) (samples : List R) : Prop :=
  samples.length = 4 ∧ ∃ held, held.Perm samples ∧ Double.less base.mean ((score held).1.mean / 1.5) = true

/-- Where a window ends or none has begun, the stored scores are those of the windows just
    before, at the counts that they are compared for. -/
structure Boundary (start : State R) (earlier : List R) : Prop where
  empty : (after start earlier).used = 0
  trial : (after start earlier).phase = .trial → ∃ before first samples, earlier = before ++ first ∧
    ScoreOf start before first (after start earlier).best samples (after start earlier).base ∧ samples.length = 64
  confirm : (after start earlier).phase = .confirm → ∃ before first second samples tried, earlier = before ++ first ++ second ∧
    ScoreOf start before first (after start earlier).best samples (after start earlier).base ∧ samples.length = 64 ∧
    ScoreOf start (before ++ first) second (after start earlier).candidate tried (after start earlier).trial ∧
    (tried.length = 64 ∨ TooSlow (after start earlier).base tried)

theorem beginTrial_base {score : Score R} (trial : (beginTrial t score).phase = .trial) : (beginTrial t score).base = score := by
  rw [beginTrial] at trial ⊢
  dsimp only at trial ⊢
  generalize (if nextCount t.cursor t.limit = t.best then nextCount (nextCount t.cursor t.limit) t.limit
    else nextCount t.cursor t.limit) = cursor at trial ⊢
  by_cases done : cursor = 0
  · rw [if_pos done] at trial
    cases trial
  · rw [if_neg done]

/-- A trial that begins is compared with the window before it. -/
theorem closeWindow_base (base : t.phase = .base) (trial : (closeWindow t).phase = .trial) :
    (closeWindow t).base = (score t.samples).1 := by
  obtain ⟨_,closed⟩ := closeWindow_eq t
  rw [closed,window,base] at trial ⊢
  exact beginTrial_base trial

theorem closeWindow_trial (trial : t.phase = .trial) :
    (closeWindow t).trial = (score t.samples).1 ∧ (closeWindow t).base = t.base := by
  obtain ⟨_,closed⟩ := closeWindow_eq t
  rw [closed,window,trial]
  exact ⟨rfl,rfl⟩

/-- What the stored scores come from goes on through the next window. -/
theorem boundary_close {earlier part : List R} (running : Running (after start earlier))
    (warmup : (after start earlier).warmup = 2 - sinceSwitch start 0 earlier) (boundary : Boundary start earlier)
    (none : windows (after start earlier) part = 0) (ended : ends (after (after start earlier) part) elapsed = true) :
    Boundary start (earlier ++ (part ++ [elapsed])) := by
  have inv := running.inv.toCounts
  obtain ⟨kept,warm,_⟩ := ends_iff.mp ended
  obtain ⟨whole,held⟩ := whole_window boundary.empty warmup none ended
  obtain ⟨_,_,_,rest⟩ := ((filled_of_open none).scored kept warm).rest
  have samePhase : (windowEnds (sample (after (after start earlier) part) elapsed)).2.phase = (after start earlier).phase := by rw [rest]
  have later := running_after running part
  have same := after_still none
  have length := ends_cases later.inv.room ended
  have window := observe_moved later.inv.toCounts ended
  have empty := (observe_closed ended).1
  have closed := observe_ends ended
  have final : after start (earlier ++ (part ++ [elapsed])) = observe (after (after start earlier) part) elapsed := by
    rw [after_append,after_snoc]
  rw [State.used,held.length_eq,same.phase] at length
  refine ⟨by rw [final]; exact empty,fun trial => ?_,fun confirm => ?_⟩
  · rw [final] at trial ⊢
    cases window with
    | explore base phase best candidate current ahead bound other =>
      rw [same.phase] at base
      have value := closeWindow_base (samePhase.trans base) (closed ▸ trial)
      have count : (after start earlier).current = (after start earlier).best := inv.resting (by rw [base]; exact Phase.noConfusion)
      rw [count] at whole
      refine ⟨earlier,part ++ [elapsed],_,rfl,⟨?_,_,held,?_⟩,?_⟩
      · rw [best,same.best]
        exact whole
      · rw [closed]
        exact value
      · rcases length with full | ⟨trying,_⟩
        · exact full
        · exact absurd (base.symm.trans trying) Phase.noConfusion
    | watch phase best current candidate cursor watching => cases watching.symm.trans (phase.symm.trans trial)
    | settle base phase best current cursor => cases phase.symm.trans trial
    | tried trying phase best current candidate cursor => cases phase.symm.trans trial
    | decide confirm phase best current cursor => cases phase.symm.trans trial
    | search settled phase best current cursor => cases phase.symm.trans trial
  · rw [final] at confirm ⊢
    cases window with
    | tried trying phase best current candidate cursor =>
      rw [same.phase] at trying
      obtain ⟨value,kept⟩ := closeWindow_trial (samePhase.trans trying)
      obtain ⟨before,first,samples,split,scored,full⟩ := boundary.trial trying
      have count : (after start earlier).current = (after start earlier).candidate := inv.trying trying
      have base : (observe (after (after start earlier) part) elapsed).base = (after start earlier).base := by
        rw [closed,kept,rest]
      rw [count] at whole
      refine ⟨before,first,part ++ [elapsed],samples,_,by rw [split],?_,full,⟨?_,_,held,?_⟩,?_⟩
      · rw [best,same.best,base]
        exact scored
      · rw [candidate,same.candidate,← split]
        exact whole
      · rw [closed]
        exact value
      · rw [base]
        rcases length with full | ⟨_,four,early,perm,slow⟩
        · exact .inl full
        · refine .inr ⟨four,early,perm.trans held,?_⟩
          obtain ⟨_,_,_,still⟩ := (filled_of_open none).rest
          rw [still] at slow
          exact slow
    | watch phase best current candidate cursor watching => cases watching.symm.trans (phase.symm.trans confirm)
    | settle base phase best current cursor => cases phase.symm.trans confirm
    | explore base phase best candidate current ahead bound other => cases phase.symm.trans confirm
    | decide confirming phase best current cursor => cases phase.symm.trans confirm
    | search settled phase best current cursor => cases phase.symm.trans confirm

/-- Every history is cut at its last boundary. -/
theorem boundary_split (initial limit : Int) (times : List R) : ∃ earlier part, times = earlier ++ part ∧
    Boundary (init initial limit) earlier ∧ windows (after (init initial limit) earlier) part = 0 := by
  induction times using List.reverseRecOn with
  | nil => exact ⟨[],[],rfl,⟨rfl,fun trial => Phase.noConfusion trial,fun confirm => Phase.noConfusion confirm⟩,rfl⟩
  | append_singleton times elapsed ih =>
    obtain ⟨earlier,part,rfl,boundary,none⟩ := ih
    by_cases ended : ends (after (after (init initial limit) earlier) part) elapsed = true
    · refine ⟨earlier ++ (part ++ [elapsed]),[],by simp,?_,rfl⟩
      exact boundary_close (running_after (running_init initial limit) earlier) (after_init_warmup initial limit earlier)
        boundary none ended
    · refine ⟨earlier,part ++ [elapsed],by simp,boundary,?_⟩
      rw [windows_snoc,none,if_neg ended]

/-- The best changes to the candidate where it is better than the windows before and after. -/
theorem closeWindow_confirm (confirming : t.phase = .confirm) (changed : (closeWindow t).best ≠ t.best) :
    improves t.trial t.base = true ∧ improves t.trial (score t.samples).1 = true ∧ (closeWindow t).best = t.candidate := by
  obtain ⟨_,closed⟩ := closeWindow_eq t
  rw [closed,window,confirming] at changed ⊢
  dsimp only at changed ⊢
  rw [confirm] at changed ⊢
  dsimp only at changed ⊢
  by_cases better : (improves t.trial t.base && improves t.trial (score t.samples).1) = true
  · rw [if_pos better]
    exact ⟨(Bool.and_eq_true_iff.mp better).1,(Bool.and_eq_true_iff.mp better).2,rfl⟩
  · rw [if_neg better] at changed
    exact absurd rfl changed

/-- Three windows in a row stand behind every change of the best count. -/
theorem accepted_windows {initial limit : Int} {times : List R}
    (changed : (observe (after (init initial limit) times) elapsed).best ≠ (after (init initial limit) times).best) :
    ∃ (earlier first second third samples tried again : List R) (base trial last : Score R),
      times ++ [elapsed] = earlier ++ first ++ second ++ third ∧
      ScoreOf (init initial limit) earlier first (after (init initial limit) times).best samples base ∧
      ScoreOf (init initial limit) (earlier ++ first) second (observe (after (init initial limit) times) elapsed).best tried trial ∧
      ScoreOf (init initial limit) (earlier ++ first ++ second) third (after (init initial limit) times).best again last ∧
      samples.length = 64 ∧ again.length = 64 ∧ (tried.length = 64 ∨ TooSlow base tried) ∧
      improves trial base = true ∧ improves trial last = true := by
  obtain ⟨earlier,part,rfl,boundary,none⟩ := boundary_split initial limit times
  have running := running_after (running_init initial limit : Running (init initial limit : State R)) earlier
  have warmup := after_init_warmup (R := R) initial limit earlier
  rw [after_append] at changed ⊢
  generalize (init initial limit : State R) = start at *
  have later := running_after running part
  have same := after_still none
  have ended : ends (after (after start earlier) part) elapsed = true := by
    by_contra open_
    exact changed (observe_still open_).best
  obtain ⟨kept,warm,_⟩ := ends_iff.mp ended
  obtain ⟨whole,held⟩ := whole_window boundary.empty warmup none ended
  obtain ⟨_,_,_,rest⟩ := ((filled_of_open none).scored kept warm).rest
  have length := ends_cases later.inv.room ended
  have closed := observe_ends ended
  have confirming : (after start earlier).phase = .confirm := by
    rw [← same.phase]
    cases observe_moved later.inv.toCounts ended with
    | decide confirm phase best current cursor => exact confirm
    | watch phase best current candidate cursor watching => exact absurd best changed
    | settle base phase best current cursor => exact absurd best changed
    | explore base phase best candidate current ahead bound other => exact absurd best changed
    | tried trying phase best current candidate cursor => exact absurd best changed
    | search settled phase best current cursor => exact absurd best changed
  have filled : (scored (after start earlier) (part ++ [elapsed])).length = 64 := by
    rw [← held.length_eq]
    refine length.resolve_right fun slow => ?_
    cases (same.phase.trans confirming).symm.trans slow.1
  obtain ⟨before,first,second,samples,tried,rfl,compared,full,candidate,triedLength⟩ := boundary.confirm confirming
  rw [closed,same.best] at changed ⊢
  have count := running.inv.resting (by rw [confirming]; exact Phase.noConfusion)
  rw [count] at whole
  generalize after start (before ++ first ++ second) = e at *
  generalize (windowEnds (sample (after e part) elapsed)).2 = u at *
  obtain ⟨phase,best,base,trial,proposed⟩ : u.phase = e.phase ∧ u.best = e.best ∧ u.base = e.base ∧ u.trial = e.trial ∧
      u.candidate = e.candidate := by
    rw [rest]
    exact ⟨rfl,rfl,rfl,rfl,rfl⟩
  obtain ⟨betterBefore,betterAfter,adopted⟩ := closeWindow_confirm (phase.trans confirming) (by rw [best]; exact changed)
  rw [base,trial] at betterBefore
  rw [trial] at betterAfter
  rw [adopted,proposed]
  exact ⟨before,first,second,part ++ [elapsed],samples,tried,_,_,_,_,List.append_assoc _ _ _,compared,candidate,
    ⟨whole,_,held,rfl⟩,full,filled,triedLength,betterBefore,betterAfter⟩

/-! ## Exact times -/

/-- A time read as a rational, or one that is not finite. -/
inductive Reading
  | finite (value : ℚ)
  | notFinite
  deriving DecidableEq

namespace Reading

/-- An operation on finite times. -/
def both (op : ℚ → ℚ → ℚ) : Reading → Reading → Reading
  | .finite x, .finite y => .finite (op x y)
  | _, _ => .notFinite

def divide : Reading → Reading → Reading
  | .finite x, .finite y => if y = 0 then .notFinite else .finite (x / y)
  | _, _ => .notFinite

/-- The value of a finite time. -/
def value : Reading → ℚ
  | .finite x => x
  | .notFinite => 0

instance : Double Reading where
  add := both (· + ·)
  sub := both (· - ·)
  mul := both (· * ·)
  div := divide
  natCast n := .finite n
  intCast n := .finite n
  ofScientific mantissa sign exponent := .finite (OfScientific.ofScientific mantissa sign exponent)
  less
    | .finite x, .finite y => x < y
    | _, _ => false
  isFinite
    | .finite _ => true
    | .notFinite => false

theorem div_finite {x y : ℚ} (nonzero : y ≠ 0) : (finite x / finite y : Reading) = finite (x / y) := if_neg nonzero

end Reading
open Reading (finite)

/-- A score of finite times. -/
def Score.exact (s : Score ℚ) : Score Reading := ⟨finite s.mean,finite s.p95,finite s.p99⟩

theorem shiftDown_finite (value : ℚ) (before : List ℚ) :
    shiftDown (finite value) (before.map finite) = (shiftDown value before).map finite := by
  induction before with
  | nil => rfl
  | cons last before ih =>
    rw [List.map_cons,shiftDown,shiftDown,ih]
    by_cases greater : Double.less value last = true
    · rw [if_pos greater,if_pos (show Double.less (finite value) (finite last) = true from greater)]
      rfl
    · rw [if_neg greater,if_neg (show ¬ Double.less (finite value) (finite last) = true from greater)]
      rfl

theorem scoreFrom_finite (mean : ℚ) (before : List ℚ) (i : Nat) (rest : List ℚ) :
    scoreFrom (finite mean) (before.map finite) i (rest.map finite) =
      (finite (scoreFrom mean before i rest).1,(scoreFrom mean before i rest).2.map finite) := by
  induction rest generalizing mean before i with
  | nil => rfl
  | cons value rest ih =>
    have nonzero : ((i + 1 : Nat) : ℚ) ≠ 0 := by exact_mod_cast Nat.succ_ne_zero i
    have next : finite mean + (finite value - finite mean) / ((i + 1 : Nat) : Reading) =
        finite (mean + (value - mean) / ((i + 1 : Nat) : ℚ)) :=
      congrArg (finite mean + ·) (Reading.div_finite nonzero)
    rw [List.map_cons,scoreFrom,shiftDown_finite,next,ih,scoreFrom]

theorem getD_finite (values : List ℚ) (k : Nat) (other : ℚ) : (values.map finite).getD k (finite other) = finite (values.getD k other) :=
  List.getD_map ..

/-- Finite times are scored as rationals are. -/
theorem score_finite (values : List ℚ) : (score (values.map finite)).1 = (score values).1.exact := by
  cases values with
  | nil => rfl
  | cons first rest =>
    have loop := scoreFrom_finite first [first] 1 rest
    have length : (finite first :: rest.map finite).length = (first :: rest).length := by
      rw [List.length_cons,List.length_cons,List.length_map]
    rw [List.map_cons,score,score,show scoreFrom (finite first) [finite first] 1 (rest.map finite) = _ from loop,length]
    dsimp only
    rw [← List.map_reverse,getD_finite,getD_finite]
    rfl

/-- What a comparison of two scores of exact times says. -/
theorem improves_iff (s baseline : Score ℚ) : improves s baseline = true ↔
    s.mean < 0.95 * baseline.mean ∧ s.p95 ≤ 1.05 * baseline.p95 ∧ s.p99 ≤ 1.05 * baseline.p99 := by
  have tail : ∀ x y : ℚ, Double.less y (x / 1.05) = false ↔ x ≤ 1.05 * y := by
    intro x y
    rw [show Double.less y (x / 1.05) = decide (y < x / 1.05) from rfl,decide_eq_false_iff_not,not_lt,div_le_iff₀ (by norm_num),
      mul_comm]
  rw [improves,tailRegressed,Bool.and_eq_true,Bool.not_eq_true',Bool.or_eq_false_iff,tail,tail,mul_comm]
  exact and_congr_left fun _ => decide_eq_true_iff

theorem improves_exact (s baseline : Score ℚ) : improves s.exact baseline.exact = improves s baseline := by
  have nonzero : (1.05 : ℚ) ≠ 0 := by norm_num
  have tail : ∀ x : ℚ, (finite x / 1.05 : Reading) = finite (x / 1.05) := fun x => Reading.div_finite nonzero
  simp only [improves,tailRegressed,Score.exact,tail]
  rfl

/-- The accepted readings are finite and positive. -/
theorem valid_reading {reading : Reading} (kept : valid reading = true) : ∃ value : ℚ, reading = finite value ∧ 0 < value := by
  cases reading with
  | finite value => exact ⟨value,rfl,of_decide_eq_true (Bool.and_eq_true_iff.mp kept).2⟩
  | notFinite => cases kept

theorem accepted_finite {readings : List Reading} (positive : ∀ reading ∈ readings, valid reading = true) :
    ∃ values : List ℚ, readings = values.map finite ∧ ∀ value ∈ values, 0 < value := by
  induction readings with
  | nil => exact ⟨[],rfl,fun value none => absurd none List.not_mem_nil⟩
  | cons reading rest ih =>
    obtain ⟨value,rfl,above⟩ := valid_reading (positive reading List.mem_cons_self)
    obtain ⟨values,rfl,all⟩ := ih fun other member => positive other (List.mem_cons_of_mem _ member)
    refine ⟨value :: values,rfl,fun other member => ?_⟩
    rcases List.mem_cons.mp member with rfl | later
    · exact above
    · exact all other later

/-- In any order, finite times have one score. -/
theorem score_held {held : List Reading} {values : List ℚ} (perm : held.Perm (values.map finite)) :
    (score held).1 = (score values).1.exact := by
  have back : values.map (Reading.value ∘ finite) = values := List.map_id values
  have same : (held.map Reading.value).Perm values := by
    have mapped := perm.map Reading.value
    rwa [List.map_map,back] at mapped
  have again : (held.map Reading.value).map finite = held := by
    rw [List.map_map]
    refine (List.map_congr_left fun reading member => ?_).trans (List.map_id held)
    obtain ⟨value,_,rfl⟩ := List.mem_map.mp (perm.mem_iff.mp member)
    rfl
  rw [← again,score_finite,score_perm same]

/-- A stored score is that of the exact times of its window. -/
theorem scoreOf_finite {start : State Reading} {earlier window samples : List Reading} {count : Int} {result : Score Reading}
    (scored : ScoreOf start earlier window count samples result) : ∃ values : List ℚ,
      WholeWindow start earlier window count (values.map finite) ∧ samples = values.map finite ∧ (∀ value ∈ values, 0 < value) ∧
      result = (score values).1.exact := by
  obtain ⟨whole,held,perm,rfl⟩ := scored
  have kept : ∀ reading ∈ samples, valid reading = true := fun reading member => by
    rw [whole.samples] at member
    exact (List.mem_filter.mp (List.mem_of_mem_drop member)).2
  obtain ⟨values,rfl,positive⟩ := accepted_finite kept
  exact ⟨values,whole,rfl,positive,score_held perm⟩

theorem finite_ne_nil {values : List ℚ} (full : (values.map finite).length = 64) : values ≠ [] := by
  rintro rfl
  cases full

/-- A trial that is given up is slower than the windows that it is compared with. -/
theorem tooSlow_worse {first second : List ℚ} (some_ : first ≠ []) (positive : ∀ value ∈ first, 0 < value)
    (slow : TooSlow (score first).1.exact (second.map finite)) : ¬ improves (score second).1 (score first).1 = true := by
  obtain ⟨four,held,perm,less⟩ := slow
  have nonempty : second ≠ [] := by
    rintro rfl
    cases four
  have nonzero : (1.5 : ℚ) ≠ 0 := by norm_num
  have quotient : (finite (mean second) / 1.5 : Reading) = finite (mean second / 1.5) := Reading.div_finite nonzero
  rw [score_held perm,score_percentiles some_,score_percentiles nonempty] at less
  have slower : mean first < mean second / 1.5 := by
    simp only [Score.exact,quotient] at less
    exact of_decide_eq_true less
  have above := mean_pos some_ positive
  intro better
  have faster := ((improves_iff _ _).mp better).1
  rw [score_percentiles some_,score_percentiles nonempty] at faster
  rw [lt_div_iff₀ (by norm_num)] at slower
  dsimp only at faster
  linarith

/-- The best count changes only after three windows in a row at the best count, the other
    one and the best count again. The one between is full and its mean is less than 0.95
    of that of both others, with percentiles that are not above 1.05 of theirs. -/
theorem acceptance_sound {initial limit : Int} {times : List Reading} {reading : Reading}
    (changed : (observe (after (init initial limit) times) reading).best ≠ (after (init initial limit) times).best) :
    ∃ (earlier first second third : List Reading) (before between again : List ℚ),
      times ++ [reading] = earlier ++ first ++ second ++ third ∧
      WholeWindow (init initial limit) earlier first (after (init initial limit) times).best (before.map finite) ∧
      WholeWindow (init initial limit) (earlier ++ first) second (observe (after (init initial limit) times) reading).best
        (between.map finite) ∧
      WholeWindow (init initial limit) (earlier ++ first ++ second) third (after (init initial limit) times).best
        (again.map finite) ∧
      (∀ value ∈ before ++ between ++ again, 0 < value) ∧ between.length = 64 ∧
      (mean between < 0.95 * mean before ∧ mean between < 0.95 * mean again) ∧
      (percentile 0.95 between ≤ 1.05 * percentile 0.95 before ∧ percentile 0.95 between ≤ 1.05 * percentile 0.95 again) ∧
      percentile 0.99 between ≤ 1.05 * percentile 0.99 before ∧ percentile 0.99 between ≤ 1.05 * percentile 0.99 again := by
  obtain ⟨earlier,first,second,third,_,_,_,_,_,_,split,scoredBefore,scoredBetween,scoredAgain,fullBefore,fullAgain,length,
    betterBefore,betterAgain⟩ := accepted_windows changed
  obtain ⟨before,wholeBefore,rfl,positiveBefore,rfl⟩ := scoreOf_finite scoredBefore
  obtain ⟨between,wholeBetween,rfl,positiveBetween,rfl⟩ := scoreOf_finite scoredBetween
  obtain ⟨again,wholeAgain,rfl,positiveAgain,rfl⟩ := scoreOf_finite scoredAgain
  rw [improves_exact] at betterBefore betterAgain
  have full : (between.map finite).length = 64 :=
    length.resolve_right fun slow => tooSlow_worse (finite_ne_nil fullBefore) positiveBefore slow betterBefore
  have meansBefore := (improves_iff _ _).mp betterBefore
  have meansAgain := (improves_iff _ _).mp betterAgain
  rw [score_percentiles (finite_ne_nil full),score_percentiles (finite_ne_nil fullBefore)] at meansBefore
  rw [score_percentiles (finite_ne_nil full),score_percentiles (finite_ne_nil fullAgain)] at meansAgain
  refine ⟨earlier,first,second,third,before,between,again,split,wholeBefore,wholeBetween,wholeAgain,fun value member => ?_,
    List.length_map _ ▸ full,⟨meansBefore.1,meansAgain.1⟩,⟨meansBefore.2.1,meansAgain.2.1⟩,meansBefore.2.2,meansAgain.2.2⟩
  rcases List.mem_append.mp member with earlier | late
  · exact (List.mem_append.mp earlier).elim (positiveBefore value) (positiveBetween value)
  · exact positiveAgain value late

/-- Two workers that halve the time of a frame are accepted, with a reading that is not
    finite among the others. -/
def halvedTimes : List Reading :=
  List.replicate 66 (finite 100) ++ List.replicate 66 (finite 50) ++ [.notFinite] ++ List.replicate 65 (finite 100)

theorem acceptance_sound_halved : (observe (after (init 1 2) halvedTimes) (finite 100)).best = 2 ∧
    ∃ before between : List ℚ, between.length = 64 ∧ mean between < 0.95 * mean before := by
  have accepted : (observe (after (init 1 2) halvedTimes) (finite 100)).best = 2 := by decide +kernel
  have old : (after (init 1 2) halvedTimes).best = 1 := by decide +kernel
  obtain ⟨_,_,_,_,before,between,_,_,_,_,_,_,full,means,_⟩ := acceptance_sound (show _ ≠ _ by rw [accepted,old]; decide)
  exact ⟨accepted,before,between,full,means.1⟩

end AutoUpscale.Tuner
