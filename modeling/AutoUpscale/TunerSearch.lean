import AutoUpscale.Ascending
import AutoUpscale.TunerWindows

/-!
A round of the search of a tuner, from the base phase with the cursor at 0 until it
settles. Whatever the comparisons of times answer, the round passes the counts of the
`ladder` in order, each once, tries those that are not the best when it passes them,
and ends within three windows a count and one more (`search_terminates`).
-/
namespace AutoUpscale.Tuner
open AutoUpscale.Ascending
universe u
set_option linter.unusedSectionVars false
variable {R : Type u} [Double R] {t u : State R} {elapsed : R}

/-! ## The ladder -/

/-- The fixed counts below the limit, then the limit. -/
def ladder (limit : Int) : List Int := counts.filter (· < limit) ++ [limit]

theorem ladder_ascending (limit : Int) : (ladder limit).Pairwise (· < ·) := by
  have fixed : counts.Pairwise (· < ·) := by decide
  refine List.pairwise_append.mpr ⟨fixed.filter _,List.pairwise_singleton _ limit,fun low member high last => ?_⟩
  rw [List.mem_singleton.mp last]
  simpa using (List.mem_filter.mp member).2

theorem ladder_le {limit count : Int} (member : count ∈ ladder limit) : count ≤ limit := by
  rcases List.mem_append.mp member with fixed | last
  · exact le_of_lt (by simpa using (List.mem_filter.mp fixed).2)
  · exact le_of_eq (List.mem_singleton.mp last)

theorem above_zero {limit : Int} (positive : 1 ≤ limit) : above (ladder limit) 0 = ladder limit := by
  refine above_self_of_lt fun count member => ?_
  rcases List.mem_append.mp member with fixed | last
  · have low : ∀ c ∈ counts, (0 : Int) < c := by decide
    exact low count (List.mem_filter.mp fixed).1
  · rw [List.mem_singleton.mp last]
    omega

/-- The next count is the first one of the ladder above the previous one. -/
theorem nextCount_above {previous limit : Int} (small : limit ≤ threadsMax) :
    nextCount previous limit = (above (ladder limit) previous).head?.getD 0 := by
  rw [nextCount]
  by_cases done : previous ≥ limit
  · rw [if_pos done,above_nil_of_le fun count member => le_trans (ladder_le member) done]
    rfl
  · have last : above [limit] previous = [limit] := above_self_of_lt fun count member => by
      rw [List.mem_singleton.mp member]
      omega
    have parts : above (ladder limit) previous = above (counts.filter (· < limit)) previous ++ [limit] := by
      rw [← last]
      exact List.filter_append _ _
    have found := find_above (by decide : counts.Pairwise (· < ·)) previous limit
    rw [if_neg done,parts,List.head?_append,found]
    cases next : counts.find? (previous < ·) with
    | none =>
      have top := List.find?_eq_none.mp next 64 (by decide)
      simp only [threadsMax] at small
      simp only [decide_eq_true_eq] at top
      omega
    | some count =>
      by_cases low : count < limit
      · simp [Option.filter,low]
      · simp [Option.filter,low]

/-! ## The next trial -/

/-- The count that `up_tuner_begin_trial` goes on with, 0 where none is left. -/
def nextTrial (t : State R) : Int :=
  let cursor := nextCount t.cursor t.limit
  if cursor = t.best then nextCount cursor t.limit else cursor

/-- It is the first count left on the ladder that is not the best. -/
theorem nextTrial_cases (inv : Counts t) :
    (nextTrial t = 0 ∧ (above (ladder t.limit) t.cursor).filter (· ≠ t.best) = []) ∨
    (nextTrial t ∈ above (ladder t.limit) t.cursor ∧
      ((above (ladder t.limit) t.cursor).filter (· ≤ nextTrial t)).filter (· ≠ t.best) = [nextTrial t]) := by
  have small := inv.limit.2
  have order := above_ascending (ladder_ascending t.limit) t.cursor
  have first : nextTrial t = if (above (ladder t.limit) t.cursor).head?.getD 0 = t.best
      then (above (ladder t.limit) ((above (ladder t.limit) t.cursor).head?.getD 0)).head?.getD 0
      else (above (ladder t.limit) t.cursor).head?.getD 0 := by
    rw [nextTrial,nextCount_above small,nextCount_above small]
  cases left : above (ladder t.limit) t.cursor with
  | nil =>
    have positive := inv.best.1
    rw [left,List.head?_nil,Option.getD_none,if_neg (by omega)] at first
    exact .inl ⟨first,rfl⟩
  | cons next rest =>
    rw [left] at order
    rw [left,List.head?_cons,Option.getD_some] at first
    by_cases best : next = t.best
    · rw [if_pos best,above_cons (ladder_ascending t.limit) left] at first
      cases rest with
      | nil =>
        refine .inl ⟨first,?_⟩
        rw [best,List.filter_cons_of_neg (by simp)]
        rfl
      | cons second rest =>
        obtain ⟨least,tail⟩ := List.pairwise_cons.mp order
        have greater := least second List.mem_cons_self
        rw [List.head?_cons,Option.getD_some] at first
        rw [first]
        refine .inr ⟨List.mem_cons_of_mem next List.mem_cons_self,?_⟩
        rw [List.filter_cons_of_pos (by simpa using le_of_lt greater),upto_head tail,best,List.filter_cons_of_neg (by simp),
          List.filter_cons_of_pos (by simp; omega)]
        rfl
    · rw [if_neg best] at first
      rw [first]
      refine .inr ⟨List.mem_cons_self,?_⟩
      rw [upto_head order,List.filter_cons_of_pos (by simpa using best)]
      rfl

theorem observe_limit (t : State R) (elapsed : R) : (observe t elapsed).limit = t.limit := by
  by_cases ended : ends t elapsed = true
  · have same := (sample_same t elapsed).trans (windowEnds_same (sample t elapsed))
    rw [observe_ends ended,← same.limit,closeWindow]
    dsimp only
    split_ifs <;> exact window_limit _
  · exact (observe_still ended).limit

theorem observe_cursor (base : t.phase = .base) (ended : ends t elapsed = true) : (observe t elapsed).cursor = nextTrial t := by
  have same := (sample_same t elapsed).trans (windowEnds_same (sample t elapsed))
  have next : nextTrial (windowEnds (sample t elapsed)).2 = nextTrial t := by
    simp only [nextTrial,same.cursor,same.limit,same.best]
  have still := same.phase.trans base
  rw [observe_ends ended,← next]
  generalize (windowEnds (sample t elapsed)).2 = u at still
  have cursor : (window u (score u.samples).1).cursor = nextTrial u := by
    rw [window,still]
    simp only [beginTrial,nextTrial]
    split_ifs <;> rfl
  rw [closeWindow]
  dsimp only
  split_ifs <;> exact cursor

/-! ## A round -/

/-- The counts of the ladder that the end of a base window passes, each with the best
    count at that moment. -/
def passed (t : State R) (elapsed : R) : List (Int × Int) :=
  let left := above (ladder t.limit) t.cursor
  if t.phase = .base ∧ (observe t elapsed).phase = .trial then (left.filter (· ≤ (observe t elapsed).cursor)).map (·,t.best)
  else if t.phase = .base ∧ (observe t elapsed).phase = .settled then left.map (·,t.best)
  else []

/-- The count that the end of a base window puts on trial. -/
def tried (t : State R) (elapsed : R) : List Int :=
  if t.phase = .base ∧ (observe t elapsed).phase = .trial then [(observe t elapsed).current] else []

/-- What the observations give one after the other. -/
def gather {α : Type} (each : State R → R → List α) (t : State R) : List R → List α
  | [] => []
  | elapsed :: rest => each t elapsed ++ gather each (observe t elapsed) rest

/-- Each of the observations finds a tuner that has not settled. -/
def Searching (t : State R) : List R → Prop
  | [] => True
  | elapsed :: rest => t.phase ≠ .settled ∧ Searching (observe t elapsed) rest

/-- The counts that a round has not passed yet. -/
def remains (t : State R) : List Int := if t.phase = .settled then [] else above (ladder t.limit) t.cursor

/-- How many windows a round ends at most until it settles. -/
def pending (t : State R) : Nat :=
  match t.phase with
  | .base => 3 * (remains t).length + 1
  | .trial => 3 * (remains t).length + 3
  | .confirm => 3 * (remains t).length + 2
  | .settled => 0

/-- What one observation of a round does to the counts left and to the windows left. -/
structure Round (t u : State R) (passed : List (Int × Int)) (tried : List Int) (windows : Nat) : Prop where
  order : passed.map Prod.fst ++ remains u = remains t
  chosen : tried = (passed.filter fun p => p.1 ≠ p.2).map Prod.fst
  cursor : u.phase ≠ .settled → u.cursor = tried.getLastD t.cursor
  fewer : windows + pending u ≤ pending t

theorem remains_eq (searching : t.phase ≠ .settled) : remains t = above (ladder t.limit) t.cursor := if_neg searching

/-- Where the cursor stays, no count is passed. -/
theorem round_still (limit : u.limit = t.limit) (cursor : u.cursor = t.cursor) (before : t.phase ≠ .settled)
    (later : u.phase ≠ .settled) {n : Nat} (fewer : n + pending u ≤ pending t) : Round t u [] [] n := by
  refine ⟨?_,rfl,fun _ => cursor,fewer⟩
  rw [remains_eq before,remains_eq later,limit,cursor]
  rfl

theorem passed_none (quiet : t.phase = .base → (observe t elapsed).phase = .base) :
    passed t elapsed = [] ∧ tried t elapsed = [] := by
  have neither : ∀ phase : Phase, phase ≠ .base → ¬ (t.phase = .base ∧ (observe t elapsed).phase = phase) :=
    fun phase other both => other (both.2.symm.trans (quiet both.1))
  rw [passed,tried,if_neg (neither .trial Phase.noConfusion),if_neg (neither .settled Phase.noConfusion),
    if_neg (neither .trial Phase.noConfusion)]
  exact ⟨rfl,rfl⟩

theorem observe_round (inv : Counts t) (searching : t.phase ≠ .settled) (elapsed : R) :
    Round t (observe t elapsed) (passed t elapsed) (tried t elapsed) (if ends t elapsed then 1 else 0) := by
  have limit := observe_limit t elapsed
  have left := remains_eq searching
  by_cases ended : ends t elapsed = true
  · rw [if_pos ended]
    cases observe_moved inv ended with
    | watch phase best current candidate cursor watching => exact absurd watching searching
    | settle base phase best current cursor =>
      have next := observe_cursor base ended
      rw [cursor] at next
      have none : (above (ladder t.limit) t.cursor).filter (· ≠ t.best) = [] := by
        rcases nextTrial_cases inv with ⟨_,none⟩ | ⟨member,_⟩
        · exact none
        · have greater := of_decide_eq_true (List.mem_filter.mp member).2
          have low := inv.cursor.1
          omega
      have all : passed t elapsed = (above (ladder t.limit) t.cursor).map (·,t.best) := by
        rw [passed,if_neg (by rw [phase]; exact fun both => Phase.noConfusion both.2),if_pos ⟨base,phase⟩]
      have nothing : tried t elapsed = [] := if_neg (by rw [phase]; exact fun both => Phase.noConfusion both.2)
      rw [all,nothing]
      refine ⟨?_,?_,fun other => absurd phase other,?_⟩
      · rw [left,remains,if_pos phase,List.append_nil,List.map_map]
        exact List.map_id _
      · rw [List.filter_map,List.map_map]
        exact (congrArg (List.map _) none).symm
      · simp only [pending,phase,base]
        omega
    | explore base phase best candidate current ahead bound other =>
      have next := observe_cursor base ended
      obtain ⟨member,chosen⟩ : nextTrial t ∈ above (ladder t.limit) t.cursor ∧
          ((above (ladder t.limit) t.cursor).filter (· ≤ nextTrial t)).filter (· ≠ t.best) = [nextTrial t] := by
        rcases nextTrial_cases inv with ⟨zero,_⟩ | found
        · have low := inv.cursor.1
          omega
        · exact found
      have upto : passed t elapsed = ((above (ladder t.limit) t.cursor).filter (· ≤ nextTrial t)).map (·,t.best) := by
        rw [passed,← next]
        exact if_pos ⟨base,phase⟩
      have one : tried t elapsed = [nextTrial t] := by
        rw [tried,if_pos ⟨base,phase⟩,current,candidate,next]
      have later : (observe t elapsed).phase ≠ .settled := by rw [phase]; exact Phase.noConfusion
      have split := above_split (ladder_ascending t.limit) (le_of_lt (of_decide_eq_true (List.mem_filter.mp member).2))
      have rest : remains (observe t elapsed) = above (ladder t.limit) (nextTrial t) := by rw [remains_eq later,limit,next]
      rw [upto,one]
      refine ⟨?_,?_,fun _ => next,?_⟩
      · rw [left,rest,List.map_map]
        exact (congrArg (· ++ _) (List.map_id _)).trans split
      · rw [List.filter_map,List.map_map]
        exact chosen.symm.trans (List.map_id _).symm
      · have lengths := congrArg List.length split
        have positive : 0 < ((above (ladder t.limit) t.cursor).filter (· ≤ nextTrial t)).length :=
          List.length_pos_of_mem (List.mem_filter.mpr ⟨member,by simp⟩)
        rw [List.length_append] at lengths
        simp only [pending,phase,base,rest,left]
        omega
    | tried trial phase best current candidate cursor =>
      have later : (observe t elapsed).phase ≠ .settled := by rw [phase]; exact Phase.noConfusion
      obtain ⟨none,nothing⟩ := passed_none fun base => absurd (trial.symm.trans base) Phase.noConfusion
      rw [none,nothing]
      refine round_still limit cursor searching later ?_
      simp only [pending,phase,trial,remains_eq later,left,limit,cursor]
      omega
    | decide confirm phase best current cursor =>
      have later : (observe t elapsed).phase ≠ .settled := by rw [phase]; exact Phase.noConfusion
      obtain ⟨none,nothing⟩ := passed_none fun _ => phase
      rw [none,nothing]
      refine round_still limit cursor searching later ?_
      simp only [pending,phase,confirm,remains_eq later,left,limit,cursor]
      omega
    | search settled phase best current cursor => exact absurd settled searching
  · have same := observe_still ended
    have later : (observe t elapsed).phase ≠ .settled := by rw [same.phase]; exact searching
    obtain ⟨none,nothing⟩ := passed_none fun base => same.phase.trans base
    rw [if_neg ended,none,nothing]
    refine round_still limit same.cursor searching later ?_
    simp only [pending,same.phase,remains_eq later,left,limit,same.cursor]
    omega

/-! ## Whole rounds -/

theorem running_after (running : Running t) (times : List R) : Running (after t times) :=
  Runs.reachable_preserves (fun _ _ _ running stepped => running_step running stepped) running ⟨times,run_after t times⟩

/-- The counts that the observations pass, with the best count when they do. -/
def reached (t : State R) (times : List R) : List (Int × Int) := gather passed t times

/-- The counts that the observations put on trial. -/
def tries (t : State R) (times : List R) : List Int := gather tried t times

/-- A round as a whole is as each of its observations. -/
theorem after_round (running : Running t) {times : List R} (searching : Searching t times) :
    Round t (after t times) (reached t times) (tries t times) (windows t times) := by
  induction times generalizing t with
  | nil => exact ⟨rfl,rfl,fun _ => rfl,le_of_eq (Nat.zero_add _)⟩
  | cons elapsed rest ih =>
    obtain ⟨unsettled,later⟩ := searching
    have one := observe_round running.inv.toCounts unsettled elapsed
    have whole := ih (running_step running rfl) later
    refine ⟨?_,?_,fun other => ?_,?_⟩
    · rw [reached,gather,List.map_append,List.append_assoc]
      exact (congrArg _ whole.order).trans one.order
    · rw [tries,gather,reached,gather,List.filter_append,List.map_append,← one.chosen]
      exact congrArg _ whole.chosen
    · have middle : (observe t elapsed).phase ≠ .settled := by
        cases rest with
        | nil => exact other
        | cons next rest => exact later.1
      have cursor : (after t (elapsed :: rest)).cursor = (tries (observe t elapsed) rest).getLastD (observe t elapsed).cursor :=
        whole.cursor other
      have cons : tries t (elapsed :: rest) = tried t elapsed ++ tries (observe t elapsed) rest := rfl
      rw [cursor,one.cursor middle,cons,List.getLastD_eq_getLast?,List.getLastD_eq_getLast?,List.getLastD_eq_getLast?,
        List.getLast?_append]
      cases (tries (observe t elapsed) rest).getLast? <;> rfl
    · have first := one.fewer
      have second := whole.fewer
      show (if ends t elapsed then 1 else 0) + windows (observe t elapsed) rest + pending (after (observe t elapsed) rest) ≤ _
      omega

/-! ## The length of a round -/

/-- A window ends after two discarded samples at most, with 64 scored ones at most. -/
theorem window_size (running : Running t) {times : List R} (none : windows t times = 0)
    (ended : ends (after t times) elapsed = true) : ∃ discarded, accepted (times ++ [elapsed]) = discarded ++ scored t (times ++ [elapsed]) ∧
      discarded.length ≤ 2 ∧ t.used + (scored t (times ++ [elapsed])).length ≤ tunerSamples := by
  obtain ⟨kept,warm,_⟩ := ends_iff.mp ended
  have filled := (filled_of_open none).scored kept warm
  refine ⟨(accepted (times ++ [elapsed])).take t.warmup,(List.take_append_drop _ _).symm,?_,?_⟩
  · have few := running.counters.warmup
    rw [List.length_take]
    omega
  · rw [← filled.used]
    rcases ends_cases (running_after running times).inv.room ended with full | ⟨_,four,_⟩
    · exact le_of_eq full
    · rw [four]
      decide

/-- How far the current window has got, warm-up included. -/
def pace (t : State R) : Nat := tunerWarmup - t.warmup + t.used

theorem observe_pace (running : Running t) (elapsed : R) :
    (accepted [elapsed]).length + pace t ≤ 66 * (if ends t elapsed then 1 else 0) + pace (observe t elapsed) := by
  have room := running.inv.room
  have few := running.counters.warmup
  simp only [tunerSamples] at room
  by_cases kept : valid elapsed = true
  · rw [accepted_valid kept,List.length_singleton]
    by_cases ended : ends t elapsed = true
    · rw [if_pos ended]
      simp only [pace,tunerWarmup]
      omega
    · rw [if_neg ended]
      by_cases warm : t.warmup = 0
      · have more := (windowEnds_sample t elapsed).2.1.length_eq
        have same : (windowEnds (sample t elapsed)).2.warmup = t.warmup := by rw [(windowEnds_sample t elapsed).1]
        rw [observe_scored kept warm,if_neg ended,pace,pace,same]
        simp only [State.used]
        rw [more,List.length_append,List.length_singleton]
        omega
      · rw [observe_warm kept (by omega)]
        simp only [pace,tunerWarmup,State.used]
        omega
  · rw [Bool.not_eq_true] at kept
    rw [accepted_invalid kept,observe_invalid t kept]
    simp

theorem after_pace (running : Running t) (times : List R) :
    (accepted times).length + pace t ≤ 66 * windows t times + pace (after t times) := by
  induction times generalizing t with
  | nil => exact le_refl _
  | cons elapsed rest ih =>
    have one := observe_pace running elapsed
    have later := ih (running_step running (show step t elapsed = some (observe t elapsed) from rfl))
    have cons : accepted (elapsed :: rest) = accepted [elapsed] ++ accepted rest := accepted_append [elapsed] rest
    have more : windows t (elapsed :: rest) = (if ends t elapsed then 1 else 0) + windows (observe t elapsed) rest := rfl
    have last : after t (elapsed :: rest) = after (observe t elapsed) rest := rfl
    rw [cons,more,last,List.length_append]
    omega

/-- Observations settle a tuner or leave it searching. -/
theorem settles_or_searching (t : State R) (times : List R) :
    (∃ round, round <+: times ∧ Searching t round ∧ (after t round).phase = .settled) ∨
    (Searching t times ∧ (after t times).phase ≠ .settled) := by
  induction times generalizing t with
  | nil =>
    by_cases settled : t.phase = .settled
    · exact .inl ⟨[],List.nil_prefix,trivial,settled⟩
    · exact .inr ⟨trivial,settled⟩
  | cons elapsed rest ih =>
    by_cases settled : t.phase = .settled
    · exact .inl ⟨[],List.nil_prefix,trivial,settled⟩
    · rcases ih (observe t elapsed) with ⟨round,start,searching,last⟩ | ⟨searching,last⟩
      · exact .inl ⟨elapsed :: round,List.cons_prefix_cons.mpr ⟨rfl,start⟩,⟨settled,searching⟩,last⟩
      · exact .inr ⟨⟨settled,searching⟩,last⟩

/-- A round passes the ladder in order, a part of it while it lasts and all of it once the
    tuner settles, and tries the counts that are not the best when it passes them. It
    settles within three windows a count and one more, none of which takes more than 64
    samples after two that are discarded. -/
theorem search_terminates {initial limit : Int} {times : List R} (executed : Runs.run step (init initial limit) times = some t)
    (base : t.phase = .base) (fresh : t.cursor = 0) :
    (∀ later, Searching t later →
      (reached t later).map Prod.fst <+: ladder t.limit ∧
      ((after t later).phase = .settled → (reached t later).map Prod.fst = ladder t.limit) ∧
      tries t later = ((reached t later).filter fun p => p.1 ≠ p.2).map Prod.fst ∧
      (tries t later).Pairwise (· < ·) ∧
      ((after t later).phase ≠ .settled → (after t later).cursor = (tries t later).getLastD 0) ∧
      windows t later + (if (after t later).phase = .settled then 0 else 1) ≤ 3 * (ladder t.limit).length + 1) ∧
    (∀ later, 66 * (3 * (ladder t.limit).length + 1) ≤ (accepted later).length →
      ∃ round, round <+: later ∧ Searching t round ∧ (after t round).phase = .settled) ∧
    ∀ earlier window elapsed, windows (after t earlier) window = 0 → ends (after t (earlier ++ window)) elapsed = true →
      ∃ discarded, accepted (window ++ [elapsed]) = discarded ++ scored (after t earlier) (window ++ [elapsed]) ∧
        discarded.length ≤ 2 ∧ (after t earlier).used + (scored (after t earlier) (window ++ [elapsed])).length ≤ 64 := by
  have running := running_run executed
  have searching : t.phase ≠ .settled := by rw [base]; exact Phase.noConfusion
  have start : remains t = ladder t.limit := by rw [remains_eq searching,fresh,above_zero running.inv.limit.1]
  have most : pending t = 3 * (ladder t.limit).length + 1 := by simp only [pending,base,start]
  have bound : ∀ later, Searching t later →
      windows t later + (if (after t later).phase = .settled then 0 else 1) ≤ 3 * (ladder t.limit).length + 1 := by
    intro later round
    have fewer := (after_round running round).fewer
    rw [most] at fewer
    by_cases settled : (after t later).phase = .settled
    · rw [if_pos settled]
      omega
    · have positive : 0 < pending (after t later) := by
        cases phase : (after t later).phase with
        | settled => exact absurd phase settled
        | base => simp only [pending,phase]; omega
        | trial => simp only [pending,phase]; omega
        | confirm => simp only [pending,phase]; omega
      rw [if_neg settled]
      omega
  refine ⟨fun later round => ?_,fun later long => ?_,fun earlier window elapsed none ended => ?_⟩
  · obtain ⟨order,chosen,cursor,_⟩ := after_round running round
    rw [start] at order
    rw [fresh] at cursor
    refine ⟨⟨_,order⟩,fun settled => ?_,chosen,?_,cursor,bound later round⟩
    · rw [remains,if_pos settled,List.append_nil] at order
      exact order
    · rw [chosen]
      have ascending := ladder_ascending t.limit
      rw [← order] at ascending
      exact (List.pairwise_append.mp ascending).1.sublist (List.filter_sublist.map _)
  · rcases settles_or_searching t later with settled | ⟨round,unsettled⟩
    · exact settled
    · have few := bound later round
      have pace := after_pace running later
      have room := (running_after running later).inv.room
      rw [if_neg unsettled] at few
      simp only [Tuner.pace,tunerWarmup,tunerSamples] at pace room
      omega
  · rw [after_append] at ended
    exact window_size (running_after running earlier) none ended

/-- A tuner for eight workers whose frames all take the same time. -/
theorem search_terminates_even : ∃ round, round <+: List.replicate 1000 (100 : ℚ) ∧ Searching (init 1 8) round ∧
    (after (init 1 8) round).phase = .settled := by
  have kept : accepted (List.replicate 1000 (100 : ℚ)) = List.replicate 1000 100 :=
    List.filter_eq_self.mpr fun elapsed member => by
      rw [List.eq_of_mem_replicate member]
      decide +kernel
  obtain ⟨_,settles,_⟩ := search_terminates (show Runs.run step (init (R := ℚ) 1 8) [] = some (init 1 8) from rfl) rfl rfl
  refine settles _ ?_
  rw [kept,List.length_replicate]
  decide

end AutoUpscale.Tuner
