import AutoUpscale.OrderStatistics
import AutoUpscale.TunerInvariant
import Mathlib.Data.List.GetD
import Mathlib.Data.List.Sort

/-!
The score of a window: `up_tuner_score` of `worker_tuner.h`. The array that it sorts in
place holds what the list of the samples holds (`scoreInPlace_eq`). Of exact times it
returns the mean and the two percentiles, leaves the samples in order, and does not
depend on the order that it finds them in (`score_correct`).
-/
namespace AutoUpscale.Tuner
open AutoUpscale.OrderStatistics (mean mean_perm mean_snoc rank_fraction percentile percentile_eq)
universe u
set_option linter.unusedSectionVars false

/-! ## The array -/

section InPlace
variable {R : Type u} [Double R]

/-- The inner loop of `up_tuner_score`, from index `j` down. -/
def insertAt (value : R) : Nat → (Nat → R) → Nat → R
  | 0, values => Function.update values 0 value
  | j + 1, values =>
    if Double.less value (values j) then insertAt value j (Function.update values (j + 1) (values j))
    else Function.update values (j + 1) value

/-- The outer loop of `up_tuner_score`, from index `i` on. -/
def scoreLoop (mean : R) (values : Nat → R) (i : Nat) : Nat → R × (Nat → R)
  | 0 => (mean,values)
  | left + 1 =>
    let value := values i
    scoreLoop (mean + (value - mean) / ((i + 1 : Nat) : R)) (insertAt value i values) (i + 1) left

/-- `up_tuner_score`, with the array as it leaves it. -/
def scoreInPlace (values : Nat → R) (count : Nat) : Score R × (Nat → R) :=
  let (mean,values) := scoreLoop (values 0) values 1 (count - 1)
  (⟨mean,values (count - count / 20 - 1),values (count - count / 100 - 1)⟩,values)

/-- The first entries of an array. -/
def firsts (values : Nat → R) (count : Nat) : List R := (List.range count).map values

variable {values : Nat → R}

@[simp] theorem firsts_length (count : Nat) : (firsts values count).length = count := by simp [firsts]

theorem firsts_succ (values : Nat → R) (count : Nat) : firsts values (count + 1) = firsts values count ++ [values count] := by
  rw [firsts,List.range_succ,List.map_append]
  rfl

theorem firsts_split (values : Nat → R) {early count : Nat} (within : early ≤ count) :
    firsts values count = firsts values early ++ (List.range' early (count - early)).map values := by
  have parts := @List.range'_append_1 0 early (count - early)
  rw [Nat.zero_add,Nat.add_sub_cancel' within] at parts
  rw [firsts,firsts,← List.map_append,List.range_eq_range',List.range_eq_range',parts]

theorem firsts_ne_nil (values : Nat → R) {count : Nat} (positive : 0 < count) : firsts values count ≠ [] := by
  intro none
  have length : (firsts values count).length = count := firsts_length count
  rw [none,List.length_nil] at length
  omega

theorem firsts_congr {other : Nat → R} {count : Nat} (same : ∀ k, k < count → values k = other k) :
    firsts values count = firsts other count :=
  List.map_congr_left fun k member => same k (List.mem_range.mp member)

theorem firsts_getD (values : Nat → R) {count k : Nat} (inside : k < count) (other : R) : (firsts values count).getD k other = values k := by
  simp [firsts,inside]

theorem insertAt_frame (value : R) {j k : Nat} (beyond : j < k) : insertAt value j values k = values k := by
  induction j generalizing values with
  | zero => exact Function.update_of_ne (by omega) _ _
  | succ j ih =>
    rw [insertAt]
    split_ifs
    · rw [ih (by omega),Function.update_of_ne (by omega)]
    · exact Function.update_of_ne (by omega) _ _

/-- The value moves down past the greater ones among the first entries. -/
theorem insertAt_firsts (value : R) (j : Nat) :
    (firsts (insertAt value j values) (j + 1)).reverse = shiftDown value (firsts values j).reverse := by
  induction j generalizing values with
  | zero => simp [firsts,insertAt,shiftDown]
  | succ j ih =>
    rw [firsts_succ values,List.reverse_append,List.reverse_singleton,List.singleton_append,shiftDown,insertAt]
    by_cases greater : Double.less value (values j) = true
    · have kept : firsts (Function.update values (j + 1) (values j)) j = firsts values j :=
        firsts_congr fun k below => Function.update_of_ne (by omega) _ _
      rw [if_pos greater,if_pos greater,firsts_succ,List.reverse_append,List.reverse_singleton,List.singleton_append,ih,kept,
        insertAt_frame _ (Nat.lt_succ_self j),Function.update_self]
    · have kept : firsts (Function.update values (j + 1) value) (j + 1) = firsts values (j + 1) :=
        firsts_congr fun k below => Function.update_of_ne (by omega) _ _
      rw [if_neg greater,if_neg greater,firsts_succ,List.reverse_append,List.reverse_singleton,List.singleton_append,kept,
        Function.update_self,firsts_succ,List.reverse_append,List.reverse_singleton,List.singleton_append]

theorem scoreLoop_frame (mean : R) {i left k : Nat} (beyond : i + left ≤ k) : (scoreLoop mean values i left).2 k = values k := by
  induction left generalizing mean values i with
  | zero => rfl
  | succ left ih =>
    rw [scoreLoop,ih _ (by omega),insertAt_frame _ (by omega)]

theorem scoreLoop_firsts (values : Nat → R) (mean : R) (i left : Nat) :
    scoreFrom mean (firsts values i).reverse i ((List.range' i left).map values) =
      ((scoreLoop mean values i left).1,(firsts (scoreLoop mean values i left).2 (i + left)).reverse) := by
  induction left generalizing mean values i with
  | zero => rfl
  | succ left ih =>
    have rest : (List.range' (i + 1) left).map values = (List.range' (i + 1) left).map (insertAt (values i) i values) :=
      List.map_congr_left fun k member => (insertAt_frame (values i) (by simp at member; omega)).symm
    rw [List.range'_succ,List.map_cons,scoreFrom,← insertAt_firsts,rest,ih,scoreLoop,show i + 1 + left = i + (left + 1) by omega]

/-- The array is scored and sorted as the list of its first entries is, and no entry
    beyond them changes. -/
theorem scoreInPlace_eq (values : Nat → R) {count : Nat} (positive : 0 < count) :
    (scoreInPlace values count).1 = (score (firsts values count)).1 ∧
    firsts (scoreInPlace values count).2 count = (score (firsts values count)).2 ∧
    ∀ k, count ≤ k → (scoreInPlace values count).2 k = values k := by
  obtain ⟨left,rfl⟩ : ∃ left, count = left + 1 := ⟨count - 1,by omega⟩
  have list : firsts values (left + 1) = values 0 :: (List.range' 1 left).map values := by
    rw [firsts,List.range_eq_range',List.range'_succ,List.map_cons]
  have loop := scoreLoop_firsts values (values 0) 1 left
  have start : (firsts values 1).reverse = [values 0] := rfl
  rw [start,Nat.add_comm 1 left] at loop
  have sorted := fun k (inside : k < left + 1) => firsts_getD (scoreLoop (values 0) values 1 left).2 inside
  rw [list,score,scoreInPlace,loop]
  simp only [List.reverse_reverse,Nat.add_sub_cancel]
  rw [← list,firsts_length,sorted _ (by omega),sorted _ (by omega)]
  exact ⟨rfl,trivial,fun k beyond => scoreLoop_frame _ (by omega)⟩

/-! ## The samples -/

theorem shiftDown_perm (value : R) (before : List R) : (shiftDown value before).Perm (value :: before) := by
  induction before with
  | nil => exact List.Perm.refl [value]
  | cons last before ih =>
    rw [shiftDown]
    split_ifs
    · exact (ih.cons last).trans (List.Perm.swap value last before)
    · exact List.Perm.refl _

theorem scoreFrom_perm (mean : R) (before : List R) (i : Nat) (rest : List R) :
    (scoreFrom mean before i rest).2.Perm (before ++ rest) := by
  induction rest generalizing mean before i with
  | nil => rw [List.append_nil]; exact List.Perm.refl before
  | cons value rest ih =>
    rw [scoreFrom]
    exact (ih _ _ _).trans (((shiftDown_perm value before).append_right rest).trans List.perm_middle.symm)

/-- Scoring leaves the samples that it finds, in some order. -/
theorem score_samples (values : List R) : (score values).2.Perm values := by
  cases values with
  | nil => exact List.Perm.refl []
  | cons first rest => exact (List.reverse_perm _).trans (scoreFrom_perm first [first] 1 rest)

/-- So does the check of a trial at its fourth sample. -/
theorem trialTooSlow_samples (t : State R) : (trialTooSlow t).2.samples.Perm t.samples := by
  rw [trialTooSlow]
  split_ifs
  · exact score_samples t.samples
  · exact List.Perm.refl _

end InPlace

/-! ## Exact times -/

theorem shiftDown_ordered (value : ℚ) (before : List ℚ) : shiftDown value before = before.orderedInsert (· ≥ ·) value := by
  induction before with
  | nil => rfl
  | cons last before ih =>
    rw [shiftDown,List.orderedInsert,ih]
    by_cases greater : value < last
    · rw [if_pos (show Double.less value last = true from decide_eq_true greater),if_neg (not_le.mpr greater)]
    · rw [if_neg (show ¬ Double.less value last = true from of_decide_eq_true.mt greater),if_pos (not_lt.mp greater)]

/-- The loop keeps the mean of the values seen, and the values in order. -/
theorem scoreFrom_mean (seen : List ℚ) {before : List ℚ} (ordered : before.Pairwise (· ≥ ·)) (rest : List ℚ) :
    ∃ after, scoreFrom (mean seen) before seen.length rest = (mean (seen ++ rest),after) ∧ after.Pairwise (· ≥ ·) := by
  induction rest generalizing before seen with
  | nil => exact ⟨before,by rw [List.append_nil]; rfl,ordered⟩
  | cons value rest ih =>
    have order : (shiftDown value before).Pairwise (· ≥ ·) := by
      rw [shiftDown_ordered]
      exact List.Pairwise.orderedInsert value before ordered
    obtain ⟨after,looped,final⟩ := ih (seen ++ [value]) order
    rw [List.append_assoc,List.singleton_append,List.length_append,List.length_singleton] at looped
    refine ⟨after,?_,final⟩
    rw [scoreFrom,← looped]
    exact congrArg (scoreFrom · _ _ rest) (mean_snoc seen value)

theorem score_spec {values : List ℚ} (some_ : values ≠ []) :
    (score values).2.Pairwise (· ≤ ·) ∧ (score values).1 = ⟨mean values,
      (score values).2.getD (values.length - values.length / 20 - 1) (mean values),
      (score values).2.getD (values.length - values.length / 100 - 1) (mean values)⟩ := by
  cases values with
  | nil => exact absurd rfl some_
  | cons first rest =>
    have single : mean [first] = first := by simp [mean]
    obtain ⟨after,looped,ordered⟩ := scoreFrom_mean [first] (List.pairwise_singleton _ first) rest
    rw [single,List.length_singleton] at looped
    rw [score,looped]
    exact ⟨List.pairwise_reverse.mpr ordered,rfl⟩

/-- The order of the samples does not matter. -/
theorem score_perm {values other : List ℚ} (perm : values.Perm other) : score values = score other := by
  by_cases none : values = []
  · subst none
    rw [perm.nil_eq]
  · have some_ : other ≠ [] := fun empty => none (by subst empty; exact perm.eq_nil)
    obtain ⟨leftOrder,leftScore⟩ := score_spec none
    obtain ⟨rightOrder,rightScore⟩ := score_spec some_
    have same : (score values).2 = (score other).2 := List.Perm.eq_of_pairwise' leftOrder rightOrder
      ((score_samples values).trans (perm.trans (score_samples other).symm))
    refine Prod.ext ?_ same
    rw [leftScore,rightScore,same,mean_perm perm,perm.length_eq]

/-- The ranks of the two percentiles, counted from 1, as the division of `up_tuner_score`
    finds them. -/
theorem percentile_ranks (count : Nat) :
    ⌈(0.95 : ℚ) * count⌉₊ = count - count / 20 ∧ ⌈(0.99 : ℚ) * count⌉₊ = count - count / 100 := by
  have five := rank_fraction (by decide : 0 < 20) count
  have one := rank_fraction (by decide : 0 < 100) count
  norm_num at five one ⊢
  exact ⟨five,one⟩

/-- A score is the mean and the two percentiles. -/
theorem score_percentiles {values : List ℚ} (some_ : values ≠ []) :
    (score values).1 = ⟨mean values,percentile 0.95 values,percentile 0.99 values⟩ := by
  obtain ⟨ordered,value⟩ := score_spec some_
  obtain ⟨rank95,rank99⟩ := percentile_ranks values.length
  have positive := List.length_pos_iff.mpr some_
  have length := (score_samples values).length_eq
  rw [value,percentile_eq (score_samples values) ordered,percentile_eq (score_samples values) ordered,rank95,rank99,
    List.getD_eq_getElem _ _ (by omega),List.getD_eq_getElem _ _ (by omega),List.getD_eq_getElem _ _ (by omega),
    List.getD_eq_getElem _ _ (by omega)]

/-- The first entries of an array, in any order, are left in order and scored by their
    mean and by the entries at the ranks of the percentiles. So a score of some of the
    entries before, as that of a trial at its fourth sample, changes no later one. -/
theorem score_correct (values : Nat → ℚ) {count : Nat} (positive : 0 < count) :
    let result := scoreInPlace values count
    (firsts result.2 count).Perm (firsts values count) ∧ (firsts result.2 count).Pairwise (· ≤ ·) ∧
    (∀ k, count ≤ k → result.2 k = values k) ∧
    result.1.mean = (firsts values count).sum / count ∧
    (1 ≤ ⌈(0.95 : ℚ) * count⌉₊ ∧ ⌈(0.95 : ℚ) * count⌉₊ ≤ count ∧ result.1.p95 = result.2 (⌈(0.95 : ℚ) * count⌉₊ - 1)) ∧
    (1 ≤ ⌈(0.99 : ℚ) * count⌉₊ ∧ ⌈(0.99 : ℚ) * count⌉₊ ≤ count ∧ result.1.p99 = result.2 (⌈(0.99 : ℚ) * count⌉₊ - 1)) ∧
    (∀ other, (firsts other count).Perm (firsts values count) →
      (scoreInPlace other count).1 = result.1 ∧ firsts (scoreInPlace other count).2 count = firsts result.2 count) ∧
    (∀ early, 0 < early → early ≤ count → (scoreInPlace (scoreInPlace values early).2 count).1 = result.1) ∧
    ∀ (t : State ℚ) (more : List ℚ), score ((trialTooSlow t).2.samples ++ more) = score (t.samples ++ more) := by
  obtain ⟨scored,sorted,beyond⟩ := scoreInPlace_eq values positive
  obtain ⟨ordered,value⟩ := score_spec (firsts_ne_nil values positive)
  have entry : ∀ k, k < count → ∀ other, (score (firsts values count)).2.getD k other = (scoreInPlace values count).2 k := by
    intro k inside other
    rw [← sorted,firsts_getD _ inside]
  have same : ∀ other, (firsts other count).Perm (firsts values count) →
      (scoreInPlace other count).1 = (scoreInPlace values count).1 ∧
      firsts (scoreInPlace other count).2 count = firsts (scoreInPlace values count).2 count := by
    intro other permuted
    obtain ⟨otherScored,otherSorted,_⟩ := scoreInPlace_eq other positive
    rw [otherScored,otherSorted,score_perm permuted,scored,sorted]
    exact ⟨rfl,rfl⟩
  obtain ⟨rank95,rank99⟩ := percentile_ranks count
  dsimp only
  rw [rank95,rank99,sorted]
  refine ⟨score_samples _,ordered,beyond,?_,⟨by omega,by omega,?_⟩,⟨by omega,by omega,?_⟩,?_,fun early some_ within => ?_,fun t more => ?_⟩
  · rw [scored,value]
    show mean (firsts values count) = _
    rw [mean,firsts_length]
  · rw [scored,value]
    dsimp only
    rw [firsts_length,entry _ (by omega)]
  · rw [scored,value]
    dsimp only
    rw [firsts_length,entry _ (by omega)]
  · intro other permuted
    rw [← sorted]
    exact same other permuted
  · obtain ⟨_,earlySorted,earlyBeyond⟩ := scoreInPlace_eq values some_
    refine (same _ ?_).1
    have later : ∀ k ∈ List.range' early (count - early), (scoreInPlace values early).2 k = values k :=
      fun k member => earlyBeyond k (by simp only [List.mem_range'_1] at member; exact member.1)
    rw [firsts_split _ within,firsts_split values within,earlySorted,List.map_congr_left later]
    exact (score_samples _).append_right _
  · exact score_perm ((trialTooSlow_samples t).append_right more)

/-- Twenty times, not in order. -/
def twentyTimes (k : Nat) : ℚ := ((7 * k % 20 : Nat) : ℚ)

theorem score_correct_twenty : (scoreInPlace twentyTimes 20).1.mean = 19 / 2 ∧
    (scoreInPlace twentyTimes 20).1.p95 = (scoreInPlace twentyTimes 20).2 18 ∧
    (scoreInPlace (scoreInPlace twentyTimes 4).2 20).1 = (scoreInPlace twentyTimes 20).1 := by
  obtain ⟨_,_,_,middle,⟨_,_,p95⟩,_,_,again,_⟩ := score_correct twentyTimes (by decide : 0 < 20)
  refine ⟨middle.trans (by decide +kernel),?_,again 4 (by decide) (by decide)⟩
  rw [p95,(percentile_ranks 20).1]

end AutoUpscale.Tuner
