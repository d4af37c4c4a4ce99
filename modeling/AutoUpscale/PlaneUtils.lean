import AutoUpscale.Partition
import Mathlib.Tactic.Ring
import Mathlib.Tactic.Linarith

/-!
The split of an axis into even-aligned stripes and the choice of a grid of
workers: `plane_utils.h`. The products are formed in 64 bits and every result is
at most an extent, so integers without bounds say what the code computes. Along
one axis the stripes are the intervals between cuts (`srcCuts`, `dstCuts`).
-/
namespace AutoUpscale.PlaneUtils
open AutoUpscale.Partition (Cuts cuts_pinned cuts_bounds)

/-- `UP_ALIGN_DOWN_2`, which clears the lowest bit. -/
def alignDown2 (x : Int) : Int := 2 * (x / 2)

/-- `UP_TILE_THREADS_MAX`. -/
def tileThreadsMax : Int := 64

/-- `up__stripe_args_valid`. -/
def stripeArgsValid (i n srcH dstH : Int) : Bool :=
  if n ≤ 0 ∨ srcH ≤ 0 ∨ dstH ≤ 0 then false else if i < 0 ∨ i ≥ n then false else true

/-- `up_stripe_bounds_t`. -/
structure StripeBounds where
  srcStart : Int
  srcEnd : Int
  dstStart : Int
  dstEnd : Int
  deriving DecidableEq, Repr

/-- The four bounds that `up_compute_stripe_bounds` writes. Nothing is negative
    where the arguments are valid, so the divisions are those of C. -/
def stripeBounds (i n srcH dstH : Int) : StripeBounds :=
  let dstStart := if i = 0 then 0 else alignDown2 (i * dstH / n)
  let dstEnd := if i = n - 1 then dstH else alignDown2 ((i + 1) * dstH / n)
  let srcStart := if i = 0 then 0 else alignDown2 (srcH * dstStart / dstH)
  let srcEnd := if i = n - 1 then srcH else alignDown2 (srcH * dstEnd / dstH)
  ⟨srcStart,srcEnd,dstStart,dstEnd⟩

/-- `up_compute_stripe_bounds`, with nothing where it returns 0. -/
def computeStripeBounds (i n srcH dstH : Int) : Option StripeBounds :=
  if stripeArgsValid i n srcH dstH = false then none
  else
    let out := stripeBounds i n srcH dstH
    if out.dstEnd > out.dstStart ∧ out.srcEnd > out.srcStart then some out else none

/-- `up_tile_geom_t`. -/
structure TileGeom where
  srcW : Int
  srcH : Int
  dstW : Int
  dstH : Int

/-- `up__tile_axis_limit`. -/
def tileAxisLimit (extent minimum fallback budget : Int) : Int :=
  let limit := if minimum > 0 then extent.tdiv minimum else fallback
  let limit := if limit < 1 then 1 else limit
  if limit > budget then budget else limit

/-- The body of the loop of `up__axis_partition_ok`. -/
def stripeOk (n src dst minimum i : Int) : Bool :=
  match computeStripeBounds i n src dst with
  | none => false
  | some b => !(decide (n > 1) && decide (b.dstEnd - b.dstStart < minimum))

/-- `up__axis_partition_ok`. -/
def axisPartitionOk (n src dst minimum : Int) : Bool :=
  if src ≤ 0 ∨ dst ≤ 0 then true else (List.range n.toNat).all (fun i => stripeOk n src dst minimum i)

/-- The loop of `up__largest_valid_split`, down from `n`. -/
def splitFrom (src dst minimum : Int) : Nat → Int
  | 0 => 1
  | n + 1 => if n = 0 then 1 else if axisPartitionOk (n + 1) src dst minimum then n + 1 else splitFrom src dst minimum n

/-- `up__largest_valid_split`. -/
def largestValidSplit (start src dst minimum : Int) : Int := splitFrom src dst minimum start.toNat

/-- The best grid so far in `up_decide_tile_grid`. -/
structure TileGrid where
  rows : Int
  cols : Int
  cells : Int
  deriving DecidableEq, Repr

/-- The body of the loop of `up_decide_tile_grid`. -/
def tryRows (budget colLimit : Int) (geom : TileGeom) (stripeMin colMin : Int) (best : TileGrid) (r : Int) : TileGrid :=
  if axisPartitionOk r geom.srcH geom.dstH stripeMin = false then best
  else
    let c := budget.tdiv r
    let c := if c > colLimit then colLimit else c
    let c := largestValidSplit c geom.srcW geom.dstW colMin
    if r * c ≥ best.cells then ⟨r,c,r * c⟩ else best

/-- `n_threads` of `up_decide_tile_grid` within 1 and the most workers. -/
def tileBudget (nThreads : Int) : Int :=
  let budget := if nThreads < 1 then 1 else nThreads
  if budget > tileThreadsMax then tileThreadsMax else budget

/-- `up_decide_tile_grid`. -/
def decideTileGrid (nThreads : Int) (geom : TileGeom) (stripeMin colMin : Int) : TileGrid :=
  let budget := tileBudget nThreads
  let rowLimit := largestValidSplit (tileAxisLimit geom.dstH stripeMin budget budget) geom.srcH geom.dstH stripeMin
  let colLimit := largestValidSplit (tileAxisLimit geom.dstW colMin 1 budget) geom.srcW geom.dstW colMin
  (List.range rowLimit.toNat).foldl (fun best (r : Nat) => tryRows budget colLimit geom stripeMin colMin best (r + 1))
    ⟨1,1,1⟩

/-! ## Cuts -/

/-- Where stripe `i` of `n` starts in the destination, and stripe `i - 1` ends. -/
def dstCut (n : Nat) (dst : Int) (i : Nat) : Int :=
  if i = 0 then 0 else if i = n then dst else alignDown2 (i * dst / n)

/-- The same in the source. -/
def srcCut (n : Nat) (src dst : Int) (i : Nat) : Int :=
  if i = 0 then 0 else if i = n then src else alignDown2 (src * dstCut n dst i / dst)

theorem alignDown2_mono {x y : Int} (ordered : x ≤ y) : alignDown2 x ≤ alignDown2 y := by
  simp only [alignDown2]
  omega

theorem alignDown2_le (x : Int) : alignDown2 x ≤ x := by
  simp only [alignDown2]
  omega

theorem alignDown2_nonneg {x : Int} (positive : 0 ≤ x) : 0 ≤ alignDown2 x := by
  simp only [alignDown2]
  omega

theorem two_dvd_alignDown2 (x : Int) : 2 ∣ alignDown2 x := ⟨x / 2,rfl⟩

variable {n : Nat} {src dst : Int}

/-- The bounds of a stripe are two neighbouring cuts on each side. -/
theorem stripeBounds_cuts {i : Nat} (inside : i < n) :
    stripeBounds i n src dst = ⟨srcCut n src dst i,srcCut n src dst (i + 1),dstCut n dst i,dstCut n dst (i + 1)⟩ := by
  have start : (i : Int) = 0 ↔ i = 0 := by omega
  have stop : (i : Int) = n - 1 ↔ i + 1 = n := by omega
  have ahead : i ≠ n := by omega
  simp only [stripeBounds,srcCut,dstCut,start,stop,ahead,if_false,Nat.add_one_ne_zero,Nat.cast_add,Nat.cast_one]

theorem mul_div_le {a b c : Int} (positive : 0 < b) (left : 0 ≤ c) (smaller : a ≤ b) : a * c / b ≤ c := by
  refine Int.ediv_le_of_le_mul positive ?_
  rw [mul_comm c b]
  exact mul_le_mul_of_nonneg_right smaller left

theorem dstCuts (positive : 0 < n) (dstPos : 0 < dst) : Cuts (dstCut n dst) n 0 dst := by
  have divisor : (0 : Int) < n := by exact_mod_cast positive
  refine cuts_pinned positive (fun i _ => ?_) (fun i _ => ?_) (fun i inside => ?_)
  · refine alignDown2_mono (Int.ediv_le_ediv divisor ?_)
    refine mul_le_mul_of_nonneg_right ?_ (le_of_lt dstPos)
    exact_mod_cast Nat.le_succ i
  · exact alignDown2_nonneg (Int.ediv_nonneg (mul_nonneg (Int.natCast_nonneg i) (le_of_lt dstPos)) (le_of_lt divisor))
  · refine le_trans (alignDown2_le _) (mul_div_le divisor (le_of_lt dstPos) ?_)
    exact_mod_cast inside

theorem srcCuts (positive : 0 < n) (srcPos : 0 < src) (dstPos : 0 < dst) : Cuts (srcCut n src dst) n 0 src := by
  have cuts := dstCuts positive dstPos
  refine cuts_pinned positive (fun i inside => ?_) (fun i inside => ?_) (fun i inside => ?_)
  · refine alignDown2_mono (Int.ediv_le_ediv dstPos ?_)
    exact mul_le_mul_of_nonneg_left (cuts.step i inside) (le_of_lt srcPos)
  · obtain ⟨low,_⟩ := cuts_bounds cuts inside
    exact alignDown2_nonneg (Int.ediv_nonneg (mul_nonneg (le_of_lt srcPos) low) (le_of_lt dstPos))
  · obtain ⟨_,high⟩ := cuts_bounds cuts inside
    rw [mul_comm]
    exact le_trans (alignDown2_le _) (mul_div_le dstPos (le_of_lt srcPos) high)

/-- On an axis of even length every cut is even. -/
theorem two_dvd_dstCut (even : 2 ∣ dst) (i : Nat) : 2 ∣ dstCut n dst i := by
  simp only [dstCut]
  split_ifs
  · exact dvd_zero 2
  · exact even
  · exact two_dvd_alignDown2 _

theorem two_dvd_srcCut (even : 2 ∣ src) (i : Nat) : 2 ∣ srcCut n src dst i := by
  simp only [srcCut]
  split_ifs
  · exact dvd_zero 2
  · exact even
  · exact two_dvd_alignDown2 _

/-! ## Valid splits -/

/-- A single stripe is the whole axis. -/
theorem axisPartitionOk_one (src dst minimum : Int) : axisPartitionOk 1 src dst minimum = true := by
  rw [axisPartitionOk]
  split_ifs with invalid
  · rfl
  · have positive : ¬ src ≤ 0 ∧ ¬ dst ≤ 0 := not_or.mp invalid
    have whole : computeStripeBounds 0 1 src dst = some ⟨0,src,0,dst⟩ := by
      simp only [computeStripeBounds,stripeArgsValid,stripeBounds]
      simp [positive]
    simp [stripeOk,whole]

/-- On an axis that passes the check every stripe comes out as its two cuts. -/
theorem computeStripeBounds_of_ok {minimum : Int} {i : Nat} (srcPos : 0 < src) (dstPos : 0 < dst)
    (ok : axisPartitionOk n src dst minimum = true) (inside : i < n) :
    computeStripeBounds i n src dst =
      some ⟨srcCut n src dst i,srcCut n src dst (i + 1),dstCut n dst i,dstCut n dst (i + 1)⟩ := by
  rw [axisPartitionOk,if_neg (by omega),List.all_eq_true] at ok
  have checked := ok i (List.mem_range.mpr (by simpa using inside))
  cases found : computeStripeBounds i n src dst with
  | none => simp [stripeOk,found] at checked
  | some b =>
    simp only [computeStripeBounds] at found
    split_ifs at found
    rw [← stripeBounds_cuts inside,Option.some.inj found]

/-- What the search for a split returns passes the check, unless it is 1. -/
theorem largestValidSplit_ok (start src dst minimum : Int) :
    axisPartitionOk (largestValidSplit start src dst minimum) src dst minimum = true ∧
    1 ≤ largestValidSplit start src dst minimum ∧
    (largestValidSplit start src dst minimum ≤ start ∨ largestValidSplit start src dst minimum = 1) := by
  have search : ∀ n : Nat, axisPartitionOk (splitFrom src dst minimum n) src dst minimum = true ∧
      1 ≤ splitFrom src dst minimum n ∧ (splitFrom src dst minimum n ≤ n ∨ splitFrom src dst minimum n = 1) := by
    intro n
    induction n with
    | zero => exact ⟨axisPartitionOk_one src dst minimum,le_refl 1,.inr rfl⟩
    | succ n ih =>
      rw [splitFrom]
      split_ifs with last found
      · exact ⟨axisPartitionOk_one src dst minimum,le_refl 1,.inr rfl⟩
      · exact ⟨found,by omega,.inl (le_refl _)⟩
      · obtain ⟨ok,low,high⟩ := ih
        exact ⟨ok,low,by push_cast; omega⟩
  obtain ⟨ok,low,high⟩ := search start.toNat
  refine ⟨ok,low,?_⟩
  simp only [largestValidSplit] at low high ⊢
  omega

theorem tileAxisLimit_bounds {budget : Int} (positive : 1 ≤ budget) (extent minimum fallback : Int) :
    1 ≤ tileAxisLimit extent minimum fallback budget ∧ tileAxisLimit extent minimum fallback budget ≤ budget := by
  simp only [tileAxisLimit]
  split_ifs <;> omega

/-! ## The grid -/

/-- A grid within the budget whose rows and columns pass the check. -/
structure GridOk (budget : Int) (geom : TileGeom) (stripeMin colMin : Int) (grid : TileGrid) : Prop where
  rows : 1 ≤ grid.rows
  cols : 1 ≤ grid.cols
  cells : grid.cells = grid.rows * grid.cols
  budget : grid.cells ≤ budget
  rowsOk : axisPartitionOk grid.rows geom.srcH geom.dstH stripeMin = true
  colsOk : axisPartitionOk grid.cols geom.srcW geom.dstW colMin = true
  untiled : colMin ≤ 0 → grid.cols = 1

/-- The columns that `tryRows` takes beside `r` rows. -/
def widestCols (budget colLimit : Int) (geom : TileGeom) (colMin r : Int) : Int :=
  let c := budget.tdiv r
  let c := if c > colLimit then colLimit else c
  largestValidSplit c geom.srcW geom.dstW colMin

theorem tryRows_eq (budget colLimit : Int) (geom : TileGeom) (stripeMin colMin : Int) (best : TileGrid) (r : Int) :
    tryRows budget colLimit geom stripeMin colMin best r =
      if axisPartitionOk r geom.srcH geom.dstH stripeMin = false then best
      else if r * widestCols budget colLimit geom colMin r ≥ best.cells
        then ⟨r,widestCols budget colLimit geom colMin r,r * widestCols budget colLimit geom colMin r⟩ else best := rfl

/-- The columns are valid and leave room for the rows. -/
theorem widestCols_ok {budget r : Int} (low : 1 ≤ r) (high : r ≤ budget) (colLimit : Int) (geom : TileGeom) (colMin : Int) :
    axisPartitionOk (widestCols budget colLimit geom colMin r) geom.srcW geom.dstW colMin = true ∧
    1 ≤ widestCols budget colLimit geom colMin r ∧ r * widestCols budget colLimit geom colMin r ≤ budget ∧
    (widestCols budget colLimit geom colMin r ≤ colLimit ∨ widestCols budget colLimit geom colMin r = 1) := by
  -- The columns that the rows leave, before they are checked.
  obtain ⟨room,found,share,narrow⟩ : ∃ room, (if budget.tdiv r > colLimit then colLimit else budget.tdiv r) = room ∧
      room ≤ budget.tdiv r ∧ room ≤ colLimit := by
    refine ⟨_,rfl,?_⟩
    split_ifs <;> omega
  simp only [widestCols,found]
  obtain ⟨colsOk,positive,chosen⟩ := largestValidSplit_ok room geom.srcW geom.dstW colMin
  generalize largestValidSplit room geom.srcW geom.dstW colMin = c at colsOk positive chosen
  refine ⟨colsOk,positive,?_,by omega⟩
  obtain smaller | single := chosen
  · have whole : r * budget.tdiv r ≤ budget := by
      rw [Int.tdiv_eq_ediv_of_nonneg (by omega)]
      exact Int.mul_ediv_self_le (by omega)
    exact le_trans (mul_le_mul_of_nonneg_left (le_trans smaller share) (by omega)) whole
  · rw [single,mul_one]
    exact high

theorem tryRows_ok {budget colLimit r : Int} {geom : TileGeom} {stripeMin colMin : Int} {best : TileGrid}
    (low : 1 ≤ r) (high : r ≤ budget) (untiled : colMin ≤ 0 → colLimit = 1)
    (ok : GridOk budget geom stripeMin colMin best) :
    GridOk budget geom stripeMin colMin (tryRows budget colLimit geom stripeMin colMin best r) := by
  rw [tryRows_eq]
  by_cases bad : axisPartitionOk r geom.srcH geom.dstH stripeMin = false
  · rw [if_pos bad]
    exact ok
  rw [if_neg bad]
  have rowsOk : axisPartitionOk r geom.srcH geom.dstH stripeMin = true := by simpa using bad
  obtain ⟨colsOk,positive,fits,narrow⟩ := widestCols_ok low high colLimit geom colMin
  generalize widestCols budget colLimit geom colMin r = c at colsOk positive fits narrow
  by_cases better : r * c ≥ best.cells
  · rw [if_pos better]
    refine ⟨low,positive,rfl,fits,rowsOk,colsOk,fun none => ?_⟩
    show c = 1
    have single := untiled none
    omega
  · rw [if_neg better]
    exact ok

theorem decideTileGrid_ok (nThreads : Int) (geom : TileGeom) (stripeMin colMin : Int) :
    GridOk (tileBudget nThreads) geom stripeMin colMin (decideTileGrid nThreads geom stripeMin colMin) := by
  have positive : 1 ≤ tileBudget nThreads := by
    simp only [tileBudget,tileThreadsMax]
    split_ifs <;> omega
  show GridOk (tileBudget nThreads) geom stripeMin colMin
    ((List.range (largestValidSplit (tileAxisLimit geom.dstH stripeMin (tileBudget nThreads) (tileBudget nThreads))
      geom.srcH geom.dstH stripeMin).toNat).foldl _ _)
  obtain ⟨_,rowLow⟩ := tileAxisLimit_bounds positive geom.dstH stripeMin (tileBudget nThreads)
  obtain ⟨_,_,rowHigh⟩ := largestValidSplit_ok
    (tileAxisLimit geom.dstH stripeMin (tileBudget nThreads) (tileBudget nThreads)) geom.srcH geom.dstH stripeMin
  refine List.foldlRecOn _ _ ⟨le_refl 1,le_refl 1,rfl,positive,axisPartitionOk_one _ _ _,axisPartitionOk_one _ _ _,
    fun _ => rfl⟩ (fun best ok r member => ?_)
  have inside := List.mem_range.mp member
  refine tryRows_ok (by omega) (by omega) (fun none => ?_) ok
  have one : tileAxisLimit geom.dstW colMin 1 (tileBudget nThreads) = 1 := by
    simp only [tileAxisLimit]
    split_ifs <;> omega
  rw [one]
  rfl

end AutoUpscale.PlaneUtils
