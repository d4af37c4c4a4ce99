import AutoUpscale.GridSearch
import AutoUpscale.WorkerPool
import AutoUpscale.ZimgCells

/-!
The grid that `up_decide_tile_grid` chooses: every cell is filled and as large as it
has to be, no worker is refused, and no other grid of valid rows and columns is
better. The limits of an axis exclude no valid split (`split_limit`), and the search
takes the most columns for each number of rows.
-/
namespace AutoUpscale.TileGrid
open AutoUpscale.PlaneUtils AutoUpscale.GridSearch
open AutoUpscale.ZimgHelpers (IoReq IoPlan resolveIoPlan)
open AutoUpscale.ZimgCells (cellBounds poolConstruct planned)

/-- A valid number of stripes. -/
def Rows (geom : TileGeom) (stripeMin r : Int) : Prop := axisPartitionOk r geom.srcH geom.dstH stripeMin = true

/-- A valid number of columns; one where there is no least width. -/
def Cols (geom : TileGeom) (colMin c : Int) : Prop := axisPartitionOk c geom.srcW geom.dstW colMin = true ∧ (colMin ≤ 0 → c = 1)

/-- The threads that are asked for, within 1 and 64. -/
def clampThreads (nThreads : Int) : Int := max 1 (min nThreads 64)

/-- A geometry of four positive extents. -/
structure Positive (geom : TileGeom) : Prop where
  srcW : 0 < geom.srcW
  srcH : 0 < geom.srcH
  dstW : 0 < geom.dstW
  dstH : 0 < geom.dstH

variable {src dst minimum budget start n : Int} {geom : TileGeom} {stripeMin colMin : Int}

theorem tileBudget_eq (nThreads : Int) : tileBudget nThreads = clampThreads nThreads := by
  simp only [tileBudget,tileThreadsMax,clampThreads]
  omega

theorem clampThreads_pos (nThreads : Int) : 1 ≤ clampThreads nThreads := le_max_left 1 _

theorem clampThreads_mono {a b : Int} (ordered : a ≤ b) : clampThreads a ≤ clampThreads b := by
  simp only [clampThreads]
  omega

/-! ## Valid splits of an axis -/

/-- What a valid split says of a stripe. -/
theorem stripe_of_ok {i : Int} (srcPos : 0 < src) (dstPos : 0 < dst) (ok : axisPartitionOk n src dst minimum = true)
    (low : 0 ≤ i) (high : i < n) : ∃ b, computeStripeBounds i n src dst = some b ∧ b.dstStart < b.dstEnd ∧
      b.srcStart < b.srcEnd ∧ (1 < n → minimum ≤ b.dstEnd - b.dstStart) := by
  obtain ⟨k,rfl⟩ := Int.eq_ofNat_of_zero_le low
  rw [axisPartitionOk,if_neg (by omega),List.all_eq_true] at ok
  have checked := ok k (List.mem_range.mpr (by omega))
  cases found : computeStripeBounds k n src dst with
  | none => simp [stripeOk,found] at checked
  | some b =>
    have filled := found
    simp only [computeStripeBounds] at filled
    split_ifs at filled with _ wide
    obtain rfl := Option.some.inj filled
    refine ⟨_,rfl,wide.1,wide.2,?_⟩
    intro several
    simp only [stripeOk,found] at checked
    simpa [several] using checked

/-- The stripes of a valid split leave room for each other. -/
theorem split_limit (srcPos : 0 < src) (dstPos : 0 < dst) (ok : axisPartitionOk n src dst minimum = true) (several : 1 < n) :
    n * minimum ≤ dst := by
  obtain ⟨m,rfl⟩ := Int.eq_ofNat_of_zero_le (by omega : 0 ≤ n)
  -- The first `k` stripes take `k` times the least extent.
  have taken : ∀ k : Nat, k ≤ m → k * minimum ≤ dstCut m dst k := by
    intro k
    induction k with
    | zero =>
      intro _
      simp [dstCut]
    | succ k ih =>
      intro inside
      have before := ih (by omega)
      obtain ⟨b,found,_,_,wide⟩ := stripe_of_ok srcPos dstPos ok (Int.natCast_nonneg k) (by omega)
      rw [computeStripeBounds_of_ok srcPos dstPos ok (by omega)] at found
      obtain rfl := Option.some.inj found
      have extent := wide several
      push_cast
      linarith
  have all := taken m (le_refl m)
  rwa [dstCut,if_neg (by omega),if_pos rfl] at all

/-- The search from the top finds the largest valid split. -/
theorem largestValidSplit_max (low : 1 ≤ n) (high : n ≤ start) (ok : axisPartitionOk n src dst minimum = true) :
    n ≤ largestValidSplit start src dst minimum := by
  have search : ∀ k : Nat, n ≤ k → n ≤ splitFrom src dst minimum k := by
    intro k
    induction k with
    | zero =>
      intro none
      push_cast at none
      omega
    | succ k ih =>
      intro inside
      rw [splitFrom]
      by_cases last : k = 0
      · rw [if_pos last]
        subst last
        simpa using inside
      rw [if_neg last]
      by_cases found : axisPartitionOk (k + 1) src dst minimum = true
      · rw [if_pos found]
        exact_mod_cast inside
      · rw [if_neg found]
        refine ih ?_
        by_contra above
        have equal : n = k + 1 := by
          push_cast at inside
          omega
        exact found (equal ▸ ok)
  exact search start.toNat (by omega)

/-- No valid split is beyond the limit of its axis. -/
theorem le_tileAxisLimit (fallback : Int) (srcPos : 0 < src) (dstPos : 0 < dst) (ok : axisPartitionOk n src dst minimum = true)
    (low : 1 ≤ n) (few : n ≤ budget) (free : minimum ≤ 0 → n ≤ fallback) : n ≤ tileAxisLimit dst minimum fallback budget := by
  have room : n = 1 ∨ n ≤ (if minimum > 0 then dst.tdiv minimum else fallback) := by
    by_cases single : n = 1
    · exact .inl single
    refine .inr ?_
    by_cases least : minimum > 0
    · rw [if_pos least,Int.tdiv_eq_ediv_of_nonneg (le_of_lt dstPos)]
      exact (Int.le_ediv_iff_mul_le least).mpr (split_limit srcPos dstPos ok (by omega))
    · rw [if_neg least]
      exact free (by omega)
  simp only [tileAxisLimit]
  generalize (if minimum > 0 then dst.tdiv minimum else fallback) = limit at room
  split_ifs <;> omega

/-! ## The search -/

/-- The limits of the two axes in `up_decide_tile_grid`. -/
def rowLimit (budget : Int) (geom : TileGeom) (stripeMin : Int) : Int :=
  largestValidSplit (tileAxisLimit geom.dstH stripeMin budget budget) geom.srcH geom.dstH stripeMin

def colLimit (budget : Int) (geom : TileGeom) (colMin : Int) : Int :=
  largestValidSplit (tileAxisLimit geom.dstW colMin 1 budget) geom.srcW geom.dstW colMin

theorem rowLimit_le (positive : 1 ≤ budget) : rowLimit budget geom stripeMin ≤ budget := by
  obtain ⟨_,high⟩ := tileAxisLimit_bounds positive geom.dstH stripeMin budget
  obtain ⟨_,_,chosen⟩ := largestValidSplit_ok (tileAxisLimit geom.dstH stripeMin budget budget) geom.srcH geom.dstH stripeMin
  rw [rowLimit]
  omega

/-- Every feasible number of rows is searched. -/
theorem le_rowLimit {r c : Int} (sizes : Positive geom)
    (feasible : Feasible (Rows geom stripeMin) (Cols geom colMin) budget r c) : r ≤ rowLimit budget geom stripeMin := by
  have few := feasible_rows_le feasible
  have limit := le_tileAxisLimit budget sizes.srcH sizes.dstH feasible.validRows feasible.rows few fun _ => few
  exact largestValidSplit_max feasible.rows limit feasible.validRows

theorem le_colLimit {r c : Int} (sizes : Positive geom)
    (feasible : Feasible (Rows geom stripeMin) (Cols geom colMin) budget r c) : c ≤ colLimit budget geom colMin := by
  obtain ⟨valid,single⟩ := feasible.validCols
  have limit := le_tileAxisLimit 1 sizes.srcW sizes.dstW valid feasible.cols (feasible_cols_le feasible)
    fun none => le_of_eq (single none)
  exact largestValidSplit_max feasible.cols limit valid

theorem colLimit_untiled (positive : 1 ≤ budget) (none : colMin ≤ 0) : colLimit budget geom colMin = 1 := by
  have one : tileAxisLimit geom.dstW colMin 1 budget = 1 := by
    simp only [tileAxisLimit]
    split_ifs <;> omega
  rw [colLimit,one]
  rfl

/-- The columns that the search takes are the most that fit. -/
theorem widestCols_max {r c : Int} (sizes : Positive geom)
    (feasible : Feasible (Rows geom stripeMin) (Cols geom colMin) budget r c) :
    c ≤ widestCols budget (colLimit budget geom colMin) geom colMin r := by
  have rows := feasible.rows
  have share : c ≤ budget.tdiv r := by
    rw [Int.tdiv_eq_ediv_of_nonneg (by linarith [feasible_rows_le feasible])]
    refine (Int.le_ediv_iff_mul_le (by omega)).mpr ?_
    rw [mul_comm]
    exact feasible.within
  have limit := le_colLimit sizes feasible
  refine largestValidSplit_max feasible.cols ?_ feasible.validCols.1
  split_ifs
  · exact limit
  · exact share

/-- One turn of the search. -/
theorem tryRows_leads {k : Int} {best : TileGrid} (sizes : Positive geom) (low : 0 ≤ k) (high : k + 1 ≤ budget)
    (cells : best.cells = best.rows * best.cols)
    (leads : Leads (Rows geom stripeMin) (Cols geom colMin) budget k best.rows best.cols) :
    let next := tryRows budget (colLimit budget geom colMin) geom stripeMin colMin best (k + 1)
    next.cells = next.rows * next.cols ∧
      Leads (Rows geom stripeMin) (Cols geom colMin) budget (k + 1) next.rows next.cols := by
  simp only [tryRows_eq]
  by_cases bad : axisPartitionOk (k + 1) geom.srcH geom.dstH stripeMin = false
  · rw [if_pos bad]
    have invalid : ¬Rows geom stripeMin (k + 1) := by simp [Rows,bad]
    exact ⟨cells,leads_skip leads invalid⟩
  rw [if_neg bad]
  have valid : Rows geom stripeMin (k + 1) := by simpa [Rows] using bad
  obtain ⟨colsOk,positive,fits,narrow⟩ := widestCols_ok (by omega) high (colLimit budget geom colMin) geom colMin
  have widest (y : Int) (other : Feasible (Rows geom stripeMin) (Cols geom colMin) budget (k + 1) y) := widestCols_max sizes other
  generalize widestCols budget (colLimit budget geom colMin) geom colMin (k + 1) = c at colsOk positive fits narrow widest
  have next : Feasible (Rows geom stripeMin) (Cols geom colMin) budget (k + 1) c := by
    refine ⟨by omega,positive,fits,valid,colsOk,fun none => ?_⟩
    have single : colLimit budget geom colMin = 1 := colLimit_untiled (by omega) none
    omega
  by_cases better : (k + 1) * c ≥ best.cells
  · rw [if_pos better]
    exact ⟨rfl,leads_better leads next widest (cells ▸ better)⟩
  · rw [if_neg better]
    exact ⟨cells,leads_worse leads widest low (by rw [← cells]; omega)⟩

/-- The grid that is chosen is the best one. -/
theorem decideTileGrid_optimal (sizes : Positive geom) (nThreads stripeMin colMin : Int) :
    let grid := decideTileGrid nThreads geom stripeMin colMin
    Optimal (Rows geom stripeMin) (Cols geom colMin) (clampThreads nThreads) grid.rows grid.cols := by
  have positive := clampThreads_pos nThreads
  have limit : rowLimit (clampThreads nThreads) geom stripeMin ≤ clampThreads nThreads := rowLimit_le positive
  intro grid
  have searched : grid = (List.range (rowLimit (clampThreads nThreads) geom stripeMin).toNat).foldl (fun best (r : Nat) =>
      tryRows (clampThreads nThreads) (colLimit (clampThreads nThreads) geom colMin) geom stripeMin colMin best (r + 1))
      ⟨1,1,1⟩ := by
    simp only [grid,decideTileGrid,tileBudget_eq]
    rfl
  rw [searched]
  generalize clampThreads nThreads = budget at *
  have start : Feasible (Rows geom stripeMin) (Cols geom colMin) budget 1 1 :=
    ⟨le_refl 1,le_refl 1,by omega,axisPartitionOk_one _ _ _,axisPartitionOk_one _ _ _,fun _ => rfl⟩
  have search : ∀ n : Nat, n ≤ budget → ∀ best : TileGrid,
      best = (List.range n).foldl (fun best (r : Nat) =>
        tryRows budget (colLimit budget geom colMin) geom stripeMin colMin best (r + 1)) ⟨1,1,1⟩ →
      best.cells = best.rows * best.cols ∧ Leads (Rows geom stripeMin) (Cols geom colMin) budget n best.rows best.cols := by
    intro n
    induction n with
    | zero =>
      rintro _ best rfl
      exact ⟨rfl,leads_start start⟩
    | succ n ih =>
      rintro inside best rfl
      push_cast at inside ⊢
      rw [List.range_succ,List.foldl_append]
      obtain ⟨cells,leads⟩ := ih (by omega) _ rfl
      exact tryRows_leads sizes (Int.natCast_nonneg n) inside cells leads
  have few : ((rowLimit budget geom stripeMin).toNat : Int) ≤ budget := by omega
  obtain ⟨_,leads⟩ := search _ few _ rfl
  refine leads_optimal leads fun x y other => ?_
  have searchedRow := le_rowLimit sizes other
  have positive := other.rows
  omega

/-! ## What the grid is good for -/

/-- Every stripe of a split is filled on both sides, and as large as it has to be
    where there are several. -/
def StripesFilled (n src dst minimum : Int) : Prop :=
  ∀ i, 0 ≤ i → i < n → ∃ b, computeStripeBounds i n src dst = some b ∧ b.dstStart < b.dstEnd ∧ b.srcStart < b.srcEnd ∧
    (1 < n → minimum ≤ b.dstEnd - b.dstStart)

/-- No cell of a resolved plan is refused for its geometry. -/
theorem poolConstruct_some (req : IoReq) (positive : 0 < req.srcW ∧ 0 < req.srcH ∧ 0 < req.dstW ∧ 0 < req.dstH)
    (subW subH : Nat) {i : Nat} (inside : i < (resolveIoPlan req).nThreads) :
    ∃ w, poolConstruct (planned subW subH req) i = some w := by
  obtain ⟨srcW,srcH,dstW,dstH⟩ := positive
  obtain ⟨n,m,rowsPos,colsPos,rows,cols,threads,-,-,⟨rowMin,rowsOk⟩,⟨colMin,colsOk⟩,-⟩ := ZimgHelpers.resolveIoPlan_grid req
  rw [threads] at inside
  exact ⟨_,ZimgCells.poolConstruct_of_ok rows cols ⟨srcW,srcH⟩ ⟨dstW,dstH⟩ rowsOk colsOk (by exact_mod_cast inside)⟩

/-- The grid that is chosen is sound: it keeps to the threads and to one column where
    it has to, its stripes and columns are filled and large enough, and neither the
    construction of a worker nor the pool refuses a plan with it. -/
theorem tile_grid_sound (nThreads stripeMin colMin : Int) (geom : TileGeom) :
    let grid := decideTileGrid nThreads geom stripeMin colMin
    1 ≤ grid.rows ∧ 1 ≤ grid.cols ∧ grid.rows * grid.cols ≤ clampThreads nThreads ∧ (colMin ≤ 0 → grid.cols = 1) ∧
    (0 < geom.srcW ∧ 0 < geom.srcH ∧ 0 < geom.dstW ∧ 0 < geom.dstH →
      StripesFilled grid.rows geom.srcH geom.dstH stripeMin ∧ StripesFilled grid.cols geom.srcW geom.dstW colMin) ∧
    ∀ req : IoReq, 0 < req.srcW ∧ 0 < req.srcH ∧ 0 < req.dstW ∧ 0 < req.dstH →
      (∀ subW subH i : Nat, i < (resolveIoPlan req).nThreads → ∃ w, poolConstruct (planned subW subH req) i = some w) ∧
      1 ≤ (resolveIoPlan req).nThreads ∧ (resolveIoPlan req).nThreads ≤ WorkerPool.threadsMax := by
  intro grid
  have ok := decideTileGrid_ok nThreads geom stripeMin colMin
  refine ⟨ok.rows,ok.cols,?_,ok.untiled,?_,?_⟩
  · rw [← ok.cells,← tileBudget_eq]
    exact ok.budget
  · rintro ⟨srcW,srcH,dstW,dstH⟩
    exact ⟨fun i low high => stripe_of_ok srcH dstH ok.rowsOk low high,
      fun i low high => stripe_of_ok srcW dstW ok.colsOk low high⟩
  · intro req positive
    obtain ⟨rows,cols,cells,budget,-⟩ := decideTileGrid_ok req.workerBudget ⟨req.srcW,req.srcH,req.dstW,req.dstH⟩ req.stripeMin
      (if req.srcZerocopy then req.colMin else 0)
    refine ⟨fun subW subH i inside => poolConstruct_some req positive subW subH inside,?_,?_⟩
    · exact one_le_mul_of_one_le_of_one_le rows cols
    · rw [tileBudget_eq] at budget
      have most : clampThreads req.workerBudget ≤ 64 := by
        simp only [clampThreads]
        omega
      exact (le_of_eq cells.symm).trans (budget.trans most)

/-- The grid that is chosen is the best of all that are valid, more threads never
    make it smaller, and it has columns only where no split into rows alone uses all
    threads. -/
theorem tile_grid_optimal {geom : TileGeom} (sizes : Positive geom) (nThreads stripeMin colMin : Int) :
    let grid := decideTileGrid nThreads geom stripeMin colMin
    let valid (r c : Int) := 1 ≤ r ∧ 1 ≤ c ∧ r * c ≤ clampThreads nThreads ∧
      axisPartitionOk r geom.srcH geom.dstH stripeMin = true ∧ axisPartitionOk c geom.srcW geom.dstW colMin = true ∧
      (colMin ≤ 0 → c = 1)
    valid grid.rows grid.cols ∧
    (∀ r c, valid r c → r * c ≤ grid.rows * grid.cols ∧ (r * c = grid.rows * grid.cols → r ≤ grid.rows)) ∧
    (∀ more, nThreads ≤ more → grid.rows * grid.cols ≤
      (decideTileGrid more geom stripeMin colMin).rows * (decideTileGrid more geom stripeMin colMin).cols) ∧
    (1 < grid.cols → axisPartitionOk (clampThreads nThreads) geom.srcH geom.dstH stripeMin = false) := by
  intro grid valid
  have best := decideTileGrid_optimal sizes nThreads stripeMin colMin
  have feasible := best.feasible
  refine ⟨?_,?_,?_,?_⟩
  · exact ⟨feasible.rows,feasible.cols,feasible.within,feasible.validRows,feasible.validCols.1,feasible.validCols.2⟩
  · rintro r c ⟨rows,cols,within,rowsOk,colsOk,single⟩
    have other : Feasible (Rows geom stripeMin) (Cols geom colMin) (clampThreads nThreads) r c :=
      ⟨rows,cols,within,rowsOk,colsOk,single⟩
    exact ⟨best.most r c other,best.tall r c other⟩
  · intro more ordered
    exact optimal_mono (clampThreads_mono ordered) best (decideTileGrid_optimal sizes more stripeMin colMin)
  · intro tiled
    have single : Cols geom colMin 1 := ⟨axisPartitionOk_one _ _ _,fun _ => rfl⟩
    simpa [Rows] using optimal_cols single best tiled

/-- 1024 by 64 pixels for eight workers: four rows of at least 16 pixels, and two columns. -/
theorem tile_grid_optimal_wide : (decideTileGrid 8 ⟨256,32,1024,64⟩ 16 64).cols = 2 ∧
    axisPartitionOk 8 32 64 16 = false := by
  have tiled : (decideTileGrid 8 ⟨256,32,1024,64⟩ 16 64).cols = 2 := by decide
  have sizes : Positive ⟨256,32,1024,64⟩ := ⟨by decide,by decide,by decide,by decide⟩
  obtain ⟨-,-,-,rowsOnly⟩ := tile_grid_optimal sizes 8 16 64
  exact ⟨tiled,rowsOnly (by rw [tiled]; decide)⟩

end AutoUpscale.TileGrid
