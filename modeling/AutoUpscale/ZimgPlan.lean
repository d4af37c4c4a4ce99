import AutoUpscale.TileGrid
import AutoUpscale.ZimgProcess

/-!
The plan of the zimg backend agrees with itself: resolved again it is the same, and a
source that has to be copied changes the grid only where it has columns, since the
best grid with one column is the best one of rows alone.
-/
namespace AutoUpscale.ZimgPlan
open AutoUpscale.PlaneUtils AutoUpscale.ZimgHelpers AutoUpscale.TileGrid
open AutoUpscale.GridSearch (Optimal optimal_single)
open AutoUpscale.PictureView (View)
open AutoUpscale.ZimgProcess (ScalerCtx Priv buildIoReq zimgOpen prepareFirstFrameIo viewAligned)

/-- The rows and the columns of a plan. -/
def grid (plan : IoPlan) : Int × Int := (plan.nRows,plan.nCols)

def geometry (req : IoReq) : TileGeom := ⟨req.srcW,req.srcH,req.dstW,req.dstH⟩

variable {req : IoReq}

theorem resolve_colTiled (req : IoReq) : (resolveIoPlan req).colTiled = true ↔ 1 < (resolveIoPlan req).nCols := by
  simp [resolveIoPlan]

/-- Only a plan that reads its source in place has columns, and such a plan copies its
    output. -/
theorem resolve_tiled (tiled : (resolveIoPlan req).colTiled = true) :
    (resolveIoPlan req).srcZerocopy = true ∧ (resolveIoPlan req).dstZerocopy = false := by
  have several := (resolve_colTiled req).mp tiled
  constructor
  · by_contra copied
    have off : req.srcZerocopy = false := by simpa [resolveIoPlan] using copied
    obtain ⟨rows,cols,-,-,-,single,-,-,-,-,-,one⟩ := resolveIoPlan_grid req
    rw [single,one off] at several
    exact absurd several (by decide)
  · have wide : ¬(resolveIoPlan req).nCols ≤ 1 := by omega
    simp only [resolveIoPlan] at wide ⊢
    simp [wide]

/-- The grid of the plan is the best one for the least width that the source allows. -/
theorem resolve_optimal (req : IoReq) (sizes : Positive (geometry req)) :
    Optimal (Rows (geometry req) req.stripeMin) (Cols (geometry req) (if req.srcZerocopy then req.colMin else 0))
      (clampThreads req.workerBudget) (resolveIoPlan req).nRows (resolveIoPlan req).nCols :=
  decideTileGrid_optimal sizes req.workerBudget req.stripeMin _

/-- The grid for a source that is copied against the grid for one that is not. -/
theorem resolve_copied (req : IoReq) (sizes : Positive (geometry req)) :
    let copied := resolveIoPlan { req with srcZerocopy := false }
    let direct := resolveIoPlan { req with srcZerocopy := true }
    (direct.nCols = 1 → grid copied = grid direct) ∧ (direct.nCols ≠ 1 → copied.nThreads < direct.nThreads) := by
  intro copied direct
  have single : Cols (geometry req) req.colMin 1 := ⟨axisPartitionOk_one _ _ _,fun _ => rfl⟩
  have one (c : Int) : Cols (geometry req) 0 c ↔ c = 1 := by
    constructor
    · rintro ⟨-,alone⟩
      exact alone (le_refl 0)
    · rintro rfl
      exact ⟨axisPartitionOk_one _ _ _,fun _ => rfl⟩
  have best : Optimal (Rows (geometry req) req.stripeMin) (Cols (geometry req) req.colMin) (clampThreads req.workerBudget)
      direct.nRows direct.nCols := resolve_optimal { req with srcZerocopy := true } sizes
  have rowsOnly : Optimal (Rows (geometry req) req.stripeMin) (Cols (geometry req) 0) (clampThreads req.workerBudget)
      copied.nRows copied.nCols := resolve_optimal { req with srcZerocopy := false } sizes
  obtain ⟨alone,same,fewer⟩ := optimal_single one single best rowsOnly
  constructor
  · intro narrow
    rw [grid,grid,alone,same narrow,narrow]
  · intro tiled
    exact fewer tiled

/-! ## From the opening to the first frame -/

theorem zimgOpen_plan {ctx : ScalerCtx} {nThreads : Int} {allocated : Bool} {p : Priv} (opened : zimgOpen ctx nThreads allocated = some p) :
    p.plan = resolveIoPlan (buildIoReq ctx nThreads true true) ∧ p.workerBudget = nThreads ∧ p.pool = WorkerPool.configured 0 := by
  simp only [zimgOpen] at opened
  split at opened
  · cases opened
  · split_ifs at opened
    obtain rfl := Option.some.inj opened
    exact ⟨rfl,rfl,rfl⟩

/-- The plan of the first frame, by what its pictures are aligned to. -/
theorem prepareFirstFrameIo_plan {ctx : ScalerCtx} {nThreads : Int} {allocated : Bool} {p : Priv}
    (opened : zimgOpen ctx nThreads allocated = some p) (src dst : View) :
    (prepareFirstFrameIo p ctx src dst).plan = resolveIoPlan (buildIoReq ctx nThreads (viewAligned src) (viewAligned dst)) := by
  obtain ⟨-,budget,pool⟩ := zimgOpen_plan opened
  have idle : ¬(p.pool.lazyDone || p.pool.lazyFailed) = true := by
    rw [pool]
    decide
  rw [prepareFirstFrameIo,if_neg idle,budget]

/-- A source that is not aligned changes the grid only of a plan with columns. -/
theorem unaligned_grid {ctx : ScalerCtx} (sizes : Positive ⟨ctx.srcW,ctx.srcH,ctx.dstW,ctx.dstH⟩) (nThreads : Int) (srcAligned dstAligned : Bool)
    (rowsOnly : (resolveIoPlan (buildIoReq ctx nThreads true true)).colTiled = false) :
    grid (resolveIoPlan (buildIoReq ctx nThreads srcAligned dstAligned)) = grid (resolveIoPlan (buildIoReq ctx nThreads true true)) := by
  cases srcAligned with
  | true => rfl
  | false =>
    by_cases asked : ctx.srcZerocopy ≠ 0
    · have copied := resolve_copied (buildIoReq ctx nThreads true true) sizes
      have direct : { buildIoReq ctx nThreads true true with srcZerocopy := true } = buildIoReq ctx nThreads true true := by
        simp [buildIoReq,asked]
      rw [direct] at copied
      have narrow : (resolveIoPlan (buildIoReq ctx nThreads true true)).nCols = 1 := by
        obtain ⟨rows,cols,-,positive,-,number,-,tiled,-⟩ := resolveIoPlan_grid (buildIoReq ctx nThreads true true)
        rw [tiled] at rowsOnly
        rw [number]
        have few : ¬cols > 1 := by simpa using rowsOnly
        exact_mod_cast (by omega : cols = 1)
      have same := copied.1 narrow
      rw [← same]
      simp [buildIoReq,grid,resolveIoPlan]
    · simp [buildIoReq,asked,grid,resolveIoPlan]

/-- The plan of every request agrees with itself: resolved again with its own flags it
    is the same; what its flags say of its columns; its grid does not depend on the
    output; a copied source means the same grid, or fewer cells; and from the opening to
    the first frame the plan changes only where the storage is not aligned, its grid
    only where it had columns. -/
theorem io_plan_consistent (req : IoReq) (sizes : Positive (geometry req)) :
    let plan := resolveIoPlan req
    let copied := resolveIoPlan { req with srcZerocopy := false }
    let direct := resolveIoPlan { req with srcZerocopy := true }
    resolveIoPlan { req with srcZerocopy := plan.srcZerocopy, dstZerocopy := plan.dstZerocopy } = plan ∧
    (plan.colTiled = true ↔ 1 < plan.nCols) ∧ (plan.colTiled = true → plan.srcZerocopy = true ∧ plan.dstZerocopy = false) ∧
    plan.nThreads = plan.nRows * plan.nCols ∧
    (∀ dstZerocopy, grid (resolveIoPlan { req with dstZerocopy := dstZerocopy }) = grid plan) ∧
    (direct.nCols = 1 → grid copied = grid direct) ∧ (direct.nCols ≠ 1 → copied.nThreads < direct.nThreads) ∧
    ∀ (ctx : ScalerCtx) (nThreads : Int) (allocated : Bool) (p : Priv) (src dst : View),
      zimgOpen ctx nThreads allocated = some p → 0 < ctx.srcW ∧ 0 < ctx.srcH ∧ 0 < ctx.dstW ∧ 0 < ctx.dstH →
      (viewAligned src = true → viewAligned dst = true → (prepareFirstFrameIo p ctx src dst).plan = p.plan) ∧
      (grid (prepareFirstFrameIo p ctx src dst).plan ≠ grid p.plan → viewAligned src = false ∧ p.plan.colTiled = true) := by
  intro plan copied direct
  refine ⟨?_,resolve_colTiled req,fun tiled => resolve_tiled tiled,rfl,fun _ => rfl,(resolve_copied req sizes).1,
    (resolve_copied req sizes).2,?_⟩
  · simp [plan,resolveIoPlan]
  · rintro ctx nThreads allocated p src dst opened ⟨srcW,srcH,dstW,dstH⟩
    obtain ⟨openPlan,-⟩ := zimgOpen_plan opened
    rw [prepareFirstFrameIo_plan opened,openPlan]
    constructor
    · intro srcAligned dstAligned
      rw [srcAligned,dstAligned]
    · intro changed
      constructor
      · by_contra aligned
        have srcAligned : viewAligned src = true := by simpa using aligned
        rw [srcAligned] at changed
        exact changed rfl
      · by_contra untiled
        exact changed (unaligned_grid ⟨srcW,srcH,dstW,dstH⟩ nThreads _ _ (by simpa using untiled))

/-- The wide picture loses its columns, and cells, when its source is copied. -/
theorem io_plan_consistent_wide : (resolveIoPlan ZimgCells.wideRequest).colTiled = true ∧
    (resolveIoPlan { ZimgCells.wideRequest with srcZerocopy := false }).nThreads < (resolveIoPlan ZimgCells.wideRequest).nThreads := by
  have sizes : Positive (geometry ZimgCells.wideRequest) := ⟨by decide,by decide,by decide,by decide⟩
  obtain ⟨-,-,-,-,-,-,fewer,-⟩ := io_plan_consistent ZimgCells.wideRequest sizes
  exact ⟨by decide,fewer (by decide)⟩

end AutoUpscale.ZimgPlan
