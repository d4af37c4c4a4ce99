import AutoUpscale.Chroma
import AutoUpscale.ZimgHelpers

/-!
The cells of the zimg backend: which rectangles of the planes each worker of
`scaler_zimg.c` reads and writes. A cell is a stripe of rows and a tile of
columns; the cells of a plan split every plane into disjoint rectangles.
-/
namespace AutoUpscale.ZimgCells
set_option linter.unusedSimpArgs false
open AutoUpscale.PlaneUtils AutoUpscale.ZimgHelpers
open AutoUpscale.Chroma (chromaToZimg chromaToZimg_sub)
open AutoUpscale.Partition (Cuts Within cuts_bounds cuts_map cell_place grid_unique)

inductive Plane
  | y
  | u
  | v
  deriving DecidableEq, Repr

/-- A block of bytes of a plane, as `up_copy_plane` is asked to copy it. -/
structure Rect where
  x : Int
  y : Int
  w : Int
  h : Int
  deriving DecidableEq, Repr

def Rect.Covers (r : Rect) (x y : Int) : Prop := r.x ≤ x ∧ x < r.x + r.w ∧ r.y ≤ y ∧ y < r.y + r.h

/-- What the workers read of `zimg_priv_t`. -/
structure Geometry where
  subW : Nat
  subH : Nat
  srcW : Int
  srcH : Int
  dstW : Int
  dstH : Int
  plan : IoPlan

/-- `cell_bounds_t`. -/
structure CellBounds where
  rows : StripeBounds
  cols : StripeBounds

/-- `worker_cell_geom_t`. -/
structure CellGeom where
  srcYStart : Int
  srcYEnd : Int
  dstYStart : Int
  dstYEnd : Int
  dstXStart : Int
  srcW : Int
  dstW : Int
  subW : Nat
  subH : Nat

/-- The image formats that `build_stripe_graph` asks for, with the columns of the
    active region where it is set. -/
structure Graph where
  srcW : Int
  srcH : Int
  active : Option (Int × Int)
  dstW : Int
  dstH : Int
  subW : Nat
  subH : Nat

/-- What is constant of `stripe_worker_t`, but for its buffers. -/
structure StripeWorker where
  graph : Graph
  cell : CellGeom
  colTiled : Bool
  copyIn : Bool
  copyOut : Bool

/-- `build_stripe_graph`. -/
def buildStripeGraph (srcFullW : Int) (c : CellBounds) (subW subH : Nat) : Graph :=
  let actLeft := c.cols.srcStart
  let actWidth := c.cols.srcEnd - c.cols.srcStart
  { srcW := srcFullW, srcH := c.rows.srcEnd - c.rows.srcStart,
    active := if actLeft > 0 ∨ actWidth < srcFullW then some (actLeft,actWidth) else none,
    dstW := c.cols.dstEnd - c.cols.dstStart, dstH := c.rows.dstEnd - c.rows.dstStart, subW := subW, subH := subH }

/-- `init_stripe_worker`, but for what is allocated. -/
def initStripeWorker (g : Geometry) (c : CellBounds) : StripeWorker :=
  { graph := buildStripeGraph g.srcW c g.subW g.subH,
    cell :=
      { srcYStart := c.rows.srcStart, srcYEnd := c.rows.srcEnd, dstYStart := c.rows.dstStart, dstYEnd := c.rows.dstEnd,
        dstXStart := c.cols.dstStart, srcW := c.cols.srcEnd - c.cols.srcStart, dstW := c.cols.dstEnd - c.cols.dstStart,
        subW := if g.subW < 8 then g.subW else 0, subH := if g.subH < 8 then g.subH else 0 },
    colTiled := g.plan.colTiled, copyIn := !g.plan.srcZerocopy, copyOut := !g.plan.dstZerocopy }

/-- The bounds of cell `i` in `zimg_pool_construct`; nothing where a range is empty. -/
def cellBounds (g : Geometry) (i : Nat) : Option CellBounds :=
  let row := (i : Int) / g.plan.nCols
  let col := (i : Int) % g.plan.nCols
  match computeStripeBounds row g.plan.nRows g.srcH g.dstH with
  | none => none
  | some rows =>
    match computeStripeBounds col g.plan.nCols g.srcW g.dstW with
    | none => none
    | some cols => some ⟨rows,cols⟩

/-- `zimg_pool_construct`, but for what is allocated. -/
def poolConstruct (g : Geometry) (i : Nat) : Option StripeWorker := (cellBounds g i).map (initStripeWorker g)

/-! ## What a worker copies -/

/-- `worker_copy_in_stripe`: the block it copies of each plane. -/
def workerCopyInStripe (w : StripeWorker) : Plane → Rect
  | .y => ⟨0,w.cell.srcYStart,w.cell.srcW,w.cell.srcYEnd - w.cell.srcYStart⟩
  | .u | .v =>
    let cs := w.cell.srcYStart >>> w.cell.subH
    let crows := (w.cell.srcYEnd >>> w.cell.subH) - cs
    let cw := chromaDim w.cell.srcW w.cell.subW
    ⟨0,cs,cw,crows⟩

/-- `worker_copy_out_stripe`. -/
def workerCopyOutStripe (w : StripeWorker) : Plane → Rect
  | .y => ⟨0,w.cell.dstYStart,w.cell.dstW,w.cell.dstYEnd - w.cell.dstYStart⟩
  | .u | .v =>
    let cs := w.cell.dstYStart >>> w.cell.subH
    let crows := (w.cell.dstYEnd >>> w.cell.subH) - cs
    let cw := chromaDim w.cell.dstW w.cell.subW
    ⟨0,cs,cw,crows⟩

/-- `worker_copy_out_tile`. -/
def workerCopyOutTile (w : StripeWorker) : Plane → Rect
  | .y => ⟨w.cell.dstXStart,w.cell.dstYStart,w.cell.dstW,w.cell.dstYEnd - w.cell.dstYStart⟩
  | .u | .v =>
    let cs := w.cell.dstYStart >>> w.cell.subH
    let crows := (w.cell.dstYEnd >>> w.cell.subH) - cs
    let cw := chromaDim w.cell.dstW w.cell.subW
    let cxc := w.cell.dstXStart >>> w.cell.subW
    ⟨cxc,cs,cw,crows⟩

/-- Where the graph of a stripe writes in the destination that it is given: its
    own image from the row offset of `zimg_worker_run` on. -/
def graphWrites (w : StripeWorker) : Plane → Rect
  | .y => ⟨0,w.cell.dstYStart,w.graph.dstW,w.graph.dstH⟩
  | .u | .v => ⟨0,w.cell.dstYStart >>> w.cell.subH,w.graph.dstW >>> w.graph.subW,w.graph.dstH >>> w.graph.subH⟩

/-- What of the destination picture one run of a worker writes, by the branches of
    `worker_emit_output`. -/
def emitOutput (w : StripeWorker) (plane : Plane) : Rect :=
  if w.colTiled then workerCopyOutTile w plane
  else if w.copyOut then workerCopyOutStripe w plane
  else graphWrites w plane

/-- The width and the height of a plane of an image. -/
def planeDims (w h : Int) (subW subH : Nat) : Plane → Int × Int
  | .y => (w,h)
  | .u | .v => (chromaDim w subW,chromaDim h subH)

/-- Every point of a plane lies in the rectangle of exactly one of `n` cells, no
    rectangle reaches outside the plane, and none is empty or wider than the plane:
    `up_copy_plane` copies each whole wherever the pitches hold a row. -/
structure CoversOnce (n : Nat) (rect : Nat → Option Rect) (dims : Int × Int) : Prop where
  once : ∀ x y, 0 ≤ x → x < dims.1 → 0 ≤ y → y < dims.2 → ∃! i, i < n ∧ ∃ r, rect i = some r ∧ r.Covers x y
  inside : ∀ i r, i < n → rect i = some r → ∀ x y, r.Covers x y → 0 ≤ x ∧ x < dims.1 ∧ 0 ≤ y ∧ y < dims.2
  whole : ∀ i, i < n → ∃ r, rect i = some r ∧ 0 < r.w ∧ r.w ≤ dims.1 ∧ 0 < r.h

/-! ## Rectangles between cuts -/

/-- The rectangle of a row and a column between cuts. -/
def cutRect (rows cols : Nat → Int) (row col : Nat) : Rect :=
  ⟨cols col,rows row,cols (col + 1) - cols col,rows (row + 1) - rows row⟩

theorem cutRect_covers (rows cols : Nat → Int) (row col : Nat) (x y : Int) :
    (cutRect rows cols row col).Covers x y ↔ Within rows row y ∧ Within cols col x := by
  simp only [cutRect,Rect.Covers,Within]
  omega

theorem coversOnce_of_cuts {rows cols : Nat → Int} {n m : Nat} {w h : Int} {rect : Nat → Option Rect}
    (rowCuts : Cuts rows n 0 h) (colCuts : Cuts cols m 0 w)
    (found : ∀ i, i < n * m → rect i = some (cutRect rows cols (i / m) (i % m)))
    (filled : ∀ i, i < n * m → rows (i / m) < rows (i / m + 1) ∧ cols (i % m) < cols (i % m + 1)) :
    CoversOnce (n * m) rect (w,h) := by
  refine ⟨fun x y x0 x1 y0 y1 => ?_,fun i r inside same x y covers => ?_,fun i inside => ?_⟩
  · obtain ⟨_,once⟩ := grid_unique rowCuts colCuts (x := x) (y := y)
    obtain ⟨i,⟨inside,row,col⟩,unique⟩ := once y0 y1 x0 x1
    refine ⟨i,⟨inside,_,found i inside,(cutRect_covers _ _ _ _ _ _).mpr ⟨row,col⟩⟩,?_⟩
    rintro j ⟨inside',r,same,covers⟩
    rw [found j inside'] at same
    cases same
    exact unique j ⟨inside',(cutRect_covers _ _ _ _ _ _).mp covers⟩
  · rw [found i inside] at same
    cases same
    obtain ⟨row,col⟩ := (cutRect_covers _ _ _ _ _ _).mp covers
    obtain ⟨within,_⟩ := grid_unique rowCuts colCuts (x := x) (y := y)
    obtain ⟨y0,y1,x0,x1⟩ := within i inside row col
    exact ⟨x0,x1,y0,y1⟩
  · obtain ⟨_,hc⟩ := cell_place inside
    obtain ⟨taller,wider⟩ := filled i inside
    obtain ⟨low,_⟩ := cuts_bounds colCuts (le_of_lt hc)
    obtain ⟨_,high⟩ := cuts_bounds colCuts (i := i % m + 1) hc
    refine ⟨_,found i inside,?_,?_,?_⟩ <;> simp only [cutRect] <;> omega

/-! ## The cells of a plan -/

/-- The shift of a plane along an axis whose chroma is shifted by `sub`. -/
def planeShift (sub : Nat) : Plane → Nat
  | .y => 0
  | .u | .v => sub

theorem shift_mono (s : Nat) (a b : Int) (ordered : a ≤ b) : a >>> s ≤ b >>> s := by
  simp only [Int.shiftRight_eq_div_pow]
  exact Int.ediv_le_ediv (by positivity) ordered

theorem zero_shift (s : Nat) : (0 : Int) >>> s = 0 := by
  simp [Int.shiftRight_eq_div_pow]

/-- Cuts of an axis are cuts of each plane. -/
theorem cuts_shift {f : Nat → Int} {n : Nat} {top : Int} (cuts : Cuts f n 0 top) (s : Nat) :
    Cuts (fun i => f i >>> s) n 0 (top >>> s) := by
  simpa only [zero_shift] using cuts_map (shift_mono s) cuts

/-- Between cuts that the subsampling divides, rounding up and the difference of
    two shifted rows agree. -/
theorem chromaDim_sub {a b : Int} {sub : Nat} (halved : sub ≤ 1) (ordered : a ≤ b) (start : sub = 1 → 2 ∣ a)
    (stop : sub = 1 → 2 ∣ b) : chromaDim (b - a) sub = b >>> sub - a >>> sub ∧ (b - a) >>> sub = b >>> sub - a >>> sub := by
  have exact_ := chromaDim_exact (v := b - a) halved (by omega) (fun one => Int.dvd_sub (stop one) (start one))
  refine ⟨exact_.trans ?_,?_⟩ <;>
  · obtain rfl | rfl : sub = 0 ∨ sub = 1 := by omega
    · simp
    · obtain ⟨a,rfl⟩ := start rfl
      obtain ⟨b,rfl⟩ := stop rfl
      simp only [Int.shiftRight_eq_div_pow]
      omega

theorem shift_lt {a b : Int} {sub : Nat} (halved : sub ≤ 1) (ordered : a < b) (start : sub = 1 → 2 ∣ a)
    (stop : sub = 1 → 2 ∣ b) : a >>> sub < b >>> sub := by
  obtain rfl | rfl : sub = 0 ∨ sub = 1 := by omega
  · simpa using ordered
  · obtain ⟨a,rfl⟩ := start rfl
    obtain ⟨b,rfl⟩ := stop rfl
    simp only [Int.shiftRight_eq_div_pow]
    omega

/-- What the two axes of a plan are known to be: grids that pass the check, even
    where the chroma is halved. -/
structure Aligned (g : Geometry) (n m : Nat) : Prop where
  subW : g.subW ≤ 1
  subH : g.subH ≤ 1
  srcW : 0 < g.srcW
  srcH : 0 < g.srcH
  dstW : 0 < g.dstW
  dstH : 0 < g.dstH
  evenW : g.subW = 1 → 2 ∣ g.srcW ∧ 2 ∣ g.dstW
  evenH : g.subH = 1 → 2 ∣ g.srcH ∧ 2 ∣ g.dstH
  rows : g.plan.nRows = n
  cols : g.plan.nCols = m
  rowsPos : 0 < n
  colsPos : 0 < m
  rowsOk : ∃ minimum, axisPartitionOk n g.srcH g.dstH minimum = true
  colsOk : ∃ minimum, axisPartitionOk m g.srcW g.dstW minimum = true
  tiled : g.plan.colTiled = decide (m > 1)
  copies : g.plan.srcZerocopy = false → m = 1

variable {g : Geometry} {n m i : Nat}

/-- The bounds of the cell in row `row` and column `col`. -/
def cutBounds (g : Geometry) (n m row col : Nat) : CellBounds :=
  ⟨⟨srcCut n g.srcH g.dstH row,srcCut n g.srcH g.dstH (row + 1),dstCut n g.dstH row,dstCut n g.dstH (row + 1)⟩,
    ⟨srcCut m g.srcW g.dstW col,srcCut m g.srcW g.dstW (col + 1),dstCut m g.dstW col,dstCut m g.dstW (col + 1)⟩⟩

/-- Where both axes are partitioned well, no cell is rejected. -/
theorem poolConstruct_of_ok {rowMin colMin : Int} (rows : g.plan.nRows = n) (cols : g.plan.nCols = m) (src : 0 < g.srcW ∧ 0 < g.srcH)
    (dst : 0 < g.dstW ∧ 0 < g.dstH) (rowsOk : axisPartitionOk n g.srcH g.dstH rowMin = true)
    (colsOk : axisPartitionOk m g.srcW g.dstW colMin = true) (inside : i < n * m) :
    poolConstruct g i = some (initStripeWorker g (cutBounds g n m (i / m) (i % m))) := by
  obtain ⟨hr,hc⟩ := cell_place inside
  simp only [poolConstruct,cellBounds,rows,cols]
  rw [← Int.natCast_div,← Int.natCast_mod,computeStripeBounds_of_ok src.2 dst.2 rowsOk hr,
    computeStripeBounds_of_ok src.1 dst.1 colsOk hc]
  rfl

theorem poolConstruct_cuts (aligned : Aligned g n m) (inside : i < n * m) :
    poolConstruct g i = some (initStripeWorker g (cutBounds g n m (i / m) (i % m))) := by
  obtain ⟨_,rowsOk⟩ := aligned.rowsOk
  obtain ⟨_,colsOk⟩ := aligned.colsOk
  exact poolConstruct_of_ok aligned.rows aligned.cols ⟨aligned.srcW,aligned.srcH⟩ ⟨aligned.dstW,aligned.dstH⟩ rowsOk colsOk inside

/-- The cuts of a valid axis increase. -/
theorem cuts_increase {src dst minimum : Int} (srcPos : 0 < src) (dstPos : 0 < dst)
    (ok : axisPartitionOk n src dst minimum = true) (inside : i < n) :
    dstCut n dst i < dstCut n dst (i + 1) ∧ srcCut n src dst i < srcCut n src dst (i + 1) := by
  have bounds := computeStripeBounds_of_ok srcPos dstPos ok inside
  simp only [computeStripeBounds,stripeBounds_cuts inside] at bounds
  split_ifs at bounds with _ filled
  exact filled

/-- The destination cuts of a plane. -/
def dstRows (g : Geometry) (n : Nat) (plane : Plane) (row : Nat) : Int := dstCut n g.dstH row >>> planeShift g.subH plane

def dstCols (g : Geometry) (m : Nat) (plane : Plane) (col : Nat) : Int := dstCut m g.dstW col >>> planeShift g.subW plane

/-- The source rows of a plane; a plan that copies its source has one column. -/
def srcRows (g : Geometry) (n : Nat) (plane : Plane) (row : Nat) : Int :=
  srcCut n g.srcH g.dstH row >>> planeShift g.subH plane

def srcCols (g : Geometry) (m : Nat) (plane : Plane) (col : Nat) : Int :=
  srcCut m g.srcW g.dstW col >>> planeShift g.subW plane

/-- Whichever way a cell writes, it writes the rectangle between its cuts. -/
theorem emitOutput_cut (aligned : Aligned g n m) (inside : i < n * m) (plane : Plane) :
    emitOutput (initStripeWorker g (cutBounds g n m (i / m) (i % m))) plane =
      cutRect (dstRows g n plane) (dstCols g m plane) (i / m) (i % m) := by
  obtain ⟨hr,hc⟩ := cell_place inside
  obtain ⟨_,rowsOk⟩ := aligned.rowsOk
  obtain ⟨_,colsOk⟩ := aligned.colsOk
  obtain ⟨taller,_⟩ := cuts_increase aligned.srcH aligned.dstH rowsOk hr
  obtain ⟨wider,_⟩ := cuts_increase aligned.srcW aligned.dstW colsOk hc
  have width := aligned.subW
  have height := aligned.subH
  have smallW : g.subW < 8 := by omega
  have smallH : g.subH < 8 := by omega
  obtain ⟨upW,downW⟩ := chromaDim_sub width (le_of_lt wider)
    (fun one => two_dvd_dstCut (aligned.evenW one).2 _) (fun one => two_dvd_dstCut (aligned.evenW one).2 _)
  obtain ⟨_,downH⟩ := chromaDim_sub height (le_of_lt taller)
    (fun one => two_dvd_dstCut (aligned.evenH one).2 _) (fun one => two_dvd_dstCut (aligned.evenH one).2 _)
  simp only [emitOutput,initStripeWorker,aligned.tiled]
  by_cases tiled : m > 1
  · rw [if_pos (decide_eq_true tiled)]
    cases plane <;> simp [workerCopyOutTile,cutRect,cutBounds,dstRows,dstCols,planeShift,smallW,smallH,upW]
  · rw [if_neg (by simpa using tiled)]
    -- Without tiles the only column starts at the left end.
    have first : i % m = 0 := by have := aligned.colsPos; omega
    have left : dstCut m g.dstW 0 = 0 := rfl
    rw [first] at upW downW ⊢
    rw [left,zero_shift,Int.sub_zero,Int.sub_zero] at upW downW
    split_ifs
    · cases plane <;>
        simp [workerCopyOutStripe,cutRect,cutBounds,dstRows,dstCols,planeShift,smallW,smallH,upW,left,zero_shift]
    · cases plane <;>
        simp [graphWrites,buildStripeGraph,cutRect,cutBounds,dstRows,dstCols,planeShift,smallH,downH,left,zero_shift]

theorem workerCopyInStripe_cut (aligned : Aligned g n m) (inside : i < n * m) (copies : g.plan.srcZerocopy = false)
    (plane : Plane) :
    workerCopyInStripe (initStripeWorker g (cutBounds g n m (i / m) (i % m))) plane =
      cutRect (srcRows g n plane) (srcCols g m plane) (i / m) (i % m) := by
  obtain ⟨_,hc⟩ := cell_place inside
  obtain ⟨_,colsOk⟩ := aligned.colsOk
  obtain ⟨_,wider⟩ := cuts_increase aligned.srcW aligned.dstW colsOk hc
  have width := aligned.subW
  have height := aligned.subH
  have smallW : g.subW < 8 := by omega
  have smallH : g.subH < 8 := by omega
  obtain ⟨upW,_⟩ := chromaDim_sub width (le_of_lt wider)
    (fun one => two_dvd_srcCut (aligned.evenW one).1 _) (fun one => two_dvd_srcCut (aligned.evenW one).1 _)
  obtain rfl := aligned.copies copies
  have first : i % 1 = 0 := Nat.mod_one i
  have left : srcCut 1 g.srcW g.dstW 0 = 0 := rfl
  rw [first] at upW ⊢
  rw [left,zero_shift,Int.sub_zero,Int.sub_zero] at upW
  cases plane <;> simp [workerCopyInStripe,initStripeWorker,cutRect,cutBounds,srcRows,srcCols,planeShift,smallW,smallH,
    upW,left,zero_shift]

theorem shift_dims (aligned : Aligned g n m) (plane : Plane) :
    planeDims g.dstW g.dstH g.subW g.subH plane = (g.dstW >>> planeShift g.subW plane,g.dstH >>> planeShift g.subH plane) ∧
    planeDims g.srcW g.srcH g.subW g.subH plane =
      (g.srcW >>> planeShift g.subW plane,g.srcH >>> planeShift g.subH plane) := by
  have dstW := chromaDim_exact aligned.subW (le_of_lt aligned.dstW) (fun one => (aligned.evenW one).2)
  have dstH := chromaDim_exact aligned.subH (le_of_lt aligned.dstH) (fun one => (aligned.evenH one).2)
  have srcW := chromaDim_exact aligned.subW (le_of_lt aligned.srcW) (fun one => (aligned.evenW one).1)
  have srcH := chromaDim_exact aligned.subH (le_of_lt aligned.srcH) (fun one => (aligned.evenH one).1)
  cases plane <;> simp [planeDims,planeShift,dstW,dstH,srcW,srcH]

theorem planeShift_le {sub : Nat} (halved : sub ≤ 1) (plane : Plane) :
    planeShift sub plane ≤ 1 ∧ (planeShift sub plane = 1 → sub = 1) := by
  cases plane <;> simp [planeShift] <;> omega

/-- The cells of a plan write every destination plane exactly once. -/
theorem emitOutput_covers (aligned : Aligned g n m) (plane : Plane) :
    CoversOnce (n * m) (fun i => (poolConstruct g i).map (fun w => emitOutput w plane))
      (planeDims g.dstW g.dstH g.subW g.subH plane) := by
  rw [(shift_dims aligned plane).1]
  refine coversOnce_of_cuts (cuts_shift (dstCuts aligned.rowsPos aligned.dstH) _)
    (cuts_shift (dstCuts aligned.colsPos aligned.dstW) _) (fun i inside => ?_) (fun i inside => ?_)
  · rw [poolConstruct_cuts aligned inside,Option.map_some,emitOutput_cut aligned inside]
    rfl
  · obtain ⟨hr,hc⟩ := cell_place inside
    obtain ⟨_,rowsOk⟩ := aligned.rowsOk
    obtain ⟨_,colsOk⟩ := aligned.colsOk
    obtain ⟨tall,halvedH⟩ := planeShift_le aligned.subH plane
    obtain ⟨wide,halvedW⟩ := planeShift_le aligned.subW plane
    exact ⟨shift_lt tall (cuts_increase aligned.srcH aligned.dstH rowsOk hr).1
        (fun one => two_dvd_dstCut (aligned.evenH (halvedH one)).2 _)
        (fun one => two_dvd_dstCut (aligned.evenH (halvedH one)).2 _),
      shift_lt wide (cuts_increase aligned.srcW aligned.dstW colsOk hc).1
        (fun one => two_dvd_dstCut (aligned.evenW (halvedW one)).2 _)
        (fun one => two_dvd_dstCut (aligned.evenW (halvedW one)).2 _)⟩

/-- Where the source is copied, the cells read every source plane exactly once. -/
theorem workerCopyInStripe_covers (aligned : Aligned g n m) (copies : g.plan.srcZerocopy = false) (plane : Plane) :
    CoversOnce (n * m) (fun i => (poolConstruct g i).map (fun w => workerCopyInStripe w plane))
      (planeDims g.srcW g.srcH g.subW g.subH plane) := by
  rw [(shift_dims aligned plane).2]
  refine coversOnce_of_cuts (cuts_shift (srcCuts aligned.rowsPos aligned.srcH aligned.dstH) _)
    (cuts_shift (srcCuts aligned.colsPos aligned.srcW aligned.dstW) _) (fun i inside => ?_) (fun i inside => ?_)
  · rw [poolConstruct_cuts aligned inside,Option.map_some,workerCopyInStripe_cut aligned inside copies]
    rfl
  · obtain ⟨hr,hc⟩ := cell_place inside
    obtain ⟨_,rowsOk⟩ := aligned.rowsOk
    obtain ⟨_,colsOk⟩ := aligned.colsOk
    obtain ⟨tall,halvedH⟩ := planeShift_le aligned.subH plane
    obtain ⟨wide,halvedW⟩ := planeShift_le aligned.subW plane
    exact ⟨shift_lt tall (cuts_increase aligned.srcH aligned.dstH rowsOk hr).2
        (fun one => two_dvd_srcCut (aligned.evenH (halvedH one)).1 _)
        (fun one => two_dvd_srcCut (aligned.evenH (halvedH one)).1 _),
      shift_lt wide (cuts_increase aligned.srcW aligned.dstW colsOk hc).2
        (fun one => two_dvd_srcCut (aligned.evenW (halvedW one)).1 _)
        (fun one => two_dvd_srcCut (aligned.evenW (halvedW one)).1 _)⟩

/-- The extents of a cell, and of the images of its graph, along an axis that the
    subsampling halves. -/
def EvenExtents (g : Geometry) (w : StripeWorker) : Prop :=
  (g.subW = 1 → 2 ∣ w.cell.srcW ∧ 2 ∣ w.cell.dstW ∧ 2 ∣ w.graph.srcW ∧ 2 ∣ w.graph.dstW) ∧
  (g.subH = 1 → 2 ∣ w.cell.srcYEnd - w.cell.srcYStart ∧ 2 ∣ w.cell.dstYEnd - w.cell.dstYStart ∧
    2 ∣ w.graph.srcH ∧ 2 ∣ w.graph.dstH)

theorem cutBounds_even (aligned : Aligned g n m) (row col : Nat) :
    EvenExtents g (initStripeWorker g (cutBounds g n m row col)) := by
  constructor
  · intro one
    obtain ⟨src,dst⟩ := aligned.evenW one
    have srcEven : 2 ∣ srcCut m g.srcW g.dstW (col + 1) - srcCut m g.srcW g.dstW col :=
      Int.dvd_sub (two_dvd_srcCut src _) (two_dvd_srcCut src _)
    have dstEven : 2 ∣ dstCut m g.dstW (col + 1) - dstCut m g.dstW col :=
      Int.dvd_sub (two_dvd_dstCut dst _) (two_dvd_dstCut dst _)
    exact ⟨srcEven,dstEven,src,dstEven⟩
  · intro one
    obtain ⟨src,dst⟩ := aligned.evenH one
    have srcEven : 2 ∣ srcCut n g.srcH g.dstH (row + 1) - srcCut n g.srcH g.dstH row :=
      Int.dvd_sub (two_dvd_srcCut src _) (two_dvd_srcCut src _)
    have dstEven : 2 ∣ dstCut n g.dstH (row + 1) - dstCut n g.dstH row :=
      Int.dvd_sub (two_dvd_dstCut dst _) (two_dvd_dstCut dst _)
    exact ⟨srcEven,dstEven,srcEven,dstEven⟩

/-- The geometry of a request whose plan is resolved. -/
def planned (subW subH : Nat) (req : IoReq) : Geometry :=
  ⟨subW,subH,req.srcW,req.srcH,req.dstW,req.dstH,resolveIoPlan req⟩

/-- For every format that zimg accepts, every extent that its subsampling divides
    and every plan: no cell is rejected, the cells write every destination plane
    exactly once, read every source plane exactly once where it is copied, and keep
    to whole chroma samples. -/
theorem zimg_cells_cover_once {chroma subW subH : Nat} {swap : Bool} (req : IoReq)
    (supported : chromaToZimg chroma = some (subW,subH,swap))
    (positive : 0 < req.srcW ∧ 0 < req.srcH ∧ 0 < req.dstW ∧ 0 < req.dstH)
    (evenW : subW = 1 → 2 ∣ req.srcW ∧ 2 ∣ req.dstW) (evenH : subH = 1 → 2 ∣ req.srcH ∧ 2 ∣ req.dstH) :
    let g := planned subW subH req
    let cells := g.plan.nThreads.toNat
    (∀ i, i < cells → ∃ w, poolConstruct g i = some w ∧ EvenExtents g w) ∧
    (∀ plane, CoversOnce cells (fun i => (poolConstruct g i).map (fun w => emitOutput w plane))
      (planeDims g.dstW g.dstH g.subW g.subH plane)) ∧
    (g.plan.srcZerocopy = false → ∀ plane,
      CoversOnce cells (fun i => (poolConstruct g i).map (fun w => workerCopyInStripe w plane))
        (planeDims g.srcW g.srcH g.subW g.subH plane)) := by
  intro g cells
  obtain ⟨n,m,rowsPos,colsPos,rows,cols,threads,tiled,srcZerocopy,rowsOk,colsOk,copies⟩ := resolveIoPlan_grid req
  obtain ⟨halvedW,halvedH⟩ := chromaToZimg_sub supported
  obtain ⟨srcW,srcH,dstW,dstH⟩ := positive
  have aligned : Aligned g n m := ⟨halvedW,halvedH,srcW,srcH,dstW,dstH,evenW,evenH,rows,cols,rowsPos,colsPos,rowsOk,colsOk,
    tiled,fun off => copies (srcZerocopy.symm.trans off)⟩
  have count : cells = n * m := by
    show (resolveIoPlan req).nThreads.toNat = n * m
    rw [threads,Int.toNat_natCast]
  rw [count]
  refine ⟨fun i inside => ?_,emitOutput_covers aligned,workerCopyInStripe_covers aligned⟩
  exact ⟨_,poolConstruct_cuts aligned inside,cutBounds_even aligned _ _⟩

/-- A wide and short picture in 4:2:0 for which the grid has columns. -/
def wideRequest : IoReq := ⟨8,256,32,1024,64,16,64,true,true⟩

theorem zimg_cells_cover_once_wide : (resolveIoPlan wideRequest).colTiled = true ∧
    ∀ plane, CoversOnce 8 (fun i => (poolConstruct (planned 1 1 wideRequest) i).map (fun w => emitOutput w plane))
      (planeDims 1024 64 1 1 plane) := by
  have supported : chromaToZimg (Chroma.fourcc 'I' '4' '2' '0') = some (1,1,false) := by decide
  obtain ⟨_,covers,_⟩ := zimg_cells_cover_once wideRequest supported (by decide) (by decide) (by decide)
  have count : (planned 1 1 wideRequest).plan.nThreads.toNat = 8 := by decide
  rw [count] at covers
  exact ⟨by decide,covers⟩

end AutoUpscale.ZimgCells
