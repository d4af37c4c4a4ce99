import AutoUpscale.PlaneUtils
import AutoUpscale.Signed

/-!
The plan of the zimg backend: `zimg_helpers.h`. The plan is the grid of workers
and, for each side, whether the graphs touch the picture itself. Where a side
copies, its planes are sized here too: no intermediate value of a pitch or a number
of lines overflows (`roundUpPitch_eq`, `roundUpLines_eq`).
-/
namespace AutoUpscale.ZimgHelpers
open AutoUpscale.PlaneUtils
open AutoUpscale.Signed (checked checked_int)

/-- `UP_STRIPE_MIN_DST_LINES`. -/
def stripeMinDstLines : Int := 16

/-- `up_zimg_stripe_min_lines`. -/
def zimgStripeMinLines (userValue : Int) : Int := if userValue > 0 then userValue else stripeMinDstLines

/-- `up_chroma_dim`. -/
def chromaDim (v sub : Int) : Int :=
  if v ≤ 0 ∨ sub < 0 then 0
  else
    let s := if sub > 16 then 16 else sub
    let divisor := 2 ^ s.toNat
    v / divisor + (if v % divisor ≠ 0 then 1 else 0)

/-- `UP_PITCH_ALIGN`. -/
def pitchAlign : Int := 64

/-- `UP_SCRATCH_LINE_PAD`. -/
def scratchLinePad : Int := 8

def intMax : Int := 2147483647

/-- `up_round_up_pitch`. The mask clears the low bits, which leaves a multiple of the
    alignment. -/
def roundUpPitch (w : Int) : Option Int :=
  if w ≤ 0 then some 0
  else if w > intMax - (pitchAlign - 1) then some 0
  else do
    let padded ← checked .int (w + (pitchAlign - 1))
    some (pitchAlign * (padded / pitchAlign))

/-- `up_round_up_lines`. -/
def roundUpLines (h : Int) : Option Int :=
  if h ≤ 0 then some 0 else if h > intMax - scratchLinePad then some 0 else checked .int (h + scratchLinePad)

/-- `up_plane_pitch`. -/
def planePitch (w subW : Int) : Option Int := if w ≤ 0 ∨ subW < 0 then some 0 else roundUpPitch (chromaDim w subW)

/-- `up_plane_lines`. -/
def planeLines (h subH : Int) : Option Int := if h ≤ 0 ∨ subH < 0 then some 0 else roundUpLines (chromaDim h subH)

/-- `up_zimg_io_req_t`. -/
structure IoReq where
  workerBudget : Int
  srcW : Int
  srcH : Int
  dstW : Int
  dstH : Int
  stripeMin : Int
  colMin : Int
  srcZerocopy : Bool
  dstZerocopy : Bool

/-- `up_zimg_io_plan_t`. -/
structure IoPlan where
  nRows : Int
  nCols : Int
  nThreads : Int
  colTiled : Bool
  srcZerocopy : Bool
  dstZerocopy : Bool
  deriving DecidableEq, Repr

/-- `up_zimg_resolve_io_plan`. -/
def resolveIoPlan (req : IoReq) : IoPlan :=
  let geom : TileGeom := ⟨req.srcW,req.srcH,req.dstW,req.dstH⟩
  let grid := decideTileGrid req.workerBudget geom req.stripeMin (if req.srcZerocopy then req.colMin else 0)
  ⟨grid.rows,grid.cols,grid.rows * grid.cols,decide (grid.cols > 1),req.srcZerocopy,
    req.dstZerocopy && decide (grid.cols ≤ 1)⟩

/-- What a length that the subsampling divides leaves on a chroma plane. -/
theorem chromaDim_exact {v : Int} {sub : Nat} (halved : sub ≤ 1) (nonneg : 0 ≤ v) (even : sub = 1 → 2 ∣ v) :
    chromaDim v sub = v >>> sub := by
  obtain rfl | rfl : sub = 0 ∨ sub = 1 := by omega
  · simp only [chromaDim]
    split_ifs <;> simp_all
    omega
  · obtain ⟨half,rfl⟩ := even rfl
    simp only [chromaDim,Int.shiftRight_eq_div_pow]
    split_ifs <;> simp_all
    omega

/-- A length that is not empty has a chroma plane that is not, and no longer one. -/
theorem chromaDim_bounds {v : Int} {sub : Nat} (halved : sub ≤ 1) (positive : 0 < v) :
    0 < chromaDim v sub ∧ chromaDim v sub ≤ v := by
  obtain rfl | rfl : sub = 0 ∨ sub = 1 := by omega
  · rw [chromaDim_exact (by decide) (by omega) (fun one => absurd one (by decide))]
    exact ⟨by simpa using positive,by simp⟩
  · simp only [chromaDim]
    split_ifs <;> simp_all <;> omega

theorem roundUpPitch_eq (w : Int) :
    roundUpPitch w = some (if 0 < w ∧ w + 63 ≤ intMax then 64 * ((w + 63) / 64) else 0) := by
  unfold roundUpPitch pitchAlign intMax
  by_cases empty : w ≤ 0
  · rw [if_pos empty,if_neg (by omega)]
  · rw [if_neg empty]
    by_cases wide : w > 2147483647 - (64 - 1)
    · rw [if_pos wide,if_neg (by omega)]
    · rw [if_neg wide,if_pos (by omega),checked_int (by omega) (by omega)]
      rfl

theorem roundUpLines_eq (h : Int) : roundUpLines h = some (if 0 < h ∧ h + 8 ≤ intMax then h + 8 else 0) := by
  unfold roundUpLines scratchLinePad intMax
  by_cases empty : h ≤ 0
  · rw [if_pos empty,if_neg (by omega)]
  · rw [if_neg empty]
    by_cases tall : h > 2147483647 - 8
    · rw [if_pos tall,if_neg (by omega)]
    · rw [if_neg tall,if_pos (by omega),checked_int (by omega) (by omega)]

/-- A plan with its grid as natural numbers. -/
theorem resolveIoPlan_grid (req : IoReq) : ∃ rows cols : Nat, 0 < rows ∧ 0 < cols ∧
    (resolveIoPlan req).nRows = rows ∧ (resolveIoPlan req).nCols = cols ∧
    (resolveIoPlan req).nThreads = (rows * cols : Nat) ∧
    (resolveIoPlan req).colTiled = decide (cols > 1) ∧ (resolveIoPlan req).srcZerocopy = req.srcZerocopy ∧
    (∃ minimum, axisPartitionOk rows req.srcH req.dstH minimum = true) ∧
    (∃ minimum, axisPartitionOk cols req.srcW req.dstW minimum = true) ∧
    (req.srcZerocopy = false → cols = 1) := by
  have grid := decideTileGrid_ok req.workerBudget ⟨req.srcW,req.srcH,req.dstW,req.dstH⟩ req.stripeMin
    (if req.srcZerocopy then req.colMin else 0)
  simp only [resolveIoPlan]
  generalize decideTileGrid req.workerBudget ⟨req.srcW,req.srcH,req.dstW,req.dstH⟩ req.stripeMin
    (if req.srcZerocopy then req.colMin else 0) = chosen at grid
  obtain ⟨low,left,_,_,rowsOk,colsOk,untiled⟩ := grid
  obtain ⟨rows,isRows⟩ := Int.eq_ofNat_of_zero_le (by omega : 0 ≤ chosen.rows)
  obtain ⟨cols,isCols⟩ := Int.eq_ofNat_of_zero_le (by omega : 0 ≤ chosen.cols)
  rw [isRows] at rowsOk low
  rw [isCols] at colsOk left untiled
  refine ⟨rows,cols,by omega,by omega,isRows,isCols,by rw [isRows,isCols,Nat.cast_mul],?_,trivial,⟨_,rowsOk⟩,⟨_,colsOk⟩,
    fun copies => ?_⟩
  · rw [isCols]
    exact decide_eq_decide.mpr Nat.one_lt_cast
  · rw [copies] at untiled
    exact_mod_cast untiled (le_refl 0)

end AutoUpscale.ZimgHelpers
