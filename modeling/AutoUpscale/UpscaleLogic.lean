import AutoUpscale.PlaneUtils
import AutoUpscale.Signed
import Mathlib.Tactic.NormNum

/-!
Whether to scale, and to which size: `upscale_logic.h`. Every product and every
conversion is checked, and has no value where the code would overflow. The size that
is planned is the one that `plannedHeight` and `plannedWidth` describe
(`plan_upscale_contract`).
-/
namespace AutoUpscale.UpscaleLogic
open AutoUpscale.PlaneUtils (alignDown2 two_dvd_alignDown2 alignDown2_le)
open AutoUpscale.Signed (checked checked_int checked_int64)

/-- `UP_TARGET_AUTO`, `UP_TARGET_720P` and `UP_TARGET_MAX`. -/
def targetAuto : Int := 0
def target720p : Int := 1
def targetMax : Int := 6

/-- `UP_MAX_RATIO`. -/
def maxRatio : Int := 4

/-- `UP_MAX_DIM`. -/
def maxDim : Int := 32768

def intMax : Int := 2147483647

/-- `up_dims_t`. -/
structure Dims where
  width : Int
  height : Int
  deriving DecidableEq, Repr

/-- `up__clamp_even`. -/
def clampEven (v : Int) : Int := if v < 0 then 0 else alignDown2 v

/-- `up__auto_target_height`; the product is not formed where it would overflow. -/
def autoTargetHeight (srcH cores : Int) : Option Int := do
  let ratioOk ← (if srcH ≤ intMax / maxRatio
    then (checked .int (srcH * maxRatio)).map fun height => decide (height ≥ 1080) else some false)
  let can1080p := decide (cores ≥ 4) && ratioOk
  return if can1080p then 1080 else 720

/-- `up_normalize_auto_enum`. -/
def normalizeAutoEnum (value maxValue : Int) : Int := if value < 0 ∨ value > maxValue then 0 else value

/-- `UP_PRESET_HEIGHTS`. -/
def presetHeights : List Int := [0,720,1080,1440,2160,2880,4320]

/-- `up_decide_target_height`. The memory is not looked at. -/
def decideTargetHeight (srcH preset cores : Int) (_memMb : Nat) : Option Int :=
  if srcH ≤ 0 then some 0
  else do
    let cores := if cores ≤ 0 then 1 else cores
    let targetH ← (if preset ≥ target720p ∧ preset ≤ targetMax then some (presetHeights.getD preset.toNat 0)
      else autoTargetHeight srcH cores)
    let targetH ← (if srcH ≤ intMax / maxRatio
      then (checked .int (srcH * maxRatio)).map fun cap => if targetH > cap then cap else targetH else some targetH)
    return if targetH < srcH then srcH else targetH

/-- `up__dims_inputs_valid`. -/
def dimsInputsValid (srcW srcH targetH : Int) : Bool :=
  if srcW ≤ 0 ∨ srcH ≤ 0 ∨ targetH ≤ 0 then false
  else if srcW > maxDim ∨ srcH > maxDim ∨ targetH > maxDim then false
  else true

/-- `up_compute_target_dims` with a place for its output. -/
def computeTargetDims (srcW srcH targetH : Int) : Option (Bool × Dims) :=
  if dimsInputsValid srcW srcH targetH = false then some (false,⟨0,0⟩)
  else do
    let product ← checked .int64 (srcW * targetH)
    let w64 ← checked .int (product.tdiv srcH)
    let targetW := clampEven w64
    let targetHEven := clampEven targetH
    if targetW ≤ 0 ∨ targetHEven ≤ 0 then some (false,⟨0,0⟩)
    else if targetW > maxDim ∨ targetHEven > maxDim then some (false,⟨0,0⟩)
    else some (true,⟨targetW,targetHEven⟩)

/-- `up__plan_inputs_ok`. -/
def planInputsOk (srcW srcH skipAbove preset : Int) : Bool :=
  if srcW ≤ 0 ∨ srcH ≤ 0 then false
  else if srcW > maxDim ∨ srcH > maxDim then false
  else if preset = targetAuto ∧ skipAbove > 0 ∧ srcH ≥ skipAbove then false
  else true

/-- `up__plan_result_ok`. -/
def planResultOk (srcW srcH : Int) (out : Dims) : Bool :=
  if out.width < srcW ∨ out.height < srcH then false
  else if out.width = srcW ∧ out.height = srcH then false
  else true

/-- `up_plan_upscale` with a place for its output. -/
def planUpscale (srcW srcH skipAbove preset cores : Int) (memMb : Nat) : Option (Bool × Dims) :=
  if planInputsOk srcW srcH skipAbove preset = false then some (false,⟨0,0⟩)
  else do
    let targetH ← decideTargetHeight srcH preset cores memMb
    if targetH ≤ srcH then some (false,⟨0,0⟩)
    else do
      let (ok,out) ← computeTargetDims srcW srcH targetH
      if ok = false then some (false,out)
      else if planResultOk srcW srcH out = false then some (false,⟨0,0⟩)
      else some (true,out)

/-! ## What is planned -/

/-- The height that a preset names. -/
def presetHeight (preset : Int) : Option Int :=
  if preset = 1 then some 720 else if preset = 2 then some 1080 else if preset = 3 then some 1440
  else if preset = 4 then some 2160 else if preset = 5 then some 2880 else if preset = 6 then some 4320 else none

/-- The height of a target without a preset. -/
def autoHeight (srcH cores : Int) : Int := if 4 ≤ cores ∧ 1080 ≤ 4 * srcH then 1080 else 720

/-- The target height, at most four times the source. -/
def plannedHeight (srcH preset cores : Int) : Int := min ((presetHeight preset).getD (autoHeight srcH cores)) (4 * srcH)

/-- The width of the same shape, made even. -/
def plannedWidth (srcW srcH targetH : Int) : Int := 2 * (srcW * targetH / srcH / 2)

variable {srcW srcH preset cores : Int}

theorem presetHeights_preset (inside : preset ≥ target720p ∧ preset ≤ targetMax) :
    presetHeight preset = some (presetHeights.getD preset.toNat 0) := by
  obtain ⟨low,high⟩ := inside
  simp only [target720p,targetMax] at low high
  obtain rfl | rfl | rfl | rfl | rfl | rfl :
      preset = 1 ∨ preset = 2 ∨ preset = 3 ∨ preset = 4 ∨ preset = 5 ∨ preset = 6 := by omega
  all_goals rfl

theorem presetHeight_other (outside : ¬(preset ≥ target720p ∧ preset ≤ targetMax)) : presetHeight preset = none := by
  simp only [target720p,targetMax] at outside
  simp only [presetHeight]
  split_ifs <;> first | rfl | omega

/-- Every height that is named is even and no more than 4320. -/
theorem targetHeight_bounds (srcH preset cores : Int) : 2 ∣ (presetHeight preset).getD (autoHeight srcH cores) ∧
    720 ≤ (presetHeight preset).getD (autoHeight srcH cores) ∧ (presetHeight preset).getD (autoHeight srcH cores) ≤ 4320 := by
  simp only [presetHeight,autoHeight]
  split_ifs <;> simp

/-- Behind its guard the product with the ratio does not overflow. -/
theorem ratioProduct_eq (room : srcH ≤ intMax / maxRatio) (positive : 0 < srcH) :
    checked .int (srcH * maxRatio) = some (srcH * 4) := by
  simp only [intMax,maxRatio] at room ⊢
  exact checked_int (by omega) (by omega)

theorem autoTargetHeight_eq (room : srcH ≤ intMax / maxRatio) (positive : 0 < srcH) :
    autoTargetHeight srcH cores = some (autoHeight srcH cores) := by
  simp only [autoTargetHeight,if_pos room,ratioProduct_eq room positive,autoHeight]
  simp [mul_comm]

/-- Of a source beyond the guard of the product, the target is no higher. -/
theorem autoTargetHeight_high (high : ¬srcH ≤ intMax / maxRatio) : autoTargetHeight srcH cores = some 720 := by
  simp only [autoTargetHeight,if_neg high]
  simp

/-- The target that is named or chosen, before it is capped. -/
theorem chosenHeight_eq (room : srcH ≤ intMax / maxRatio) (positive : 0 < srcH) :
    (if preset ≥ target720p ∧ preset ≤ targetMax then some (presetHeights.getD preset.toNat 0)
      else autoTargetHeight srcH (if cores ≤ 0 then 1 else cores)) = some ((presetHeight preset).getD (autoHeight srcH cores)) := by
  by_cases inside : preset ≥ target720p ∧ preset ≤ targetMax
  · rw [if_pos inside,presetHeights_preset inside]
    rfl
  · have few : autoHeight srcH (if cores ≤ 0 then 1 else cores) = autoHeight srcH cores := by
      simp only [autoHeight]
      split_ifs <;> omega
    rw [if_neg inside,presetHeight_other inside,autoTargetHeight_eq room positive,few]
    rfl

theorem chosenHeight_high (high : ¬srcH ≤ intMax / maxRatio) :
    ∃ height, (if preset ≥ target720p ∧ preset ≤ targetMax then some (presetHeights.getD preset.toNat 0)
      else autoTargetHeight srcH (if cores ≤ 0 then 1 else cores)) = some height ∧ height ≤ 4320 := by
  by_cases inside : preset ≥ target720p ∧ preset ≤ targetMax
  · obtain ⟨_,_,bound⟩ := targetHeight_bounds srcH preset cores
    rw [presetHeights_preset inside] at bound
    exact ⟨_,if_pos inside,bound⟩
  · rw [if_neg inside,autoTargetHeight_high high]
    exact ⟨720,rfl,by decide⟩

theorem decideTargetHeight_eq (positive : 0 < srcH) (memMb : Nat) :
    decideTargetHeight srcH preset cores memMb = some (max srcH (plannedHeight srcH preset cores)) := by
  obtain ⟨_,_,bound⟩ := targetHeight_bounds srcH preset cores
  rw [decideTargetHeight,if_neg (by omega)]
  by_cases room : srcH ≤ intMax / maxRatio
  · simp only [chosenHeight_eq room positive,if_pos room,ratioProduct_eq room positive,plannedHeight]
    generalize (presetHeight preset).getD (autoHeight srcH cores) = height
    simp only [Option.bind_eq_bind,Option.bind_some,Option.map_some,Option.pure_def,Option.some.injEq]
    split_ifs <;> omega
  · obtain ⟨height,chosen,low⟩ := @chosenHeight_high srcH preset cores room
    simp only [chosen,if_neg room,plannedHeight]
    simp only [Option.bind_eq_bind,Option.bind_some,Option.pure_def,Option.some.injEq]
    simp only [intMax,maxRatio] at room
    rw [if_pos (by omega)]
    omega

/-- The width that is computed, of sizes that are valid. -/
theorem computeTargetDims_eq {targetH : Int} (width : 1 ≤ srcW ∧ srcW ≤ maxDim) (height : 1 ≤ srcH ∧ srcH ≤ maxDim)
    (target : 2 ≤ targetH ∧ targetH ≤ 4320) (even : 2 ∣ targetH) :
    computeTargetDims srcW srcH targetH =
      if 1 ≤ plannedWidth srcW srcH targetH ∧ plannedWidth srcW srcH targetH ≤ maxDim
      then some (true,⟨plannedWidth srcW srcH targetH,targetH⟩) else some (false,⟨0,0⟩) := by
  have dim : maxDim = 32768 := rfl
  have valid : dimsInputsValid srcW srcH targetH = true := by
    rw [dimsInputsValid,if_neg (by omega),if_neg (by omega)]
  have products : 0 ≤ srcW * targetH ∧ srcW * targetH ≤ 32768 * 4320 := by
    constructor
    · exact mul_nonneg (by omega) (by omega)
    · exact mul_le_mul (dim ▸ width.2) target.2 (by omega) (by omega)
  have quotients : 0 ≤ srcW * targetH / srcH ∧ srcW * targetH / srcH ≤ srcW * targetH :=
    ⟨Int.ediv_nonneg products.1 (by omega),Int.ediv_le_self _ products.1⟩
  have truncated : (srcW * targetH).tdiv srcH = srcW * targetH / srcH := Int.tdiv_eq_ediv_of_nonneg products.1
  have product : checked .int64 (srcW * targetH) = some (srcW * targetH) := checked_int64 (by omega) (by omega)
  have quotient : checked .int (srcW * targetH / srcH) = some (srcW * targetH / srcH) := checked_int (by omega) (by omega)
  have evenHeight : clampEven targetH = targetH := by
    simp only [clampEven,alignDown2]
    split_ifs <;> omega
  have evenWidth : clampEven (srcW * targetH / srcH) = plannedWidth srcW srcH targetH := by
    simp only [clampEven,alignDown2,plannedWidth]
    split_ifs <;> omega
  have shape : 0 ≤ plannedWidth srcW srcH targetH := by
    simp only [plannedWidth]
    omega
  rw [computeTargetDims,if_neg (by simp [valid])]
  simp only [product,quotient,truncated,evenHeight,evenWidth,Option.bind_eq_bind,Option.bind_some]
  by_cases fits : 1 ≤ plannedWidth srcW srcH targetH ∧ plannedWidth srcW srcH targetH ≤ maxDim
  · rw [if_pos fits,if_neg (by omega),if_neg (by omega)]
  · rw [if_neg fits]
    by_cases none : plannedWidth srcW srcH targetH ≤ 0
    · rw [if_pos (.inl none)]
    · rw [if_neg (by omega),if_pos (by omega)]

/-- The planned size of a source within the bounds. -/
theorem planned_size (width : 1 ≤ srcW ∧ srcW ≤ maxDim) (height : 1 ≤ srcH ∧ srcH ≤ maxDim)
    {targetH : Int} (ratio : targetH ≤ 4 * srcH) :
    2 ∣ plannedWidth srcW srcH targetH ∧ plannedWidth srcW srcH targetH ≤ 4 * srcW ∧
    0 ≤ srcW * targetH - plannedWidth srcW srcH targetH * srcH ∧
    srcW * targetH - plannedWidth srcW srcH targetH * srcH < 2 * srcH := by
  have positive : 0 < srcH := by omega
  have least : srcW * targetH / srcH * srcH ≤ srcW * targetH := Int.ediv_mul_le _ (by omega)
  have most : srcW * targetH < (srcW * targetH / srcH + 1) * srcH := Int.lt_ediv_add_one_mul_self _ positive
  have wide : srcW * targetH / srcH ≤ 4 * srcW := by
    refine Int.ediv_le_of_le_mul positive ?_
    calc srcW * targetH ≤ srcW * (4 * srcH) := mul_le_mul_of_nonneg_left ratio (by omega)
      _ = 4 * srcW * srcH := by ring
  rw [plannedWidth]
  generalize srcW * targetH / srcH = whole at least most wide
  -- The even part of the whole width is the width or one less.
  obtain ⟨half,odd,parity,rfl⟩ : ∃ half odd, (odd = 0 ∨ odd = 1) ∧ whole = 2 * half + odd :=
    ⟨whole / 2,whole % 2,by omega,by omega⟩
  have even : (2 * half + odd) / 2 = half := by omega
  rw [even]
  obtain rfl | rfl := parity
  · refine ⟨⟨half,rfl⟩,by omega,by linarith,by linarith⟩
  · refine ⟨⟨half,rfl⟩,by omega,by linarith,by linarith⟩

theorem planInputsOk_iff (srcW srcH skipAbove preset : Int) : planInputsOk srcW srcH skipAbove preset = true ↔
    (1 ≤ srcW ∧ srcW ≤ maxDim) ∧ (1 ≤ srcH ∧ srcH ≤ maxDim) ∧ ¬(preset = targetAuto ∧ skipAbove > 0 ∧ srcH ≥ skipAbove) := by
  rw [planInputsOk]
  by_cases low : srcW ≤ 0 ∨ srcH ≤ 0
  · rw [if_pos low]
    simp only [Bool.false_eq_true,false_iff]
    omega
  rw [if_neg low]
  by_cases high : srcW > maxDim ∨ srcH > maxDim
  · rw [if_pos high]
    simp only [Bool.false_eq_true,false_iff]
    omega
  rw [if_neg high]
  by_cases skip : preset = targetAuto ∧ skipAbove > 0 ∧ srcH ≥ skipAbove
  · rw [if_pos skip]
    simp [skip]
  · rw [if_neg skip]
    simp only [true_iff]
    omega

/-- The contract of `up_plan_upscale`: it scales exactly the sources that it should,
    to the planned size, and has a result whatever its arguments are. -/
theorem plan_upscale_contract (srcW srcH skipAbove preset cores : Int) (memMb : Nat) :
    ∃ ok out, planUpscale srcW srcH skipAbove preset cores memMb = some (ok,out) ∧
      (ok = true ↔ (1 ≤ srcW ∧ srcW ≤ maxDim) ∧ (1 ≤ srcH ∧ srcH ≤ maxDim) ∧
        ¬(preset = targetAuto ∧ skipAbove > 0 ∧ srcH ≥ skipAbove) ∧
        srcH < plannedHeight srcH preset cores ∧
        srcW ≤ plannedWidth srcW srcH (plannedHeight srcH preset cores) ∧
        plannedWidth srcW srcH (plannedHeight srcH preset cores) ≤ maxDim) ∧
      (ok = true → out = ⟨plannedWidth srcW srcH (plannedHeight srcH preset cores),plannedHeight srcH preset cores⟩ ∧
        2 ∣ out.width ∧ 2 ∣ out.height ∧ srcW ≤ out.width ∧ out.width ≤ 4 * srcW ∧ srcH ≤ out.height ∧ out.height ≤ 4 * srcH ∧
        0 ≤ srcW * out.height - out.width * srcH ∧ srcW * out.height - out.width * srcH < 2 * srcH ∧
        (preset = targetAuto → out.height ≤ 1080)) ∧
      (ok = false → out = ⟨0,0⟩) := by
  have dim : maxDim = 32768 := rfl
  by_cases inputs : planInputsOk srcW srcH skipAbove preset = true
  · obtain ⟨width,height,noSkip⟩ := (planInputsOk_iff srcW srcH skipAbove preset).mp inputs
    obtain ⟨even,large,small⟩ := targetHeight_bounds srcH preset cores
    obtain ⟨ratio,high,whole⟩ : plannedHeight srcH preset cores ≤ 4 * srcH ∧ plannedHeight srcH preset cores ≤ 4320 ∧
        2 ∣ plannedHeight srcH preset cores := by
      simp only [plannedHeight]
      omega
    have auto : preset = targetAuto → plannedHeight srcH preset cores ≤ 1080 := by
      rintro rfl
      have auto : autoHeight srcH cores ≤ 1080 := by
        simp only [autoHeight]
        split_ifs <;> omega
      exact le_trans (min_le_left _ _) auto
    rw [planUpscale,if_neg (by simp [inputs]),decideTargetHeight_eq (by omega)]
    simp only [Option.bind_eq_bind,Option.bind_some]
    generalize plannedHeight srcH preset cores = targetH at *
    by_cases above : srcH < targetH
    · obtain ⟨evenWidth,ratioWidth,aspect⟩ := planned_size width height ratio
      rw [max_eq_right (le_of_lt above),if_neg (not_le.mpr above),computeTargetDims_eq width height (by omega) whole]
      generalize plannedWidth srcW srcH targetH = targetW at *
      by_cases fits : 1 ≤ targetW ∧ targetW ≤ maxDim
      · rw [if_pos fits,Option.bind_some]
        by_cases wide : srcW ≤ targetW
        · have result : planResultOk srcW srcH ⟨targetW,targetH⟩ = true := by
            rw [planResultOk,if_neg (by simp only; omega),if_neg (by simp only; omega)]
          refine ⟨true,⟨targetW,targetH⟩,by simp [result],?_,fun _ => ?_,by simp⟩
          · simp only [true_iff]
            exact ⟨width,height,noSkip,above,wide,fits.2⟩
          · exact ⟨rfl,evenWidth,whole,wide,ratioWidth,le_of_lt above,ratio,aspect.1,aspect.2,auto⟩
        · have result : planResultOk srcW srcH ⟨targetW,targetH⟩ = false := by
            rw [planResultOk,if_pos (by simp only; omega)]
          exact ⟨false,⟨0,0⟩,by simp [result],by simp [wide],by simp,fun _ => rfl⟩
      · rw [if_neg fits]
        refine ⟨false,⟨0,0⟩,by simp,?_,by simp,fun _ => rfl⟩
        simp only [Bool.false_eq_true,false_iff]
        omega
    · rw [max_eq_left (not_lt.mp above),if_pos (le_refl srcH)]
      exact ⟨false,⟨0,0⟩,rfl,by simp [above],by simp,fun _ => rfl⟩
  · rw [planUpscale,if_pos (by simpa using inputs)]
    refine ⟨false,⟨0,0⟩,rfl,?_,by simp,fun _ => rfl⟩
    rw [planInputsOk_iff] at inputs
    simp only [Bool.false_eq_true,false_iff]
    rintro ⟨width,height,noSkip,-⟩
    exact inputs ⟨width,height,noSkip⟩

/-- A film of 640 by 360 pixels goes to 1080 lines where there are four cores. -/
example : planUpscale 640 360 720 targetAuto 4 0 = some (true,⟨1920,1080⟩) := by decide

end AutoUpscale.UpscaleLogic
