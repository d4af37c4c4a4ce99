import AutoUpscale.UpscaleLogic

/-!
How the target height depends on its arguments: `up_decide_target_height` of
`upscale_logic.h`. For all of them it has a value (`decideTargetHeight_total`), and a
higher source, more cores or a larger preset never make it smaller
(`target_height_monotone`).
-/
namespace AutoUpscale.UpscaleLogic

/-- The height that `up_decide_target_height` returns. -/
def targetHeight (srcH preset cores : Int) : Int :=
  if srcH ≤ 0 then 0 else max srcH (plannedHeight srcH preset cores)

variable {srcH other preset cores : Int}

theorem decideTargetHeight_total (srcH preset cores : Int) (memMb : Nat) :
    decideTargetHeight srcH preset cores memMb = some (targetHeight srcH preset cores) := by
  rw [targetHeight]
  by_cases invalid : srcH ≤ 0
  · rw [decideTargetHeight,if_pos invalid,if_pos invalid]
  · rw [decideTargetHeight_eq (by omega),if_neg invalid]

theorem autoHeight_mono {more : Int} (source : srcH ≤ other) (ordered : cores ≤ more) :
    autoHeight srcH cores ≤ autoHeight other more := by
  simp only [autoHeight]
  split_ifs <;> omega

/-- The heights in the table grow with the preset. -/
theorem presetHeights_mono : ∀ j ≤ 6, ∀ i ≤ j, presetHeights.getD i 0 ≤ presetHeights.getD j 0 := by decide

theorem presetHeight_mono {larger : Int} (low : 1 ≤ preset) (ordered : preset ≤ larger) (high : larger ≤ 6) :
    ∃ height next, presetHeight preset = some height ∧ presetHeight larger = some next ∧ height ≤ next :=
  ⟨_,_,presetHeights_preset ⟨low,le_trans ordered high⟩,presetHeights_preset ⟨le_trans low ordered,high⟩,
    presetHeights_mono larger.toNat (by omega) preset.toNat (by omega)⟩

/-- What is chosen before the cap carries over to the target. -/
theorem targetHeight_mono {preset' cores' : Int} (source : srcH ≤ other)
    (chosen : (presetHeight preset).getD (autoHeight srcH cores) ≤ (presetHeight preset').getD (autoHeight other cores')) :
    targetHeight srcH preset cores ≤ targetHeight other preset' cores' := by
  simp only [targetHeight,plannedHeight]
  generalize (presetHeight preset).getD (autoHeight srcH cores) = height at chosen ⊢
  generalize (presetHeight preset').getD (autoHeight other cores') = next at chosen ⊢
  split_ifs <;> omega

theorem targetHeight_range (positive : 0 < srcH) (preset cores : Int) :
    srcH ≤ targetHeight srcH preset cores ∧ targetHeight srcH preset cores ≤ 4 * srcH := by
  rw [targetHeight,if_neg (by omega),plannedHeight]
  omega

/-- The target height has a value for all arguments. It grows with the source, with the
    cores and with the preset, is chosen where there is no such preset, and is between
    the source and four times the source. -/
theorem target_height_monotone : ∃ height : Int → Int → Int → Int,
    (∀ srcH preset cores memMb, decideTargetHeight srcH preset cores memMb = some (height srcH preset cores)) ∧
    (∀ srcH srcH' preset cores, srcH ≤ srcH' → height srcH preset cores ≤ height srcH' preset cores) ∧
    (∀ srcH preset cores cores', cores ≤ cores' → height srcH preset cores ≤ height srcH preset cores') ∧
    (∀ srcH preset preset' cores, 1 ≤ preset → preset ≤ preset' → preset' ≤ 6 →
      height srcH preset cores ≤ height srcH preset' cores) ∧
    (∀ srcH preset cores, ¬(1 ≤ preset ∧ preset ≤ 6) → height srcH preset cores = height srcH targetAuto cores) ∧
    ∀ srcH preset cores, 0 < srcH → srcH ≤ height srcH preset cores ∧ height srcH preset cores ≤ 4 * srcH := by
  refine ⟨targetHeight,decideTargetHeight_total,?_,?_,?_,?_,?_⟩
  · intro srcH srcH' preset cores ordered
    refine targetHeight_mono ordered ?_
    cases presetHeight preset with
    | none => exact autoHeight_mono ordered (le_refl cores)
    | some height => exact le_refl height
  · intro srcH preset cores cores' ordered
    refine targetHeight_mono (le_refl srcH) ?_
    cases presetHeight preset with
    | none => exact autoHeight_mono (le_refl srcH) ordered
    | some height => exact le_refl height
  · intro srcH preset preset' cores low ordered high
    obtain ⟨height,next,first,second,grows⟩ := presetHeight_mono low ordered high
    refine targetHeight_mono (le_refl srcH) ?_
    rw [first,second]
    exact grows
  · intro srcH preset cores outside
    have none : presetHeight preset = none := presetHeight_other outside
    have auto : presetHeight targetAuto = Option.none := by decide
    simp only [targetHeight,plannedHeight,none,auto]
  · intro srcH preset cores positive
    exact targetHeight_range positive preset cores

end AutoUpscale.UpscaleLogic
