import AutoUpscale.Signed
import AutoUpscale.UsmApply

/-!
The amount of the unsharp mask, pixel by pixel: the arithmetic of `usm.h` with every
`int` checked, and a shift of what is not negative alone. It never overflows, and a
pixel gets the value of the reference (`kernelPixel_sharpened`). A greater amount
moves it further away from its blur, an amount that is not positive leaves it, and a
pool that succeeds writes it, by the copy or by its workers (`usm_monotone`).
-/
namespace AutoUpscale.Usm
open AutoUpscale.Rows
open AutoUpscale.Signed (checked checked_int)
universe u
variable {κ : Type u}

/-! ## The checked arithmetic -/

/-- The sum with weights 1, 2 and 1 of `up_usm__hblur_row` and `up_usm__combine_row_mode`. -/
def checkedTriangle (left here right : Int) : Option Int := do
  let doubled ← checked .int (here * 2)
  let sum ← checked .int (left + doubled)
  let sum ← checked .int (sum + right)
  let sum ← checked .int (sum + 2)
  if sum < 0 then none else some (sum >>> (2 : Nat))

/-- The sum at an end of the row, whose value counts three times. -/
def checkedEdge (inner end_ : Int) : Option Int := do
  let tripled ← checked .int (end_ * 3)
  let sum ← checked .int (tripled + inner)
  let sum ← checked .int (sum + 2)
  if sum < 0 then none else some (sum >>> (2 : Nat))

/-- What `up_usm__hblur_row` stores at `x`. -/
def checkedHblur (row : Nat → UInt8) (width x : Nat) : Option UInt8 :=
  if width = 1 then some (row 0)
  else if x = 0 then (checkedEdge (row 1).toNat (row 0).toNat).map fun sum => byte sum.toNat
  else if x = width - 1 then (checkedEdge (row (width - 2)).toNat (row (width - 1)).toNat).map fun sum => byte sum.toNat
  else (checkedTriangle (row (x - 1)).toNat (row x).toNat (row (x + 1)).toNat).map fun sum => byte sum.toNat

/-- `up_usm__floor_div_q8`. -/
def checkedFloorDivQ8 (value : Int) : Option Int :=
  let quotient := value.tdiv 256
  if value < 0 ∧ value.tmod 256 ≠ 0 then checked .int (quotient - 1) else some quotient

/-- `up_usm__floor_div_q8_biased`. -/
def checkedFloorDivQ8Biased (value : Int) : Option Int := do
  let bias ← checked .int (amountQ8Max * 256)
  let biased ← checked .int (value + bias)
  if biased < 0 then none else checked .int ((biased >>> (8 : Nat)) - amountQ8Max)

/-- The body of the loop of `up_usm__combine_row_mode`. -/
def checkedCombine (up mid dn sample : UInt8) (amountQ8 : Int) (biasedRounding : Bool) : Option UInt8 := do
  let blur ← checkedTriangle up.toNat mid.toNat dn.toNat
  let s : Int := sample.toNat
  let hi ← checked .int (s - blur)
  let product ← checked .int (amountQ8 * hi)
  let detail ← (if biasedRounding then checkedFloorDivQ8Biased product else checkedFloorDivQ8 product)
  let sharpened ← checked .int (s + detail)
  let sharpened := if sharpened < 0 then 0 else if sharpened > 255 then 255 else sharpened
  return byte sharpened.toNat

/-- The pixel that a plane sharpened with the amount has at `x` and `y`. -/
def kernelPixel (plane : Nat → Nat → UInt8) (width height x y : Nat) (amountQ8 : Int) (biasedRounding : Bool) : Option UInt8 := do
  let up ← checkedHblur (plane (y - 1)) width x
  let mid ← checkedHblur (plane y) width x
  let dn ← checkedHblur (plane (min (y + 1) (height - 1))) width x
  checkedCombine up mid dn (plane y x) (clampAmountQ8 amountQ8) biasedRounding

theorem byte_le (b : UInt8) : b.toNat ≤ 255 := Nat.le_of_lt_succ b.toNat_lt

theorem checkedTriangle_eq {left here right : Nat} (low : left ≤ 255) (middle : here ≤ 255) (high : right ≤ 255) :
    checkedTriangle left here right = some (((left + 2 * here + right + 2) / 4 : Nat) : Int) := by
  rw [checkedTriangle,checked_int (by omega) (by omega)]
  simp only [Option.bind_eq_bind,Option.bind_some]
  rw [checked_int (by omega) (by omega),Option.bind_some,checked_int (by omega) (by omega),Option.bind_some,
    checked_int (by omega) (by omega),Option.bind_some,if_neg (by omega),Int.shiftRight_eq_div_pow]
  congr 1
  omega

theorem checkedEdge_eq {inner end_ : Nat} (low : inner ≤ 255) (high : end_ ≤ 255) :
    checkedEdge inner end_ = some (((inner + 3 * end_ + 2) / 4 : Nat) : Int) := by
  rw [checkedEdge,checked_int (by omega) (by omega)]
  simp only [Option.bind_eq_bind,Option.bind_some]
  rw [checked_int (by omega) (by omega),Option.bind_some,checked_int (by omega) (by omega),Option.bind_some,
    if_neg (by omega),Int.shiftRight_eq_div_pow]
  congr 1
  omega

theorem checkedHblur_eq (row : Nat → UInt8) {width x : Nat} (inside : x < width) :
    ∃ b, checkedHblur row width x = some b ∧ b.toNat = smooth (fun k => (row k).toNat) width x := by
  have bound := fun k => byte_le (row k)
  rw [checkedHblur]
  by_cases single : width = 1
  · refine ⟨row 0,if_pos single,?_⟩
    obtain rfl : x = 0 := by omega
    subst single
    simp only [smooth,Nat.zero_sub,Nat.sub_self,Nat.min_zero]
    omega
  rw [if_neg single]
  by_cases first : x = 0
  · subst first
    have zero := bound 0
    have one := bound 1
    rw [if_pos rfl,checkedEdge_eq one zero]
    refine ⟨_,rfl,?_⟩
    dsimp only
    rw [Int.toNat_natCast,byte_toNat (by omega),smooth,show min (0 + 1) (width - 1) = 1 by omega]
    simp only [Nat.zero_sub]
    omega
  rw [if_neg first]
  by_cases last : x = width - 1
  · have inner := bound (width - 2)
    have here := bound (width - 1)
    rw [if_pos last,checkedEdge_eq inner here]
    refine ⟨_,rfl,?_⟩
    dsimp only
    rw [Int.toNat_natCast,byte_toNat (by omega),smooth,show min (x + 1) (width - 1) = width - 1 by omega,
      show x - 1 = width - 2 by omega,last]
    omega
  · have left := bound (x - 1)
    have here := bound x
    have right := bound (x + 1)
    rw [if_neg last,checkedTriangle_eq left here right]
    refine ⟨_,rfl,?_⟩
    dsimp only
    rw [Int.toNat_natCast,byte_toNat (by omega),smooth,show min (x + 1) (width - 1) = x + 1 by omega]

/-- In range, both ways to round divide by 256 rounding down. -/
theorem checkedDetail_eq {value : Int} (low : -1044480 ≤ value) (high : value ≤ 1044480) (biasedRounding : Bool) :
    (if biasedRounding then checkedFloorDivQ8Biased value else checkedFloorDivQ8 value) = some (value / 256) := by
  cases biasedRounding with
  | false =>
    have floor := floorDivQ8_eq value
    simp only [floorDivQ8] at floor
    simp only [Bool.false_eq_true,if_false,checkedFloorDivQ8]
    by_cases down : value < 0 ∧ value.tmod 256 ≠ 0
    · rw [if_pos down] at floor ⊢
      rw [floor,checked_int (by omega) (by omega)]
    · rw [if_neg down] at floor ⊢
      rw [floor]
  | true =>
    have floor := floorDivQ8Biased_eq value
    simp only [floorDivQ8Biased] at floor
    simp only [if_true,checkedFloorDivQ8Biased]
    simp only [amountQ8Max] at floor ⊢
    rw [checked_int (by decide) (by decide)]
    simp only [Option.bind_eq_bind,Option.bind_some]
    rw [checked_int (by omega) (by omega),Option.bind_some,if_neg (by omega),floor,checked_int (by omega) (by omega)]

theorem checkedCombine_eq (up mid dn sample : UInt8) {amountQ8 : Int} (low : 0 ≤ amountQ8) (high : amountQ8 ≤ 4096)
    (biasedRounding : Bool) : ∃ b, checkedCombine up mid dn sample amountQ8 biasedRounding = some b ∧
      b.toNat = sharpen amountQ8 sample.toNat ((up.toNat + 2 * mid.toNat + dn.toNat + 2) / 4 : Nat) := by
  have upByte := byte_le up
  have midByte := byte_le mid
  have dnByte := byte_le dn
  have sampleByte := byte_le sample
  generalize blurred : (up.toNat + 2 * mid.toNat + dn.toNat + 2) / 4 = blur
  have blurByte : blur ≤ 255 := by omega
  obtain ⟨least,most⟩ := @product_range amountQ8 sample.toNat blur low high (by omega) (by omega)
  refine ⟨byte (sharpen amountQ8 sample.toNat blur),?_,?_⟩
  · rw [checkedCombine,checkedTriangle_eq upByte midByte dnByte,blurred]
    simp only [Option.bind_eq_bind,Option.bind_some]
    rw [checked_int (by omega) (by omega),Option.bind_some,checked_int (by omega) (by omega),Option.bind_some,
      checkedDetail_eq least most,Option.bind_some,checked_int (by omega) (by omega),Option.bind_some]
    simp only [Option.pure_def,sharpen]
    generalize amountQ8 * ((sample.toNat : Int) - blur) / 256 = detail
    congr 2
    split_ifs <;> omega
  · refine byte_toNat ?_
    simp only [sharpen]
    omega

/-- The kernel has a value for every amount, that of the reference. -/
theorem kernelPixel_sharpened (plane : Nat → Nat → UInt8) {width height x y : Nat} (column : x < width)
    (amountQ8 : Int) (biasedRounding : Bool) : ∃ b, kernelPixel plane width height x y amountQ8 biasedRounding = some b ∧
      b.toNat = sharpened (fun y x => (plane y x).toNat) width height (clampAmountQ8 amountQ8) x y := by
  obtain ⟨up,upRow,upByte⟩ := checkedHblur_eq (plane (y - 1)) column
  obtain ⟨mid,midRow,midByte⟩ := checkedHblur_eq (plane y) column
  obtain ⟨dn,dnRow,dnByte⟩ := checkedHblur_eq (plane (min (y + 1) (height - 1))) column
  obtain ⟨low,high⟩ := clampAmountQ8_range amountQ8
  obtain ⟨b,combined,value⟩ := checkedCombine_eq up mid dn (plane y x) low high biasedRounding
  refine ⟨b,?_,?_⟩
  · rw [kernelPixel,upRow,midRow,dnRow]
    exact combined
  · rw [value,upByte,midByte,dnByte]
    rfl

/-! ## The order of the amounts -/

theorem clampAmountQ8_mono {a b : Int} (le : a ≤ b) : clampAmountQ8 a ≤ clampAmountQ8 b := by
  simp only [clampAmountQ8,amountQ8Max]
  split_ifs <;> omega

theorem sharpen_le {a b sample blur : Int} (le : a * (sample - blur) ≤ b * (sample - blur)) :
    sharpen a sample blur ≤ sharpen b sample blur := by
  have quotient := Int.ediv_le_ediv (by decide : (0 : Int) < 256) le
  simp only [sharpen]
  omega

theorem sharpen_zero {sample : Nat} (small : sample ≤ 255) (blur : Int) : sharpen 0 sample blur = sample := by
  simp only [sharpen,Int.zero_mul,Int.zero_ediv]
  omega

/-- A sample that is not below its blur rises with the amount, and no amount lowers it. -/
theorem sharpen_above {a b : Int} {sample blur : Nat} (small : sample ≤ 255) (above : blur ≤ sample) (low : 0 ≤ a)
    (le : a ≤ b) : sample ≤ sharpen a sample blur ∧ sharpen a sample blur ≤ sharpen b sample blur := by
  have detail : (0 : Int) ≤ sample - blur := by omega
  have start := sharpen_le (mul_le_mul_of_nonneg_right low detail)
  rw [sharpen_zero small] at start
  exact ⟨start,sharpen_le (mul_le_mul_of_nonneg_right le detail)⟩

/-- One below its blur falls with the amount, and no amount raises it. -/
theorem sharpen_below {a b : Int} {sample blur : Nat} (small : sample ≤ 255) (below : sample < blur) (low : 0 ≤ a)
    (le : a ≤ b) : sharpen b sample blur ≤ sharpen a sample blur ∧ sharpen a sample blur ≤ sample := by
  have detail : (sample - blur : Int) ≤ 0 := by omega
  have start := sharpen_le (mul_le_mul_of_nonpos_right low detail)
  rw [sharpen_zero small] at start
  exact ⟨sharpen_le (mul_le_mul_of_nonpos_right le detail),start⟩

/-- What a successful call promises is what the kernel computes, even where no worker
    takes part. -/
theorem promised_sharpened (m : UsmPool.Bytes) (a : UsmPool.Args) (width height x y : Nat) :
    UsmPool.promised m a width height x y =
      sharpened (UsmPool.sourcePlane m (UsmPool.frameOf a)) width height (clampAmountQ8 a.amountQ8) x y := by
  rw [UsmPool.promised]
  by_cases zero : clampAmountQ8 a.amountQ8 = 0
  · rw [if_pos zero,zero,sharpened]
    exact (sharpen_zero (bytesAt_le m _ x) _).symm
  · rw [if_neg zero]

/-- A pixel as a function of the amount, in either rounding mode. The kernel has a value
    for it without an overflow; it moves away from the blur as the amount grows, it is
    the source where the amount is not positive, and every successful call of a pool
    leaves it in the destination. -/
theorem usm_monotone (plane : Nat → Nat → UInt8) {width height x y : Nat} (column : x < width) (row : y < height)
    (biasedRounding : Bool) : ∃ out : Int → UInt8,
    (∀ a, kernelPixel plane width height x y a biasedRounding = some (out a)) ∧
    (∀ a b, a ≤ b →
      (blurred (fun y x => (plane y x).toNat) width height x y ≤ (plane y x).toNat → plane y x ≤ out a ∧ out a ≤ out b) ∧
      ((plane y x).toNat < blurred (fun y x => (plane y x).toNat) width height x y → out b ≤ out a ∧ out a ≤ plane y x)) ∧
    (∀ a, a ≤ 0 → out a = plane y x) ∧
    (∀ p m args o r, UsmPool.Inv width height p → UsmPool.SameOrApart width height args →
      UsmPool.sourcePlane m (UsmPool.frameOf args) = (fun y x => (plane y x).toNat) →
      UsmPool.apply p m args o = some r → r.status = .ok →
      r.memory ((rowAt (UsmPool.frameOf args).dst (UsmPool.frameOf args).dstStride y).plus x) = out args.amountQ8) := by
  choose out kernel value using fun a => @kernelPixel_sharpened plane width height x y column a biasedRounding
  have sample := byte_le (plane y x)
  refine ⟨out,kernel,fun a b le => ⟨fun above => ?_,fun below => ?_⟩,fun a none => ?_,?_⟩
  · have order := sharpen_above sample above (clampAmountQ8_range a).1 (clampAmountQ8_mono le)
    rw [UInt8.le_iff_toNat_le,UInt8.le_iff_toNat_le,value,value]
    exact order
  · have order := sharpen_below sample below (clampAmountQ8_range a).1 (clampAmountQ8_mono le)
    rw [UInt8.le_iff_toNat_le,UInt8.le_iff_toNat_le,value,value]
    exact order
  · have zero : clampAmountQ8 a = 0 := by
      simp only [clampAmountQ8,amountQ8Max]
      split_ifs <;> omega
    rw [← UInt8.toNat_inj,value,zero]
    exact sharpen_zero sample _
  · intro p m args o r inv planes source applied ok
    have written := UsmPool.apply_ok inv (by omega) planes applied ok column row
    rw [promised_sharpened,source,← value] at written
    exact UInt8.toNat_inj.mp written

/-- A bright pixel in a dark plane of three by three. -/
def brightPlane (y x : Nat) : UInt8 := if y = 1 ∧ x = 1 then 200 else 40

theorem usm_monotone_bright : ∃ out : Int → UInt8, (∀ a, kernelPixel brightPlane 3 3 1 1 a true = some (out a)) ∧
    200 ≤ out 64 ∧ out 64 ≤ out 5000 ∧ out 5000 = 255 := by
  obtain ⟨out,kernel,order,-,-⟩ := @usm_monotone brightPlane 3 3 1 1 (by decide) (by decide) true
  obtain ⟨low,high⟩ := (order 64 5000 (by decide)).1 (by decide)
  exact ⟨out,kernel,low,high,Option.some.inj ((kernel 5000).symm.trans (by decide))⟩

end AutoUpscale.Usm
