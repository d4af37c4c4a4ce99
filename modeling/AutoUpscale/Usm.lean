import AutoUpscale.Rows
import Mathlib.Algebra.Order.Ring.Abs

/-!
The row operations of the unsharp mask and the copy of a plane: `usm.h` and
`up_copy_plane` of `plane_utils.h`, on a memory of bytes. The reference that a
sharpened plane is compared with is `sharpened`: a line of bytes is smoothed with
weights 1, 2 and 1 (`smooth`), rows first and then columns, and the detail a
pixel loses by it is added back with a factor.
-/
namespace AutoUpscale.Usm
open AutoUpscale.Rows
universe u
variable {κ : Type u}

/-- `(uint8_t)` of a value that is not negative. -/
def byte (v : Nat) : UInt8 := UInt8.ofNat v

theorem byte_toNat {v : Nat} (small : v < 256) : (byte v).toNat = v :=
  UInt8.toNat_ofNat_of_lt' small

/-! ## The reference -/

/-- The rounded average of a value and its two neighbours on a line of the given
    length, itself twice. The line goes on with its end values. -/
def smooth (line : Nat → Nat) (length i : Nat) : Nat :=
  (line (i - 1) + 2 * line i + line (min (i + 1) (length - 1)) + 2) / 4

/-- The blur of a plane given by its rows: each row is smoothed, then each column. -/
def blurred (plane : Nat → Nat → Nat) (width height x y : Nat) : Nat :=
  smooth (fun k => smooth (plane k) width x) height y

/-- A sample with its detail added back, as a byte. The division rounds down. -/
def sharpen (amountQ8 sample blur : Int) : Nat :=
  (max 0 (min 255 (sample + amountQ8 * (sample - blur) / 256))).toNat

/-- The sharpened plane. -/
def sharpened (plane : Nat → Nat → Nat) (width height : Nat) (amountQ8 : Int) (x y : Nat) : Nat :=
  sharpen amountQ8 (plane y x) (blurred plane width height x y)

/-- Only the values on the line count. -/
theorem smooth_congr {line other : Nat → Nat} {length : Nat} (same : ∀ k, k < length → line k = other k) {i : Nat}
    (inside : i < length) : smooth line length i = smooth other length i := by
  simp only [smooth]
  rw [same (i - 1) (by omega),same i inside,same (min (i + 1) (length - 1)) (by omega)]

/-- Only the pixels of the plane count. -/
theorem sharpened_congr {plane other : Nat → Nat → Nat} {width height x y : Nat} {amountQ8 : Int}
    (same : ∀ r c, r < height → c < width → plane r c = other r c) (column : x < width) (row : y < height) :
    sharpened plane width height amountQ8 x y = sharpened other width height amountQ8 x y := by
  have blur : blurred plane width height x y = blurred other width height x y :=
    smooth_congr (fun r inside => smooth_congr (fun c => same r c inside) column) row
  rw [sharpened,sharpened,blur,same y x row column]

/-! ## Fixed point -/

/-- `UP_USM_AMOUNT_Q8_MAX`. -/
def amountQ8Max : Int := 4096

/-- `up_usm__clamp_amount_q8`. -/
def clampAmountQ8 (amountQ8 : Int) : Int :=
  if amountQ8 < 0 then 0 else if amountQ8 > amountQ8Max then amountQ8Max else amountQ8

/-- `up_usm__floor_div_q8`. -/
def floorDivQ8 (value : Int) : Int :=
  let quotient := value.tdiv 256
  if value < 0 ∧ value.tmod 256 ≠ 0 then quotient - 1 else quotient

/-- `up_usm__floor_div_q8_biased`. -/
def floorDivQ8Biased (value : Int) : Int := ((value + amountQ8Max * 256) >>> (8 : Nat)) - amountQ8Max

/-- `up_usm__use_biased_rounding`. -/
def useBiasedRounding (width height workers : Nat) : Bool :=
  decide (workers > 0) && ((decide (width = 1280) && decide (height = 720) && decide (workers ≤ 8)) ||
    (decide (width = 1920) && decide (height = 1080) && decide (workers ≤ 12)))

theorem clampAmountQ8_range (amountQ8 : Int) : 0 ≤ clampAmountQ8 amountQ8 ∧ clampAmountQ8 amountQ8 ≤ 4096 := by
  simp only [clampAmountQ8,amountQ8Max]
  split_ifs <;> omega

/-- The truncating division with its correction rounds down. -/
theorem floorDivQ8_eq (value : Int) : floorDivQ8 value = value / 256 := by
  have whole := Int.tmod_add_tdiv_mul value 256
  rcases Int.lt_or_le value 0 with negative | positive
  · have low := Int.lt_tmod_of_pos value (by decide : (0 : Int) < 256)
    have high := Int.tmod_nonneg 256 (show 0 ≤ -value by omega)
    rw [Int.neg_tmod] at high
    simp only [floorDivQ8,negative,true_and]
    split_ifs <;> omega
  · have low := Int.tmod_nonneg 256 positive
    have high := Int.tmod_lt_of_pos value (by decide : (0 : Int) < 256)
    have up : ¬ value < 0 := by omega
    simp only [floorDivQ8,up,false_and,if_false]
    omega

/-- So does the shift, which never sees a negative value. -/
theorem floorDivQ8Biased_eq (value : Int) : floorDivQ8Biased value = value / 256 := by
  have power : ((2 ^ 8 : Nat) : Int) = 256 := by decide
  rw [floorDivQ8Biased,Int.shiftRight_eq_div_pow,power,amountQ8Max]
  omega

/-- The products stay within 32 bits, and the biased sum is not negative. -/
theorem product_range {amountQ8 sample blur : Int} (low : 0 ≤ amountQ8) (high : amountQ8 ≤ 4096)
    (sampleByte : 0 ≤ sample ∧ sample ≤ 255) (blurByte : 0 ≤ blur ∧ blur ≤ 255) :
    -1044480 ≤ amountQ8 * (sample - blur) ∧ amountQ8 * (sample - blur) ≤ 1044480 := by
  have small : |sample - blur| ≤ 255 := by
    rw [abs_le]
    omega
  have product : |amountQ8 * (sample - blur)| ≤ 4096 * 255 := by
    rw [abs_mul,abs_of_nonneg low]
    exact mul_le_mul high small (abs_nonneg _) (by decide)
  exact abs_le.mp product

/-! ## Rows -/

/-- The bytes of a row as numbers. -/
def bytesAt (m : Memory κ UInt8) (row : Pointer κ) (x : Nat) : Nat := (m (row.plus x)).toNat

theorem bytesAt_le (m : Memory κ UInt8) (row : Pointer κ) (x : Nat) : bytesAt m row x ≤ 255 := by
  have small := (m (row.plus x)).toNat_lt
  simp only [bytesAt]
  omega

theorem shiftRight_two (v : Nat) : v >>> 2 = v / 4 := Nat.shiftRight_eq_div_pow v 2

theorem shiftLeft_one (v : Nat) : v <<< 1 = 2 * v := by
  rw [Nat.shiftLeft_eq,Nat.mul_comm]

/-- What the middle of the loop of `up_usm__hblur_row` computes at `x`. -/
def hblurColumn (row : Pointer κ) (m : Memory κ UInt8) (x : Nat) : UInt8 :=
  byte (((m (row.plus (x - 1))).toNat + ((m (row.plus x)).toNat <<< 1) + (m (row.plus (x + 1))).toNat + 2) >>> 2)

theorem hblurColumn_toNat (m : Memory κ UInt8) (row : Pointer κ) (x : Nat) :
    (hblurColumn row m x).toNat = (bytesAt m row (x - 1) + 2 * bytesAt m row x + bytesAt m row (x + 1) + 2) / 4 := by
  have left := bytesAt_le m row (x - 1)
  have here := bytesAt_le m row x
  have right := bytesAt_le m row (x + 1)
  simp only [bytesAt] at left here right
  rw [hblurColumn,shiftLeft_one,shiftRight_two,byte_toNat (by omega)]
  rfl

/-- What the loop of `up_usm__combine_row_mode` computes at `x`. -/
def combineColumn (srcRow up mid dn : Pointer κ) (amountQ8 : Int) (biasedRounding : Bool) (m : Memory κ UInt8)
    (x : Nat) : UInt8 :=
  let blur : Int :=
    (((m (up.plus x)).toNat + ((m (mid.plus x)).toNat <<< 1) + (m (dn.plus x)).toNat + 2) >>> 2 : Nat)
  let s : Int := (m (srcRow.plus x)).toNat
  let hi := s - blur
  let product := amountQ8 * hi
  let detail := if biasedRounding then floorDivQ8Biased product else floorDivQ8 product
  let sharpened := s + detail
  let sharpened := if sharpened < 0 then 0 else if sharpened > 255 then 255 else sharpened
  byte sharpened.toNat

/-- A column of the combination sharpens the sample, in either rounding mode. -/
theorem combineColumn_toNat (srcRow up mid dn : Pointer κ) (amountQ8 : Int) (biasedRounding : Bool)
    (m : Memory κ UInt8) (x : Nat) : (combineColumn srcRow up mid dn amountQ8 biasedRounding m x).toNat =
      sharpen amountQ8 (bytesAt m srcRow x)
        ((bytesAt m up x + 2 * bytesAt m mid x + bytesAt m dn x + 2) / 4 : Nat) := by
  simp only [combineColumn,sharpen,floorDivQ8_eq,floorDivQ8Biased_eq,ite_self,shiftLeft_one,shiftRight_two,bytesAt]
  rw [byte_toNat (by split_ifs <;> omega)]
  split_ifs <;> omega

variable [DecidableEq κ]

/-- `up_usm__hblur_row`. -/
def hblurRow (m : Memory κ UInt8) (out row : Pointer κ) (width : Nat) : Memory κ UInt8 :=
  if width = 0 then m
  else if width = 1 then Function.update m out (m row)
  else
    let m := Function.update m out (byte (((m row).toNat * 3 + (m (row.plus 1)).toNat + 2) >>> 2))
    let m := fill (hblurColumn row) out m (width - 2) 1
    Function.update m (out.plus (width - 1))
      (byte (((m (row.plus (width - 2))).toNat + (m (row.plus (width - 1))).toNat * 3 + 2) >>> 2))

/-- `up_usm__combine_row_mode`. -/
def combineRowMode (m : Memory κ UInt8) (dstRow srcRow up mid dn : Pointer κ) (width : Nat) (amountQ8 : Int)
    (biasedRounding : Bool) : Memory κ UInt8 :=
  fill (combineColumn srcRow up mid dn amountQ8 biasedRounding) dstRow m width 0

variable {m : Memory κ UInt8} {width : Nat}

theorem hblurRow_frame {out row a : Pointer κ} (outside : a ∉ Row out width) : hblurRow m out row width a = m a := by
  simp only [hblurRow]
  by_cases none : width = 0
  · rw [if_pos none]
  have first : a ≠ out := by
    rintro rfl
    exact outside (row_head (by omega))
  rw [if_neg none]
  by_cases one : width = 1
  · rw [if_pos one,update_frame first]
  have last : a ≠ out.plus (width - 1) := by
    rintro rfl
    exact outside (mem_row (by omega))
  have middle : a ∉ Row (out.plus 1) (width - 2) := fun member => outside (row_inner (by omega) member)
  rw [if_neg one,update_frame last,fill_frame middle,update_frame first]

/-- A row that does not meet the source row ends up holding its smoothed bytes. -/
theorem hblurRow_value {out row : Pointer κ} (apart : Disjoint (Row row width) (Row out width)) {x : Nat}
    (inside : x < width) : bytesAt (hblurRow m out row width) out x = smooth (bytesAt m row) width x := by
  have kept : ∀ {m' : Memory κ UInt8} {k : Nat}, k < width → (∀ a, a ∉ Row out width → m' a = m a) →
      m' (row.plus k) = m (row.plus k) :=
    fun below agree => agree _ (Set.disjoint_left.mp apart (mem_row below))
  simp only [hblurRow]
  rw [if_neg (by omega)]
  by_cases one : width = 1
  · subst one
    obtain rfl : x = 0 := by omega
    rw [if_pos rfl]
    simp only [bytesAt,smooth,plus_zero,Function.update_self,Nat.zero_sub,Nat.sub_self,Nat.min_zero]
    omega
  rw [if_neg one]
  generalize started : Function.update m out (byte (((m row).toNat * 3 + (m (row.plus 1)).toNat + 2) >>> 2)) = m1
  have early : ∀ a, a ∉ Row out width → m1 a = m a := by
    intro a outside
    rw [← started,update_frame]
    rintro rfl
    exact outside (row_head (by omega))
  have late : ∀ a, a ∉ Row out width → fill (hblurColumn row) out m1 (width - 2) 1 a = m a := by
    intro a outside
    rw [fill_frame fun member => outside (row_inner (by omega) member),early a outside]
  by_cases last : x = width - 1
  · subst last
    rw [bytesAt,Function.update_self,kept (by omega) late,kept (by omega) late,shiftRight_two]
    have left := bytesAt_le m row (width - 2)
    have here := bytesAt_le m row (width - 1)
    simp only [bytesAt] at left here
    rw [byte_toNat (by omega),smooth,show width - 1 - 1 = width - 2 by omega,
      show min (width - 1 + 1) (width - 1) = width - 1 by omega]
    simp only [bytesAt]
    omega
  · have before : out.plus x ≠ out.plus (width - 1) := fun same => last (plus_inj.mp same)
    rw [bytesAt,update_frame before]
    have right : min (x + 1) (width - 1) = x + 1 := by omega
    by_cases head : x = 0
    · subst head
      have ahead : out.plus 0 ∉ Row (out.plus 1) (width - 2) := by
        rintro ⟨_,low,_⟩
        simp only [plus_offset] at low
        omega
      rw [fill_frame ahead,← started,plus_zero,Function.update_self,shiftRight_two]
      have here := bytesAt_le m row 0
      have next := bytesAt_le m row 1
      simp only [bytesAt,plus_zero] at here next
      rw [byte_toNat (by omega),smooth,right]
      simp only [bytesAt,plus_zero,Nat.zero_sub,Nat.zero_add]
      omega
    · have stable : Stable (hblurColumn row) out m1 (width - 2) 1 := by
        intro k m' low high agree
        have whole : ∀ a, a ∉ Row out width → m' a = m a := by
          intro a outside
          rw [agree a fun member => outside (row_inner (by omega) member),early a outside]
        simp only [hblurColumn]
        rw [kept (by omega) whole,kept (by omega) whole,kept (by omega) whole,kept (by omega) early,
          kept (by omega) early,kept (by omega) early]
      rw [fill_value stable (by omega) (by omega),hblurColumn_toNat,smooth,right]
      simp only [bytesAt]
      rw [kept (by omega) early,kept (by omega) early,kept (by omega) early]

theorem combineRowMode_frame {dstRow srcRow up mid dn a : Pointer κ} {amountQ8 : Int} {biasedRounding : Bool}
    (outside : a ∉ Row dstRow width) :
    combineRowMode m dstRow srcRow up mid dn width amountQ8 biasedRounding a = m a :=
  fill_frame outside

/-- The destination row may be the source row itself: a column is read before it is
    written and never again. -/
theorem combineRowMode_value {dstRow srcRow up mid dn : Pointer κ} {amountQ8 : Int} {biasedRounding : Bool}
    (source : srcRow = dstRow ∨ Disjoint (Row srcRow width) (Row dstRow width))
    (scratch : ∀ row, row = up ∨ row = mid ∨ row = dn → Disjoint (Row row width) (Row dstRow width)) {x : Nat}
    (inside : x < width) :
    bytesAt (combineRowMode m dstRow srcRow up mid dn width amountQ8 biasedRounding) dstRow x =
      sharpen amountQ8 (bytesAt m srcRow x)
        ((bytesAt m up x + 2 * bytesAt m mid x + bytesAt m dn x + 2) / 4 : Nat) := by
  have stable : Stable (combineColumn srcRow up mid dn amountQ8 biasedRounding) dstRow m width 0 := by
    intro k m' _ below agree
    have free : ∀ row, Disjoint (Row row width) (Row dstRow width) → m' (row.plus k) = m (row.plus k) :=
      fun row apart => agree _ fun early =>
        Set.disjoint_left.mp apart (mem_row (by omega)) (row_inner (y := 0) (by omega) early)
    have sample : m' (srcRow.plus k) = m (srcRow.plus k) := by
      rcases source with same | apart
      · refine agree _ fun ⟨_,_,high⟩ => ?_
        simp only [same,plus_offset] at high
        omega
      · exact free srcRow apart
    simp only [combineColumn]
    rw [sample,free up (scratch up (Or.inl rfl)),free mid (scratch mid (Or.inr (Or.inl rfl))),
      free dn (scratch dn (Or.inr (Or.inr rfl)))]
  rw [bytesAt,combineRowMode,fill_value stable (Nat.zero_le x) (by omega),combineColumn_toNat]

/-! ## Copies of a plane -/

/-- The loop of `up_copy_plane`, over `left` rows from row `r` on. -/
def copyRows (m : Memory κ UInt8) (dst : Pointer κ) (dstStride : Nat) (src : Pointer κ) (srcStride rowBytes : Nat) :
    Nat → Nat → Memory κ UInt8
  | 0, _ => m
  | left + 1, r =>
    copyRows (copyRow m (rowAt dst dstStride r) (rowAt src srcStride r) rowBytes) dst dstStride src srcStride rowBytes
      left (r + 1)

/-- `up_copy_plane`. -/
def copyPlane (m : Memory κ UInt8) (dst : Pointer κ) (dstStride : Nat) (src : Pointer κ) (srcStride rowBytes rows : Nat) :
    Memory κ UInt8 :=
  if rows = 0 ∨ rowBytes = 0 then m
  else if dstStride < rowBytes ∨ srcStride < rowBytes then m
  else if dstStride = srcStride ∧ rowBytes = srcStride then copyRow m dst src (rows * rowBytes)
  else copyRows m dst dstStride src srcStride rowBytes rows 0

/-- `up_usm__apply_identity`. -/
def applyIdentity (m : Memory κ UInt8) (dst : Pointer κ) (dstStride : Nat) (src : Pointer κ)
    (srcStride width height : Nat) : Memory κ UInt8 :=
  if dst = src ∧ dstStride = srcStride then m else copyPlane m dst dstStride src srcStride width height

variable {dst src : Pointer κ} {dstStride srcStride rows : Nat}

theorem copyRows_frame {left r : Nat} {a : Pointer κ} (outside : a ∉ Band dst dstStride width r (r + left)) :
    copyRows m dst dstStride src srcStride width left r a = m a := by
  induction left generalizing m r with
  | zero => rfl
  | succ left ih =>
    have later : a ∉ Band dst dstStride width (r + 1) (r + 1 + left) :=
      fun member => outside (band_mono (Nat.le_succ r) (by omega) member)
    have first : a ∉ Row (rowAt dst dstStride r) width :=
      fun member => outside (row_band (le_refl r) (by omega) member)
    rw [copyRows,ih later,copyRow_frame first]

/-- Rows that meet neither each other nor the source are copied one after the other. -/
theorem copyRows_value (room : width ≤ dstStride) {left r : Nat}
    (apart : Disjoint (Band src srcStride width r (r + left)) (Band dst dstStride width r (r + left))) {x y : Nat}
    (inside : x < width) (low : r ≤ y) (high : y < r + left) :
    copyRows m dst dstStride src srcStride width left r ((rowAt dst dstStride y).plus x) =
      m ((rowAt src srcStride y).plus x) := by
  induction left generalizing m r with
  | zero => omega
  | succ left ih =>
    have inSource : (rowAt src srcStride y).plus x ∈ Band src srcStride width r (r + (left + 1)) :=
      row_band low high (mem_row inside)
    have unread : (rowAt src srcStride y).plus x ∉ Row (rowAt dst dstStride r) width :=
      fun member => Set.disjoint_left.mp apart inSource (row_band (le_refl r) (by omega) member)
    rw [copyRows]
    by_cases here : y = r
    · subst here
      have untouched : (rowAt dst dstStride y).plus x ∉ Band dst dstStride width (y + 1) (y + 1 + left) :=
        Set.disjoint_left.mp (row_band_apart room (Or.inl (Nat.lt_succ_self y))) (mem_row inside)
      rw [copyRows_frame untouched,copyRow_value ?_ inside]
      exact Set.disjoint_of_subset (row_band (le_refl y) (by omega)) (row_band (le_refl y) (by omega)) apart
    · have rest : Disjoint (Band src srcStride width (r + 1) (r + 1 + left))
          (Band dst dstStride width (r + 1) (r + 1 + left)) :=
        Set.disjoint_of_subset (band_mono (Nat.le_succ r) (by omega)) (band_mono (Nat.le_succ r) (by omega)) apart
      rw [ih rest (by omega) (by omega),copyRow_frame unread]

theorem copyPlane_value (room : width ≤ dstStride ∧ width ≤ srcStride)
    (apart : Disjoint (Band src srcStride width 0 rows) (Band dst dstStride width 0 rows)) {x y : Nat}
    (inside : x < width) (high : y < rows) :
    copyPlane m dst dstStride src srcStride width rows ((rowAt dst dstStride y).plus x) =
      m ((rowAt src srcStride y).plus x) := by
  rw [copyPlane,if_neg (by omega),if_neg (by omega)]
  by_cases whole : dstStride = srcStride ∧ width = srcStride
  · obtain ⟨rfl,rfl⟩ := whole
    obtain ⟨flat,below⟩ := rowAt_flat inside high
    rw [if_pos ⟨rfl,rfl⟩,flat dst,flat src,copyRow_value ?_ below]
    rw [row_flat,row_flat]
    exact apart
  · rw [if_neg whole]
    have every : Disjoint (Band src srcStride width 0 (0 + rows)) (Band dst dstStride width 0 (0 + rows)) := by
      rwa [Nat.zero_add]
    exact copyRows_value room.1 every inside (Nat.zero_le y) (by omega)

theorem copyPlane_frame {a : Pointer κ} (outside : a ∉ Band dst dstStride width 0 rows) :
    copyPlane m dst dstStride src srcStride width rows a = m a := by
  rw [copyPlane]
  split_ifs with _ _ whole
  · rfl
  · rfl
  · obtain ⟨rfl,rfl⟩ := whole
    refine copyRow_frame ?_
    rwa [row_flat]
  · exact copyRows_frame (by rwa [Nat.zero_add])

/-- The identity copy writes only the destination. -/
theorem applyIdentity_frame {a : Pointer κ} (outside : a ∉ Band dst dstStride width 0 rows) :
    applyIdentity m dst dstStride src srcStride width rows a = m a := by
  rw [applyIdentity]
  split_ifs
  · rfl
  · exact copyPlane_frame outside

/-- The planes of a call: the very same one, or two without a common pixel. -/
def Aliasing (dst : Pointer κ) (dstStride : Nat) (src : Pointer κ) (srcStride width height : Nat) : Prop :=
  dst = src ∧ dstStride = srcStride ∨
    Disjoint (Band src srcStride width 0 height) (Band dst dstStride width 0 height)

/-- The identity copy leaves the destination with the pixels of the source. -/
theorem applyIdentity_value (room : width ≤ dstStride ∧ width ≤ srcStride)
    (aliasing : Aliasing dst dstStride src srcStride width rows) {x y : Nat} (inside : x < width) (high : y < rows) :
    applyIdentity m dst dstStride src srcStride width rows ((rowAt dst dstStride y).plus x) =
      m ((rowAt src srcStride y).plus x) := by
  rw [applyIdentity]
  by_cases same : dst = src ∧ dstStride = srcStride
  · rw [if_pos same,same.1,same.2]
  · rw [if_neg same]
    exact copyPlane_value room (aliasing.resolve_left same) inside high

end AutoUpscale.Usm
