import AutoUpscale.Signed
import AutoUpscale.TileGrid

/-!
The bounds of stripes with the arithmetic of C: `up_compute_stripe_bounds` with its
output and every product and conversion checked. Nothing overflows, and the stripes of
an axis are the intervals between cuts on both sides (`stripe_bounds_partition`). The
first stripe is as small as any (`dstCut_least`, `srcCut_least`), so it decides whether
a split is valid, and so are all splits into fewer (`first_stripe_decides`).
-/
namespace AutoUpscale.StripeBounds
open AutoUpscale.PlaneUtils AutoUpscale.TileGrid
open AutoUpscale.Partition (Cuts cuts_bounds)
open AutoUpscale.Signed (Fits fits_int checked checked_int checked_int64)

/-- The product in 64 bits, its quotient as an `int`, and that without its lowest bit. -/
def alignedShare (a b d : Int) : Option Int := do
  let product ← checked .int64 (a * b)
  let quotient ← checked .int64 (product.tdiv d)
  let narrowed ← checked .int quotient
  return alignDown2 narrowed

/-- `up_compute_stripe_bounds`: what it returns, and its output. -/
def fillStripeBounds (i n srcH dstH : Int) (out : StripeBounds) : Option (Bool × StripeBounds) :=
  if stripeArgsValid i n srcH dstH = false then some (false,out)
  else do
    let last ← checked .int (n - 1)
    let dstStart ← (if i = 0 then some 0 else alignedShare i dstH n)
    let dstEnd ← (if i = last then some dstH else (checked .int (i + 1)).bind fun next => alignedShare next dstH n)
    let srcStart ← (if i = 0 then some 0 else alignedShare srcH dstStart dstH)
    let srcEnd ← (if i = last then some srcH else alignedShare srcH dstEnd dstH)
    return (decide (dstEnd > dstStart ∧ srcEnd > srcStart),⟨srcStart,srcEnd,dstStart,dstEnd⟩)

variable {n m : Nat} {src dst : Int}

/-! ## The arithmetic -/

/-- A share of an extent that is no greater than the extent does not overflow. -/
theorem alignedShare_eq {a b d : Int} (aInt : 0 ≤ a ∧ Fits .int a) (bInt : 0 ≤ b ∧ Fits .int b) (positive : 0 < d)
    (share : a * b / d ≤ 2147483647) : alignedShare a b d = some (alignDown2 (a * b / d)) := by
  obtain ⟨aLow,_,aHigh⟩ := aInt
  obtain ⟨bLow,_,bHigh⟩ := bInt
  simp only [Signed.Width.int] at aHigh bHigh
  have low : 0 ≤ a * b := mul_nonneg aLow bLow
  have high : a * b ≤ 2147483647 * 2147483647 := mul_le_mul aHigh bHigh bLow (by decide)
  have quotient : 0 ≤ a * b / d := Int.ediv_nonneg low (le_of_lt positive)
  rw [alignedShare,checked_int64 (by omega) (by omega)]
  simp only [Option.bind_eq_bind,Option.bind_some,Int.tdiv_eq_ediv_of_nonneg low]
  rw [checked_int64 (by omega) (by omega),Option.bind_some,checked_int (by omega) (by omega)]
  rfl

/-- Every cut of the axis is an extent within it. -/
theorem dstCut_range (positive : 0 < n) (dstPos : 0 < dst) {i : Nat} (inside : i ≤ n) : 0 ≤ dstCut n dst i ∧ dstCut n dst i ≤ dst :=
  cuts_bounds (dstCuts positive dstPos) inside

theorem share_dstCut (nInt : Fits .int n) (dstInt : 0 < dst ∧ Fits .int dst) {i : Nat} (inside : i < n) (first : i ≠ 0) :
    alignedShare i dst n = some (dstCut n dst i) := by
  obtain ⟨dstPos,dstFits⟩ := dstInt
  obtain ⟨_,nHigh⟩ := fits_int.mp nInt
  obtain ⟨_,dstHigh⟩ := fits_int.mp dstFits
  have divisor : (0 : Int) < n := by omega
  have share : i * dst / n ≤ dst := mul_div_le divisor (le_of_lt dstPos) (by omega)
  rw [alignedShare_eq ⟨by omega,fits_int.mpr ⟨by omega,by omega⟩⟩ ⟨le_of_lt dstPos,dstFits⟩ divisor (by omega)]
  rw [dstCut,if_neg first,if_neg (by omega)]

theorem share_srcCut (srcInt : 0 < src ∧ Fits .int src) (dstInt : 0 < dst ∧ Fits .int dst) {i : Nat} (inside : i < n)
    (first : i ≠ 0) : alignedShare src (dstCut n dst i) dst = some (srcCut n src dst i) := by
  obtain ⟨srcPos,srcFits⟩ := srcInt
  obtain ⟨dstPos,dstFits⟩ := dstInt
  obtain ⟨_,srcHigh⟩ := fits_int.mp srcFits
  obtain ⟨_,dstHigh⟩ := fits_int.mp dstFits
  obtain ⟨low,high⟩ := dstCut_range (by omega) dstPos (le_of_lt inside)
  have share : src * dstCut n dst i / dst ≤ src := by
    rw [mul_comm]
    exact mul_div_le dstPos (le_of_lt srcPos) high
  rw [alignedShare_eq ⟨le_of_lt srcPos,srcFits⟩ ⟨low,fits_int.mpr ⟨by omega,by omega⟩⟩ dstPos (by omega)]
  rw [srcCut,if_neg first,if_neg (by omega)]

/-- The bounds that are written are two neighbouring cuts on each side. -/
theorem fillStripeBounds_cuts (nInt : Fits .int n) (srcInt : 0 < src ∧ Fits .int src) (dstInt : 0 < dst ∧ Fits .int dst)
    {i : Nat} (inside : i < n) (out : StripeBounds) :
    fillStripeBounds i n src dst out =
      some (decide (dstCut n dst i < dstCut n dst (i + 1) ∧ srcCut n src dst i < srcCut n src dst (i + 1)),
        ⟨srcCut n src dst i,srcCut n src dst (i + 1),dstCut n dst i,dstCut n dst (i + 1)⟩) := by
  obtain ⟨_,nHigh⟩ := fits_int.mp nInt
  have valid : stripeArgsValid i n src dst = true := by
    rw [stripeArgsValid,if_neg (by omega),if_neg (by omega)]
  have last : checked .int ((n : Int) - 1) = some ((n : Int) - 1) := checked_int (by omega) (by omega)
  have next : checked .int ((i : Int) + 1) = some ((i + 1 : Nat) : Int) := by
    rw [checked_int (by omega) (by omega)]
    rfl
  have dstStart : (if (i : Int) = 0 then some 0 else alignedShare i dst n) = some (dstCut n dst i) := by
    by_cases first : i = 0
    · rw [if_pos (by omega),dstCut,if_pos first]
    · rw [if_neg (by omega),share_dstCut nInt dstInt inside first]
  have srcStart : (if (i : Int) = 0 then some 0 else alignedShare src (dstCut n dst i) dst) = some (srcCut n src dst i) := by
    by_cases first : i = 0
    · rw [if_pos (by omega),srcCut,if_pos first]
    · rw [if_neg (by omega),share_srcCut srcInt dstInt inside first]
  have dstEnd : (if (i : Int) = n - 1 then some dst else some ((i + 1 : Nat) : Int) >>= fun next => alignedShare next dst n) =
      some (dstCut n dst (i + 1)) := by
    by_cases final : i + 1 = n
    · rw [if_pos (by omega),dstCut,if_neg (by omega),if_pos final]
    · rw [if_neg (by omega)]
      exact share_dstCut nInt dstInt (by omega) (by omega)
  have srcEnd : (if (i : Int) = n - 1 then some src else alignedShare src (dstCut n dst (i + 1)) dst) =
      some (srcCut n src dst (i + 1)) := by
    by_cases final : i + 1 = n
    · rw [if_pos (by omega),srcCut,if_neg (by omega),if_pos final]
    · rw [if_neg (by omega),share_srcCut srcInt dstInt (by omega) (by omega)]
  rw [fillStripeBounds,if_neg (by simp [valid]),last]
  simp only [Option.bind_eq_bind,Option.bind_some] at dstEnd ⊢
  rw [dstStart]
  simp only [Option.bind_some,next,dstEnd,srcStart,srcEnd]
  rfl

theorem stripeArgsValid_false {i n src dst : Int} (invalid : n ≤ 0 ∨ src ≤ 0 ∨ dst ≤ 0 ∨ i < 0 ∨ n ≤ i) :
    stripeArgsValid i n src dst = false := by
  rw [stripeArgsValid]
  split_ifs <;> first | rfl | omega

theorem fillStripeBounds_invalid {i n src dst : Int} (invalid : n ≤ 0 ∨ src ≤ 0 ∨ dst ≤ 0 ∨ i < 0 ∨ n ≤ i) (out : StripeBounds) :
    fillStripeBounds i n src dst out = some (false,out) := by
  rw [fillStripeBounds,if_pos (stripeArgsValid_false invalid)]

/-- The stripes of an axis, whatever the output held before. -/
structure Partitioned (n : Nat) (src dst : Int) (srcAt dstAt : Nat → Int) : Prop where
  srcCuts : Cuts srcAt n 0 src
  dstCuts : Cuts dstAt n 0 dst
  even : ∀ i, 0 < i → i < n → 2 ∣ srcAt i ∧ 2 ∣ dstAt i
  bounds : ∀ i < n, ∀ out, fillStripeBounds i n src dst out =
    some (decide (dstAt i < dstAt (i + 1) ∧ srcAt i < srcAt (i + 1)),⟨srcAt i,srcAt (i + 1),dstAt i,dstAt (i + 1)⟩)

/-- A stripe by its cuts. -/
theorem computeStripeBounds_cuts (srcPos : 0 < src) (dstPos : 0 < dst) {i : Nat} (inside : i < n) :
    computeStripeBounds i n src dst =
      if dstCut n dst i < dstCut n dst (i + 1) ∧ srcCut n src dst i < srcCut n src dst (i + 1)
      then some ⟨srcCut n src dst i,srcCut n src dst (i + 1),dstCut n dst i,dstCut n dst (i + 1)⟩ else none := by
  have valid : stripeArgsValid i n src dst = true := by
    rw [stripeArgsValid,if_neg (by omega),if_neg (by omega)]
  rw [computeStripeBounds,if_neg (by simp [valid]),stripeBounds_cuts inside]

/-- What is written is what the planner reckons with. -/
theorem fillStripeBounds_eq {n src dst : Int} (nInt : Fits .int n) (srcInt : Fits .int src) (dstInt : Fits .int dst) (i : Int)
    (before : StripeBounds) : ∃ out, fillStripeBounds i n src dst before = some ((computeStripeBounds i n src dst).isSome,out) ∧
      ∀ b, computeStripeBounds i n src dst = some b → out = b := by
  by_cases invalid : n ≤ 0 ∨ src ≤ 0 ∨ dst ≤ 0 ∨ i < 0 ∨ n ≤ i
  · have refused : computeStripeBounds i n src dst = none := by
      rw [computeStripeBounds,if_pos (stripeArgsValid_false invalid)]
    exact ⟨before,by rw [fillStripeBounds_invalid invalid,refused]; rfl,by simp [refused]⟩
  · obtain ⟨m,rfl⟩ := Int.eq_ofNat_of_zero_le (show 0 ≤ n by omega)
    obtain ⟨k,rfl⟩ := Int.eq_ofNat_of_zero_le (show 0 ≤ i by omega)
    have inside : k < m := by omega
    have written := fillStripeBounds_cuts nInt ⟨by omega,srcInt⟩ ⟨by omega,dstInt⟩ inside before
    refine ⟨⟨srcCut m src dst k,srcCut m src dst (k + 1),dstCut m dst k,dstCut m dst (k + 1)⟩,?_,fun b found => ?_⟩
    · rw [written,computeStripeBounds_cuts (by omega) (by omega) inside]
      split_ifs with filled
      · rw [decide_eq_true filled]
        rfl
      · rw [decide_eq_false filled]
        rfl
    · rw [computeStripeBounds_cuts (by omega) (by omega) inside] at found
      split_ifs at found
      exact Option.some.inj found

/-- Without an overflow the bounds of all stripes split both sides of an axis, at even
    places within it; arguments that are not valid leave the output alone. What is written
    is what the planner reckons with. -/
theorem stripe_bounds_partition (n src dst : Int) :
    (1 ≤ n ∧ Fits .int n → 0 < src ∧ Fits .int src → 0 < dst ∧ Fits .int dst →
      ∃ srcAt dstAt, Partitioned n.toNat src dst srcAt dstAt) ∧
    (∀ i out, n ≤ 0 ∨ src ≤ 0 ∨ dst ≤ 0 ∨ i < 0 ∨ n ≤ i → fillStripeBounds i n src dst out = some (false,out)) ∧
    (Fits .int n → Fits .int src → Fits .int dst → ∀ i before, ∃ out,
      fillStripeBounds i n src dst before = some ((computeStripeBounds i n src dst).isSome,out) ∧
      ∀ b, computeStripeBounds i n src dst = some b → out = b) := by
  refine ⟨fun ⟨positive,nInt⟩ srcInt dstInt => ?_,fun i out invalid => fillStripeBounds_invalid invalid out,
    fun nInt srcInt dstInt i before => fillStripeBounds_eq nInt srcInt dstInt i before⟩
  obtain ⟨m,rfl⟩ := Int.eq_ofNat_of_zero_le (show 0 ≤ n by omega)
  rw [Int.toNat_natCast]
  refine ⟨srcCut m src dst,dstCut m dst,?_⟩
  constructor
  case srcCuts => exact PlaneUtils.srcCuts (by omega) srcInt.1 dstInt.1
  case dstCuts => exact PlaneUtils.dstCuts (by omega) dstInt.1
  case even =>
    intro i first last
    rw [srcCut,dstCut,if_neg (by omega),if_neg (by omega),if_neg (by omega),if_neg (by omega)]
    exact ⟨two_dvd_alignDown2 _,two_dvd_alignDown2 _⟩
  case bounds =>
    intro i inside out
    exact fillStripeBounds_cuts nInt srcInt dstInt inside out

/-! ## The first stripe -/

theorem alignDown2_add (x y : Int) : alignDown2 x + alignDown2 y ≤ alignDown2 (x + y) := by
  simp only [alignDown2]
  omega

/-- The even shares of two extents are no more than that of both. -/
theorem share_add {a b d : Int} (positive : 0 < d) : alignDown2 (a / d) + alignDown2 (b / d) ≤ alignDown2 ((a + b) / d) :=
  le_trans (alignDown2_add _ _) (alignDown2_mono (Int.ediv_add_ediv_le_add_ediv positive))

theorem dstCut_first (several : 1 < n) : dstCut n dst 1 = alignDown2 (dst / n) := by
  rw [dstCut,if_neg one_ne_zero,if_neg (by omega),Nat.cast_one,one_mul]

theorem srcCut_first (several : 1 < n) : srcCut n src dst 1 = alignDown2 (src * dstCut n dst 1 / dst) := by
  rw [srcCut,if_neg one_ne_zero,if_neg (by omega)]

/-- No stripe is smaller than the first one in the destination. -/
theorem dstCut_least (dst : Int) (several : 1 < n) {i : Nat} (inside : i < n) : dstCut n dst i + dstCut n dst 1 ≤ dstCut n dst (i + 1) := by
  have positive : (0 : Int) < n := by omega
  by_cases start : i = 0
  · subst start
    simp [dstCut]
  have share : dstCut n dst i + dstCut n dst 1 ≤ alignDown2 ((i + 1 : Nat) * dst / n) := by
    rw [dstCut_first several,dstCut,if_neg start,if_neg (by omega)]
    have added := share_add (a := i * dst) (b := dst) positive
    rwa [show (i : Int) * dst + dst = (i + 1 : Nat) * dst by push_cast; ring] at added
  by_cases last : i + 1 = n
  · have whole : (n : Int) * dst / n = dst := Int.mul_ediv_cancel_left dst (by omega)
    rw [last,whole] at share
    rw [last]
    have top : dstCut n dst n = dst := by rw [dstCut,if_neg (by omega),if_pos rfl]
    rw [top]
    exact le_trans share (alignDown2_le dst)
  · have middle : dstCut n dst (i + 1) = alignDown2 ((i + 1 : Nat) * dst / n) := by
      rw [dstCut,if_neg (by omega),if_neg last]
    rw [middle]
    exact share

/-- Nor in the source. -/
theorem srcCut_least (srcPos : 0 < src) (dstPos : 0 < dst) (several : 1 < n) {i : Nat} (inside : i < n) :
    srcCut n src dst i + srcCut n src dst 1 ≤ srcCut n src dst (i + 1) := by
  by_cases start : i = 0
  · subst start
    simp [srcCut]
  have share : srcCut n src dst i + srcCut n src dst 1 ≤ alignDown2 (src * dstCut n dst (i + 1) / dst) := by
    rw [srcCut_first several,srcCut,if_neg start,if_neg (by omega)]
    refine le_trans (share_add dstPos) (alignDown2_mono (Int.ediv_le_ediv dstPos ?_))
    rw [← mul_add]
    exact mul_le_mul_of_nonneg_left (dstCut_least dst several inside) (le_of_lt srcPos)
  by_cases last : i + 1 = n
  · have top : dstCut n dst n = dst := by rw [dstCut,if_neg (by omega),if_pos rfl]
    have whole : src * dst / dst = src := Int.mul_ediv_cancel src (by omega)
    rw [last,top,whole] at share
    have end_ : srcCut n src dst n = src := by rw [srcCut,if_neg (by omega),if_pos rfl]
    rw [last,end_]
    exact le_trans share (alignDown2_le src)
  · have middle : srcCut n src dst (i + 1) = alignDown2 (src * dstCut n dst (i + 1) / dst) := by
      rw [srcCut,if_neg (by omega),if_neg last]
    rw [middle]
    exact share

/-! ## Valid splits -/

/-- A split is valid where its first stripe is filled and large enough. -/
theorem axisPartitionOk_iff (srcPos : 0 < src) (dstPos : 0 < dst) (several : 1 < n) (minimum : Int) :
    axisPartitionOk n src dst minimum = true ↔
      0 < dstCut n dst 1 ∧ 0 < srcCut n src dst 1 ∧ minimum ≤ dstCut n dst 1 := by
  have zero : dstCut n dst 0 = 0 ∧ srcCut n src dst 0 = 0 := ⟨if_pos rfl,if_pos rfl⟩
  constructor
  · intro ok
    obtain ⟨b,found,dstFilled,srcFilled,wide⟩ := stripe_of_ok srcPos dstPos ok (le_refl 0) (by omega)
    have first := computeStripeBounds_of_ok srcPos dstPos ok (by omega : 0 < n)
    rw [Nat.cast_zero,found,Option.some.injEq] at first
    subst first
    have extent := wide (by exact_mod_cast several)
    simp only [zero,zero_add,sub_zero] at dstFilled srcFilled extent
    exact ⟨dstFilled,srcFilled,extent⟩
  · rintro ⟨dstFilled,srcFilled,wide⟩
    rw [axisPartitionOk,if_neg (by omega),List.all_eq_true]
    intro i member
    have inside : i < n := by simpa using member
    have dstStep := dstCut_least dst several inside
    have srcStep := srcCut_least srcPos dstPos several inside
    have large : ¬ dstCut n dst (i + 1) - dstCut n dst i < minimum := by omega
    rw [stripeOk,computeStripeBounds_cuts srcPos dstPos inside,if_pos ⟨by omega,by omega⟩]
    simp [large]

/-- The first stripe of fewer stripes is no smaller. -/
theorem firstCuts_anti (srcPos : 0 < src) (dstPos : 0 < dst) (several : 1 < m) (fewer : m ≤ n) :
    dstCut n dst 1 ≤ dstCut m dst 1 ∧ srcCut n src dst 1 ≤ srcCut m src dst 1 := by
  have cuts : dstCut n dst 1 ≤ dstCut m dst 1 := by
    rw [dstCut_first (by omega),dstCut_first several]
    refine alignDown2_mono ((Int.le_ediv_iff_mul_le (by omega)).mpr ?_)
    have share : dst / n * m ≤ dst / n * n :=
      mul_le_mul_of_nonneg_left (by omega) (Int.ediv_nonneg (le_of_lt dstPos) (by omega))
    exact le_trans share (Int.ediv_mul_le dst (by omega))
  refine ⟨cuts,?_⟩
  rw [srcCut_first (by omega),srcCut_first several]
  exact alignDown2_mono (Int.ediv_le_ediv dstPos (mul_le_mul_of_nonneg_left cuts (le_of_lt srcPos)))

theorem axisPartitionOk_down {n m minimum : Int} (srcPos : 0 < src) (dstPos : 0 < dst)
    (ok : axisPartitionOk n src dst minimum = true) (low : 1 ≤ m) (fewer : m ≤ n) :
    axisPartitionOk m src dst minimum = true := by
  obtain ⟨k,rfl⟩ := Int.eq_ofNat_of_zero_le (show 0 ≤ n by omega)
  obtain ⟨j,rfl⟩ := Int.eq_ofNat_of_zero_le (show 0 ≤ m by omega)
  by_cases single : j = 1
  · subst single
    exact axisPartitionOk_one src dst minimum
  · obtain ⟨dstGrows,srcGrows⟩ := firstCuts_anti (m := j) (n := k) srcPos dstPos (by omega) (by omega)
    obtain ⟨dstFilled,srcFilled,wide⟩ := (axisPartitionOk_iff srcPos dstPos (by omega) minimum).mp ok
    exact (axisPartitionOk_iff srcPos dstPos (by omega) minimum).mpr ⟨by omega,by omega,by omega⟩

/-- The first stripe decides a split into several: no stripe is smaller, and the split is
    valid where that one is filled and large enough. Every split into fewer is valid too,
    so the search finds the most stripes, below which all splits are valid. -/
theorem first_stripe_decides {n src dst : Int} (several : 1 < n) (srcPos : 0 < src) (dstPos : 0 < dst) (minimum : Int) :
    (∀ i, 0 ≤ i → i < n →
      (stripeBounds 0 n src dst).dstEnd - (stripeBounds 0 n src dst).dstStart ≤
        (stripeBounds i n src dst).dstEnd - (stripeBounds i n src dst).dstStart ∧
      (stripeBounds 0 n src dst).srcEnd - (stripeBounds 0 n src dst).srcStart ≤
        (stripeBounds i n src dst).srcEnd - (stripeBounds i n src dst).srcStart) ∧
    (axisPartitionOk n src dst minimum = true ↔
      ∃ b, computeStripeBounds 0 n src dst = some b ∧ minimum ≤ b.dstEnd - b.dstStart) ∧
    (axisPartitionOk n src dst minimum = true → ∀ m, 1 ≤ m → m ≤ n → axisPartitionOk m src dst minimum = true) ∧
    ∀ start, let most := largestValidSplit start src dst minimum
      (1 ≤ most ∧ most ≤ max 1 start ∧ axisPartitionOk most src dst minimum = true) ∧
      (∀ m, 1 ≤ m → m ≤ start → axisPartitionOk m src dst minimum = true → m ≤ most) ∧
      ∀ m, 1 ≤ m → m ≤ most → axisPartitionOk m src dst minimum = true := by
  obtain ⟨k,rfl⟩ := Int.eq_ofNat_of_zero_le (show 0 ≤ n by omega)
  have inside : 1 < k := by omega
  have zero : dstCut k dst 0 = 0 ∧ srcCut k src dst 0 = 0 := ⟨if_pos rfl,if_pos rfl⟩
  refine ⟨fun i low high => ?_,?_,fun ok m low fewer => axisPartitionOk_down srcPos dstPos ok low fewer,fun start => ?_⟩
  · obtain ⟨j,rfl⟩ := Int.eq_ofNat_of_zero_le low
    have dstStep := dstCut_least dst inside (by omega : j < k)
    have srcStep := srcCut_least srcPos dstPos inside (by omega : j < k)
    rw [← Nat.cast_zero,stripeBounds_cuts (by omega),stripeBounds_cuts (by omega : j < k)]
    simp only [zero,zero_add,sub_zero]
    omega
  · rw [axisPartitionOk_iff srcPos dstPos inside,← Nat.cast_zero,computeStripeBounds_cuts srcPos dstPos (by omega)]
    simp only [zero,zero_add]
    constructor
    · rintro ⟨dstFilled,srcFilled,wide⟩
      rw [if_pos ⟨dstFilled,srcFilled⟩]
      exact ⟨_,rfl,by simpa using wide⟩
    · rintro ⟨b,found,wide⟩
      split_ifs at found with filled
      obtain rfl := Option.some.inj found
      exact ⟨filled.1,filled.2,by simpa using wide⟩
  · obtain ⟨ok,low,bound⟩ := largestValidSplit_ok start src dst minimum
    exact ⟨⟨low,by omega,ok⟩,fun m positive within valid => largestValidSplit_max positive within valid,
      fun m positive fewer => axisPartitionOk_down srcPos dstPos ok positive fewer⟩

/-- 1080 rows out of 540 for eight workers: the first stripe has 134 rows, one of the
    others 136. -/
theorem first_stripe_decides_hd : axisPartitionOk 8 540 1080 16 = true ∧ axisPartitionOk 3 540 1080 16 = true ∧
    stripeBounds 0 8 540 1080 = ⟨0,66,0,134⟩ ∧ stripeBounds 1 8 540 1080 = ⟨66,134,134,270⟩ := by
  obtain ⟨_,decides,down,_⟩ := @first_stripe_decides 8 540 1080 (by decide) (by decide) (by decide) 16
  have ok := decides.mpr ⟨⟨0,66,0,134⟩,by decide,by decide⟩
  exact ⟨ok,down ok 3 (by decide) (by decide),by decide,by decide⟩

end AutoUpscale.StripeBounds
