import AutoUpscale.AdaptiveCandidates
import AutoUpscale.Blocks
import AutoUpscale.SizeType

/-!
What the workers of the unsharp mask share between them: the rows of the plane and the
scratch block, `usm_pool.c`. The rows are divided among the workers that came up, the
block among the workers that were asked for, and both divisions hold for every count in
between (`division_exact`), so they hold of a pool in use (`sized_divided`).
-/
namespace AutoUpscale.UsmScratch
open AutoUpscale.AdaptiveCandidates (stripeRows resolveThreads_eq)
open AutoUpscale.AdaptiveFleet (Sized)
open AutoUpscale.Blocks AutoUpscale.Rows AutoUpscale.SizeType AutoUpscale.UsmPool
open AutoUpscale.Partition (Cuts Within cuts_cover cuts_unique)
open AutoUpscale.Signed (Fits fits_int checked checked_int checked_int64)

/-! ## Rows -/

/-- `(int)((int64_t)i * height / n)`, with nothing where a value does not fit. -/
def scaledRow (i n height : Int) : Option Int := do
  let product ← checked .int64 (i * height)
  let quotient ← checked .int64 (product.tdiv n)
  checked .int quotient

/-- `y_start` of worker `i` in the arithmetic of `usm_pool_repartition_stripes`. -/
def stripeStart (i n height : Int) : Option Int := scaledRow i n height

/-- `y_end` of worker `i`. -/
def stripeEnd (i n height : Int) : Option Int := do
  let last ← checked .int (n - 1)
  if i = last then some height
  else do
    let next ← checked .int (i + 1)
    scaledRow next n height

variable {n height width i : Nat}

/-- Nothing overflows on the way to a bound of a stripe. -/
theorem scaledRow_eq (few : n ≤ 64) (inside : i ≤ n) (positive : 0 < n) (tall : height ≤ 2147483647) :
    scaledRow i n height = some (stripeCut n height i : Int) := by
  have product : i * height ≤ 64 * 2147483647 := Nat.mul_le_mul (le_trans inside few) tall
  have whole : stripeCut n height i ≤ height := (AutoUpscale.Partition.cuts_bounds (stripeCuts height positive) inside).2
  have divided : ((i * height : Nat) : Int).tdiv n = (stripeCut n height i : Int) := by
    rw [Int.tdiv_eq_ediv_of_nonneg (Int.natCast_nonneg _),stripeCut,Int.natCast_ediv]
  rw [scaledRow,← Nat.cast_mul,checked_int64 (by omega) (by omega)]
  simp only [Option.bind_eq_bind,Option.bind_some,divided]
  rw [checked_int64 (by omega) (by omega),Option.bind_some,checked_int (by omega) (by omega)]

/-- The bounds that the slots get are those that the code computes. -/
theorem partition_computed (w : Worker) (few : n ≤ 64) (inside : i < n) (tall : height ≤ 2147483647) :
    stripeStart i n height = some ((partition w i n height).yStart : Int) ∧
      stripeEnd i n height = some ((partition w i n height).yEnd : Int) := by
  obtain ⟨start,stop⟩ := partition_stripe w height inside
  have positive : 0 < n := by omega
  refine ⟨?_,?_⟩
  · rw [start]
    exact scaledRow_eq few (le_of_lt inside) positive tall
  · rw [stop,stripeEnd,checked_int (by omega) (by omega)]
    simp only [Option.bind_eq_bind,Option.bind_some]
    by_cases last : (i : Int) = n - 1
    · have whole : stripeCut n height n = height := (stripeCuts height positive).last
      rw [if_pos last,show i + 1 = n by omega,whole]
    · rw [if_neg last,checked_int (by omega) (by omega),Option.bind_some]
      exact scaledRow_eq few inside positive tall

/-- The rows of a worker. -/
def rowCount (w : Worker) : Nat := w.yEnd - w.yStart

/-- The workers divide the rows of a plane: their stripes follow one another from the first
    row to the last, every row is in one of them, none is empty, they differ by a row at
    most, and none has fewer than `least` rows if the plane has as many. -/
structure Stripes (slots : Nat → Worker) (n height : Nat) (least : Int) : Prop where
  first : (slots 0).yStart = 0
  last : (slots (n - 1)).yEnd = height
  joined : ∀ i, i + 1 < n → (slots i).yEnd = (slots (i + 1)).yStart
  nonempty : ∀ i, i < n → (slots i).yStart < (slots i).yEnd
  once : ∀ y, y < height → ∃! i, i < n ∧ (slots i).yStart ≤ y ∧ y < (slots i).yEnd
  even : ∀ i j, i < n → j < n → rowCount (slots i) ≤ rowCount (slots j) + 1
  least : least ≤ height → ∀ i, i < n → least ≤ rowCount (slots i)

/-- A stripe has the quotient of the rows, or one row more. -/
theorem stripeCut_size (positive : 0 < n) (height i : Nat) :
    stripeCut n height i + height / n ≤ stripeCut n height (i + 1) ∧
      stripeCut n height (i + 1) ≤ stripeCut n height i + height / n + 1 := by
  have next : stripeCut n height (i + 1) = (i * height + height) / n := by rw [stripeCut,Nat.succ_mul]
  rw [next,stripeCut,Nat.add_div positive]
  split <;> omega

/-- With at most as many workers as there are stripes of `least` rows, a stripe has so many. -/
theorem resolveThreads_least {nThreads stripeMinRows : Int} (positive : 0 < n)
    (few : n ≤ resolveThreads nThreads height stripeMinRows) (tall : stripeRows stripeMinRows ≤ height) :
    stripeRows stripeMinRows ≤ (height / n : Nat) := by
  have least : 0 < stripeRows stripeMinRows := by
    unfold stripeRows
    split <;> omega
  rw [resolveThreads_eq,Int.tdiv_eq_ediv_of_nonneg (Int.natCast_nonneg height)] at few
  have one : 1 ≤ (height : Int) / stripeRows stripeMinRows := Int.le_ediv_of_mul_le least (by omega)
  have quotient : (n : Int) ≤ (height : Int) / stripeRows stripeMinRows := by omega
  have room : (n : Int) * stripeRows stripeMinRows ≤ height := (Int.le_ediv_iff_mul_le least).mp quotient
  rw [Int.natCast_ediv]
  refine Int.le_ediv_of_mul_le (by omega) ?_
  rw [Int.mul_comm]
  exact room

variable {slots : Nat → Worker}

/-- The stripes of slots that are complete. -/
theorem slots_stripes {nThreads stripeMinRows : Int} (positive : 0 < n) (few : n ≤ resolveThreads nThreads height stripeMinRows)
    (tall : 0 < height) (team : ∀ i, i < n → Slot width height n i (slots i)) :
    Stripes slots n height (stripeRows stripeMinRows) := by
  have cuts := stripeCuts height positive
  have rows : n ≤ height := by
    have reduced := resolveThreads_le nThreads stripeMinRows tall
    omega
  have size : ∀ i, i < n → height / n ≤ rowCount (slots i) ∧ rowCount (slots i) ≤ height / n + 1 := by
    intro i inside
    have bounds := stripeCut_size positive height i
    unfold rowCount
    rw [(team i inside).start,(team i inside).stop]
    generalize height / n = quotient at bounds ⊢
    omega
  refine ⟨?_,?_,fun i inside => ?_,fun i inside => ?_,fun y below => ?_,fun i j hi hj => ?_,fun enough i inside => ?_⟩
  · rw [(team 0 positive).start]
    exact cuts.first
  · rw [(team (n - 1) (by omega)).stop,show n - 1 + 1 = n by omega]
    exact cuts.last
  · rw [(team i (by omega)).stop,(team (i + 1) inside).start]
  · rw [(team i inside).start,(team i inside).stop]
    exact stripeCut_lt positive rows i
  · obtain ⟨i,inside,within⟩ := cuts_cover cuts (Nat.zero_le y) below
    refine ⟨i,⟨inside,?_⟩,fun j other => ?_⟩
    · rw [(team i inside).start,(team i inside).stop]
      exact within
    · obtain ⟨inside',within'⟩ := other
      rw [(team j inside').start,(team j inside').stop] at within'
      exact cuts_unique cuts inside' inside within' within
  · have left := size i hi
    have right := size j hj
    exact le_trans left.2 (Nat.succ_le_succ right.1)
  · have quotient := resolveThreads_least positive few enough
    exact le_trans quotient (Int.ofNat_le.mpr (size i inside).1)

/-! ## Scratch -/

/-- `USM_POOL_ALIGN`. -/
def poolAlign : Nat := 64

variable (z : SizeT)

/-- `usm_pool_scratch_bytes`. -/
def scratchBytes (n width : Int) : Nat :=
  if n ≤ 0 ∨ width ≤ 0 then 0
  else
    let per := z.mul scratchRows (z.ofInt width)
    if per / scratchRows ≠ z.ofInt width then 0
    else if per > z.max / z.ofInt n then 0
    else z.mul per (z.ofInt n)

/-- `usm_pool_alloc_scratch`: what it returns, and the scratch block of the pool. -/
def allocScratch (granted : Bool) (h : Heap) (nThreadsPref width : Int) : Option (Int × Option Nat × Heap) :=
  let bytes := scratchBytes z nThreadsPref width
  if bytes = 0 then some (-1,none,h)
  else
    let alignedBytes := z.alignUp poolAlign bytes
    if alignedBytes < bytes then some (-1,none,h)
    else do
      let (scratch,h) ← h.alignedAlloc poolAlign alignedBytes granted
      some (if scratch = none then -1 else 0,scratch,h)

/-- Where `usm_pool_construct_worker` puts the rows of worker `i` in the block. -/
def scratchOffset (i width : Int) : Nat := z.mul (z.mul (z.ofInt i) scratchRows) (z.ofInt width)

variable {z} {pref : Nat}

/-- The scratch rows of all workers that were asked for. -/
theorem scratchBytes_eq (positive : 0 < pref) (few : pref ≤ 64) (wide : 0 < width) (widthInt : width ≤ 2147483647) :
    scratchBytes z pref width = if scratchRows * width * pref ≤ z.max then scratchRows * width * pref else 0 := by
  unfold scratchBytes
  rw [if_neg (by omega)]
  simp only [ofInt_natCast widthInt,ofInt_natCast (show pref ≤ 2147483647 by omega)]
  by_cases rows : scratchRows * width ≤ z.max
  · rw [if_neg (not_not.mpr ((quotient_mul (by decide)).mpr rows)),mul_eq rows]
    exact guarded_mul positive
  · have more : scratchRows * width ≤ scratchRows * width * pref := Nat.le_mul_of_pos_right _ positive
    rw [if_pos ((quotient_mul (by decide)).not.mpr rows),if_neg (by omega)]

/-- The scratch rows of the workers lie in a block of so many bytes and do not meet. -/
structure Slices (slots : Nat → Worker) (n width bytes : Nat) : Prop where
  inside : ∀ i, i < n → Row (slots i).scratch (scratchRows * width) ⊆ Row ⟨.scratch,0⟩ bytes
  apart : ∀ i j, i < n → j < n → i ≠ j →
    Disjoint (Row (slots i).scratch (scratchRows * width)) (Row (slots j).scratch (scratchRows * width))

/-- Fewer workers than were asked for use the front of the block. -/
theorem slots_slices {bytes : Nat} (few : n ≤ pref) (room : scratchRows * width * pref ≤ bytes)
    (team : ∀ i, i < n → Slot width height n i (slots i)) : Slices slots n width bytes := by
  have start : ∀ i, i < n → (slots i).scratch = rowAt ⟨.scratch,0⟩ (scratchRows * width) i := by
    intro i inside
    rw [(team i inside).scratch,rowAt,Pointer.plus,Nat.zero_add,Nat.mul_assoc]
  refine ⟨fun i inside => ?_,fun i j hi hj different => ?_⟩
  · have last : (i + 1) * (scratchRows * width) ≤ pref * (scratchRows * width) := Nat.mul_le_mul_right _ (by omega)
    rw [start i inside]
    refine row_inner ?_
    calc i * (scratchRows * width) + scratchRows * width = (i + 1) * (scratchRows * width) := (Nat.succ_mul _ _).symm
      _ ≤ pref * (scratchRows * width) := last
      _ ≤ bytes := by rw [Nat.mul_comm]; exact room
  · rw [start i hi,start j hj]
    exact rows_apart (le_refl _) different

/-- The rows of a worker start where the slot says, if the block is there. -/
theorem scratchOffset_eq (inside : i < pref) (few : pref ≤ 64) (wide : 0 < width) (widthInt : width ≤ 2147483647)
    (room : scratchRows * width * pref ≤ z.max) : scratchOffset z i width = i * scratchRows * width := by
  have rows : i * scratchRows * width ≤ z.max := by
    calc i * scratchRows * width = i * (scratchRows * width) := Nat.mul_assoc ..
      _ ≤ pref * (scratchRows * width) := Nat.mul_le_mul_right _ (le_of_lt inside)
      _ = scratchRows * width * pref := Nat.mul_comm ..
      _ ≤ z.max := room
  have offset : i * scratchRows ≤ z.max := le_trans (Nat.le_mul_of_pos_right _ wide) rows
  unfold scratchOffset
  rw [ofInt_natCast (show i ≤ 2147483647 by omega),ofInt_natCast widthInt,mul_eq offset,mul_eq rows]

/-- The scratch block is allocated with room for all workers that were asked for, or not
    at all; it is refused for its size only if that does not fit once rounded up. -/
theorem allocScratch_exact (granted : Bool) (h : Heap) (positive : 0 < pref) (few : pref ≤ 64) (wide : 0 < width)
    (widthInt : width ≤ 2147483647) : ∃ answer scratch h', allocScratch z granted h pref width = some (answer,scratch,h') ∧
      ((answer = 0 ∧ granted = true ∧ scratchRows * width * pref + 63 ≤ z.max ∧ ∃ b bytes, scratch = some b ∧
          h.size b = none ∧ h'.size b = some bytes ∧ poolAlign ∣ bytes ∧ scratchRows * width * pref ≤ bytes) ∨
        (answer = -1 ∧ scratch = none ∧ h' = h ∧ (granted = false ∨ z.max < scratchRows * width * pref + 63))) := by
  have asked : 0 < scratchRows * width * pref := Nat.mul_pos (Nat.mul_pos (by decide) wide) positive
  simp only [allocScratch,scratchBytes_eq positive few wide widthInt]
  generalize scratchRows * width * pref = needed at asked
  by_cases whole : needed ≤ z.max
  · have wraps := @alignUp_lt z poolAlign needed (by decide) (int_le_max (by decide)) whole
    rw [if_pos whole,if_neg (by omega)]
    by_cases exceeds : z.max < needed + 63
    · rw [if_pos (wraps.mpr exceeds)]
      exact ⟨-1,none,h,rfl,Or.inr ⟨rfl,rfl,rfl,Or.inr exceeds⟩⟩
    · rw [if_neg (wraps.not.mpr exceeds)]
      have room := (@alignUp_spec z poolAlign needed (by decide) (not_lt.mp exceeds)).1
      cases granted with
      | false =>
        rw [alignedAlloc_refused alignUp_dvd]
        exact ⟨-1,none,h,rfl,Or.inr ⟨rfl,rfl,rfl,Or.inl rfl⟩⟩
      | true =>
        rw [alignedAlloc_granted alignUp_dvd]
        exact ⟨0,_,_,rfl,Or.inl ⟨rfl,rfl,not_lt.mp exceeds,h.next,_,rfl,h.fresh _ (le_refl _),Function.update_self ..,
          alignUp_dvd,room⟩⟩
  · rw [if_neg whole,if_pos rfl]
    exact ⟨-1,none,h,rfl,Or.inr ⟨rfl,rfl,rfl,Or.inr (by omega)⟩⟩

/-! ## Workers that came up -/

variable {nThreads stripeMinRows : Int}

/-- The count that a pool is for. -/
theorem resolveThreads_bounds (positive : 1 ≤ n) (few : n ≤ resolveThreads nThreads height stripeMinRows) :
    ∃ pref : Nat, resolveThreads nThreads height stripeMinRows = pref ∧ n ≤ pref ∧ pref ≤ 64 := by
  obtain ⟨pref,isPref⟩ := Int.eq_ofNat_of_zero_le (show 0 ≤ resolveThreads nThreads height stripeMinRows by omega)
  have reduced := resolveThreads_eq nThreads height stripeMinRows
  rw [Filter.threadsMax] at reduced
  exact ⟨pref,isPref,by omega,by omega⟩

/-- The slots of the first `n` workers are divided as `usm_pool_finalize` divides them,
    of the `built` ones that `usm_pool_construct_worker` set up. -/
theorem finalized_slots (fresh : Nat → Worker) {built : Nat} (partly : n ≤ built) (inside : i < n) :
    Slot width height n i (repartitionStripes (constructWorkers fresh width height built) n height i) := by
  obtain ⟨wide,tall,scratch⟩ := constructWorkers_slot fresh width height (show i < built by omega)
  exact repartition_slot inside wide tall scratch

/-- However many workers come up of those that a pool is for, they divide the rows of the
    plane between them in the arithmetic of the code, and the scratch block, if there
    is one, has room for the rows of each of them and of all that were asked for. -/
theorem division_exact (z : SizeT) (width height n built : Nat) (nThreads stripeMinRows : Int) (wide : 1 ≤ width)
    (widthInt : width ≤ 2147483647) (tall : 1 ≤ height) (heightInt : height ≤ 2147483647) (positive : 1 ≤ n) (partly : n ≤ built)
    (few : n ≤ resolveThreads nThreads height stripeMinRows) (fresh : Nat → Worker) (granted : Bool) (h : Heap) :
    ∃ workers, workers = repartitionStripes (constructWorkers fresh width height built) n height ∧
      Stripes workers n height (stripeRows stripeMinRows) ∧
      (∀ i, i < n → stripeStart i n height = some ((workers i).yStart : Int) ∧
        stripeEnd i n height = some ((workers i).yEnd : Int)) ∧
      ∃ answer scratch h', allocScratch z granted h (resolveThreads nThreads height stripeMinRows) width =
          some (answer,scratch,h') ∧
        ((answer = 0 ∧ granted = true ∧ ∃ b bytes, scratch = some b ∧ h'.size b = some bytes ∧ poolAlign ∣ bytes ∧
            (scratchRows * width : Nat) * resolveThreads nThreads height stripeMinRows ≤ bytes ∧
            Slices workers n width bytes ∧ ∀ i, i < n → scratchOffset z i width = (workers i).scratch.offset) ∨
          (answer = -1 ∧ scratch = none ∧ h' = h ∧ (granted = false ∨
            z.max < (scratchRows * width : Nat) * resolveThreads nThreads height stripeMinRows + 63))) := by
  obtain ⟨pref,isPref,within,most⟩ := resolveThreads_bounds positive few
  have team : ∀ i, i < n → Slot width height n i (repartitionStripes (constructWorkers fresh width height built) n height i) :=
    fun i inside => finalized_slots fresh partly inside
  refine ⟨_,rfl,slots_stripes positive few tall team,fun i inside => ?_,?_⟩
  · rw [repartitionStripes,if_pos inside]
    exact partition_computed _ (le_trans within most) inside heightInt
  · rw [isPref]
    obtain ⟨answer,scratch,h',run,outcome⟩ := @allocScratch_exact width z pref granted h (by omega) most wide widthInt
    refine ⟨answer,scratch,h',run,?_⟩
    rcases outcome with ⟨success,grant,fits,b,bytes,block,_,size,multiple,room⟩ | ⟨failure,nothing,same,reason⟩
    · refine Or.inl ⟨success,grant,b,bytes,block,size,multiple,by exact_mod_cast room,slots_slices within room team,
        fun i inside => ?_⟩
      rw [(team i inside).scratch]
      exact scratchOffset_eq (by omega) most wide widthInt (by omega)
    · exact Or.inr ⟨failure,nothing,same,reason.imp_right fun exceeds => by exact_mod_cast exceeds⟩

/-- Two of three workers came up for a plane of 67 rows. -/
theorem division_partial : ∃ workers,
    workers = repartitionStripes (constructWorkers (fun _ => zeroed) 640 67 3) 2 67 ∧ Stripes workers 2 67 8 ∧
      ∃ bytes : Nat, 9600 ≤ bytes ∧ Slices workers 2 640 bytes := by
  obtain ⟨workers,isWorkers,stripes,_,answer,scratch,h',run,outcome⟩ :=
    division_exact size64 640 67 2 3 3 0 (by decide) (by decide) (by decide) (by decide) (by decide) (by decide) (by decide)
      (fun _ => zeroed) true vacant
  refine ⟨workers,isWorkers,stripes,?_⟩
  rcases outcome with ⟨_,_,b,bytes,_,_,_,room,slices,_⟩ | ⟨_,_,_,refused | exceeds⟩
  · exact ⟨bytes,Int.ofNat_le.mp room,slices⟩
  · exact absurd refused (by decide)
  · exact absurd exceeds (by decide)

/-! ## Pools in use -/

variable {p : Pool} {w v : World} {count : Int}

theorem run_sized {calls : List Call} (sized : Sized w.pool count) (executed : Runs.run UsmPool.step w calls = some v) :
    Sized v.pool count := by
  refine Runs.reachable_preserves (P := fun w => Sized w.pool count) (fun w c v sized stepped => ?_) sized ⟨calls,executed⟩
  obtain ⟨r,applied,rfl⟩ := step_iff.mp stepped
  exact AdaptiveFleet.apply_sized sized applied

/-- A started pool divides its plane and a block of the size that it asked for. -/
theorem sized_divided (sized : Sized p (resolveThreads nThreads p.height stripeMinRows)) (tall : 0 < p.height)
    (started : p.pool.lazyDone = true) : Stripes p.slots p.nThreads p.height (stripeRows stripeMinRows) ∧
    ∀ bytes : Nat, (scratchRows * p.width : Nat) * resolveThreads nThreads p.height stripeMinRows ≤ bytes →
      Slices p.slots p.nThreads p.width bytes := by
  obtain ⟨width,height,inv⟩ := sized.inv
  obtain ⟨low,high,_⟩ := (inv.lifecycle.up started inv.live).count
  obtain ⟨threads,team⟩ := inv.ready started
  obtain rfl := inv.wide
  obtain rfl := inv.tall
  rw [sized.preferred] at high
  rw [threads]
  obtain ⟨pref,isPref,within,_⟩ := resolveThreads_bounds low high
  refine ⟨slots_stripes low high tall team,fun bytes room => slots_slices within ?_ team⟩
  rw [isPref] at room
  exact_mod_cast room

/-- What a new pool has of its arguments. -/
theorem create_size {width height : Int} (created : create nThreads width height stripeMinRows = some p) :
    (p.height : Int) = height ∧ p.nThreadsPref = resolveThreads nThreads height stripeMinRows := by
  rw [create] at created
  split at created
  · cases created
  · rename_i possible
    cases created
    exact ⟨Int.toNat_of_nonneg (by omega),rfl⟩

/-- Whatever calls were made of a pool, once it has started its workers divide the plane
    and the scratch block that it asked for. -/
theorem created_divided {width height : Int} (created : create nThreads width height stripeMinRows = some p) {m : Bytes}
    {calls : List Call} (executed : Runs.run UsmPool.step ⟨p,m,[]⟩ calls = some w) (started : w.pool.pool.lazyDone = true) :
    Stripes w.pool.slots w.pool.nThreads p.height (stripeRows stripeMinRows) ∧
      ∀ bytes : Nat, (scratchRows * p.width : Nat) * p.nThreadsPref ≤ bytes →
        Slices w.pool.slots w.pool.nThreads p.width bytes := by
  obtain ⟨isHeight,isPref⟩ := create_size created
  obtain ⟨fresh,_,tall⟩ := create_inv created
  obtain ⟨inv,_⟩ := run_remembers fresh executed
  have sized := run_sized (AdaptiveFleet.create_sized created) executed
  rw [isPref,← isHeight,← inv.tall,← inv.wide]
  rw [← isHeight,← inv.tall] at sized
  exact sized_divided sized (lt_of_lt_of_eq tall inv.tall.symm) started

end AutoUpscale.UsmScratch
