import AutoUpscale.UsmSweep
import AutoUpscale.Partition

/-!
What the main thread prepares before the workers of the unsharp mask start. The
slots that came up split the rows between them (`Slot`, `stripeCuts`). Setting a
frame gives every slot its planes and copies the rows beyond its stripe where the
planes are one (`dressed`); after that each worker finds the original plane in all
the source rows that it is going to read (`setPerFrame_spec`).
-/
namespace AutoUpscale.UsmPool
open AutoUpscale.Rows AutoUpscale.Usm
open AutoUpscale.Partition (Cuts cuts_mono cuts_bounds cuts_cover Within)

/-! ## Stripes -/

/-- Where stripe `i` of `n` starts. -/
def stripeCut (n height i : Nat) : Nat := i * height / n

variable {n height width : Nat}

theorem stripeCuts (height : Nat) (positive : 0 < n) : Cuts (stripeCut n height) n 0 height where
  first := by rw [stripeCut,Nat.zero_mul,Nat.zero_div]
  last := by rw [stripeCut,Nat.mul_div_cancel_left height positive]
  step := fun i _ => Nat.div_le_div_right (Nat.mul_le_mul_right height (Nat.le_succ i))

/-- With at most one worker for each row no stripe is empty. -/
theorem stripeCut_lt (positive : 0 < n) (few : n ≤ height) (i : Nat) : stripeCut n height i < stripeCut n height (i + 1) := by
  have next : i * height / n + 1 = (i * height + n) / n := (Nat.add_div_right (i * height) positive).symm
  calc i * height / n < i * height / n + 1 := Nat.lt_succ_self _
    _ = (i * height + n) / n := next
    _ ≤ (i * height + height) / n := Nat.div_le_div_right (Nat.add_le_add_left few _)
    _ = (i + 1) * height / n := by rw [Nat.succ_mul]

/-- Not more workers are asked for than there are rows. -/
theorem resolveThreads_le (nThreads stripeMinRows : Int) (tall : 0 < height) :
    resolveThreads nThreads height stripeMinRows ≤ height := by
  have rows : ∀ d : Int, 0 < d → (height : Int).tdiv d ≤ height := by
    intro d positive
    rw [Int.tdiv_eq_ediv_of_nonneg (by omega)]
    exact Int.ediv_le_self _ (by omega)
  have quotient : (height : Int).tdiv (if stripeMinRows ≤ 0 then defaultStripeMinRows else stripeMinRows) ≤ height := by
    refine rows _ ?_
    split
    · decide
    · omega
  simp only [resolveThreads]
  generalize (height : Int).tdiv (if stripeMinRows ≤ 0 then defaultStripeMinRows else stripeMinRows) = rows at quotient ⊢
  split_ifs <;> omega

/-- What a slot keeps from frame to frame: its stripe, its scratch block and the
    size of the plane. -/
structure Slot (width height n i : Nat) (w : Worker) : Prop where
  wide : w.width = width
  tall : w.height = height
  scratch : w.scratch = ⟨.scratch,i * scratchRows * width⟩
  start : w.yStart = stripeCut n height i
  stop : w.yEnd = stripeCut n height (i + 1)

theorem constructWorkers_slot (slots : Nat → Worker) (width height : Nat) {i : Nat} (inside : i < n) :
    (constructWorkers slots width height n i).width = width ∧ (constructWorkers slots width height n i).height = height ∧
      (constructWorkers slots width height n i).scratch = ⟨.scratch,i * scratchRows * width⟩ := by
  induction n with
  | zero => omega
  | succ n ih =>
    simp only [constructWorkers,constructWorker]
    by_cases here : i = n
    · rw [here,Function.update_self]
      exact ⟨rfl,rfl,rfl⟩
    · rw [Function.update_of_ne here]
      exact ih (by omega)

theorem partition_stripe (w : Worker) (height : Nat) {i : Nat} (inside : i < n) : (partition w i n height).yStart = stripeCut n height i ∧
    (partition w i n height).yEnd = stripeCut n height (i + 1) := by
  refine ⟨rfl,?_⟩
  simp only [partition]
  split
  · have whole : stripeCut n height n = height := (stripeCuts height (by omega)).last
    rw [show i + 1 = n by omega,whole]
  · rfl

/-- A constructed slot is complete once the stripes are assigned. -/
theorem repartition_slot {slots : Nat → Worker} {i : Nat} (inside : i < n) (wide : (slots i).width = width)
    (tall : (slots i).height = height) (scratch : (slots i).scratch = ⟨.scratch,i * scratchRows * width⟩) :
    Slot width height n i (repartitionStripes slots n height i) := by
  obtain ⟨start,stop⟩ := partition_stripe (slots i) height inside
  simp only [repartitionStripes,if_pos inside]
  exact ⟨wide,tall,scratch,start,stop⟩

/-! ## Frames -/

/-- The planes of a frame have room for the rows and are the same or do not meet. -/
structure Fits (f : Frame) (width height : Nat) : Prop where
  room : width ≤ f.dstStride ∧ width ≤ f.srcStride
  dst : f.dst.block = .plane
  src : f.src.block = .plane
  aliasing : Aliasing f.dst f.dstStride f.src f.srcStride width height

/-- The slot that setting a frame leaves. -/
def dressed (w : Worker) (f : Frame) (height : Nat) : Worker :=
  { w with
    src := f.src
    srcStride := f.srcStride
    dst := f.dst
    dstStride := f.dstStride
    amountQ8 := f.amountQ8
    haloTop := if f.dst = f.src ∧ 0 < w.yStart then rowAt w.scratch w.width 3 else null
    haloBot := if f.dst = f.src ∧ w.yEnd < height then rowAt w.scratch w.width 4 else null }

variable {w : Worker} {f : Frame} {m : Bytes}

theorem setWorker_fst : (setWorker w f height m).1 = dressed w f height := by
  by_cases same : f.dst = f.src
  · by_cases top : 0 < w.yStart <;> by_cases bot : w.yEnd < height <;>
      simp [setWorker,snapshotHalo,dressed,rowAt,same,top,bot]
  · simp [setWorker,dressed,same]

theorem dressed_slot {i rows : Nat} (slot : Slot width height n i w) : Slot width height n i (dressed w f rows) :=
  ⟨slot.wide,slot.tall,slot.scratch,slot.start,slot.stop⟩

/-- A slot with a frame that fits is ready to be swept. -/
theorem dressed_stripe {i : Nat} (slot : Slot width height n i w) (inside : i < n) (few : n ≤ height) (wide : 0 < width)
    (fits : Fits f width height) : Stripe (dressed w f height) := by
  have positive : 0 < n := by omega
  have nonempty := stripeCut_lt positive few i
  have whole := cuts_bounds (stripeCuts height positive) (show i + 1 ≤ n from inside)
  have start := slot.start
  have stop := slot.stop
  refine {
    positive := lt_of_lt_of_eq wide slot.wide.symm
    nonempty := by simp only [dressed]; omega
    inside := by simp only [dressed,slot.tall]; omega
    room := by simp only [dressed,slot.wide]; exact fits.room
    dst := fits.dst
    src := fits.src
    scratch := by simp only [dressed,slot.scratch]
    planes := ?_ }
  by_cases same : f.dst = f.src
  · refine Or.inl ⟨same,?_,?_,?_⟩
    · rcases fits.aliasing with ⟨_,stride⟩ | apart
      · exact stride
      · have head : f.src ∈ Band f.src f.srcStride width 0 height := ⟨0,le_refl 0,by omega,by
          rw [rowAt,Nat.zero_mul,plus_zero]; exact row_head wide⟩
        have head' : f.dst ∈ Band f.dst f.dstStride width 0 height := ⟨0,le_refl 0,by omega,by
          rw [rowAt,Nat.zero_mul,plus_zero]; exact row_head wide⟩
        exact absurd (same ▸ head') (Set.disjoint_left.mp apart head)
    · simp only [dressed,same,true_and]
    · simp only [dressed,same,true_and,slot.tall]
  · refine Or.inr ⟨?_,?_,?_⟩
    · simp only [dressed,slot.wide,slot.tall]
      exact fits.aliasing.resolve_left fun both => same both.1
    · simp only [dressed,same,false_and,if_false]
    · simp only [dressed,same,false_and,if_false]

/-! ## Copies of the rows beyond a stripe -/

/-- The memory that `setWorker` leaves. -/
theorem setWorker_snd : (setWorker w f height m).2 =
    if f.dst = f.src then
      (fun m => if w.yEnd < height then copyRow m (rowAt w.scratch w.width 4) (rowAt f.src f.srcStride w.yEnd) w.width else m)
        (if 0 < w.yStart then copyRow m (rowAt w.scratch w.width 3) (rowAt f.src f.srcStride (w.yStart - 1)) w.width else m)
    else m := by
  by_cases same : f.dst = f.src
  · by_cases top : 0 < w.yStart <;> by_cases bot : w.yEnd < height <;>
      simp [setWorker,snapshotHalo,rowAt,same,top,bot]
  · simp [setWorker,same]

/-- Setting a frame writes only the scratch block. -/
theorem setWorker_frame {a : Pointer Block} (outside : a ∉ Band w.scratch w.width w.width 0 scratchRows) :
    (setWorker w f height m).2 a = m a := by
  have free : ∀ {k : Nat} {m : Bytes} {src : Pointer Block}, k < scratchRows →
      copyRow m (rowAt w.scratch w.width k) src w.width a = m a :=
    fun small => copyRow_frame fun member => outside (row_band (Nat.zero_le _) small member)
  rw [setWorker_snd]
  split
  · dsimp only
    split <;> split <;> first
      | rw [free (by decide),free (by decide)]
      | rw [free (by decide)]
      | rfl
  · rfl

variable {y : Nat} {line : Nat → Nat}

theorem copyRow_row {dst src : Pointer Block} (blocks : src.block ≠ dst.block) (holds : RowIs m src width line) :
    RowIs (copyRow m dst src width) dst width line := by
  intro x inside
  rw [bytesAt,copyRow_value (block_apart blocks) inside]
  exact holds x inside

theorem copyRow_keeps {dst src row : Pointer Block} (apart : Disjoint (Row row width) (Row dst width))
    (holds : RowIs m row width line) : RowIs (copyRow m dst src width) row width line :=
  rowIs_frame (fun _ => copyRow_frame) apart holds

/-- In place, the copy of the row above the stripe. -/
theorem setWorker_top (same : f.dst = f.src) (blocks : f.src.block ≠ w.scratch.block) (top : 0 < w.yStart)
    (holds : RowIs m (rowAt f.src f.srcStride (w.yStart - 1)) w.width line) :
    RowIs (setWorker w f height m).2 (rowAt w.scratch w.width 3) w.width line := by
  rw [setWorker_snd,if_pos same,if_pos top]
  dsimp only
  split
  · exact copyRow_keeps (rows_apart (le_refl _) (by decide)) (copyRow_row blocks holds)
  · exact copyRow_row blocks holds

/-- In place, the copy of the row below the stripe. -/
theorem setWorker_bot (same : f.dst = f.src) (blocks : f.src.block ≠ w.scratch.block) (bot : w.yEnd < height)
    (holds : RowIs m (rowAt f.src f.srcStride w.yEnd) w.width line) :
    RowIs (setWorker w f height m).2 (rowAt w.scratch w.width 4) w.width line := by
  rw [setWorker_snd,if_pos same]
  dsimp only
  rw [if_pos bot]
  refine copyRow_row blocks ?_
  split
  · exact copyRow_keeps (block_apart blocks) holds
  · exact holds

/-- The bytes of the source plane of a frame. -/
def sourcePlane (m : Bytes) (f : Frame) (y x : Nat) : Nat := bytesAt m (rowAt f.src f.srcStride y) x

/-- A worker finds the source plane in all the rows it is going to read. -/
theorem setWorker_source (stripe : Stripe (dressed w f height)) (tall : w.height = height) {plane : Nat → Nat → Nat}
    (source : ∀ y, y < height → RowIs m (rowAt f.src f.srcStride y) w.width (plane y)) (near : Near (dressed w f height) w.yStart y) :
    RowIs (setWorker w f height m).2 (srcRow (dressed w f height) y) w.width (plane y) := by
  have below : y < height := tall ▸ near.below
  have blocks : f.src.block ≠ w.scratch.block := by
    have left : f.src.block = .plane := stripe.src
    have right : w.scratch.block = .scratch := stripe.scratch
    rw [left,right]
    exact plane_scratch
  have kept : RowIs (setWorker w f height m).2 (rowAt f.src f.srcStride y) w.width (plane y) :=
    rowIs_congr (fun a member => setWorker_frame fun scratch =>
      Set.disjoint_left.mp (bands_block_apart blocks) (row_band (Nat.zero_le y) below member) scratch) (source y below)
  by_cases top : (dressed w f height).haloTop ≠ null ∧ y + 1 = w.yStart
  · have both : f.dst = f.src ∧ 0 < w.yStart := by
      by_contra none
      exact top.1 (if_neg none)
    have row : srcRow (dressed w f height) y = rowAt w.scratch w.width 3 := (if_pos top).trans (if_pos both)
    rw [row]
    refine setWorker_top both.1 blocks both.2 ?_
    rw [show w.yStart - 1 = y by omega]
    exact source y below
  · by_cases bot : (dressed w f height).haloBot ≠ null ∧ y = w.yEnd
    · have both : f.dst = f.src ∧ w.yEnd < height := by
        by_contra none
        exact bot.1 (if_neg none)
      have row : srcRow (dressed w f height) y = rowAt w.scratch w.width 4 :=
        (if_neg top).trans ((if_pos bot).trans (if_pos both))
      rw [row]
      refine setWorker_bot both.1 blocks both.2 ?_
      rw [← bot.2]
      exact source y below
    · have row : srcRow (dressed w f height) y = rowAt f.src f.srcStride y := (if_neg top).trans (if_neg bot)
      rw [row]
      exact kept

/-! ## The loop over the slots -/

theorem dressed_neighbours {v : Worker} {i j : Nat} (hi : i < n) (hj : j < n) (different : i ≠ j)
    (left : Slot width height n i w) (right : Slot width height n j v) :
    Neighbours (dressed w f height) (dressed v f height) i j where
  dst := rfl
  dstStride := rfl
  src := rfl
  srcStride := rfl
  width := left.wide.trans right.wide.symm
  height := left.tall.trans right.tall.symm
  order := by
    have cuts := stripeCuts height (show 0 < n by omega)
    simp only [dressed,left.start,left.stop,right.start,right.stop]
    rcases Nat.lt_or_gt_of_ne different with less | more
    · exact Or.inl (cuts_mono cuts less (le_of_lt hj))
    · exact Or.inr (cuts_mono cuts more (le_of_lt hi))
  blocks := ⟨by simp only [dressed,left.scratch,left.wide],by simp only [dressed,right.scratch,right.wide]⟩

variable {slots : Nat → Worker}

theorem setPerFrame_succ (k : Nat) : setPerFrame slots f height m (k + 1) =
    (Function.update (setPerFrame slots f height m k).1 k
      (setWorker ((setPerFrame slots f height m k).1 k) f height (setPerFrame slots f height m k).2).1,
    (setWorker ((setPerFrame slots f height m k).1 k) f height (setPerFrame slots f height m k).2).2) := rfl

/-- Setting the first `k` slots dresses these and no others. -/
theorem setPerFrame_fst (k i : Nat) :
    (setPerFrame slots f height m k).1 i = if i < k then dressed (slots i) f height else slots i := by
  induction k generalizing i with
  | zero => rw [if_neg (Nat.not_lt_zero i)]; rfl
  | succ k ih =>
    rw [setPerFrame_succ,ih k,if_neg (Nat.lt_irrefl k),setWorker_fst]
    by_cases here : i = k
    · rw [here,if_pos (Nat.lt_succ_self k)]
      exact Function.update_self ..
    · refine (Function.update_of_ne here ..).trans ((ih i).trans ?_)
      split <;> split <;> first | rfl | omega

/-- The memory once the first `k` slots are set: the planes are as they were, and each
    of these slots finds the source plane where it will read it. -/
structure FrameSet (slots : Nat → Worker) (f : Frame) (width height : Nat) (m : Bytes) (k : Nat) (m' : Bytes) : Prop where
  planes : ∀ a, a.block = .plane → m' a = m a
  source : ∀ i, i < k → ∀ y, Near (dressed (slots i) f height) (slots i).yStart y →
    RowIs m' (srcRow (dressed (slots i) f height) y) width (sourcePlane m f y)

theorem setPerFrame_spec (team : ∀ i, i < n → Slot width height n i (slots i)) (few : n ≤ height) (wide : 0 < width)
    (fits : Fits f width height) (m : Bytes) {k : Nat} (inside : k ≤ n) :
    FrameSet slots f width height m k (setPerFrame slots f height m k).2 := by
  induction k with
  | zero => exact ⟨fun _ _ => rfl,fun _ none => absurd none (Nat.not_lt_zero _)⟩
  | succ k ih =>
    obtain ⟨planes,source⟩ := ih (by omega)
    have slot := team k (by omega)
    have stripe := dressed_stripe slot (by omega) few wide fits
    rw [setPerFrame_succ,setPerFrame_fst k k,if_neg (Nat.lt_irrefl k)]
    generalize (setPerFrame slots f height m k).2 = m' at planes source ⊢
    have scratch : ∀ a, a ∉ touch (dressed (slots k) f height) → (setWorker (slots k) f height m').2 a = m' a :=
      fun a outside => setWorker_frame fun member => outside (Or.inr member)
    refine ⟨fun a block => ?_,fun i small y near => ?_⟩
    · refine (setWorker_frame ?_).trans (planes a block)
      rintro ⟨z,_,_,member,_⟩
      rw [block,rowAt_block,slot.scratch] at member
      exact plane_scratch member
    · by_cases here : i = k
      · subst here
        rw [← slot.wide]
        refine setWorker_source stripe slot.tall (fun z below => ?_) near
        intro x column
        rw [bytesAt,planes _ (by simpa using fits.src)]
        rfl
      · have own := team i (by omega)
        have stripe' := dressed_stripe own (by omega) few wide fits
        have apart := view_apart stripe' stripe (dressed_neighbours (by omega) (by omega) here own slot) here
        have seen : Row (srcRow (dressed (slots i) f height) y) width ⊆ view (dressed (slots i) f height) :=
          fun a member => Or.inr ⟨y,near,by simpa only [dressed,own.wide] using member⟩
        exact rowIs_congr (fun a member => scratch a (Set.disjoint_left.mp apart (seen member)))
          (source i (by omega) y near)

end AutoUpscale.UsmPool
