import AutoUpscale.UsmStripe

/-!
What a worker of the unsharp mask keeps while it sweeps its stripe. The rows above
its cursor hold the sharpened plane, the source rows from the cursor on still hold
the original one (`Progress`), and the rolling rows hold the smoothed rows around
the cursor (`Sweeping`). Each row operation keeps this and stays within the
worker's footprint, so every interleaving of the workers keeps it for all of them.
-/
namespace AutoUpscale.UsmPool
open AutoUpscale.Rows AutoUpscale.Usm

/-- A row holds the bytes of a line. -/
def RowIs (m : Bytes) (row : Pointer Block) (width : Nat) (line : Nat → Nat) : Prop :=
  ∀ x, x < width → bytesAt m row x = line x

theorem rowIs_congr {m m' : Bytes} {row : Pointer Block} {width : Nat} {line : Nat → Nat}
    (same : ∀ a, a ∈ Row row width → m' a = m a) (holds : RowIs m row width line) : RowIs m' row width line := by
  intro x inside
  rw [bytesAt,same _ (mem_row inside)]
  exact holds x inside

/-- A row survives a change of a row that does not meet it. -/
theorem rowIs_frame {m m' : Bytes} {row out : Pointer Block} {width : Nat} {line : Nat → Nat}
    (frame : ∀ a, a ∉ Row out width → m' a = m a) (apart : Disjoint (Row row width) (Row out width))
    (holds : RowIs m row width line) : RowIs m' row width line :=
  rowIs_congr (fun a member => frame a (Set.disjoint_left.mp apart member)) holds

/-- The planes once the rows of the stripe above `y` are written. -/
structure Progress (w : Worker) (plane : Nat → Nat → Nat) (y : Nat) (m : Bytes) : Prop where
  source : ∀ z, Near w y z → RowIs m (srcRow w z) w.width (plane z)
  written : ∀ z, w.yStart ≤ z → z < y →
    RowIs m (rowAt w.dst w.dstStride z) w.width (fun x => sharpened plane w.width w.height w.amountQ8 x z)

/-- The rolling rows are three different rows of the scratch block. -/
structure Rolling (w : Worker) (c : Cursor) : Prop where
  up : ∃ k, k < 3 ∧ c.up = rowAt w.scratch w.width k
  mid : ∃ k, k < 3 ∧ c.mid = rowAt w.scratch w.width k
  dn : ∃ k, k < 3 ∧ c.dn = rowAt w.scratch w.width k
  upMid : Disjoint (Row c.up w.width) (Row c.mid w.width)
  midDn : Disjoint (Row c.mid w.width) (Row c.dn w.width)
  upDn : Disjoint (Row c.up w.width) (Row c.dn w.width)

/-- Where the cursor is in each phase. -/
def Place (w : Worker) (y : Nat) : Phase → Prop
  | .blurUp | .blurMid => y = w.yStart
  | .blurDn | .combine => w.yStart ≤ y ∧ y < w.yEnd
  | .finished => y = w.yEnd

/-- What a worker keeps of itself. -/
structure Sweeping (w : Worker) (plane : Nat → Nat → Nat) (c : Cursor) (m : Bytes) : Prop where
  place : Place w c.y c.phase
  rolling : Rolling w c
  progress : Progress w plane c.y m
  up : c.phase ≠ .blurUp → RowIs m c.up w.width (smooth (plane (c.y - 1)) w.width)
  mid : c.phase ≠ .blurUp → c.phase ≠ .blurMid →
    RowIs m c.mid w.width (smooth (plane (min c.y (w.height - 1))) w.width)
  dn : c.phase = .combine → RowIs m c.dn w.width (smooth (plane (min (c.y + 1) (w.height - 1))) w.width)

variable {w : Worker} {plane : Nat → Nat → Nat} {c c' : Cursor} {m m' : Bytes}

/-! ## Horizontal blurs -/

theorem blur_progress (stripe : Stripe w) {y : Nat} (low : w.yStart ≤ y) {out row : Pointer Block}
    (rolling : ∃ k, k < 3 ∧ out = rowAt w.scratch w.width k) (progress : Progress w plane y m) :
    Progress w plane y (hblurRow m out row w.width) := by
  obtain ⟨k,small,rfl⟩ := rolling
  refine ⟨fun z near => ?_,fun z above below => ?_⟩
  · exact rowIs_frame (fun a => hblurRow_frame) (srcRow_rolling_apart stripe (near_mono low near) small)
      (progress.source z near)
  · exact rowIs_frame (fun a => hblurRow_frame) (dst_scratch_apart stripe z k) (progress.written z above below)

/-- A blur leaves its rolling row with the smoothed source row. -/
theorem blur_row (stripe : Stripe w) {y z : Nat} (low : w.yStart ≤ y) (near : Near w y z) {out : Pointer Block}
    (rolling : ∃ k, k < 3 ∧ out = rowAt w.scratch w.width k) (progress : Progress w plane y m) :
    RowIs (hblurRow m out (srcRow w z) w.width) out w.width (smooth (plane z) w.width) := by
  obtain ⟨k,small,rfl⟩ := rolling
  intro x inside
  rw [hblurRow_value (srcRow_rolling_apart stripe (near_mono low near) small) inside]
  exact smooth_congr (progress.source z near) inside

theorem place_bounds (stripe : Stripe w) {y : Nat} {phase : Phase} (place : Place w y phase) :
    w.yStart ≤ y ∧ y ≤ w.yEnd := by
  have nonempty := stripe.nonempty
  cases phase <;> simp only [Place] at place <;> omega

/-- The loop goes on with the next row of the stripe or ends after the last one. -/
theorem loop_place {y : Nat} (low : w.yStart ≤ y) (high : y ≤ w.yEnd) : Place w y (loopPhase w y) := by
  rw [loopPhase]
  split
  · exact ⟨low,‹_›⟩
  · exact le_antisymm high (by omega)

theorem loop_phase_ne (w : Worker) (y : Nat) : loopPhase w y ≠ .blurUp ∧ loopPhase w y ≠ .blurMid ∧
    loopPhase w y ≠ .combine := by
  rw [loopPhase]
  split <;> exact ⟨Phase.noConfusion,Phase.noConfusion,Phase.noConfusion⟩

/-! ## Row operations -/

theorem blurUp_keeps (stripe : Stripe w) (sweeping : Sweeping w plane c m) (phase : c.phase = .blurUp)
    (stepped : rowStep w c m = some (c',m')) : Sweeping w plane c' m' := by
  have start : c.y = w.yStart := by simpa only [phase,Place] using sweeping.place
  have nonempty := stripe.nonempty
  have inside := stripe.inside
  obtain ⟨low,high⟩ := place_bounds stripe sweeping.place
  have above : (if c.y > 0 then c.y - 1 else 0) = c.y - 1 := by split <;> omega
  simp only [rowStep,phase,above,Option.some.injEq,Prod.mk.injEq] at stepped
  obtain ⟨rfl,rfl⟩ := stepped
  have near : Near w c.y (c.y - 1) := by
    refine ⟨?_,by omega⟩
    by_cases top : c.y = 0
    · exact Or.inr ⟨by omega,by omega⟩
    · exact Or.inl (by omega)
  exact {
    place := start
    rolling := ⟨sweeping.rolling.up,sweeping.rolling.mid,sweeping.rolling.dn,sweeping.rolling.upMid,
      sweeping.rolling.midDn,sweeping.rolling.upDn⟩
    progress := blur_progress stripe low sweeping.rolling.up sweeping.progress
    up := fun _ => blur_row stripe low near sweeping.rolling.up sweeping.progress
    mid := fun _ wrong => absurd rfl wrong
    dn := fun wrong => Phase.noConfusion wrong }

theorem blurMid_keeps (stripe : Stripe w) (sweeping : Sweeping w plane c m) (phase : c.phase = .blurMid)
    (stepped : rowStep w c m = some (c',m')) : Sweeping w plane c' m' := by
  have start : c.y = w.yStart := by simpa only [phase,Place] using sweeping.place
  have nonempty := stripe.nonempty
  have inside := stripe.inside
  obtain ⟨low,high⟩ := place_bounds stripe sweeping.place
  simp only [rowStep,phase,Option.some.injEq,Prod.mk.injEq] at stepped
  obtain ⟨rfl,rfl⟩ := stepped
  have near : Near w c.y c.y := ⟨Or.inr ⟨le_refl _,high⟩,by omega⟩
  have row : min c.y (w.height - 1) = c.y := by omega
  have up := sweeping.up (by rw [phase]; exact Phase.noConfusion)
  exact {
    place := loop_place low high
    rolling := ⟨sweeping.rolling.up,sweeping.rolling.mid,sweeping.rolling.dn,sweeping.rolling.upMid,
      sweeping.rolling.midDn,sweeping.rolling.upDn⟩
    progress := blur_progress stripe low sweeping.rolling.mid sweeping.progress
    up := fun _ => rowIs_frame (fun a => hblurRow_frame) sweeping.rolling.upMid up
    mid := fun _ _ => by
      rw [row]
      exact blur_row stripe low near sweeping.rolling.mid sweeping.progress
    dn := fun wrong => absurd wrong (loop_phase_ne w c.y).2.2 }

theorem blurDn_keeps (stripe : Stripe w) (sweeping : Sweeping w plane c m) (phase : c.phase = .blurDn)
    (stepped : rowStep w c m = some (c',m')) : Sweeping w plane c' m' := by
  have place : w.yStart ≤ c.y ∧ c.y < w.yEnd := by simpa only [phase,Place] using sweeping.place
  have inside := stripe.inside
  obtain ⟨low,high⟩ := place_bounds stripe sweeping.place
  have below : (if c.y < w.height - 1 then c.y + 1 else w.height - 1) = min (c.y + 1) (w.height - 1) := by
    split <;> omega
  simp only [rowStep,phase,below,Option.some.injEq,Prod.mk.injEq] at stepped
  obtain ⟨rfl,rfl⟩ := stepped
  have near : Near w c.y (min (c.y + 1) (w.height - 1)) := ⟨Or.inr ⟨by omega,by omega⟩,by omega⟩
  have up := sweeping.up (by rw [phase]; exact Phase.noConfusion)
  have mid := sweeping.mid (by rw [phase]; exact Phase.noConfusion) (by rw [phase]; exact Phase.noConfusion)
  exact {
    place := place
    rolling := ⟨sweeping.rolling.up,sweeping.rolling.mid,sweeping.rolling.dn,sweeping.rolling.upMid,
      sweeping.rolling.midDn,sweeping.rolling.upDn⟩
    progress := blur_progress stripe low sweeping.rolling.dn sweeping.progress
    up := fun _ => rowIs_frame (fun a => hblurRow_frame) sweeping.rolling.upDn up
    mid := fun _ _ => rowIs_frame (fun a => hblurRow_frame) sweeping.rolling.midDn mid
    dn := fun _ => blur_row stripe low near sweeping.rolling.dn sweeping.progress }

theorem rolling_dst_apart (stripe : Stripe w) {row : Pointer Block} (y : Nat)
    (rolling : ∃ k, k < 3 ∧ row = rowAt w.scratch w.width k) :
    Disjoint (Row row w.width) (Row (rowAt w.dst w.dstStride y) w.width) := by
  obtain ⟨k,_,rfl⟩ := rolling
  exact (dst_scratch_apart stripe y k).symm

/-- Row `y` of the source is row `y` of the destination or does not meet it. -/
theorem own_row_aliasing (stripe : Stripe w) {y : Nat} (inside : y < w.height) :
    rowAt w.src w.srcStride y = rowAt w.dst w.dstStride y ∨
      Disjoint (Row (rowAt w.src w.srcStride y) w.width) (Row (rowAt w.dst w.dstStride y) w.width) := by
  rcases stripe.planes with inPlace | separate
  · rw [inPlace.base,inPlace.stride]
    exact Or.inl rfl
  · exact Or.inr (Set.disjoint_of_subset (row_band (Nat.zero_le y) inside) (row_band (Nat.zero_le y) inside) separate.apart)

/-- The combination writes the sharpened row. -/
theorem combine_row (stripe : Stripe w) (sweeping : Sweeping w plane c m) (phase : c.phase = .combine) :
    RowIs (combineRowMode m (rowAt w.dst w.dstStride c.y) (rowAt w.src w.srcStride c.y) c.up c.mid c.dn w.width
      w.amountQ8 w.biasedRounding) (rowAt w.dst w.dstStride c.y) w.width
      (fun x => sharpened plane w.width w.height w.amountQ8 x c.y) := by
  have place : w.yStart ≤ c.y ∧ c.y < w.yEnd := by simpa only [phase,Place] using sweeping.place
  have inside := stripe.inside
  have up := sweeping.up (by rw [phase]; exact Phase.noConfusion)
  have mid := sweeping.mid (by rw [phase]; exact Phase.noConfusion) (by rw [phase]; exact Phase.noConfusion)
  have dn := sweeping.dn phase
  have source := sweeping.progress.source c.y ⟨Or.inr ⟨le_refl _,by omega⟩,by omega⟩
  rw [srcRow_own place.1 place.2] at source
  rw [show min c.y (w.height - 1) = c.y by omega] at mid
  intro x column
  have scratch : ∀ row, row = c.up ∨ row = c.mid ∨ row = c.dn →
      Disjoint (Row row w.width) (Row (rowAt w.dst w.dstStride c.y) w.width) := by
    rintro row (rfl | rfl | rfl)
    · exact rolling_dst_apart stripe c.y sweeping.rolling.up
    · exact rolling_dst_apart stripe c.y sweeping.rolling.mid
    · exact rolling_dst_apart stripe c.y sweeping.rolling.dn
  rw [combineRowMode_value (own_row_aliasing stripe (by omega)) scratch column,source x column,up x column,mid x column,
    dn x column]
  rfl

/-- What a row operation that writes only row `y` of the destination leaves of the planes. -/
theorem combine_progress (stripe : Stripe w) {y : Nat} (low : w.yStart ≤ y) (high : y < w.yEnd)
    (progress : Progress w plane y m) (frame : ∀ a, a ∉ Row (rowAt w.dst w.dstStride y) w.width → m' a = m a)
    (written : RowIs m' (rowAt w.dst w.dstStride y) w.width (fun x => sharpened plane w.width w.height w.amountQ8 x y)) :
    Progress w plane (y + 1) m' := by
  refine ⟨fun z near => ?_,fun z above below => ?_⟩
  · have different : z ≠ y := by
      rcases near.range with before | range <;> omega
    exact rowIs_frame frame (srcRow_dst_apart stripe (near_mono (by omega) near) high different)
      (progress.source z (near_mono (Nat.le_succ y) near))
  · by_cases here : z = y
    · rw [here]
      exact written
    · exact rowIs_frame frame (rows_apart stripe.room.1 here) (progress.written z above (by omega))

theorem combine_keeps (stripe : Stripe w) (sweeping : Sweeping w plane c m) (phase : c.phase = .combine)
    (stepped : rowStep w c m = some (c',m')) : Sweeping w plane c' m' := by
  have place : w.yStart ≤ c.y ∧ c.y < w.yEnd := by simpa only [phase,Place] using sweeping.place
  have inside := stripe.inside
  have mid := sweeping.mid (by rw [phase]; exact Phase.noConfusion) (by rw [phase]; exact Phase.noConfusion)
  have dn := sweeping.dn phase
  rw [show min c.y (w.height - 1) = c.y by omega] at mid
  have written := combine_row stripe sweeping phase
  simp only [rowStep,phase,Option.some.injEq,Prod.mk.injEq] at stepped
  obtain ⟨rfl,rfl⟩ := stepped
  exact {
    place := loop_place (le_trans place.1 (Nat.le_succ c.y)) place.2
    rolling := ⟨sweeping.rolling.mid,sweeping.rolling.dn,sweeping.rolling.up,sweeping.rolling.midDn,
      sweeping.rolling.upDn.symm,sweeping.rolling.upMid.symm⟩
    progress := combine_progress stripe place.1 place.2 sweeping.progress (fun _ => combineRowMode_frame) written
    up := fun _ => rowIs_frame (fun _ => combineRowMode_frame) (rolling_dst_apart stripe c.y sweeping.rolling.mid) mid
    mid := fun _ _ => rowIs_frame (fun _ => combineRowMode_frame) (rolling_dst_apart stripe c.y sweeping.rolling.dn) dn
    dn := fun wrong => absurd wrong (loop_phase_ne w (c.y + 1)).2.2 }

/-- A row operation keeps what its worker keeps of itself. -/
theorem rowStep_keeps (stripe : Stripe w) (sweeping : Sweeping w plane c m) (stepped : rowStep w c m = some (c',m')) :
    Sweeping w plane c' m' := by
  cases phase : c.phase with
  | blurUp => exact blurUp_keeps stripe sweeping phase stepped
  | blurMid => exact blurMid_keeps stripe sweeping phase stepped
  | blurDn => exact blurDn_keeps stripe sweeping phase stepped
  | combine => exact combine_keeps stripe sweeping phase stepped
  | finished =>
    simp only [rowStep,phase] at stepped
    cases stepped

theorem rolling_touched {row : Pointer Block} (rolling : ∃ k, k < 3 ∧ row = rowAt w.scratch w.width k) :
    Row row w.width ⊆ touch w := by
  obtain ⟨k,small,rfl⟩ := rolling
  exact fun a member => Or.inr (row_band (Nat.zero_le k) (lt_trans small (by decide)) member)

/-- A row operation writes only cells of its worker. -/
theorem rowStep_writes (sweeping : Sweeping w plane c m) (stepped : rowStep w c m = some (c',m')) {a : Pointer Block}
    (outside : a ∉ touch w) : m' a = m a := by
  have blurred : ∀ {out row : Pointer Block}, (∃ k, k < 3 ∧ out = rowAt w.scratch w.width k) →
      hblurRow m out row w.width a = m a :=
    fun rolling => hblurRow_frame fun member => outside (rolling_touched rolling member)
  cases phase : c.phase with
  | blurUp =>
    simp only [rowStep,phase,Option.some.injEq,Prod.mk.injEq] at stepped
    rw [← stepped.2]
    exact blurred sweeping.rolling.up
  | blurMid =>
    simp only [rowStep,phase,Option.some.injEq,Prod.mk.injEq] at stepped
    rw [← stepped.2]
    exact blurred sweeping.rolling.mid
  | blurDn =>
    simp only [rowStep,phase,Option.some.injEq,Prod.mk.injEq] at stepped
    rw [← stepped.2]
    exact blurred sweeping.rolling.dn
  | combine =>
    have place : w.yStart ≤ c.y ∧ c.y < w.yEnd := by simpa only [phase,Place] using sweeping.place
    simp only [rowStep,phase,Option.some.injEq,Prod.mk.injEq] at stepped
    rw [← stepped.2]
    exact combineRowMode_frame fun member => outside (Or.inl (row_band place.1 place.2 member))
  | finished =>
    simp only [rowStep,phase] at stepped
    cases stepped

/-- What a worker keeps depends only on the cells it views. -/
theorem sweeping_reads (stripe : Stripe w) (same : ∀ a, a ∈ view w → m' a = m a) (sweeping : Sweeping w plane c m) :
    Sweeping w plane c m' := by
  have rolled : ∀ {row : Pointer Block} {line : Nat → Nat}, (∃ k, k < 3 ∧ row = rowAt w.scratch w.width k) →
      RowIs m row w.width line → RowIs m' row w.width line :=
    fun rolling => rowIs_congr fun a member => same a (Or.inl (rolling_touched rolling member))
  obtain ⟨low,high⟩ := place_bounds stripe sweeping.place
  exact {
    place := sweeping.place
    rolling := sweeping.rolling
    progress := {
      source := fun z near => rowIs_congr (fun a member => same a (Or.inr ⟨z,near_mono low near,member⟩))
        (sweeping.progress.source z near)
      written := fun z above below => rowIs_congr
        (fun a member => same a (Or.inl (Or.inl (row_band above (lt_of_lt_of_le below high) member))))
        (sweeping.progress.written z above below) }
    up := fun ahead => rolled sweeping.rolling.up (sweeping.up ahead)
    mid := fun ahead later => rolled sweeping.rolling.mid (sweeping.mid ahead later)
    dn := fun last => rolled sweeping.rolling.dn (sweeping.dn last) }

/-- Where a worker starts, nothing is written and its source rows are as they were. -/
theorem enter_sweeping (source : ∀ y, Near w w.yStart y → RowIs m (srcRow w y) w.width (plane y)) :
    Sweeping w plane (enter w) m where
  place := rfl
  rolling := {
    up := ⟨0,by decide,by rw [rowAt,Nat.zero_mul,plus_zero]; rfl⟩
    mid := ⟨1,by decide,by rw [rowAt,Nat.one_mul]; rfl⟩
    dn := ⟨2,by decide,rfl⟩
    upMid := row_apart (Or.inl (le_refl _))
    midDn := row_apart (Or.inl (by simp only [enter,plus_offset]; omega))
    upDn := row_apart (Or.inl (by simp only [enter,plus_offset]; omega)) }
  progress := ⟨source,fun z above below => absurd below (not_lt.mpr above)⟩
  up := fun wrong => absurd rfl wrong
  mid := fun wrong => absurd rfl wrong
  dn := fun wrong => Phase.noConfusion wrong

end AutoUpscale.UsmPool
