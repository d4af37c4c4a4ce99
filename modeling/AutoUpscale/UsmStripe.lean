import AutoUpscale.UsmPool

/-!
The cells that a worker of the unsharp mask works on. A slot that is set up for a
frame (`Stripe`) writes the rows of its stripe and its scratch block (`touch`), and
reads beyond these only source rows that nobody writes (`view`): the row before the
stripe and the row after it come from copies in the scratch block when the plane is
sharpened in place.
-/
namespace AutoUpscale.UsmPool
open AutoUpscale.Rows AutoUpscale.Usm

/-- The planes of the frame are one plane, and the rows beyond the stripe are copied. -/
structure InPlace (w : Worker) : Prop where
  base : w.dst = w.src
  stride : w.dstStride = w.srcStride
  top : w.haloTop = if 0 < w.yStart then rowAt w.scratch w.width 3 else null
  bot : w.haloBot = if w.yEnd < w.height then rowAt w.scratch w.width 4 else null

/-- The planes of the frame have no pixel in common, and nothing is copied. -/
structure Separate (w : Worker) : Prop where
  apart : Disjoint (Band w.src w.srcStride w.width 0 w.height) (Band w.dst w.dstStride w.width 0 w.height)
  top : w.haloTop = null
  bot : w.haloBot = null

/-- A slot that is set up for a frame. -/
structure Stripe (w : Worker) : Prop where
  positive : 0 < w.width
  nonempty : w.yStart < w.yEnd
  inside : w.yEnd ≤ w.height
  room : w.width ≤ w.dstStride ∧ w.width ≤ w.srcStride
  dst : w.dst.block = .plane
  src : w.src.block = .plane
  scratch : w.scratch.block = .scratch
  planes : InPlace w ∨ Separate w

/-- The source rows that a worker still reads once it has written the rows above `from`. -/
structure Near (w : Worker) (start y : Nat) : Prop where
  range : y + 1 = w.yStart ∨ start ≤ y ∧ y ≤ w.yEnd
  below : y < w.height

variable {w : Worker}

theorem near_mono {start later y : Nat} (le : start ≤ later) (near : Near w later y) : Near w start y :=
  ⟨near.range.imp_right fun range => ⟨le_trans le range.1,range.2⟩,near.below⟩

/-- A row of the scratch block is not null. -/
theorem scratch_row_ne_null (stripe : Stripe w) (k : Nat) : rowAt w.scratch w.width k ≠ null := by
  intro same
  have block := congrArg Pointer.block same
  rw [rowAt_block,stripe.scratch] at block
  exact Block.noConfusion block

/-- A source row is a copy in the scratch block, or a row of the source plane that is
    in the stripe or in a plane of its own. -/
theorem srcRow_cases (stripe : Stripe w) {y : Nat} (near : Near w w.yStart y) :
    (∃ k, 3 ≤ k ∧ k < 5 ∧ srcRow w y = rowAt w.scratch w.width k) ∨
    srcRow w y = rowAt w.src w.srcStride y ∧
      ((w.yStart ≤ y ∧ y < w.yEnd ∧ w.dst = w.src ∧ w.dstStride = w.srcStride) ∨ Separate w) := by
  have nonempty := stripe.nonempty
  rcases stripe.planes with inPlace | separate
  · by_cases before : y + 1 = w.yStart
    · have top : w.haloTop = rowAt w.scratch w.width 3 := by rw [inPlace.top,if_pos (by omega)]
      refine Or.inl ⟨3,le_refl 3,by decide,?_⟩
      rw [srcRow,if_pos ⟨top ▸ scratch_row_ne_null stripe 3,before⟩,top]
    · rw [srcRow,if_neg fun both => before both.2]
      by_cases after : y = w.yEnd
      · have bot : w.haloBot = rowAt w.scratch w.width 4 := by rw [inPlace.bot,if_pos (after ▸ near.below)]
        refine Or.inl ⟨4,by decide,by decide,?_⟩
        rw [if_pos ⟨bot ▸ scratch_row_ne_null stripe 4,after⟩,bot]
      · rw [if_neg fun both => after both.2]
        have range := near.range
        exact Or.inr ⟨rfl,Or.inl ⟨by omega,by omega,inPlace.base,inPlace.stride⟩⟩
  · rw [srcRow,if_neg fun both => both.1 separate.top,if_neg fun both => both.1 separate.bot]
    exact Or.inr ⟨rfl,Or.inr separate⟩

/-- Within the stripe the source row is read from the plane itself. -/
theorem srcRow_own {y : Nat} (low : w.yStart ≤ y) (high : y < w.yEnd) : srcRow w y = rowAt w.src w.srcStride y := by
  rw [srcRow,if_neg fun both => by omega,if_neg fun both => by omega]

/-! ## Footprints -/

/-- What a worker may write: its rows of the destination and its scratch block. -/
def touch (w : Worker) : Set (Pointer Block) :=
  Band w.dst w.dstStride w.width w.yStart w.yEnd ∪ Band w.scratch w.width w.width 0 scratchRows

/-- What a worker depends on: what it may write and its source rows. -/
def view (w : Worker) : Set (Pointer Block) :=
  touch w ∪ {a | ∃ y, Near w w.yStart y ∧ a ∈ Row (srcRow w y) w.width}

/-- The source rows do not meet the three rolling rows. -/
theorem srcRow_rolling_apart (stripe : Stripe w) {y k : Nat} (near : Near w w.yStart y) (rolling : k < 3) :
    Disjoint (Row (srcRow w y) w.width) (Row (rowAt w.scratch w.width k) w.width) := by
  rcases srcRow_cases stripe near with ⟨halo,low,_,row⟩ | ⟨row,_⟩
  · rw [row]
    exact rows_apart (le_refl _) (by omega)
  · rw [row]
    refine block_apart ?_
    rw [rowAt_block,rowAt_block,stripe.src,stripe.scratch]
    exact Block.noConfusion

/-- A row of the destination meets only the source row that it replaces. -/
theorem srcRow_dst_apart (stripe : Stripe w) {y z : Nat} (near : Near w w.yStart y) (high : z < w.yEnd)
    (different : y ≠ z) :
    Disjoint (Row (srcRow w y) w.width) (Row (rowAt w.dst w.dstStride z) w.width) := by
  have inside := stripe.inside
  rcases srcRow_cases stripe near with ⟨halo,_,_,row⟩ | ⟨row,⟨_,_,base,stride⟩ | separate⟩
  · rw [row]
    refine block_apart ?_
    rw [rowAt_block,rowAt_block,stripe.scratch,stripe.dst]
    exact Block.noConfusion
  · rw [row,base,stride]
    exact rows_apart stripe.room.2 different
  · rw [row]
    exact Set.disjoint_of_subset (row_band (Nat.zero_le y) near.below) (row_band (Nat.zero_le z) (by omega)) separate.apart

theorem dst_scratch_apart (stripe : Stripe w) (y k : Nat) :
    Disjoint (Row (rowAt w.dst w.dstStride y) w.width) (Row (rowAt w.scratch w.width k) w.width) := by
  refine block_apart ?_
  rw [rowAt_block,rowAt_block,stripe.dst,stripe.scratch]
  exact Block.noConfusion

/-- Two slots of one frame: the same planes and consecutive scratch blocks, and
    stripes of which one ends before the other starts. -/
structure Neighbours (w v : Worker) (i j : Nat) : Prop where
  dst : w.dst = v.dst
  dstStride : w.dstStride = v.dstStride
  src : w.src = v.src
  srcStride : w.srcStride = v.srcStride
  width : w.width = v.width
  height : w.height = v.height
  order : w.yEnd ≤ v.yStart ∨ v.yEnd ≤ w.yStart
  blocks : w.scratch = ⟨.scratch,i * scratchRows * w.width⟩ ∧ v.scratch = ⟨.scratch,j * scratchRows * v.width⟩

/-- Row `k` of scratch block `i` is row `5 * i + k` of the whole block. -/
theorem scratch_band {width i : Nat} : Band (⟨.scratch,i * scratchRows * width⟩ : Pointer Block) width width 0 scratchRows ⊆
    Band ⟨.scratch,0⟩ width width (i * scratchRows) ((i + 1) * scratchRows) := by
  rintro a ⟨k,_,high,member⟩
  refine ⟨i * scratchRows + k,Nat.le_add_right _ _,?_,?_⟩
  · rw [Nat.succ_mul]
    omega
  · have shifted : rowAt (⟨.scratch,i * scratchRows * width⟩ : Pointer Block) width k =
        rowAt ⟨.scratch,0⟩ width (i * scratchRows + k) := by
      simp only [rowAt,Pointer.plus,Nat.add_mul,Nat.zero_add]
    rwa [← shifted]

theorem scratch_apart {width i j : Nat} (different : i ≠ j) :
    Disjoint (Band (⟨.scratch,i * scratchRows * width⟩ : Pointer Block) width width 0 scratchRows)
      (Band ⟨.scratch,j * scratchRows * width⟩ width width 0 scratchRows) := by
  refine Set.disjoint_of_subset scratch_band scratch_band (bands_apart (le_refl width) ?_)
  rcases Nat.lt_or_gt_of_ne different with less | more
  · exact Or.inl (Nat.mul_le_mul_right scratchRows less)
  · exact Or.inr (Nat.mul_le_mul_right scratchRows more)

/-- Beyond its own cells a worker depends only on the source plane, and only if that
    is not the destination. -/
theorem view_cases (stripe : Stripe w) {a : Pointer Block} (seen : a ∈ view w) :
    a ∈ touch w ∨ Separate w ∧ a ∈ Band w.src w.srcStride w.width 0 w.height := by
  rcases seen with own | ⟨y,near,member⟩
  · exact Or.inl own
  · rcases srcRow_cases stripe near with ⟨k,_,high,row⟩ | ⟨row,⟨low,high,base,stride⟩ | separate⟩
    · rw [row] at member
      exact Or.inl (Or.inr (row_band (Nat.zero_le k) high member))
    · rw [row,← base,← stride] at member
      exact Or.inl (Or.inl (row_band low high member))
    · rw [row] at member
      exact Or.inr ⟨separate,row_band (Nat.zero_le y) near.below member⟩

theorem plane_scratch : Block.plane ≠ Block.scratch := Block.noConfusion

variable {v : Worker} {i j : Nat}

theorem touch_apart (stripe : Stripe w) (stripe' : Stripe v) (neighbours : Neighbours w v i j) (different : i ≠ j) :
    Disjoint (touch w) (touch v) := by
  have rows : Disjoint (Band w.dst w.dstStride w.width w.yStart w.yEnd) (Band v.dst v.dstStride v.width v.yStart v.yEnd) := by
    rw [← neighbours.dst,← neighbours.dstStride,← neighbours.width]
    exact bands_apart stripe.room.1 neighbours.order
  have scratch : Disjoint (Band w.scratch w.width w.width 0 scratchRows) (Band v.scratch v.width v.width 0 scratchRows) := by
    rw [neighbours.blocks.1,neighbours.blocks.2,← neighbours.width]
    exact scratch_apart different
  rw [touch,touch,Set.disjoint_union_left,Set.disjoint_union_right,Set.disjoint_union_right]
  refine ⟨⟨rows,bands_block_apart ?_⟩,bands_block_apart ?_,scratch⟩
  · rw [stripe.dst,stripe'.scratch]
    exact plane_scratch
  · rw [stripe.scratch,stripe'.dst]
    exact plane_scratch.symm

/-- No worker writes what another one depends on. -/
theorem view_apart (stripe : Stripe w) (stripe' : Stripe v) (neighbours : Neighbours w v i j) (different : i ≠ j) :
    Disjoint (view w) (touch v) := by
  refine Set.disjoint_left.mpr fun a seen touched => ?_
  rcases view_cases stripe seen with own | ⟨separate,source⟩
  · exact Set.disjoint_left.mp (touch_apart stripe stripe' neighbours different) own touched
  · rcases touched with row | row
    · have apart := separate.apart
      rw [neighbours.dst,neighbours.dstStride,neighbours.height,neighbours.width] at apart
      rw [neighbours.width,neighbours.height] at source
      exact Set.disjoint_left.mp apart source (band_mono (Nat.zero_le _) stripe'.inside row)
    · refine Set.disjoint_left.mp (bands_block_apart ?_) source row
      rw [stripe.src,stripe'.scratch]
      exact plane_scratch

end AutoUpscale.UsmPool
