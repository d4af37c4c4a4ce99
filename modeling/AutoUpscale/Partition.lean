import Mathlib.Order.Monotone.Basic
import Mathlib.Algebra.Order.Group.Int
import Mathlib.Tactic.Common

/-!
Intervals between cuts. A sequence of cuts that starts at the bottom, ends at the
top and never decreases splits everything between into consecutive half-open
intervals, some of them empty; each point lies in exactly one. Two such sequences
split a rectangle into cells, which a single number counts row by row.
-/
namespace AutoUpscale.Partition
universe u
variable {α : Type u} [LinearOrder α] {f g : ℕ → α} {n m : ℕ} {low high : α}

/-- Cuts from `low` to `high` into `n` intervals. -/
structure Cuts (f : ℕ → α) (n : ℕ) (low high : α) : Prop where
  first : f 0 = low
  last : f n = high
  step : ∀ i, i < n → f i ≤ f (i + 1)

/-- The point lies in interval `i`. -/
def Within (f : ℕ → α) (i : ℕ) (x : α) : Prop := f i ≤ x ∧ x < f (i + 1)

theorem cuts_mono (cuts : Cuts f n low high) {i j : ℕ} (ordered : i ≤ j) (inside : j ≤ n) : f i ≤ f j := by
  induction j, ordered using Nat.le_induction with
  | base => exact le_refl _
  | succ j _ ih => exact le_trans (ih (by omega)) (cuts.step j (by omega))

theorem cuts_bounds (cuts : Cuts f n low high) {i : ℕ} (inside : i ≤ n) : low ≤ f i ∧ f i ≤ high := by
  rw [← cuts.first,← cuts.last]
  exact ⟨cuts_mono cuts (Nat.zero_le i) inside,cuts_mono cuts inside (le_refl n)⟩

/-- Every point between the ends lies in an interval. -/
theorem cuts_cover (cuts : Cuts f n low high) {x : α} (above : low ≤ x) (below : x < high) :
    ∃ i, i < n ∧ Within f i x := by
  have search : ∀ k, k ≤ n → x < f k → ∃ i, i < k ∧ Within f i x := by
    intro k
    induction k with
    | zero =>
      intro _ before
      rw [cuts.first] at before
      exact absurd before (not_lt.mpr above)
    | succ k ih =>
      intro inside before
      by_cases earlier : x < f k
      · obtain ⟨i,smaller,found⟩ := ih (by omega) earlier
        exact ⟨i,by omega,found⟩
      · exact ⟨k,by omega,not_lt.mp earlier,before⟩
  exact search n (le_refl n) (cuts.last ▸ below)

/-- No point lies in two intervals. -/
theorem cuts_unique (cuts : Cuts f n low high) {i j : ℕ} {x : α} (hi : i < n) (hj : j < n) (left : Within f i x)
    (right : Within f j x) : i = j := by
  have before : ∀ {i j : ℕ}, j < n → Within f i x → Within f j x → ¬ i < j := fun hj left right smaller =>
    absurd (lt_of_lt_of_le left.2 (le_trans (cuts_mono cuts smaller (le_of_lt hj)) right.1)) (lt_irrefl x)
  rcases lt_trichotomy i j with smaller | equal | greater
  · exact absurd smaller (before hj left right)
  · exact equal
  · exact absurd greater (before hi right left)

/-- Different intervals follow one another. -/
theorem cuts_apart (cuts : Cuts f n low high) {i j : ℕ} (hi : i < n) (hj : j < n) (different : i ≠ j) :
    f (i + 1) ≤ f j ∨ f (j + 1) ≤ f i := by
  rcases Nat.lt_or_gt_of_ne different with less | more
  · exact Or.inl (cuts_mono cuts less (le_of_lt hj))
  · exact Or.inr (cuts_mono cuts more (le_of_lt hi))

theorem cuts_inside (cuts : Cuts f n low high) {i : ℕ} {x : α} (hi : i < n) (within : Within f i x) :
    low ≤ x ∧ x < high :=
  ⟨le_trans (cuts_bounds cuts (le_of_lt hi)).1 within.1,lt_of_lt_of_le within.2 (cuts_bounds cuts hi).2⟩

/-- A monotone function carries cuts to cuts. -/
theorem cuts_map {β : Type*} [LinearOrder β] {r : α → β} (mono : ∀ x y, x ≤ y → r x ≤ r y) (cuts : Cuts f n low high) :
    Cuts (fun i => r (f i)) n (r low) (r high) :=
  ⟨congrArg r cuts.first,congrArg r cuts.last,fun i inside => mono _ _ (cuts.step i inside)⟩

/-- A sequence that does not decrease from the first cut to the last one, with its
    ends moved out to the bottom and the top. -/
theorem cuts_pinned {r : ℕ → α} (positive : 0 < n) (mono : ∀ i, i < n → r i ≤ r (i + 1)) (above : ∀ i, i ≤ n → low ≤ r i)
    (below : ∀ i, i ≤ n → r i ≤ high) :
    Cuts (fun i => if i = 0 then low else if i = n then high else r i) n low high := by
  refine ⟨if_pos rfl,?_,fun i inside => ?_⟩
  · show (if n = 0 then low else if n = n then high else r n) = high
    rw [if_neg (by omega),if_pos rfl]
  · show (if i = 0 then low else if i = n then high else r i) ≤
      (if i + 1 = 0 then low else if i + 1 = n then high else r (i + 1))
    rw [if_neg (Nat.succ_ne_zero i)]
    by_cases start : i = 0
    · rw [if_pos start]
      split_ifs
      · exact le_trans (above 0 (Nat.zero_le n)) (below 0 (Nat.zero_le n))
      · exact above (i + 1) inside
    · rw [if_neg start,if_neg (Nat.ne_of_lt inside)]
      split_ifs
      · exact below i (le_of_lt inside)
      · exact mono i inside

/-! ## Cells -/

/-- The cell with number `i` of a grid with `m` columns is in row `i / m` and
    column `i % m`. -/
theorem cell_place {i : ℕ} (inside : i < n * m) : i / m < n ∧ i % m < m := by
  have columns : 0 < m := by
    by_contra none
    rw [Nat.eq_zero_of_not_pos none,Nat.mul_zero] at inside
    omega
  exact ⟨Nat.div_lt_of_lt_mul (by rwa [Nat.mul_comm]),Nat.mod_lt i columns⟩

theorem cell_number {row col : ℕ} (hr : row < n) (hc : col < m) :
    row * m + col < n * m ∧ (row * m + col) / m = row ∧ (row * m + col) % m = col := by
  have columns : 0 < m := by omega
  refine ⟨?_,?_,?_⟩
  · calc row * m + col < row * m + m := by omega
      _ = (row + 1) * m := by rw [Nat.succ_mul]
      _ ≤ n * m := Nat.mul_le_mul_right m hr
  · rw [Nat.add_comm,Nat.add_mul_div_right _ _ columns,Nat.div_eq_of_lt hc,Nat.zero_add]
  · rw [Nat.add_comm,Nat.add_mul_mod_self_right,Nat.mod_eq_of_lt hc]

variable {left right top bottom : α}

/-- Every point of the rectangle lies in exactly one cell of the grid, and no cell
    reaches outside. -/
theorem grid_unique (rows : Cuts f n top bottom) (cols : Cuts g m left right) {x y : α} :
    (∀ i, i < n * m → Within f (i / m) y → Within g (i % m) x → top ≤ y ∧ y < bottom ∧ left ≤ x ∧ x < right) ∧
    (top ≤ y → y < bottom → left ≤ x → x < right →
      ∃! i, i < n * m ∧ Within f (i / m) y ∧ Within g (i % m) x) := by
  constructor
  · intro i inside row col
    obtain ⟨hr,hc⟩ := cell_place inside
    obtain ⟨y0,y1⟩ := cuts_inside rows hr row
    obtain ⟨x0,x1⟩ := cuts_inside cols hc col
    exact ⟨y0,y1,x0,x1⟩
  · intro y0 y1 x0 x1
    obtain ⟨row,hr,inRow⟩ := cuts_cover rows y0 y1
    obtain ⟨col,hc,inCol⟩ := cuts_cover cols x0 x1
    obtain ⟨number,rowOf,colOf⟩ := cell_number hr hc
    refine ⟨row * m + col,⟨number,by rwa [rowOf],by rwa [colOf]⟩,?_⟩
    rintro i ⟨inside,row',col'⟩
    obtain ⟨hr',hc'⟩ := cell_place inside
    have sameRow : i / m = row := cuts_unique rows hr' hr row' inRow
    have sameCol : i % m = col := cuts_unique cols hc' hc col' inCol
    rw [← sameRow,← sameCol,Nat.mul_comm]
    exact (Nat.div_add_mod i m).symm

end AutoUpscale.Partition
