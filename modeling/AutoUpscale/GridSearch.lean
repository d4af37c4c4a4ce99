import Mathlib.Algebra.Order.Ring.Int
import Mathlib.Tactic.Linarith

/-!
The best grid within a budget. Some numbers of rows and some numbers of columns are
valid, a grid of both has as many cells as their product, and the best one has the
most cells and then the most rows. It is unique, more of a budget never makes it
smaller, and a search row by row that keeps the better grid finds it
(`leads_better`, `leads_worse`).
-/
namespace AutoUpscale.GridSearch

/-- A valid grid within the budget. -/
structure Feasible (Rows Cols : Int → Prop) (budget r c : Int) : Prop where
  rows : 1 ≤ r
  cols : 1 ≤ c
  within : r * c ≤ budget
  validRows : Rows r
  validCols : Cols c

/-- The best grid: the most cells, and the most rows among those. -/
structure Optimal (Rows Cols : Int → Prop) (budget r c : Int) : Prop where
  feasible : Feasible Rows Cols budget r c
  most : ∀ x y, Feasible Rows Cols budget x y → x * y ≤ r * c
  tall : ∀ x y, Feasible Rows Cols budget x y → x * y = r * c → x ≤ r

variable {Rows Cols Fewer : Int → Prop} {budget larger r c x y : Int}

theorem feasible_rows_le (feasible : Feasible Rows Cols budget r c) : r ≤ budget := by
  have cells : r * 1 ≤ r * c := mul_le_mul_of_nonneg_left feasible.cols (by linarith [feasible.rows])
  linarith [feasible.within]

theorem feasible_cols_le (feasible : Feasible Rows Cols budget r c) : c ≤ budget := by
  have cells : 1 * c ≤ r * c := mul_le_mul_of_nonneg_right feasible.rows (by linarith [feasible.cols])
  linarith [feasible.within]

theorem feasible_mono (more : budget ≤ larger) (feasible : Feasible Rows Cols budget r c) : Feasible Rows Cols larger r c :=
  ⟨feasible.rows,feasible.cols,feasible.within.trans more,feasible.validRows,feasible.validCols⟩

theorem optimal_mono (more : budget ≤ larger) (left : Optimal Rows Cols budget r c) (right : Optimal Rows Cols larger x y) :
    r * c ≤ x * y :=
  right.most r c (feasible_mono more left.feasible)

/-- There are columns only where no number of rows fills the budget. -/
theorem optimal_cols (single : Cols 1) (best : Optimal Rows Cols budget r c) (tiled : 1 < c) : ¬Rows budget := by
  intro filled
  obtain ⟨rows,cols,within,_,_⟩ := best.feasible
  have positive : 1 ≤ budget := rows.trans (feasible_rows_le best.feasible)
  have full : Feasible Rows Cols budget budget 1 := ⟨positive,le_refl 1,by linarith,filled,single⟩
  have cells : budget * 1 = r * c := le_antisymm (best.most budget 1 full) (by linarith)
  have tall := best.tall budget 1 full cells
  have twice : r * 2 ≤ r * c := mul_le_mul_of_nonneg_left tiled (by linarith)
  linarith

/-- The best grid against the best one whose columns are restricted to 1. -/
theorem optimal_single (one : ∀ c, Fewer c ↔ c = 1) (single : Cols 1) (best : Optimal Rows Cols budget r c)
    (rowsOnly : Optimal Rows Fewer budget x y) : y = 1 ∧ (c = 1 → x = r) ∧ (c ≠ 1 → x * y < r * c) := by
  obtain rfl := (one y).mp rowsOnly.feasible.validCols
  have wider : Feasible Rows Cols budget x 1 :=
    ⟨rowsOnly.feasible.rows,le_refl 1,rowsOnly.feasible.within,rowsOnly.feasible.validRows,single⟩
  have most := best.most x 1 wider
  refine ⟨rfl,?_,?_⟩
  · rintro rfl
    have narrow : Feasible Rows Fewer budget r 1 :=
      ⟨best.feasible.rows,le_refl 1,best.feasible.within,best.feasible.validRows,(one 1).mpr rfl⟩
    have fewer := rowsOnly.most r 1 narrow
    linarith
  · intro tiled
    by_contra large
    have tall := best.tall x 1 wider (le_antisymm most (not_lt.mp large))
    have cols := best.feasible.cols
    have several : 2 ≤ c := by omega
    have twice : r * 2 ≤ r * c := mul_le_mul_of_nonneg_left several (by linarith [best.feasible.rows])
    linarith [best.feasible.rows,not_lt.mp large]

/-! ## The search -/

/-- A valid grid that is the best among those with at most `k` rows. -/
structure Leads (Rows Cols : Int → Prop) (budget k r c : Int) : Prop where
  feasible : Feasible Rows Cols budget r c
  ahead : ∀ x y, x ≤ k → Feasible Rows Cols budget x y → x * y < r * c ∨ x * y = r * c ∧ x ≤ r

theorem leads_start (feasible : Feasible Rows Cols budget r c) : Leads Rows Cols budget 0 r c where
  feasible := feasible
  ahead x y small other := by linarith [other.rows]

/-- Rows that are not valid change nothing. -/
theorem leads_skip {k : Int} (leads : Leads Rows Cols budget k r c) (invalid : ¬Rows (k + 1)) :
    Leads Rows Cols budget (k + 1) r c where
  feasible := leads.feasible
  ahead x y small other := by
    by_cases last : x = k + 1
    · subst last
      exact absurd other.validRows invalid
    · exact leads.ahead x y (by omega) other

/-- More rows, with the most columns that they leave, lead when they have as many
    cells. -/
theorem leads_better {k d : Int} (leads : Leads Rows Cols budget k r c) (next : Feasible Rows Cols budget (k + 1) d)
    (widest : ∀ y, Feasible Rows Cols budget (k + 1) y → y ≤ d) (better : r * c ≤ (k + 1) * d) :
    Leads Rows Cols budget (k + 1) (k + 1) d where
  feasible := next
  ahead x y small other := by
    by_cases last : x = k + 1
    · subst last
      have wide := mul_le_mul_of_nonneg_left (widest y other) (by linarith [next.rows] : 0 ≤ k + 1)
      obtain less | same := lt_or_eq_of_le wide
      · exact .inl less
      · exact .inr ⟨same,le_refl _⟩
    · have few : x ≤ k := by omega
      obtain less | ⟨same,_⟩ := leads.ahead x y few other
      · exact .inl (less.trans_le better)
      · rcases lt_or_eq_of_le better with less | equal
        · exact .inl (same ▸ less)
        · exact .inr ⟨same.trans equal,small⟩

theorem leads_worse {k d : Int} (leads : Leads Rows Cols budget k r c)
    (widest : ∀ y, Feasible Rows Cols budget (k + 1) y → y ≤ d) (positive : 0 ≤ k) (worse : (k + 1) * d < r * c) :
    Leads Rows Cols budget (k + 1) r c where
  feasible := leads.feasible
  ahead x y small other := by
    by_cases last : x = k + 1
    · subst last
      have wide := mul_le_mul_of_nonneg_left (widest y other) (by linarith : 0 ≤ k + 1)
      exact .inl (wide.trans_lt worse)
    · exact leads.ahead x y (by omega) other

/-- Who leads among all feasible numbers of rows is the best. -/
theorem leads_optimal {k : Int} (leads : Leads Rows Cols budget k r c) (all : ∀ x y, Feasible Rows Cols budget x y → x ≤ k) :
    Optimal Rows Cols budget r c where
  feasible := leads.feasible
  most x y other := by
    obtain less | ⟨same,_⟩ := leads.ahead x y (all x y other) other
    · exact le_of_lt less
    · exact le_of_eq same
  tall x y other equal := by
    obtain less | ⟨_,tall⟩ := leads.ahead x y (all x y other) other
    · exact absurd equal (ne_of_lt less)
    · exact tall

end AutoUpscale.GridSearch
