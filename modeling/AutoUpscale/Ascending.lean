import Mathlib.Data.List.Basic
import Mathlib.Order.Lattice

/-!
Lists in strictly ascending order and what lies above a value in them. A walk from one
value to the next greater one passes every entry once (`above_split`, `above_cons`).
-/
namespace AutoUpscale.Ascending
universe u
variable {α : Type u} [LinearOrder α] {list rest : List α} {low high next : α}

/-- The entries greater than a value. -/
def above (list : List α) (low : α) : List α := list.filter (low < ·)

theorem above_nil_of_le (least : ∀ x ∈ list, x ≤ low) : above list low = [] :=
  List.filter_eq_nil_iff.mpr fun x member => by simpa using least x member

theorem above_self_of_lt (least : ∀ x ∈ list, low < x) : above list low = list :=
  List.filter_eq_self.mpr fun x member => decide_eq_true (least x member)

theorem above_ascending (ascending : list.Pairwise (· < ·)) (low : α) : (above list low).Pairwise (· < ·) := ascending.filter _

/-- The entries up to a value and those above it. -/
theorem above_split (ascending : list.Pairwise (· < ·)) (le : low ≤ high) :
    (above list low).filter (· ≤ high) ++ above list high = above list low := by
  induction list with
  | nil => rfl
  | cons x list ih =>
    obtain ⟨least,tail⟩ := List.pairwise_cons.mp ascending
    by_cases beyond : high < x
    · have all : above (x :: list) low = x :: list := above_self_of_lt fun y member => by
        rcases List.mem_cons.mp member with rfl | later
        · exact lt_of_le_of_lt le beyond
        · exact lt_trans (lt_of_le_of_lt le beyond) (least y later)
      have same : above (x :: list) high = x :: list := above_self_of_lt fun y member => by
        rcases List.mem_cons.mp member with rfl | later
        · exact beyond
        · exact lt_trans beyond (least y later)
      have none : (x :: list).filter (· ≤ high) = [] := List.filter_eq_nil_iff.mpr fun y member => by
        rcases List.mem_cons.mp member with rfl | later
        · simpa using beyond
        · simpa using lt_trans beyond (least y later)
      rw [all,same,none,List.nil_append]
    · have upper : above (x :: list) high = above list high := List.filter_cons_of_neg (by simpa using beyond)
      rw [upper]
      by_cases within : low < x
      · have lower : above (x :: list) low = x :: above list low := List.filter_cons_of_pos (by simpa using within)
        rw [lower,List.filter_cons_of_pos (by simpa using beyond),List.cons_append,ih tail]
      · have lower : above (x :: list) low = above list low := List.filter_cons_of_neg (by simpa using within)
        rw [lower,ih tail]

theorem upto_head (ascending : (next :: rest).Pairwise (· < ·)) : (next :: rest).filter (· ≤ next) = [next] := by
  have least := (List.pairwise_cons.mp ascending).1
  have none : rest.filter (· ≤ next) = [] := List.filter_eq_nil_iff.mpr fun y later => by simpa using least y later
  rw [List.filter_cons_of_pos (by simp),none]

/-- Above the next greater entry lie the other ones. -/
theorem above_cons (ascending : list.Pairwise (· < ·)) (found : above list low = next :: rest) : above list next = rest := by
  have order := above_ascending ascending low
  have member : next ∈ above list low := by rw [found]; exact List.mem_cons_self
  have greater : low < next := of_decide_eq_true (List.mem_filter.mp member).2
  have split := above_split ascending (le_of_lt greater)
  rw [found] at order split
  rw [upto_head order] at split
  exact (List.cons.inj split).2

/-- The next greater entry, unless it reaches a bound. -/
theorem find_above (ascending : list.Pairwise (· < ·)) (low high : α) :
    (above (list.filter (· < high)) low).head? = (list.find? (low < ·)).filter (· < high) := by
  induction list with
  | nil => rfl
  | cons x list ih =>
    obtain ⟨least,tail⟩ := List.pairwise_cons.mp ascending
    by_cases within : low < x
    · rw [List.find?_cons_of_pos (by simpa using within)]
      by_cases small : x < high
      · rw [List.filter_cons_of_pos (by simpa using small),above,List.filter_cons_of_pos (by simpa using within)]
        simp [Option.filter,small]
      · have none : (x :: list).filter (· < high) = [] := List.filter_eq_nil_iff.mpr fun y member => by
          rcases List.mem_cons.mp member with rfl | later
          · simpa using small
          · simpa using le_trans (not_lt.mp small) (le_of_lt (least y later))
        rw [none]
        simp [above,Option.filter,small]
    · rw [List.find?_cons_of_neg (by simpa using within),← ih tail]
      by_cases small : x < high
      · rw [List.filter_cons_of_pos (by simpa using small),above,List.filter_cons_of_neg (by simpa using within),above]
      · rw [List.filter_cons_of_neg (by simpa using small)]

end AutoUpscale.Ascending
