import Mathlib.Data.List.Induction
import Mathlib.Tactic.Common

/-!
Cutting a stream into windows of a fixed size. The elements that have come so far are
those of the complete windows and of the current one (`windows_join`); the current
window is short (`windows_current`), and the complete ones are full
(`windows_complete`), which is all there is to know of them.
-/
namespace AutoUpscale.Windows
universe u
variable {α : Type u}

/-- The complete windows, the first one first, and the current one. -/
structure Cut (α : Type u) where
  complete : List (List α)
  current : List α

/-- One more element, which may complete the current window. -/
def push (size : Nat) (c : Cut α) (x : α) : Cut α :=
  if c.current.length + 1 < size then ⟨c.complete,c.current ++ [x]⟩ else ⟨c.complete ++ [c.current ++ [x]],[]⟩

/-- The windows of the elements that have come. -/
def windows (size : Nat) (xs : List α) : Cut α := xs.foldl (push size) ⟨[],[]⟩

variable {size : Nat}

theorem windows_snoc (xs : List α) (x : α) : windows size (xs ++ [x]) = push size (windows size xs) x := by
  rw [windows,List.foldl_append]
  rfl

theorem windows_join (xs : List α) : (windows size xs).complete.flatten ++ (windows size xs).current = xs := by
  induction xs using List.reverseRecOn with
  | nil => rfl
  | append_singleton xs x ih =>
    rw [windows_snoc,push]
    split
    · rw [← List.append_assoc,ih]
    · rw [List.flatten_append,List.flatten_singleton,List.append_nil,← List.append_assoc,ih]

theorem windows_current (positive : 0 < size) (xs : List α) : (windows size xs).current.length < size := by
  induction xs using List.reverseRecOn with
  | nil => exact positive
  | append_singleton xs x ih =>
    rw [windows_snoc,push]
    split
    · rwa [List.length_append,List.length_singleton]
    · exact positive

theorem windows_complete (positive : 0 < size) (xs : List α) : ∀ w ∈ (windows size xs).complete, w.length = size := by
  induction xs using List.reverseRecOn with
  | nil => simp [windows]
  | append_singleton xs x ih =>
    have short := windows_current positive xs
    rw [windows_snoc,push]
    split
    · exact ih
    · intro w member
      obtain earlier | last := List.mem_append.mp member
      · exact ih w earlier
      · rw [List.mem_singleton.mp last,List.length_append,List.length_singleton]
        omega

end AutoUpscale.Windows
