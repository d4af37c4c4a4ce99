import AutoUpscale.Rows

/-!
A memory that remembers which cells were read and written. Copying cells one after the
other computes what the loop over a row computes (`copyCells_memory`), reads the source
row and writes the destination row (`copyCells_accesses`). Where the rows of both
planes follow one another, copying row by row is copying the whole plane at once,
access by access (`copyBand_flat`).
-/
namespace AutoUpscale.Accesses
open AutoUpscale.Rows
universe u v
variable {κ : Type u} {β : Type v}

/-- A memory with the cells that were read and written so far, the last one first. -/
structure Accessed (κ : Type u) (β : Type v) where
  memory : Memory κ β
  reads : List (Pointer κ)
  writes : List (Pointer κ)

theorem row_zero {p a : Pointer κ} : a ∉ Row p 0 := by
  rintro ⟨_,low,high⟩
  omega

theorem band_zero {base a : Pointer κ} {stride width r : Nat} : a ∉ Band base stride width r r := by
  rintro ⟨y,low,high,_⟩
  omega

theorem row_succ {p a : Pointer κ} {left x : Nat} :
    a ∈ Row (p.plus x) (left + 1) ↔ a = p.plus x ∨ a ∈ Row (p.plus (x + 1)) left := by
  constructor
  · intro member
    obtain ⟨k,inside,rfl⟩ := mem_row_iff.mp member
    cases k with
    | zero => exact Or.inl rfl
    | succ k =>
      refine Or.inr (mem_row_iff.mpr ⟨k,by omega,?_⟩)
      rw [plus_plus,plus_plus,Nat.add_assoc,Nat.add_comm 1 k]
  · rintro (rfl | member)
    · exact row_head (Nat.succ_pos left)
    · exact row_subset (Nat.le_succ x) (by omega) member

theorem band_succ {base a : Pointer κ} {stride width r left : Nat} : a ∈ Band base stride width r (r + (left + 1)) ↔
    a ∈ Row (rowAt base stride r) width ∨ a ∈ Band base stride width (r + 1) (r + 1 + left) := by
  constructor
  · rintro ⟨y,low,high,member⟩
    by_cases here : y = r
    · exact Or.inl (here ▸ member)
    · exact Or.inr ⟨y,by omega,by omega,member⟩
  · rintro (member | member)
    · exact row_band (le_refl r) (by omega) member
    · exact band_mono (Nat.le_succ r) (by omega) member

variable [DecidableEq κ]

def copyCell (s : Accessed κ β) (dst src : Pointer κ) : Accessed κ β :=
  ⟨Function.update s.memory dst (s.memory src),src :: s.reads,dst :: s.writes⟩

/-- Copies `left` cells from cell `x` of both rows on. -/
def copyCells (s : Accessed κ β) (dst src : Pointer κ) : Nat → Nat → Accessed κ β
  | 0, _ => s
  | left + 1, x => copyCells (copyCell s (dst.plus x) (src.plus x)) dst src left (x + 1)

/-- Copies `left` rows from row `r` of both planes on. -/
def copyBand (s : Accessed κ β) (dst : Pointer κ) (dstStride : Nat) (src : Pointer κ) (srcStride width : Nat) :
    Nat → Nat → Accessed κ β
  | 0, _ => s
  | left + 1, r =>
    copyBand (copyCells s (rowAt dst dstStride r) (rowAt src srcStride r) width 0) dst dstStride src srcStride width left
      (r + 1)

variable {s : Accessed κ β} {dst src a : Pointer κ} {dstStride srcStride width left n m r x : Nat}

theorem copyCells_memory :
    (copyCells s dst src left x).memory = fill (fun m x => m (src.plus x)) dst s.memory left x := by
  induction left generalizing s x with
  | zero => rfl
  | succ left ih => exact ih

/-- What a copy of cells reads and what it writes. -/
theorem copyCells_accesses :
    (a ∈ (copyCells s dst src left x).reads ↔ a ∈ s.reads ∨ a ∈ Row (src.plus x) left) ∧
      (a ∈ (copyCells s dst src left x).writes ↔ a ∈ s.writes ∨ a ∈ Row (dst.plus x) left) := by
  induction left generalizing s x with
  | zero => exact ⟨(or_iff_left row_zero).symm,(or_iff_left row_zero).symm⟩
  | succ left ih =>
    obtain ⟨reads,writes⟩ := @ih (copyCell s (dst.plus x) (src.plus x)) (x + 1)
    rw [copyCells,reads,writes,row_succ,row_succ,copyCell,List.mem_cons,List.mem_cons]
    tauto

/-- Cells that follow one another are copied in one go. -/
theorem copyCells_add : copyCells s dst src (n + m) x = copyCells (copyCells s dst src n x) dst src m (x + n) := by
  induction n generalizing s x with
  | zero => rw [Nat.zero_add]; rfl
  | succ n ih =>
    rw [Nat.add_right_comm,copyCells,ih,copyCells,Nat.add_assoc,Nat.add_comm 1 n]

/-- The cells of a row that starts inside another one. -/
theorem copyCells_plus {k : Nat} : copyCells s (dst.plus k) (src.plus k) left x = copyCells s dst src left (k + x) := by
  induction left generalizing s x with
  | zero => rfl
  | succ left ih => rw [copyCells,copyCells,ih,plus_plus,plus_plus,Nat.add_assoc]

/-- What a copy of rows reads and what it writes. -/
theorem copyBand_accesses :
    (a ∈ (copyBand s dst dstStride src srcStride width left r).reads ↔
      a ∈ s.reads ∨ a ∈ Band src srcStride width r (r + left)) ∧
    (a ∈ (copyBand s dst dstStride src srcStride width left r).writes ↔
      a ∈ s.writes ∨ a ∈ Band dst dstStride width r (r + left)) := by
  induction left generalizing s r with
  | zero => exact ⟨(or_iff_left band_zero).symm,(or_iff_left band_zero).symm⟩
  | succ left ih =>
    obtain ⟨reads,writes⟩ := @ih (copyCells s (rowAt dst dstStride r) (rowAt src srcStride r) width 0) (r + 1)
    rw [copyBand,reads,writes,band_succ,band_succ,copyCells_accesses.1,copyCells_accesses.2,plus_zero,plus_zero,or_assoc,
      or_assoc]
    exact ⟨Iff.rfl,Iff.rfl⟩

/-- Where nothing lies between the rows, they are copied in one go. -/
theorem copyBand_flat : copyBand s dst width src width width left r = copyCells s dst src (left * width) (r * width) := by
  induction left generalizing s r with
  | zero => rw [Nat.zero_mul]; rfl
  | succ left ih =>
    have whole : (left + 1) * width = width + left * width := by rw [Nat.succ_mul,Nat.add_comm]
    rw [copyBand,ih,rowAt,rowAt,copyCells_plus,whole,copyCells_add,Nat.succ_mul,Nat.add_zero]

end AutoUpscale.Accesses
