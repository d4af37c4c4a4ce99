import AutoUpscale.ZimgWorker

/-!
A library that meets the contract of the graphs: point sampling, in which every sample of
the destination is one of the source (`pointProcess_contract`). On a picture of one colour
every filter of the library gives the same.
-/
namespace AutoUpscale.ZimgPoint
open AutoUpscale.PlaneBuffer (planes mem_planes)
open AutoUpscale.Programs AutoUpscale.Rows
open AutoUpscale.ZimgCells (Graph Plane planeShift planeShift_le shift_lt zero_shift)
open AutoUpscale.ZimgWorker

/-- The first column and the columns of a plane of the active region. -/
def activeColumns (g : Graph) (p : Plane) : Nat × Nat :=
  match g.active with
  | none => (0,(srcSize g p).1)
  | some (left,width) => ((left >>> planeShift g.subW p).toNat,(width >>> planeShift g.subW p).toNat)

/-- The sample of the source for a column and a row of the destination, kept inside the
    image. -/
def sampled (g : Graph) (p : Plane) (y x : Nat) : Nat × Nat :=
  (min ((activeColumns g p).1 + x * (activeColumns g p).2 / (dstSize g p).1) ((srcSize g p).1 - 1),
    min (y * (srcSize g p).2 / (dstSize g p).2) ((srcSize g p).2 - 1))

def pointResample (g : Graph) (image : Image) : Image := fun p y x => image p (sampled g p y x).2 (sampled g p y x).1

/-- One sample of a plane. -/
def pointSample (g : Graph) (src dst : Plane → ZimgPlane) (p : Plane) (y x : Nat) : Program (Pointer Block) UInt8 Unit := do
  let v ← .load ((rowAt (src p).data (src p).stride.toNat (sampled g p y x).2).plus (sampled g p y x).1)
  .store ((rowAt (dst p).data (dst p).stride.toNat y).plus x) v

/-- A graph that samples points. -/
def pointProcess : Library := fun g src dst _ => do
  .each (fun p => .each (fun y => .each (pointSample g src dst p y) (List.range (dstSize g p).1)) (List.range (dstSize g p).2)) planes
  pure 0

variable {g : Graph} {src dst : Plane → ZimgPlane} {tmp : Pointer Block} {image : Image} {m : Bytes}

/-- No plane of an accepted image is empty. -/
theorem srcSize_pos (wellFormed : WellFormed g) (p : Plane) : 0 < (srcSize g p).1 ∧ 0 < (srcSize g p).2 := by
  obtain ⟨⟨halvedW,halvedH⟩,⟨srcW,srcH,-,-⟩,evenW,evenH,-⟩ := wellFormed
  obtain ⟨wide,oneW⟩ := planeShift_le halvedW p
  obtain ⟨tall,oneH⟩ := planeShift_le halvedH p
  have columns := shift_lt wide srcW (fun _ => dvd_zero 2) fun one => (evenW (oneW one)).1
  have rows := shift_lt tall srcH (fun _ => dvd_zero 2) fun one => (evenH (oneH one)).1
  rw [zero_shift] at columns rows
  simp only [srcSize,planeSize]
  omega

/-- The sample is in the source, and the library reads it there. -/
theorem sampled_inside (wellFormed : WellFormed g) (p : Plane) (y x : Nat) :
    (sampled g p y x).2 < (srcSize g p).2 ∧ (sampled g p y x).1 < (srcSize g p).1 := by
  obtain ⟨columns,rows⟩ := srcSize_pos wellFormed p
  simp only [sampled]
  omega

theorem sampled_read (wellFormed : WellFormed g) (p : Plane) (y x : Nat) :
    (rowAt (src p).data (src p).stride.toNat (sampled g p y x).2).plus (sampled g p y x).1 ∈ reads g src := by
  obtain ⟨row,column⟩ := sampled_inside wellFormed p y x
  exact Set.mem_iUnion_of_mem p (mem_area (Nat.zero_le _) row (Nat.zero_le _) column)

/-- One sample, whatever is written outside. -/
theorem pointSample_meets (wellFormed : WellFormed g) (shown : Shows m src (srcSize g) image) (p : Plane) (y x : Nat) :
    Meets (reads g src ∪ {(rowAt (dst p).data (dst p).stride.toNat y).plus x}) {(rowAt (dst p).data (dst p).stride.toNat y).plus x}
      (fun _ m' => m' ((rowAt (dst p).data (dst p).stride.toNat y).plus x) = pointResample g image p y x)
      (pointSample g src dst p y x) m := by
  obtain ⟨row,column⟩ := sampled_inside wellFormed p y x
  have loaded : Meets (reads g src ∪ {(rowAt (dst p).data (dst p).stride.toNat y).plus x})
      {(rowAt (dst p).data (dst p).stride.toNat y).plus x} (fun v _ => v = pointResample g image p y x)
      (Program.load ((rowAt (src p).data (src p).stride.toNat (sampled g p y x).2).plus (sampled g p y x).1)) m :=
    meets_load (Set.mem_union_left _ (sampled_read wellFormed p y x)) fun _ _ => shown p _ _ row column
  refine meets_bind loaded ?_
  rintro v m' rfl
  refine meets_store rfl fun m1 m2 _ after => ?_
  rw [after _ (Or.inr rfl),Function.update_self]

section Planes
variable (wellFormed : WellFormed g) (laid : ∀ p, Laid (dst p) (dstSize g p)) (shown : Shows m src (srcSize g) image)
  (apart : Disjoint (reads g src) (writes g dst tmp))
include wellFormed laid shown apart

/-- A row of samples. -/
theorem pointRow_meets (p : Plane) {y : Nat} (below : y < (dstSize g p).2) :
    Meets (reads g src ∪ Row (rowAt (dst p).data (dst p).stride.toNat y) (dstSize g p).1)
      (Row (rowAt (dst p).data (dst p).stride.toNat y) (dstSize g p).1)
      (fun _ m' => ∀ x ∈ List.range (dstSize g p).1,
        m' ((rowAt (dst p).data (dst p).stride.toNat y).plus x) = pointResample g image p y x)
      (.each (pointSample g src dst p y) (List.range (dstSize g p).1)) m := by
  have written : ∀ {x}, x < (dstSize g p).1 → (rowAt (dst p).data (dst p).stride.toNat y).plus x ∈ writes g dst tmp := by
    intro x before
    have wide := (padded_le (laid p).room (laid p).stride).1
    exact Or.inr (Set.mem_iUnion_of_mem p (mem_area (Nat.zero_le _) below (Nat.zero_le _) (lt_of_lt_of_le before wide)))
  have pair : ∀ {x w}, w < (dstSize g p).1 → x ≠ w →
      Disjoint (reads g src ∪ {(rowAt (dst p).data (dst p).stride.toNat y).plus x})
        {(rowAt (dst p).data (dst p).stride.toNat y).plus w} := by
    intro x w before different
    rw [Set.disjoint_singleton_right]
    rintro (read | same)
    · exact Set.disjoint_left.mp apart read (written before)
    · exact different (plus_inj.mp same).symm
  refine meets_each (List.Pairwise.imp_of_mem ?_ List.pairwise_lt_range) (fun x _ => pointSample_meets wellFormed shown p y x)
    (fun x inside => ?_) fun x inside => ?_
  · intro x w left right less
    rw [List.mem_range] at left right
    exact ⟨pair right (by omega),pair left (by omega)⟩
  · rw [List.mem_range] at inside
    exact Set.union_subset_union_right _ (Set.singleton_subset_iff.mpr (mem_row inside))
  · rw [List.mem_range] at inside
    exact Set.singleton_subset_iff.mpr (mem_row inside)

/-- A plane of samples. -/
theorem pointPlane_meets (p : Plane) :
    Meets (reads g src ∪ (dst p).area (dstSize g p).1 (dstSize g p).2) ((dst p).area (dstSize g p).1 (dstSize g p).2)
      (fun _ m' => ∀ y ∈ List.range (dstSize g p).2, ∀ x ∈ List.range (dstSize g p).1,
        m' ((rowAt (dst p).data (dst p).stride.toNat y).plus x) = pointResample g image p y x)
      (.each (fun y => .each (pointSample g src dst p y) (List.range (dstSize g p).1)) (List.range (dstSize g p).2)) m := by
  obtain ⟨wide,room⟩ := padded_le (laid p).room (laid p).stride
  have row : ∀ {y}, y < (dstSize g p).2 → Row (rowAt (dst p).data (dst p).stride.toNat y) (dstSize g p).1 ⊆
      (dst p).area (dstSize g p).1 (dstSize g p).2 := by
    intro y below a member
    obtain ⟨x,inside,rfl⟩ := mem_row_iff.mp member
    exact mem_area (Nat.zero_le _) below (Nat.zero_le _) inside
  have written : (dst p).area (dstSize g p).1 (dstSize g p).2 ⊆ writes g dst tmp := fun a member =>
    Or.inr (Set.mem_iUnion_of_mem p (area_mono (le_refl _) wide (le_refl _) (le_refl _) member))
  have pair : ∀ {y w}, w < (dstSize g p).2 → y ≠ w →
      Disjoint (reads g src ∪ Row (rowAt (dst p).data (dst p).stride.toNat y) (dstSize g p).1)
        (Row (rowAt (dst p).data (dst p).stride.toNat w) (dstSize g p).1) := by
    intro y w below different
    rw [Set.disjoint_union_left]
    exact ⟨Set.disjoint_of_subset_right (subset_trans (row below) written) apart,rows_apart (le_trans wide room) different⟩
  refine meets_each (List.Pairwise.imp_of_mem ?_ List.pairwise_lt_range)
    (fun y inside => pointRow_meets wellFormed laid shown apart p (List.mem_range.mp inside)) (fun y inside => ?_) fun y inside => ?_
  · intro y w left right less
    rw [List.mem_range] at left right
    exact ⟨pair right (by omega),pair left (by omega)⟩
  · exact Set.union_subset_union_right _ (row (List.mem_range.mp inside))
  · exact row (List.mem_range.mp inside)

end Planes

/-- Point sampling is a library that the backend can rely on. -/
theorem pointProcess_contract : Contract pointProcess pointResample := by
  intro g src dst tmp image m wellFormed _ laid apart separate _ shown
  have area : ∀ p, (dst p).area (dstSize g p).1 (dstSize g p).2 ⊆ (dst p).area (padded (dstSize g p).1) (dstSize g p).2 :=
    fun p => area_mono (le_refl _) (padded_le (laid p).room (laid p).stride).1 (le_refl _) (le_refl _)
  have written : ∀ p, (dst p).area (dstSize g p).1 (dstSize g p).2 ⊆ writes g dst tmp := fun p a member =>
    Or.inr (Set.mem_iUnion_of_mem p (area p member))
  have pair : ∀ {p q}, p ≠ q → Disjoint (reads g src ∪ (dst p).area (dstSize g p).1 (dstSize g p).2)
      ((dst q).area (dstSize g q).1 (dstSize g q).2) := by
    intro p q different
    rw [Set.disjoint_union_left]
    exact ⟨Set.disjoint_of_subset_right (written q) apart,Set.disjoint_of_subset (area p) (area q) (separate p q different)⟩
  have all := meets_each (List.Pairwise.imp (fun different => ⟨pair different,pair different.symm⟩) planes_differ)
    (fun p _ => pointPlane_meets wellFormed laid shown apart p)
    (fun p _ => Set.union_subset_union_right (reads g src) (written p)) fun p _ => written p
  refine meets_bind all fun _ m' sampled => meets_done fun m'' same _ p y x row column => ?_
  have member : (rowAt (dst p).data (dst p).stride.toNat y).plus x ∈ (dst p).area (dstSize g p).1 (dstSize g p).2 :=
    mem_area (Nat.zero_le _) row (Nat.zero_le _) column
  rw [same _ (Or.inr (written p member))]
  exact sampled p (mem_planes p) y (List.mem_range.mpr row) x (List.mem_range.mpr column)

theorem pointProcess_succeeds : Succeeds pointProcess :=
  fun _ _ _ _ m => meets_bind (meets_any _ m) fun _ _ _ => meets_done fun _ _ => rfl

end AutoUpscale.ZimgPoint
