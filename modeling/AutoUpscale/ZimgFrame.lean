import AutoUpscale.ZimgPlaces

/-!
A frame on the zimg backend: every worker of a plan on the planes of one dispatch. In
each interleaving of the workers the destination ends as the stripes of the source
resampled and put together, and nothing else changes, neither of the pictures nor outside
the buffers of the plan (`frame_resampled`).
-/
namespace AutoUpscale.ZimgFrame
open AutoUpscale.Footprint (State advance)
open AutoUpscale.Partition (cell_place cuts_bounds grid_unique)
open AutoUpscale.Programs AutoUpscale.Rows
open AutoUpscale.Runs (run)
open AutoUpscale.SizeType (SizeT)
open AutoUpscale.ZimgCells (Aligned Geometry Graph Plane)
open AutoUpscale.ZimgPlaces
open AutoUpscale.ZimgProcess (WorkerView)
open AutoUpscale.ZimgWorker
variable {g : Geometry} {n m : Nat}

/-! ## The frame -/

/-- The cell of a pixel of the destination. -/
def cellOf (g : Geometry) (n m : Nat) (p : Plane) (y x : Nat) : Option Nat :=
  (List.range (n * m)).find? fun i => decide ((part g n m i).low p ≤ y ∧ y < (part g n m i).high p ∧ (part g n m i).left p ≤ x ∧
    x < (part g n m i).right p)

/-- The stripes of an image, each resampled for its cell, put together. -/
def resampledFrame (resample : Graph → Image → Image) (g : Geometry) (n m : Nat) (image : Image) : Image := fun p y x =>
  match cellOf g n m p y x with
  | none => 0
  | some i => resample (worker g n m i).graph ((part g n m i).stripe image) p (y - (part g n m i).low p) (x - (part g n m i).left p)

/-- The workers of a pool as they are woken. -/
def frameStart (zimg : Library) (g : Geometry) (n m : Nat) (src dst : WorkerView) (memory : Bytes) :
    State (Fin (n * m)) (Program (Pointer Block) UInt8 Result) (Pointer Block) UInt8 :=
  ⟨memory,fun i => workerRun zimg (worker g n m i) (frameBuffers g n m src dst i)⟩

/-- The planes of a picture show an image. -/
def ShowsImage (view : WorkerView) (size : Plane → Nat × Nat) (image : Image) (memory : Bytes) : Prop :=
  ∀ p y x, y < (size p).2 → x < (size p).1 → memory ((pictureView view p).pixel x y) = image p y x

/-- The image that a picture shows. -/
def imageOf (view : WorkerView) (memory : Bytes) : Image := fun p y x => memory ((pictureView view p).pixel x y)

theorem imageOf_shown (view : WorkerView) (size : Plane → Nat × Nat) (memory : Bytes) :
    ShowsImage view size (imageOf view memory) memory := fun _ _ _ _ _ => rfl

/-- Every pixel is in the cell that is found for it. -/
theorem cellOf_found (aligned : Aligned g n m) (p : Plane) {y x : Nat} (row : y < (targetSize g p).2) (column : x < (targetSize g p).1) :
    ∃ i, i < n * m ∧ cellOf g n m p y x = some i ∧ (part g n m i).low p ≤ y ∧ y < (part g n m i).high p ∧
      (part g n m i).left p ≤ x ∧ x < (part g n m i).right p := by
  obtain ⟨i,⟨inside,⟨low,high⟩,left,right⟩,-⟩ :=
    (grid_unique (rowCut_cuts aligned p) (colCut_cuts aligned p)).2 (Nat.zero_le y) row (Nat.zero_le x) column
  cases found : cellOf g n m p y x with
  | none =>
    have nothing := List.find?_eq_none.mp found i (List.mem_range.mpr inside)
    exact absurd (decide_eq_true (⟨low,high,left,right⟩ : _ ∧ _ ∧ _ ∧ _)) nothing
  | some k =>
    have holds := List.find?_some (show List.find? _ _ = some k from found)
    exact ⟨k,List.mem_range.mp (List.mem_of_find?_eq_some found),rfl,of_decide_eq_true holds⟩

section Frame
variable {z : SizeT} {src dst : WorkerView} {zimg : Library} {resample : Graph → Image → Image} {image : Image} {memory : Bytes}
  {schedule : List (Fin (n * m))} {t : State (Fin (n * m)) (Program (Pointer Block) UInt8 Result) (Pointer Block) UInt8}

/-- What a worker leaves of its cell, by itself or among others. -/
theorem worker_meets (setting : Setting z g n m src dst) (contract : Contract zimg resample)
    (shown : ShowsImage src (sourceSize g) image memory) (i : Fin (n * m)) :
    Meets (seen (worker g n m i) (frameBuffers g n m src dst i) (part g n m i))
      (touched (worker g n m i) (frameBuffers g n m src dst i) (part g n m i))
      (Outcome (worker g n m i) (frameBuffers g n m src dst i) (part g n m i)
        (resample (worker g n m i).graph ((part g n m i).stripe image)) memory)
      (workerRun zimg (worker g n m i) (frameBuffers g n m src dst i)) memory := by
  refine workerRun_meets contract (worker_fits setting.aligned i.isLt) (worker_ready setting i.isLt) ?_
  intro p y x row column
  have below : (part g n m i).srcHigh p ≤ (sourceSize g p).2 :=
    (cuts_bounds (sourceCut_cuts setting.aligned p) (cell_place i.isLt).1).2
  rw [sourceOf_frame]
  exact shown p _ x (by omega) column

/-- What the workers leave once some of them have returned. -/
structure Left (z : SizeT) (g : Geometry) (n m : Nat) (dst : WorkerView) (result : Image) (before : Bytes)
    (t : State (Fin (n * m)) (Program (Pointer Block) UInt8 Result) (Pointer Block) UInt8) : Prop where
  /-- The cell of a worker that has succeeded. -/
  placed : ∀ i v, t.cursor i = .done v → v.result = 0 → ∀ p y x, cellOf g n m p y x = some i.val → y < (targetSize g p).2 →
    x < (targetSize g p).1 → t.memory ((pictureView dst p).pixel x y) = result p y x
  /-- The cell of one that has failed, where the library writes no picture. -/
  kept : ∀ i v, t.cursor i = .done v → v.result ≠ 0 → g.plan.dstZerocopy = false → ∀ p y x, cellOf g n m p y x = some i.val →
    y < (targetSize g p).2 → x < (targetSize g p).1 →
    t.memory ((pictureView dst p).pixel x y) = before ((pictureView dst p).pixel x y)
  /-- The pictures but for the rows of the destination, as far as they may be written. -/
  frame : ∀ a, a.block = .pictures → (∀ p, a ∉ (pictureView dst p).area 0 (reach g p) 0 (targetSize g p).2) → t.memory a = before a
  /-- What is outside the buffers that the plan asks for. -/
  outside : ∀ a, a.block ≠ .pictures → ¬Reserved z g n m a → t.memory a = before a

/-- In every interleaving of the workers of a frame. -/
theorem frame_resampled (setting : Setting z g n m src dst) (contract : Contract zimg resample)
    (shown : ShowsImage src (sourceSize g) image memory)
    (executed : run (advance step) (frameStart zimg g n m src dst memory) schedule = some t) :
    Left z g n m dst (resampledFrame resample g n m image) memory t := by
  obtain ⟨ended,frame⟩ := parallel_meets
    (fun i j different => workers_apart setting i.isLt j.isLt fun same => different (Fin.ext same))
    (worker_meets setting contract shown) executed
  have place : ∀ (i : Fin (n * m)) p y x, cellOf g n m p y x = some i.val → y < (targetSize g p).2 → x < (targetSize g p).1 →
      (part g n m i).low p ≤ y ∧ y < (part g n m i).high p ∧ (part g n m i).left p ≤ x ∧ x < (part g n m i).right p := by
    intro i p y x cell row column
    obtain ⟨k,-,found,inside⟩ := cellOf_found setting.aligned p row column
    rw [cell] at found
    obtain rfl := Option.some.inj found
    exact inside
  have target : ∀ i : Fin (n * m), targetOf (worker g n m i) (frameBuffers g n m src dst i) = pictureView dst :=
    fun i => targetOf_frame setting.tiles
  refine ⟨fun i v returned success p y x cell row column => ?_,fun i v returned failed copies p y x cell row column => ?_,
    fun a block outside => frame a fun i member => ?_,fun a block outside => frame a fun i member => ?_⟩
  · obtain ⟨low,high,left,right⟩ := place i p y x cell row column
    have pixel := (ended i v returned).placed success p y x low high left right
    rw [target i] at pixel
    rw [pixel,resampledFrame,cell]
  · obtain ⟨low,high,left,right⟩ := place i p y x cell row column
    have emitting : emits (worker g n m i) = true := by
      by_contra silent
      exact absurd ((silent_direct silent).2.symm.trans copies) (by decide)
    refine (ended i v returned).kept failed emitting _ (Set.mem_iUnion_of_mem p ?_)
    rw [targetArea,target i]
    exact mem_area low high left right
  · obtain ⟨p,inside⟩ := touched_reach setting i.isLt member block
    exact outside p inside
  · exact outside (touched_reserved setting i.isLt member block)

/-- Once all workers have succeeded the destination shows the resampled image. -/
theorem left_shows (aligned : Aligned g n m) {result : Image} (left : Left z g n m dst result memory t)
    (succeeded : ∀ i, ∃ v, t.cursor i = .done v ∧ v.result = 0) : ShowsImage dst (targetSize g) result t.memory := by
  intro p y x row column
  obtain ⟨i,inside,cell,-⟩ := cellOf_found aligned p row column
  obtain ⟨v,returned,success⟩ := succeeded ⟨i,inside⟩
  exact left.placed ⟨i,inside⟩ v returned success p y x cell row column

/-- The source stays as it was. -/
theorem left_source (setting : Setting z g n m src dst) {result : Image} (left : Left z g n m dst result memory t)
    (shown : ShowsImage src (sourceSize g) image memory) : ShowsImage src (sourceSize g) image t.memory := by
  intro p y x row column
  have block : ((pictureView src p).pixel x y).block = .pictures := by cases p <;> rfl
  have member : (pictureView src p).pixel x y ∈ sourcePlane g src p := mem_area (Nat.zero_le y) row (Nat.zero_le x) column
  rw [left.frame _ block fun q written => ?_]
  · exact shown p y x row column
  · exact Set.disjoint_left.mp (setting.pictures.apart p q) member (reach_subset setting q written)

/-- Without an error of the library a frame can be carried on to the success of all its
    workers. -/
theorem frame_succeeds (succeeds : Succeeds zimg) (g : Geometry) (n m : Nat) (src dst : WorkerView) (memory : Bytes) :
    ∃ schedule t, run (advance step) (frameStart zimg g n m src dst memory) schedule = some t ∧
      ∀ i, ∃ v, t.cursor i = .done v ∧ v.result = 0 := by
  obtain ⟨schedule,t,executed,ended⟩ := threads_complete (frameStart zimg g n m src dst memory)
  have alone : ∀ i : Fin (n * m), Meets ∅ Set.univ (fun v _ => v.result = 0)
      (workerRun zimg (worker g n m i) (frameBuffers g n m src dst i)) memory :=
    fun i => workerRun_succeeds succeeds _ _ memory
  obtain ⟨results,-⟩ := parallel_meets (fun _ _ _ => Set.empty_disjoint Set.univ) alone executed
  refine ⟨schedule,t,executed,fun i => ?_⟩
  obtain ⟨v,returned⟩ := ended i
  exact ⟨v,returned,results i v returned⟩

end Frame

end AutoUpscale.ZimgFrame
