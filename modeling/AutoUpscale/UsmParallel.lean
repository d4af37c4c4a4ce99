import AutoUpscale.UsmFrame

/-!
The workers of the unsharp mask together compute the reference. Their footprints
are apart, so whatever the order of their row operations, each keeps what it keeps
of itself, and the stripes cover the plane (`sweep_reference`). Every sweep can be
carried on until all workers have finished (`sweep_completes`).
-/
namespace AutoUpscale.UsmPool
open AutoUpscale.Rows AutoUpscale.Usm AutoUpscale.Footprint
open AutoUpscale.Partition (cuts_bounds cuts_cover)

variable {n width height : Nat} {slots : Nat → Worker} {f : Frame} {m : Bytes} {schedule : List (Fin n)} {finish : Sweep n}

/-- The workers of a set frame keep to their footprints. -/
theorem sweep_confined (team : ∀ i, i < n → Slot width height n i (slots i)) (few : n ≤ height) (wide : 0 < width)
    (fits : Fits f width height) (plane : Nat → Nat → Nat) {set : Nat → Worker}
    (dressedAll : ∀ i, i < n → set i = dressed (slots i) f height) :
    Confined (fun i : Fin n => rowStep (set i)) (fun i => Sweeping (set i) plane) (fun i => view (set i))
      (fun i => touch (set i)) := by
  have stripe : ∀ i : Fin n, Stripe (set i) := by
    intro i
    rw [dressedAll i i.isLt]
    exact dressed_stripe (team i i.isLt) i.isLt few wide fits
  refine ⟨fun i c m c' m' => rowStep_keeps (stripe i),fun i c m c' m' holds stepped a => rowStep_writes holds stepped,
    fun i c m m' => sweeping_reads (stripe i),fun i j different => ?_⟩
  have numbers : (i : Nat) ≠ j := fun same => different (Fin.ext same)
  refine view_apart (stripe i) (stripe j) ?_ numbers
  rw [dressedAll i i.isLt,dressedAll j j.isLt]
  exact dressed_neighbours i.isLt j.isLt numbers (team i i.isLt) (team j j.isLt)

/-- The workers of a set frame as they start. -/
theorem sweep_starts (team : ∀ i, i < n → Slot width height n i (slots i)) (few : n ≤ height) (wide : 0 < width)
    (fits : Fits f width height) (m : Bytes) (i : Fin n) : Sweeping ((setPerFrame slots f height m n).1 i) (sourcePlane m f)
      (enter ((setPerFrame slots f height m n).1 i)) (setPerFrame slots f height m n).2 := by
  have spec := setPerFrame_spec team few wide fits m (le_refl n)
  rw [(setPerFrame_fst n i).trans (if_pos i.isLt)]
  refine enter_sweeping fun z near => ?_
  have holds := spec.source i i.isLt z near
  rwa [← (team i i.isLt).wide] at holds

/-- A sweep writes the pixels of the destination and no other pixel. -/
theorem sweep_frame (team : ∀ i, i < n → Slot width height n i (slots i)) (few : n ≤ height) (wide : 0 < width)
    (fits : Fits f width height) (executed : sweep slots f height m n schedule = some finish) {a : Pointer Block}
    (block : a.block = .plane) (outside : a ∉ Band f.dst f.dstStride width 0 height) : finish.memory a = m a := by
  have set : ∀ i, i < n → (setPerFrame slots f height m n).1 i = dressed (slots i) f height :=
    fun i inside => (setPerFrame_fst n i).trans (if_pos inside)
  have confined := sweep_confined team few wide fits (sourcePlane m f) set
  refine (run_frame confined (sweep_starts team few wide fits m) executed fun i touched => ?_).trans
    ((setPerFrame_spec team few wide fits m (le_refl n)).planes a block)
  have slot := team i i.isLt
  have below : stripeCut n height (i + 1) ≤ height := (cuts_bounds (stripeCuts height i.pos) i.isLt).2
  rcases touched with inside | ⟨_,_,_,scratch,_⟩
  · simp only [set i i.isLt,dressed,slot.wide,slot.start,slot.stop] at inside
    exact outside (band_mono (Nat.zero_le _) below inside)
  · rw [block,rowAt_block,set i i.isLt] at scratch
    exact plane_scratch (scratch.trans (congrArg Pointer.block slot.scratch))

/-- When all workers have finished, in whatever order they went, the destination is
    the sharpened source. -/
theorem sweep_reference (team : ∀ i, i < n → Slot width height n i (slots i)) (positive : 0 < n) (few : n ≤ height)
    (wide : 0 < width) (fits : Fits f width height) (executed : sweep slots f height m n schedule = some finish)
    (done : Swept finish) {x y : Nat} (column : x < width) (row : y < height) :
    bytesAt finish.memory (rowAt f.dst f.dstStride y) x = sharpened (sourcePlane m f) width height f.amountQ8 x y := by
  have set : ∀ i, i < n → (setPerFrame slots f height m n).1 i = dressed (slots i) f height :=
    fun i inside => (setPerFrame_fst n i).trans (if_pos inside)
  have confined := sweep_confined team few wide fits (sourcePlane m f) set
  have final := run_keeps confined (sweep_starts team few wide fits m) executed
  obtain ⟨i,inside,above,below⟩ := cuts_cover (stripeCuts height positive) (Nat.zero_le y) row
  have slot := team i inside
  have sweeping := final ⟨i,inside⟩
  have place := sweeping.place
  rw [done ⟨i,inside⟩] at place
  simp only [Place] at place
  have written := sweeping.progress.written y
  simp only [set i inside,dressed,slot.wide,slot.tall] at written place
  refine written ?_ ?_ x column
  · rw [slot.start]
    exact above
  · rw [place,slot.stop]
    exact below

/-! ## Completion -/

/-- The row operations that a worker has left. -/
def rowsLeft (w : Worker) (c : Cursor) : Nat :=
  match c.phase with
  | .blurUp => 2 * (w.yEnd - c.y) + 2
  | .blurMid => 2 * (w.yEnd - c.y) + 1
  | .blurDn => 2 * (w.yEnd - c.y - 1) + 2
  | .combine => 2 * (w.yEnd - c.y - 1) + 1
  | .finished => 0

theorem rowsLeft_loop (w : Worker) (y : Nat) (up mid dn : Pointer Block) :
    rowsLeft w ⟨loopPhase w y,y,up,mid,dn⟩ = 2 * (w.yEnd - y) := by
  rw [loopPhase]
  split <;> simp only [rowsLeft] <;> omega

theorem rowStep_left {w : Worker} {c c' : Cursor} {m' : Bytes} (stepped : rowStep w c m = some (c',m')) :
    rowsLeft w c' + 1 = rowsLeft w c := by
  cases phase : c.phase with
  | blurUp =>
    simp only [rowStep,phase,Option.some.injEq,Prod.mk.injEq] at stepped
    simp only [← stepped.1,rowsLeft,phase]
  | blurMid =>
    simp only [rowStep,phase,Option.some.injEq,Prod.mk.injEq] at stepped
    rw [← stepped.1,rowsLeft_loop]
    simp only [rowsLeft,phase]
  | blurDn =>
    simp only [rowStep,phase,Option.some.injEq,Prod.mk.injEq] at stepped
    simp only [← stepped.1,rowsLeft,phase]
  | combine =>
    simp only [rowStep,phase,Option.some.injEq,Prod.mk.injEq] at stepped
    rw [← stepped.1,rowsLeft_loop]
    simp only [rowsLeft,phase]
    omega
  | finished =>
    simp only [rowStep,phase] at stepped
    cases stepped

/-- From every state some order of row operations finishes all workers. -/
theorem sweep_completes (set : Nat → Worker) (s : Sweep n) :
    ∃ schedule finish, Runs.run (sweepStep set) s schedule = some finish ∧ Swept finish := by
  have nearer : ∀ (i : Fin n) (c : Cursor) (m : Bytes) (c' : Cursor) (m' : Bytes), rowStep (set i) c m = some (c',m') →
      rowsLeft (set i) c' + 1 = rowsLeft (set i) c := fun _ _ _ _ _ => rowStep_left
  have live : ∀ (i : Fin n) (c : Cursor) (m : Bytes), rowsLeft (set i) c ≠ 0 →
      ∃ c' m', rowStep (set i) c m = some (c',m') := by
    intro i c m busy
    cases phase : c.phase with
    | finished => exact absurd (by simp only [rowsLeft,phase]) busy
    | _ => exact ⟨_,_,by simp only [rowStep,phase]; rfl⟩
  obtain ⟨schedule,finish,executed,ended⟩ := run_completes nearer live s
  refine ⟨schedule,finish,executed,fun i => ?_⟩
  have none := ended i
  cases phase : (finish.cursor i).phase with
  | finished => rfl
  | _ => simp only [rowsLeft,phase] at none; omega

/-! ## The reference -/

/-- The slots of `n` workers that came up. -/
def cameUp (slots : Nat → Worker) (width height n : Nat) : Nat → Worker :=
  repartitionStripes (constructWorkers slots width height n) n height

theorem cameUp_slot (slots : Nat → Worker) (width height : Nat) {i : Nat} (inside : i < n) :
    Slot width height n i (cameUp slots width height n i) := by
  obtain ⟨wide,tall,scratch⟩ := constructWorkers_slot slots width height inside
  exact repartition_slot inside wide tall scratch

/-- The frame of an `up_usm_pool_apply` that gets as far as its workers. -/
def applyFrame (dst dstStride src srcStride : Nat) (amountQ8 : Int) : Frame :=
  ⟨⟨.plane,dst⟩,dstStride,⟨.plane,src⟩,srcStride,clampAmountQ8 amountQ8⟩

/-- However many workers came up, however their row operations interleave, in place
    or from one plane to another: when all have finished, each pixel of the
    destination is the reference's, computed from the source as it was. -/
theorem parallel_reference (wide : 1 ≤ width) (tall : 1 ≤ height) (nThreads stripeMinRows : Int) (up : 1 ≤ n)
    (resolved : (n : Int) ≤ resolveThreads nThreads height stripeMinRows) (slots : Nat → Worker) (amountQ8 : Int)
    {dst dstStride src srcStride : Nat} (room : width ≤ dstStride ∧ width ≤ srcStride)
    (aliasing : Aliasing (⟨.plane,dst⟩ : Pointer Block) dstStride ⟨.plane,src⟩ srcStride width height) (m : Bytes)
    {schedule : List (Fin n)} {finish : Sweep n}
    (executed : sweep (cameUp slots width height n) (applyFrame dst dstStride src srcStride amountQ8) height m n schedule =
      some finish) (done : Swept finish) : ∀ x y, x < width → y < height →
    bytesAt finish.memory (rowAt ⟨.plane,dst⟩ dstStride y) x =
      sharpened (fun y x => bytesAt m (rowAt ⟨.plane,src⟩ srcStride y) x) width height (clampAmountQ8 amountQ8) x y := by
  intro x y column row
  have few : n ≤ height := by
    have bound := resolveThreads_le nThreads stripeMinRows tall
    omega
  exact sweep_reference (fun i inside => cameUp_slot slots width height inside) up few wide ⟨room,rfl,rfl,aliasing⟩
    executed done column row

/-- Two workers with one row each sharpen a plane with a single bright pixel in place. -/
theorem parallel_reference_bright : ∃ schedule finish,
    sweep (cameUp (fun _ => zeroed) 2 2 2) (applyFrame 0 3 0 3 256) 2 (fun a => if a.offset = 0 then 100 else 0) 2 schedule =
      some finish ∧ Swept finish ∧ bytesAt finish.memory ⟨.plane,0⟩ 0 = 144 := by
  obtain ⟨schedule,finish,executed,done⟩ := sweep_completes
    (setPerFrame (cameUp (fun _ => zeroed) 2 2 2) (applyFrame 0 3 0 3 256) 2 (fun a => if a.offset = 0 then 100 else 0) 2).1
    (dispatched (cameUp (fun _ => zeroed) 2 2 2) (applyFrame 0 3 0 3 256) 2 (fun a => if a.offset = 0 then 100 else 0) 2)
  have pixel := parallel_reference (by decide) (by decide) 4 1 (by decide) (by decide) (fun _ => zeroed) 256 (by decide)
    (Or.inl ⟨rfl,rfl⟩) (fun a => if a.offset = 0 then 100 else 0) executed done 0 0 (by decide) (by decide)
  exact ⟨schedule,finish,executed,done,pixel.trans (by decide)⟩

end AutoUpscale.UsmPool
