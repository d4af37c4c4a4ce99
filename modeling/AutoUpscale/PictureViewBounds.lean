import AutoUpscale.PictureView

/-!
The bounds of a picture view. Here `up_picture_view_init` has its output, which it
clears first and fills plane by plane (`pictureViewInit`); the views that the filter
takes are its results (`viewInit_eq`). What a view shows lies within the planes of
the picture, and every picture that is large enough has a view (`picture_view_bounds`).
-/
namespace AutoUpscale.PictureView
open AutoUpscale.Chroma
open AutoUpscale.Signed (Fits fits_int fits_uint)

/-- `up_picture_view_t` as it lies in memory. -/
structure OutView where
  plane : Nat → PlaneView
  planeCount : Nat

/-- What `memset` leaves. -/
def OutView.zero : OutView := ⟨fun _ => ⟨0,0⟩,0⟩

/-- The loop of `up_picture_view_init` over `n` planes from `i` on. -/
def fillPlanes (pic : Picture) (layout : Descriptor) (region : Region) (i : Nat) : Nat → OutView → Option OutView
  | 0, out => some out
  | n + 1, out =>
    match planeViewInit (pic.p i) (planeGeom layout region i) with
    | none => none
    | some view => fillPlanes pic layout region (i + 1) n { out with plane := Function.update out.plane i view }

/-- `up_picture_view_init` with what it leaves at its output; NULL is `none`. -/
def pictureViewInit (out : Option OutView) (pic : Option Picture) (chroma : Nat) (region : Option Region) :
    Bool × Option OutView :=
  match out with
  | none => (false,none)
  | some _ =>
    match pic,region with
    | some pic,some region =>
      if viewArgsOk pic chroma region = false then (false,some .zero)
      else match viewLayout pic chroma with
        | none => (false,some .zero)
        | some layout =>
          match fillPlanes pic layout region 0 layout.planeCount .zero with
          | none => (false,some .zero)
          | some out => (true,some { out with planeCount := layout.planeCount })
    | _,_ => (false,some .zero)

/-! ## One plane -/

/-- The groups that `n` pixels or rows need. -/
def groups (n size : Nat) : Nat := (n + size - 1) / size

/-- The first bytes of so many rows of a view lie in a row of the plane each. -/
structure Inside (plane : PlaneT) (view : PlaneView) (rows bytes : Nat) : Prop where
  pitch : view.pitch = plane.pitch
  bytes : ∃ row col, view.pixels = plane.pixels + row * plane.pitch.toNat + col ∧ ∀ r < rows, ∀ b < bytes,
    row + r < plane.lines.toNat ∧ col + b < plane.pitch.toNat ∧
    view.pixels + r * view.pitch.toNat + b = plane.pixels + ((row + r) * plane.pitch.toNat + (col + b)) ∧
    (row + r) * plane.pitch.toNat + (col + b) < plane.lines.toNat * plane.pitch.toNat

/-- A byte of a row is a byte of the plane. -/
theorem row_byte {row rows col pitch : Nat} (inside : row < rows) (fits : col < pitch) : row * pitch + col < rows * pitch := by
  calc row * pitch + col < row * pitch + pitch := by omega
    _ = (row + 1) * pitch := by rw [Nat.add_mul,Nat.one_mul]
    _ ≤ rows * pitch := Nat.mul_le_mul_right _ inside

/-- The groups before an offset and those of a length are within those up to its end. -/
theorem groups_add (offset n : Nat) {size : Nat} (positive : 0 < size) :
    offset / size + groups n size ≤ groups (offset + n) size := by
  have apart : offset / size + (n + size - 1) / size ≤ (offset + (n + size - 1)) / size := Nat.div_add_div_le_add_div
  have together : offset + (n + size - 1) = offset + n + size - 1 := by omega
  rwa [together] at apart

theorem groups_mono (size : Nat) {m n : Nat} (smaller : m ≤ n) : groups m size ≤ groups n size :=
  Nat.div_le_div_right (by omega)

theorem groups_pos {n size : Nat} (some : 0 < n) (positive : 0 < size) : 0 < groups n size :=
  Nat.div_pos (by omega) positive

/-- The group in which an offset lies is at most the end of what follows it. -/
theorem offset_le_groups (offset n size : Nat) (positive : 0 < size) : offset / size ≤ groups (offset + n) size :=
  Nat.div_le_div_right (by omega)

variable {pic : Picture} {layout : Descriptor} {region : Region} {i : Nat}

/-- What a plane has to have for a view of it. -/
structure PlaneHolds (plane : PlaneT) (layout : Descriptor) (region : Region) (i : Nat) : Prop where
  pixels : plane.pixels ≠ 0
  pixelPitch : plane.pixelPitch = layout.pixelPitch.getD i 0
  pitchPos : 0 < plane.pitch
  linesPos : 0 < plane.lines
  pitch : groups (region.xOffset + region.width.toNat) (layout.xGroupPixels.getD i 0) * layout.xGroupBytes.getD i 0 ≤
    plane.pitch.toNat
  lines : groups (region.yOffset + region.height.toNat) (layout.yGroupPixels.getD i 0) ≤ plane.lines.toNat

/-- Where a plane has its first byte of a view. -/
def planeView (plane : PlaneT) (layout : Descriptor) (region : Region) (i : Nat) : PlaneView :=
  ⟨plane.pixels + region.yOffset / layout.yGroupPixels.getD i 0 * plane.pitch.toNat +
    region.xOffset / layout.xGroupPixels.getD i 0 * layout.xGroupBytes.getD i 0,plane.pitch⟩

theorem planeStorageOk_iff (plane : PlaneT) (pixelPitch : Int) : planeStorageOk plane pixelPitch = true ↔
    plane.pixels ≠ 0 ∧ 0 < plane.pitch ∧ 0 < plane.lines ∧ plane.pixelPitch = pixelPitch := by
  rw [planeStorageOk]
  by_cases bad : plane.pixels = 0 ∨ plane.pitch ≤ 0 ∨ plane.lines ≤ 0
  · rw [if_pos bad]
    simp only [Bool.false_eq_true,false_iff]
    omega
  · rw [if_neg bad,decide_eq_true_eq]
    omega

theorem planeExtentOk_iff (plane : PlaneT) (extent : PlaneExtent) : planeExtentOk plane extent = true ↔
    (extent.xBytes + extent.rowBytes : Int) ≤ plane.pitch ∧ (extent.y + extent.height : Int) ≤ plane.lines ∧
    (extent.width : Int) ≤ intMax ∧ (extent.height : Int) ≤ intMax ∧ (extent.rowBytes : Int) ≤ intMax := by
  rw [planeExtentOk]
  split_ifs
  · rw [false_iff]
    omega
  · rw [false_iff]
    omega
  · rw [false_iff]
    omega
  · rw [false_iff]
    omega
  · simp only [Bool.and_eq_true,decide_eq_true_eq]
    omega

/-- What is before a view in a plane and the view itself together reach up to the
    groups of its end. -/
theorem planeExtent_split (member : layout ∈ descriptors) (region : Region) (inside : i < layout.planeCount) :
    ∃ extent, planeExtent (planeGeom layout region i) = extent ∧
      extent.y = region.yOffset / layout.yGroupPixels.getD i 0 ∧
      extent.xBytes = region.xOffset / layout.xGroupPixels.getD i 0 * layout.xGroupBytes.getD i 0 ∧
      extent.xBytes + extent.rowBytes =
        groups (region.xOffset + region.width.toNat) (layout.xGroupPixels.getD i 0) * layout.xGroupBytes.getD i 0 ∧
      extent.y + extent.height = groups (region.yOffset + region.height.toNat) (layout.yGroupPixels.getD i 0) ∧
      extent.width ≤ extent.rowBytes := by
  obtain ⟨xPixels,_,yPixels,_,_⟩ := descriptors_ok member inside
  obtain ⟨count,isCount,shape⟩ := planeExtent_eq member region inside
  refine ⟨_,shape,rfl,rfl,?_,?_,Nat.div_le_self _ _⟩
  · rw [← Nat.add_mul,isCount]
    exact congrArg (· * _) (Nat.add_sub_of_le (offset_le_groups region.xOffset region.width.toNat _ xPixels))
  · exact Nat.add_sub_of_le (offset_le_groups region.yOffset region.height.toNat _ yPixels)

/-- A view that is made is that of a plane that holds it. -/
theorem planeViewInit_some {plane : PlaneT} {view : PlaneView} (member : layout ∈ descriptors) (inside : i < layout.planeCount)
    (found : planeViewInit plane (planeGeom layout region i) = some view) :
    PlaneHolds plane layout region i ∧ view = planeView plane layout region i := by
  obtain ⟨extent,shape,first,before,across,down,_⟩ := planeExtent_split member region inside
  rw [planeViewInit,shape] at found
  by_cases storage : planeStorageOk plane (planeGeom layout region i).pixelPitch = false
  · rw [if_pos storage] at found
    cases found
  rw [if_neg storage] at found
  by_cases large : planeExtentOk plane extent = false
  · rw [if_pos large] at found
    cases found
  rw [if_neg large] at found
  obtain ⟨pixels,pitchPos,linesPos,pixelPitch⟩ := (planeStorageOk_iff _ _).mp (eq_true_of_ne_false storage)
  obtain ⟨wide,high,_⟩ := (planeExtentOk_iff _ _).mp (eq_true_of_ne_false large)
  dsimp only at found
  split_ifs at found
  refine ⟨⟨pixels,pixelPitch,pitchPos,linesPos,by omega,by omega⟩,?_⟩
  rw [planeView,← first,← before]
  exact (Option.some.inj found).symm

/-- A plane that holds a view has one, if its sizes are those of an `int`. -/
theorem planeViewInit_holds {plane : PlaneT} (member : layout ∈ descriptors) (inside : i < layout.planeCount)
    (pitchInt : plane.pitch ≤ intMax) (linesInt : plane.lines ≤ intMax) (holds : PlaneHolds plane layout region i) :
    planeViewInit plane (planeGeom layout region i) = some (planeView plane layout region i) := by
  obtain ⟨extent,shape,first,before,across,down,narrow⟩ := planeExtent_split member region inside
  obtain ⟨pixels,pixelPitch,pitchPos,linesPos,wide,high⟩ := holds
  have storage := (planeStorageOk_iff plane (planeGeom layout region i).pixelPitch).mpr ⟨pixels,pitchPos,linesPos,pixelPitch⟩
  have large := (planeExtentOk_iff plane extent).mpr ⟨by omega,by omega,by omega,by omega,by omega⟩
  rw [planeViewInit,shape,if_neg (by simp [storage]),if_neg (by simp [large])]
  simp only [intMax] at pitchInt linesInt
  -- The plane has far fewer bytes than a size can count.
  have rows : extent.y * plane.pitch.toNat ≤ 2147483647 * 2147483647 := Nat.mul_le_mul (by omega) (by omega)
  have room : ¬ extent.y * plane.pitch.toNat > sizeMax - extent.xBytes := by
    simp only [sizeMax]
    omega
  rw [planeView,← first,← before]
  exact if_neg room

/-- The bytes of a view that a plane holds. -/
theorem planeView_inside {plane : PlaneT} (member : layout ∈ descriptors) (inside : i < layout.planeCount)
    (holds : PlaneHolds plane layout region i) :
    Inside plane (planeView plane layout region i) (groups region.height.toNat (layout.yGroupPixels.getD i 0))
      (groups region.width.toNat (layout.xGroupPixels.getD i 0) * layout.xGroupBytes.getD i 0) := by
  obtain ⟨xPixels,_,yPixels,_,_⟩ := descriptors_ok member inside
  refine ⟨rfl,_,_,rfl,fun r row b byte => ?_⟩
  have across := Nat.mul_le_mul_right (layout.xGroupBytes.getD i 0) (groups_add region.xOffset region.width.toNat xPixels)
  have down := groups_add region.yOffset region.height.toNat yPixels
  have lower : region.yOffset / layout.yGroupPixels.getD i 0 + r < plane.lines.toNat :=
    Nat.lt_of_lt_of_le (Nat.add_lt_add_left row _) (Nat.le_trans down holds.lines)
  have inner : region.xOffset / layout.xGroupPixels.getD i 0 * layout.xGroupBytes.getD i 0 + b < plane.pitch.toNat := by
    rw [Nat.add_mul] at across
    exact Nat.lt_of_lt_of_le (Nat.add_lt_add_left byte _) (Nat.le_trans across holds.pitch)
  refine ⟨lower,inner,?_,row_byte lower inner⟩
  simp only [planeView,Nat.add_mul]
  omega

/-! ## All planes -/

/-- The loop over the planes: each gets its view, or one of them has none. -/
theorem fillPlanes_cases (pic : Picture) (layout : Descriptor) (region : Region) (n i : Nat) (out : OutView) :
    (∃ filled, fillPlanes pic layout region i n out = some filled ∧
      (∀ j, i ≤ j → j < i + n → planeViewInit (pic.p j) (planeGeom layout region j) = some (filled.plane j)) ∧
      (∀ j, j < i → filled.plane j = out.plane j)) ∨
    fillPlanes pic layout region i n out = none ∧
      ∃ j, j < i + n ∧ planeViewInit (pic.p j) (planeGeom layout region j) = none := by
  induction n generalizing i out with
  | zero => exact .inl ⟨out,rfl,fun j low high => by omega,fun j _ => rfl⟩
  | succ n ih =>
    rw [fillPlanes]
    cases found : planeViewInit (pic.p i) (planeGeom layout region i) with
    | none => exact .inr ⟨rfl,i,by omega,found⟩
    | some view =>
      obtain ⟨filled,value,views,before⟩ | ⟨value,j,inside,missing⟩ :=
        ih (i + 1) { out with plane := Function.update out.plane i view }
      · refine .inl ⟨filled,value,fun j low high => ?_,fun j low => ?_⟩
        · by_cases first : j = i
          · rw [first,found,before i (by omega)]
            exact congrArg some (Function.update_self i view out.plane).symm
          · exact views j (by omega) (by omega)
        · rw [before j (by omega)]
          exact Function.update_of_ne (show j ≠ i by omega) view out.plane
      · exact .inr ⟨value,j,by omega,missing⟩

/-- The call fills every plane of its output, or clears it because some check fails. -/
theorem pictureViewInit_cases (before : OutView) (pic : Option Picture) (chroma : Nat) (region : Option Region) :
    (∃ p r layout out, pic = some p ∧ region = some r ∧ viewArgsOk p chroma r = true ∧ viewLayout p chroma = some layout ∧
      pictureViewInit (some before) pic chroma region = (true,some out) ∧ out.planeCount = layout.planeCount ∧
      ∀ i, i < layout.planeCount → planeViewInit (p.p i) (planeGeom layout r i) = some (out.plane i)) ∨
    pictureViewInit (some before) pic chroma region = (false,some .zero) ∧
      ∀ p r layout, pic = some p → region = some r → viewArgsOk p chroma r = true → viewLayout p chroma = some layout →
        ∃ i, i < layout.planeCount ∧ planeViewInit (p.p i) (planeGeom layout r i) = none := by
  cases pic with
  | none => exact .inr ⟨rfl,fun p r layout isPic => by cases isPic⟩
  | some p =>
    cases region with
    | none => exact .inr ⟨rfl,fun p r layout _ isRegion => by cases isRegion⟩
    | some r =>
      by_cases args : viewArgsOk p chroma r = false
      · refine .inr ⟨by simp [pictureViewInit,args],?_⟩
        rintro p r layout ⟨⟩ ⟨⟩ ok
        simp [args] at ok
      have args := eq_true_of_ne_false args
      cases known : viewLayout p chroma with
      | none =>
        refine .inr ⟨by simp [pictureViewInit,args,known],?_⟩
        rintro p r layout ⟨⟩ ⟨⟩ - found
        simp [known] at found
      | some layout =>
        obtain ⟨filled,value,views,_⟩ | ⟨value,j,inside,missing⟩ := fillPlanes_cases p layout r layout.planeCount 0 .zero
        · refine .inl ⟨p,r,layout,{ filled with planeCount := layout.planeCount },rfl,rfl,args,known,?_,rfl,fun i inside => ?_⟩
          · simp [pictureViewInit,args,known,value]
          · exact views i (Nat.zero_le i) (by omega)
        · refine .inr ⟨by simp [pictureViewInit,args,known,value],?_⟩
          rintro p r other ⟨⟩ ⟨⟩ - found
          cases known.symm.trans found
          exact ⟨j,by omega,missing⟩

theorem viewLayout_iff (pic : Picture) (chroma : Nat) (layout : Descriptor) : viewLayout pic chroma = some layout ↔
    descriptor chroma = some layout ∧ (layout.planeCount : Int) ≤ pic.planes := by
  rw [viewLayout]
  cases found : descriptor chroma with
  | none => simp
  | some known =>
    simp only [Option.some.injEq]
    by_cases few : pic.planes < known.planeCount
    · rw [if_pos few]
      simp only [reduceCtorEq,false_iff]
      rintro ⟨rfl,enough⟩
      omega
    · rw [if_neg few,Option.some.injEq]
      constructor
      · rintro rfl
        exact ⟨rfl,by omega⟩
      · rintro ⟨same,_⟩
        exact same

theorem mapM_some {α β : Type} {f : α → Option β} {g : α → β} {l : List α} (each : ∀ a ∈ l, f a = some (g a)) :
    l.mapM f = some (l.map g) := by
  induction l with
  | nil => rfl
  | cons a l ih =>
    simp [each a,ih (fun b member => each b (List.mem_cons_of_mem a member))]

theorem mapM_none {α β : Type} {f : α → Option β} {l : List α} {a : α} (member : a ∈ l) (missing : f a = none) :
    l.mapM f = none := by
  induction member with
  | head => simp [missing]
  | tail b _ ih => simp [ih]

/-- The views that the filter takes are those that the call leaves at its output. -/
theorem viewInit_eq (before : OutView) (pic : Picture) (chroma : Nat) (region : Region) :
    ∃ out, pictureViewInit (some before) (some pic) chroma (some region) = ((viewInit pic chroma region).isSome,some out) ∧
      ∀ view, viewInit pic chroma region = some view → view.plane = (List.range out.planeCount).map out.plane := by
  obtain ⟨p,r,layout,out,isPic,isRegion,args,known,value,count,views⟩ | ⟨value,missing⟩ :=
    pictureViewInit_cases before (some pic) chroma (some region)
  · obtain rfl := Option.some.inj isPic
    obtain rfl := Option.some.inj isRegion
    have made : viewInit pic chroma region = some ⟨(List.range layout.planeCount).map out.plane⟩ := by
      simp only [viewInit,args,known,mapM_some (fun i member => views i (List.mem_range.mp member))]
      rfl
    refine ⟨out,by rw [value,made]; rfl,fun view found => ?_⟩
    rw [made] at found
    rw [← Option.some.inj found,count]
  · have none : viewInit pic chroma region = none := by
      rw [viewInit]
      by_cases args : viewArgsOk pic chroma region = false
      · rw [if_pos args]
      rw [if_neg args]
      cases known : viewLayout pic chroma with
      | none => rfl
      | some layout =>
        obtain ⟨i,inside,missed⟩ := missing pic region layout rfl rfl (eq_true_of_ne_false args) known
        simp only [mapM_none (f := fun i => planeViewInit (pic.p i) (planeGeom layout region i)) (List.mem_range.mpr inside) missed]
        rfl
    exact ⟨.zero,by rw [value,none]; rfl,by simp [none]⟩

/-- Every plane of a view is that of a plane that holds it. -/
theorem viewInit_planes {chroma : Nat} {view : View} (viewed : viewInit pic chroma region = some view) :
    ∃ layout, descriptor chroma = some layout ∧ viewArgsOk pic chroma region = true ∧ view.plane.length = layout.planeCount ∧
      ∀ i < layout.planeCount, PlaneHolds (pic.p i) layout region i ∧
        view.plane.getD i ⟨0,0⟩ = planeView (pic.p i) layout region i := by
  obtain ⟨out,value,planes⟩ := viewInit_eq .zero pic chroma region
  have shown := planes view viewed
  obtain ⟨p,r,layout,filled,isPic,isRegion,args,known,made,count,views⟩ | ⟨failed,_⟩ :=
    pictureViewInit_cases .zero (some pic) chroma (some region)
  · obtain rfl := Option.some.inj isPic
    obtain rfl := Option.some.inj isRegion
    obtain rfl : filled = out := Option.some.inj (Prod.mk.inj (made.symm.trans value)).2
    obtain ⟨found,_⟩ := (viewLayout_iff pic chroma layout).mp known
    refine ⟨layout,found,args,by rw [shown,List.length_map,List.length_range,count],fun i inside => ?_⟩
    obtain ⟨holds,same⟩ := planeViewInit_some (descriptor_mem found).1 inside (views i inside)
    refine ⟨holds,?_⟩
    rw [shown,count,← same]
    simp [inside]
  · rw [failed,viewed] at value
    exact absurd (Prod.mk.inj value).1 (by simp)

/-! ## The contract -/

/-- A picture that is large enough for its coded size, and a region of it. -/
structure Sufficient (pic : Picture) (chroma : Nat) (region : Region) (layout : Descriptor) : Prop where
  matching : pic.chroma = chroma
  known : descriptor chroma = some layout
  planes : (layout.planeCount : Int) ≤ pic.planes
  pixels : ∀ i < layout.planeCount, (pic.p i).pixels ≠ 0
  pixelPitch : ∀ i < layout.planeCount, (pic.p i).pixelPitch = layout.pixelPitch.getD i 0
  pitch : ∀ i < layout.planeCount,
    (groups region.codedWidth (layout.xGroupPixels.getD i 0) * layout.xGroupBytes.getD i 0 : Nat) ≤ (pic.p i).pitch
  lines : ∀ i < layout.planeCount, (groups region.codedHeight (layout.yGroupPixels.getD i 0) : Nat) ≤ (pic.p i).lines
  sizes : region.codedWidth ≤ pic.width ∧ region.codedHeight ≤ pic.height
  positive : 0 < region.width ∧ 0 < region.height
  width : region.xOffset + region.width ≤ region.codedWidth
  height : region.yOffset + region.height ≤ region.codedHeight
  visibleWidth : pic.visibleWidth ≠ 0 → region.width ≤ pic.visibleWidth
  visibleHeight : pic.visibleHeight ≠ 0 → region.height ≤ pic.visibleHeight

/-- The sizes of a plane within their types. -/
structure PlaneTyped (plane : PlaneT) : Prop where
  pitch : Fits .int plane.pitch
  lines : Fits .int plane.lines

theorem sufficient_holds {chroma : Nat} (enough : Sufficient pic chroma region layout) (inside : i < layout.planeCount) :
    PlaneHolds (pic.p i) layout region i := by
  obtain ⟨xPixels,xBytes,yPixels,_,_⟩ := descriptors_ok (descriptor_mem enough.known).1 inside
  obtain ⟨wide,high⟩ := enough.positive
  have width : region.xOffset + region.width.toNat ≤ region.codedWidth := by
    have width := enough.width
    omega
  have height : region.yOffset + region.height.toNat ≤ region.codedHeight := by
    have height := enough.height
    omega
  have pitch := enough.pitch i inside
  have lines := enough.lines i inside
  have across := Nat.mul_le_mul_right (layout.xGroupBytes.getD i 0) (groups_mono (layout.xGroupPixels.getD i 0) width)
  have down := groups_mono (layout.yGroupPixels.getD i 0) height
  have some := Nat.mul_pos (groups_pos (show 0 < region.xOffset + region.width.toNat by omega) xPixels) xBytes
  have row := groups_pos (show 0 < region.yOffset + region.height.toNat by omega) yPixels
  refine ⟨enough.pixels i inside,enough.pixelPitch i inside,by omega,by omega,by omega,by omega⟩

/-- The luma plane of every layout, or its only plane, has a row for each row and at
    least a byte for each pixel; so the offsets are those of an `int`. -/
theorem sufficient_offsets {chroma : Nat} (enough : Sufficient pic chroma region layout)
    (planesTyped : ∀ i, PlaneTyped (pic.p i)) : (region.xOffset : Int) ≤ intMax ∧ (region.yOffset : Int) ≤ intMax := by
  have first : ∀ desc ∈ descriptors, 0 < desc.planeCount ∧ desc.xGroupPixels.getD 0 0 = 1 ∧ desc.yGroupPixels.getD 0 0 = 1 := by
    decide
  obtain ⟨inside,xPixels,yPixels⟩ := first layout (descriptor_mem enough.known).1
  have holds := sufficient_holds enough inside
  obtain ⟨_,xBytes,_,_,_⟩ := descriptors_ok (descriptor_mem enough.known).1 inside
  obtain ⟨_,pitchInt⟩ := fits_int.mp (planesTyped 0).pitch
  obtain ⟨_,linesInt⟩ := fits_int.mp (planesTyped 0).lines
  have pitch := holds.pitch
  have lines := holds.lines
  rw [xPixels] at pitch
  rw [yPixels] at lines
  simp only [groups,Nat.add_sub_cancel,Nat.div_one] at pitch lines
  have across := Nat.le_mul_of_pos_right (region.xOffset + region.width.toNat) xBytes
  simp only [intMax]
  omega

theorem sufficient_args {chroma : Nat} (enough : Sufficient pic chroma region layout) (typed : Typed region)
    (planesTyped : ∀ i, PlaneTyped (pic.p i)) : viewArgsOk pic chroma region = true := by
  obtain ⟨xOffset,yOffset⟩ := sufficient_offsets enough planesTyped
  obtain ⟨_,shortWidth⟩ := fits_int.mp typed.width
  obtain ⟨_,shortHeight⟩ := fits_int.mp typed.height
  obtain ⟨matching,_,_,_,_,_,_,sizes,⟨wide,high⟩,width,height,visibleWidth,visibleHeight⟩ := enough
  have max : intMax = 2147483647 ∧ sizeMax = 18446744073709551615 := ⟨rfl,rfl⟩
  rw [viewArgsOk,if_neg (by omega),if_neg (by simp [matching]),if_neg (by omega)]
  rw [declaredCropOk_iff (by omega) (by omega) (by omega) (by omega)]
  exact ⟨by omega,sizes,by omega,by omega⟩

/-- The contract of `up_picture_view_init`: a view shows bytes of the planes only, each
    in its own row; a failure leaves nothing; and a picture that is large enough has a
    view of every region of it. -/
theorem picture_view_bounds (before : OutView) (chroma : Nat) {pic : Option Picture} {region : Option Region}
    (planesTyped : ∀ p, pic = some p → ∀ i, PlaneTyped (p.p i)) (regionTyped : ∀ r, region = some r → Typed r) :
    ∃ ok out, pictureViewInit (some before) pic chroma region = (ok,some out) ∧
      (ok = true → ∃ p r layout, pic = some p ∧ region = some r ∧ descriptor chroma = some layout ∧
        out.planeCount = layout.planeCount ∧
        ∀ i < layout.planeCount, Inside (p.p i) (out.plane i) (groups r.height.toNat (layout.yGroupPixels.getD i 0))
          (groups r.width.toNat (layout.xGroupPixels.getD i 0) * layout.xGroupBytes.getD i 0)) ∧
      (ok = false → out = .zero) ∧
      (∀ p r layout, pic = some p → region = some r → Sufficient p chroma r layout → ok = true) := by
  obtain ⟨p,r,layout,out,isPic,isRegion,args,known,value,count,views⟩ | ⟨value,missing⟩ :=
    pictureViewInit_cases before pic chroma region
  · obtain ⟨found,_⟩ := (viewLayout_iff p chroma layout).mp known
    refine ⟨true,out,value,fun _ => ⟨p,r,layout,isPic,isRegion,found,count,fun i inside => ?_⟩,by simp,fun _ _ _ _ _ _ => rfl⟩
    obtain ⟨holds,view⟩ := planeViewInit_some (descriptor_mem found).1 inside (views i inside)
    rw [view]
    exact planeView_inside (descriptor_mem found).1 inside holds
  · refine ⟨false,.zero,value,by simp,fun _ => rfl,fun p r layout isPic isRegion enough => ?_⟩
    have planes := planesTyped p isPic
    obtain ⟨i,inside,missed⟩ := missing p r layout isPic isRegion
      (sufficient_args enough (regionTyped r isRegion) planes) ((viewLayout_iff p chroma layout).mpr ⟨enough.known,enough.planes⟩)
    rw [planeViewInit_holds (descriptor_mem enough.known).1 inside (fits_int.mp (planes i).pitch).2
      (fits_int.mp (planes i).lines).2 (sufficient_holds enough inside)] at missed
    cases missed

/-- A view of 5 by 3 pixels from an odd corner of an I420 picture. -/
theorem picture_view_bounds_odd : ∃ out,
    pictureViewInit (some .zero) (some ⟨fourcc 'I' '4' '2' '0',64,48,0,0,3,fun _ => ⟨4096,64,48,1⟩⟩) (fourcc 'I' '4' '2' '0')
      (some ⟨64,48,7,9,5,3⟩) = (true,some out) ∧ Inside ⟨4096,64,48,1⟩ (out.plane 1) 2 3 := by
  have plane : PlaneTyped ⟨4096,64,48,1⟩ := ⟨by decide,by decide⟩
  have planes : ∀ p, some (⟨fourcc 'I' '4' '2' '0',64,48,0,0,3,fun _ => ⟨4096,64,48,1⟩⟩ : Picture) = some p →
      ∀ i, PlaneTyped (p.p i) := by
    rintro p ⟨⟩ _
    exact plane
  have typed : ∀ r, some (⟨64,48,7,9,5,3⟩ : Region) = some r → Typed r := by
    rintro r ⟨⟩
    exact ⟨by decide,by decide,by decide,by decide⟩
  obtain ⟨ok,out,value,views,_,complete⟩ := picture_view_bounds .zero (fourcc 'I' '4' '2' '0') planes typed
  have made := complete _ _ (descriptors.getD 0 ⟨0,.invalid,0,0,0,false,[],[],[],[]⟩) rfl rfl
    ⟨rfl,rfl,by decide,by decide,by decide,by decide,by decide,by decide,by decide,by decide,by decide,by simp,by simp⟩
  obtain ⟨p,r,layout,isPic,isRegion,known,_,inside⟩ := views made
  cases isPic
  cases isRegion
  cases known
  exact ⟨out,by rw [value,made],inside 1 (by decide)⟩

end AutoUpscale.PictureView
