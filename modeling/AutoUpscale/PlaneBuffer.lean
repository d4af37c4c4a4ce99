import AutoUpscale.Blocks
import AutoUpscale.SizeType
import AutoUpscale.ZimgCells

/-!
The scratch planes of the zimg backend: `plane_buffer.h`. A buffer is a block for each
plane, and a layout that no type of the platform can hold has no buffer rather than a
smaller one (`sizable_iff`). Whatever allocating a buffer answers, freeing it releases
exactly what it got (`allocPlaneBuffer_exact`).
-/
namespace AutoUpscale.PlaneBuffer
open AutoUpscale.Blocks AutoUpscale.SizeType AutoUpscale.ZimgHelpers
open AutoUpscale.Signed (Fits fits_int)
open AutoUpscale.ZimgCells (Plane planeShift planeShift_le)

/-- `plane_layout_t`. -/
structure Layout where
  pitch : Plane → Int
  lines : Plane → Int

/-- `plane_buffer_t`. -/
structure Buffer where
  data : Plane → Option Nat
  layout : Layout

/-- The planes in the order of the loops. -/
def planes : List Plane := [.y,.u,.v]

theorem mem_planes (p : Plane) : p ∈ planes := by
  cases p <;> decide

/-- `init_plane_layout`, with nothing where an intermediate value overflows. -/
def initPlaneLayout (width height : Int) (subW subH : Nat) : Option Layout := do
  let pitchY ← planePitch width 0
  let linesY ← planeLines height 0
  let pitchUV ← planePitch width subW
  let linesUV ← planeLines height subH
  some ⟨fun p => if p = .y then pitchY else pitchUV,fun p => if p = .y then linesY else linesUV⟩

variable (z : SizeT)

/-- `plane_alloc_bytes`. -/
def planeAllocBytes (lines pitch : Int) : Nat :=
  if lines ≤ 0 ∨ pitch ≤ 0 then 0
  else
    let l := z.ofInt lines
    let pp := z.ofInt pitch
    if l > z.max / pp then 0 else z.mul l pp

/-- What is asked for a plane. -/
def planeBytes (layout : Layout) (p : Plane) : Nat := planeAllocBytes z (layout.lines p) (layout.pitch p)

/-- The loop of `plane_buffer_bytes`. -/
def addPlanes (layout : Layout) (bytes : Nat) : List Plane → Nat
  | [] => bytes
  | p :: rest =>
    if planeBytes z layout p > z.max - bytes then z.max
    else addPlanes layout (z.add bytes (planeBytes z layout p)) rest

/-- `plane_buffer_bytes`. -/
def planeBufferBytes (layout : Layout) : Nat := addPlanes z layout 0 planes

/-- The loop of `alloc_plane_buffer`; `granted` says which requests the allocator grants. -/
def allocPlanes (granted : Plane → Bool) (h : Heap) (buffer : Buffer) : List Plane → Option (Int × Buffer × Heap)
  | [] => some (0,buffer,h)
  | p :: rest =>
    let bytes := planeBytes z buffer.layout p
    if bytes = 0 then some (-1,buffer,h)
    else do
      let (data,h) ← h.alignedAlloc pitchAlign.toNat bytes (granted p)
      let buffer := { buffer with data := Function.update buffer.data p data }
      if data = none then some (-1,buffer,h) else allocPlanes granted h buffer rest

/-- `alloc_plane_buffer`. -/
def allocPlaneBuffer (granted : Plane → Bool) (h : Heap) (buffer : Buffer) : Option (Int × Buffer × Heap) :=
  if planeBufferBytes z buffer.layout = z.max then some (-1,buffer,h) else allocPlanes z granted h buffer planes

/-- The loop of `free_plane_buffer`. -/
def freePlanes (h : Heap) (buffer : Buffer) : List Plane → Option (Buffer × Heap)
  | [] => some (buffer,h)
  | p :: rest => do
    let h ← h.free (buffer.data p)
    freePlanes h { buffer with data := Function.update buffer.data p none } rest

/-- `free_plane_buffer`. -/
def freePlaneBuffer (h : Heap) (buffer : Buffer) : Option (Buffer × Heap) := freePlanes h buffer planes

/-! ## Sizes -/

/-- The least multiple of the alignment that holds a row of a plane. -/
def exactPitch (width : Int) (sub : Nat) : Int := 64 * ((chromaDim width sub + 63) / 64)

/-- The rows of a plane and the padding. -/
def exactLines (height : Int) (sub : Nat) : Int := chromaDim height sub + 8

/-- The pitch of a plane, where a row can be rounded up. -/
def pitchOf (width : Int) (sub : Nat) : Int :=
  if 0 < width ∧ chromaDim width sub + 63 ≤ intMax then exactPitch width sub else 0

/-- The lines of a plane, where there is room for the padding. -/
def linesOf (height : Int) (sub : Nat) : Int :=
  if 0 < height ∧ exactLines height sub ≤ intMax then exactLines height sub else 0

variable {z} {width height : Int} {subW subH sub : Nat}

theorem planePitch_eq (halved : sub ≤ 1) : planePitch width sub = some (pitchOf width sub) := by
  unfold planePitch pitchOf exactPitch
  by_cases empty : width ≤ 0
  · rw [if_pos (Or.inl empty),if_neg (by omega)]
  · have bounds := chromaDim_bounds halved (not_le.mp empty)
    rw [if_neg (by omega),roundUpPitch_eq]
    simp only [bounds.1,not_le.mp empty,true_and]

theorem planeLines_eq (halved : sub ≤ 1) : planeLines height sub = some (linesOf height sub) := by
  unfold planeLines linesOf exactLines
  by_cases empty : height ≤ 0
  · rw [if_pos (Or.inl empty),if_neg (by omega)]
  · have bounds := chromaDim_bounds halved (not_le.mp empty)
    rw [if_neg (by omega),roundUpLines_eq]
    simp only [bounds.1,not_le.mp empty,true_and]

/-- The layout of a picture. -/
def layoutOf (width height : Int) (subW subH : Nat) : Layout :=
  ⟨fun p => pitchOf width (planeShift subW p),fun p => linesOf height (planeShift subH p)⟩

/-- Nothing overflows on the way to a layout. -/
theorem initPlaneLayout_eq (halvedW : subW ≤ 1) (halvedH : subH ≤ 1) :
    initPlaneLayout width height subW subH = some (layoutOf width height subW subH) := by
  have pitchY := @planePitch_eq width 0 (Nat.zero_le 1)
  have linesY := @planeLines_eq height 0 (Nat.zero_le 1)
  rw [Nat.cast_zero] at pitchY linesY
  simp only [initPlaneLayout,pitchY,linesY,planePitch_eq halvedW,planeLines_eq halvedH,Option.bind_eq_bind,Option.bind_some]
  congr
  · funext p
    cases p <;> rfl
  · funext p
    cases p <;> rfl

theorem pitchOf_fits (width : Int) (halved : sub ≤ 1) :
    0 ≤ pitchOf width sub ∧ pitchOf width sub ≤ 2147483647 ∧ 64 ∣ pitchOf width sub := by
  unfold pitchOf exactPitch intMax
  split_ifs with room
  · have positive := (chromaDim_bounds halved room.1).1
    exact ⟨by omega,by omega,Int.dvd_mul_right 64 _⟩
  · exact ⟨le_refl 0,by decide,dvd_zero 64⟩

theorem linesOf_fits (height : Int) (halved : sub ≤ 1) : 0 ≤ linesOf height sub ∧ linesOf height sub ≤ 2147483647 := by
  unfold linesOf exactLines intMax
  split_ifs with room
  · have positive := (chromaDim_bounds halved room.1).1
    omega
  · exact ⟨le_refl 0,by decide⟩

/-- A plane is asked for with its exact size or not at all. -/
theorem planeAllocBytes_eq {lines pitch : Nat} (linesInt : lines ≤ 2147483647) (pitchInt : pitch ≤ 2147483647) :
    planeAllocBytes z lines pitch = if lines * pitch ≤ z.max then lines * pitch else 0 := by
  unfold planeAllocBytes
  by_cases empty : (lines : Int) ≤ 0 ∨ (pitch : Int) ≤ 0
  · have nothing : lines * pitch = 0 := by
      rcases empty with none | none
      · rw [show lines = 0 by omega,Nat.zero_mul]
      · rw [show pitch = 0 by omega,Nat.mul_zero]
    rw [if_pos empty,nothing,ite_self]
  · rw [if_neg empty]
    simp only [ofInt_natCast linesInt,ofInt_natCast pitchInt]
    exact guarded_mul (by omega)

/-- The total that the loop computes is the sum, or the greatest size in its place. -/
theorem addPlanes_eq {layout : Layout} {bytes : Nat} (fits : bytes ≤ z.max) (ps : List Plane) :
    addPlanes z layout bytes ps = min (bytes + (ps.map (planeBytes z layout)).sum) z.max := by
  induction ps generalizing bytes with
  | nil => rw [addPlanes,List.map_nil,List.sum_nil,Nat.add_zero,min_eq_left fits]
  | cons p rest ih =>
    rw [addPlanes,List.map_cons,List.sum_cons]
    by_cases exceeds : planeBytes z layout p > z.max - bytes
    · rw [if_pos exceeds,min_eq_right (by omega)]
    · have room : bytes + planeBytes z layout p ≤ z.max := by omega
      rw [if_neg exceeds,add_eq room,ih room,Nat.add_assoc]

theorem planeBufferBytes_eq (layout : Layout) :
    planeBufferBytes z layout = min (planeBytes z layout .y + planeBytes z layout .u + planeBytes z layout .v) z.max := by
  rw [planeBufferBytes,addPlanes_eq (Nat.zero_le _)]
  simp [planes,Nat.add_assoc]

/-! ## Exact requests -/

/-- The bytes of a plane. -/
def exactBytes (width height : Int) (subW subH : Nat) (p : Plane) : Int :=
  exactPitch width (planeShift subW p) * exactLines height (planeShift subH p)

/-- A picture whose planes, with all that is computed on the way to them, the types of
    the platform can hold. -/
structure Sizable (z : SizeT) (width height : Int) (subW subH : Nat) : Prop where
  wide : 0 < width
  tall : 0 < height
  rounding : ∀ p, chromaDim width (planeShift subW p) + 63 ≤ intMax
  padding : ∀ p, chromaDim height (planeShift subH p) + 8 ≤ intMax
  product : ∀ p, exactBytes width height subW subH p ≤ z.max
  total : exactBytes width height subW subH .y + exactBytes width height subW subH .u +
    exactBytes width height subW subH .v ≤ z.max

section Subsampled
variable (halvedW : subW ≤ 1) (halvedH : subH ≤ 1) (p : Plane)
include halvedW halvedH

/-- The request for a plane in terms of its layout. -/
theorem planeBytes_layoutOf : ∃ lines pitch : Nat,
    linesOf height (planeShift subH p) = lines ∧ pitchOf width (planeShift subW p) = pitch ∧ 64 ∣ pitch ∧
      planeBytes z (layoutOf width height subW subH) p = if lines * pitch ≤ z.max then lines * pitch else 0 := by
  obtain ⟨pitchLow,pitchInt,multiple⟩ := pitchOf_fits width (planeShift_le halvedW p).1
  obtain ⟨linesLow,linesInt⟩ := linesOf_fits height (planeShift_le halvedH p).1
  obtain ⟨pitch,isPitch⟩ := Int.eq_ofNat_of_zero_le pitchLow
  obtain ⟨lines,isLines⟩ := Int.eq_ofNat_of_zero_le linesLow
  refine ⟨lines,pitch,isLines,isPitch,by omega,?_⟩
  show planeAllocBytes z (linesOf height _) (pitchOf width _) = _
  rw [isLines,isPitch]
  exact planeAllocBytes_eq (by omega) (by omega)

theorem planeBytes_dvd : 64 ∣ planeBytes z (layoutOf width height subW subH) p := by
  obtain ⟨lines,pitch,_,_,multiple,request⟩ := @planeBytes_layoutOf z width height subW subH halvedW halvedH p
  rw [request]
  split
  · exact Dvd.dvd.mul_left multiple lines
  · exact dvd_zero 64

/-- A plane that is asked for has the exact pitch, lines and bytes. -/
theorem planeBytes_exact (asked : planeBytes z (layoutOf width height subW subH) p ≠ 0) :
    (0 < width ∧ chromaDim width (planeShift subW p) + 63 ≤ intMax) ∧
    (0 < height ∧ chromaDim height (planeShift subH p) + 8 ≤ intMax) ∧
    (planeBytes z (layoutOf width height subW subH) p : Int) = exactBytes width height subW subH p := by
  obtain ⟨lines,pitch,isLines,isPitch,_,request⟩ :=
    @planeBytes_layoutOf z width height subW subH halvedW halvedH p
  rw [request] at asked ⊢
  have fits : lines * pitch ≤ z.max := by
    by_contra exceeds
    exact asked (if_neg exceeds)
  rw [if_pos fits] at asked ⊢
  obtain ⟨tall,wide⟩ := Nat.mul_ne_zero_iff.mp asked
  unfold pitchOf at isPitch
  unfold linesOf at isLines
  split_ifs at isPitch isLines with rounded padded
  · refine ⟨rounded,padded,?_⟩
    rw [exactBytes,isPitch,isLines,Nat.cast_mul,Int.mul_comm]
  · exact absurd isLines.symm (by omega)
  · exact absurd isPitch.symm (by omega)
  · exact absurd isPitch.symm (by omega)

/-- Every plane of a picture that can be held is asked for. -/
theorem planeBytes_sizable (sizable : Sizable z width height subW subH) :
    (planeBytes z (layoutOf width height subW subH) p : Int) = exactBytes width height subW subH p ∧
      planeBytes z (layoutOf width height subW subH) p ≠ 0 := by
  obtain ⟨lines,pitch,isLines,isPitch,_,request⟩ :=
    @planeBytes_layoutOf z width height subW subH halvedW halvedH p
  unfold pitchOf at isPitch
  unfold linesOf at isLines
  rw [if_pos ⟨sizable.wide,sizable.rounding p⟩] at isPitch
  rw [if_pos ⟨sizable.tall,sizable.padding p⟩] at isLines
  have exactly : exactBytes width height subW subH p = (lines * pitch : Nat) := by
    rw [exactBytes,isPitch,isLines,Nat.cast_mul,Int.mul_comm]
  have product := sizable.product p
  have wide := (chromaDim_bounds (planeShift_le halvedW p).1 sizable.wide).1
  have tall := (chromaDim_bounds (planeShift_le halvedH p).1 sizable.tall).1
  unfold exactPitch at isPitch
  unfold exactLines at isLines
  rw [request,if_pos (by omega)]
  exact ⟨exactly.symm,Nat.mul_ne_zero (by omega) (by omega)⟩

/-- What the checks of `alloc_plane_buffer` let through are the pictures whose planes
    can be held. -/
theorem sizable_iff : Sizable z width height subW subH ↔
    planeBufferBytes z (layoutOf width height subW subH) ≠ z.max ∧
      ∀ p ∈ planes, planeBytes z (layoutOf width height subW subH) p ≠ 0 := by
  have multiple := fun p => @planeBytes_dvd z width height subW subH halvedW halvedH p
  rw [planeBufferBytes_eq]
  constructor
  · intro sizable
    have asked := fun p => planeBytes_sizable halvedW halvedH p sizable
    refine ⟨?_,fun p _ => (asked p).2⟩
    have total := sizable.total
    rw [← (asked .y).1,← (asked .u).1,← (asked .v).1] at total
    rw [min_eq_left (by omega)]
    exact even_ne_max (Nat.dvd_trans (by decide) (Nat.dvd_add (Nat.dvd_add (multiple .y) (multiple .u)) (multiple .v)))
  · rintro ⟨less,asked⟩
    have exactly := fun p => planeBytes_exact halvedW halvedH p (asked p (mem_planes p))
    have total : planeBytes z (layoutOf width height subW subH) .y + planeBytes z (layoutOf width height subW subH) .u +
        planeBytes z (layoutOf width height subW subH) .v ≤ z.max := by
      by_contra exceeds
      exact less (min_eq_right (by omega))
    have bound : ∀ p, planeBytes z (layoutOf width height subW subH) p ≤ z.max := by
      rintro (_ | _ | _) <;> omega
    refine ⟨(exactly .y).1.1,(exactly .y).2.1.1,fun p => (exactly p).1.2,fun p => (exactly p).2.1.2,fun p => ?_,?_⟩
    · rw [← (exactly p).2.2]
      exact Int.ofNat_le.mpr (bound p)
    · rw [← (exactly .y).2.2,← (exactly .u).2.2,← (exactly .v).2.2]
      omega

end Subsampled

/-! ## Allocating and freeing -/

/-- What the loop over `ps` leaves: either every plane has its block, or some plane is not
    asked for or not granted. -/
structure Filled (z : SizeT) (base : Nat → Option Nat) (granted : Plane → Bool) (buffer : Buffer) (ps : List Plane)
    (answer : Int) (after : Buffer) (h : Heap) : Prop where
  layout : after.layout = buffer.layout
  owned : Owned base after.data (planeBytes z buffer.layout) h
  others : ∀ q, q ∉ ps → after.data q = buffer.data q
  answered : (answer = 0 ∧ ∀ p ∈ ps, planeBytes z buffer.layout p ≠ 0 ∧ granted p = true ∧ after.data p ≠ none) ∨
    (answer = -1 ∧ ∃ p ∈ ps, planeBytes z buffer.layout p = 0 ∨ granted p = false)

variable {base : Nat → Option Nat} {granted : Plane → Bool} {h : Heap} {buffer : Buffer}

theorem allocPlanes_refused {p : Plane} {rest : List Plane} (asked : planeBytes z buffer.layout p ≠ 0)
    (multiple : 64 ∣ planeBytes z buffer.layout p) (refused : granted p = false) :
    allocPlanes z granted h buffer (p :: rest) = some (-1,{ buffer with data := Function.update buffer.data p none },h) := by
  have request : h.alignedAlloc pitchAlign.toNat (planeBytes z buffer.layout p) false = some (none,h) :=
    alignedAlloc_refused multiple
  simp only [allocPlanes,if_neg asked,refused,request]
  rfl

theorem allocPlanes_granted {p : Plane} {rest : List Plane} (asked : planeBytes z buffer.layout p ≠ 0)
    (multiple : 64 ∣ planeBytes z buffer.layout p) (given : granted p = true) :
    allocPlanes z granted h buffer (p :: rest) = allocPlanes z granted (h.extend (planeBytes z buffer.layout p))
      { buffer with data := Function.update buffer.data p (some h.next) } rest := by
  have request : h.alignedAlloc pitchAlign.toNat (planeBytes z buffer.layout p) true =
      some (some h.next,h.extend (planeBytes z buffer.layout p)) := alignedAlloc_granted multiple
  simp only [allocPlanes,if_neg asked,given,request]
  rfl

theorem allocPlanes_filled (multiple : ∀ p, 64 ∣ planeBytes z buffer.layout p) {ps : List Plane} (distinct : ps.Nodup)
    (empty : ∀ p ∈ ps, buffer.data p = none) (owned : Owned base buffer.data (planeBytes z buffer.layout) h) :
    ∃ answer after h', allocPlanes z granted h buffer ps = some (answer,after,h') ∧
      Filled z base granted buffer ps answer after h' := by
  induction ps generalizing h buffer with
  | nil => exact ⟨0,buffer,h,rfl,rfl,owned,fun _ _ => rfl,Or.inl ⟨rfl,fun p none => absurd none List.not_mem_nil⟩⟩
  | cons p rest ih =>
    obtain ⟨once,distinct⟩ := List.nodup_cons.mp distinct
    by_cases nothing : planeBytes z buffer.layout p = 0
    · exact ⟨-1,buffer,h,if_pos nothing,rfl,owned,fun _ _ => rfl,Or.inr ⟨rfl,p,List.mem_cons_self,Or.inl nothing⟩⟩
    · cases grant : granted p with
      | false =>
        refine ⟨-1,{ buffer with data := Function.update buffer.data p none },h,?_,rfl,?_,fun q outside => ?_,
          Or.inr ⟨rfl,p,List.mem_cons_self,Or.inr grant⟩⟩
        · exact allocPlanes_refused nothing (multiple p) grant
        · have same : Function.update buffer.data p none = buffer.data := by
            rw [← empty p List.mem_cons_self,Function.update_eq_self]
          rw [same]
          exact owned
        · exact Function.update_of_ne (List.ne_of_not_mem_cons outside) ..
      | true =>
        have later : ∀ q ∈ rest, q ≠ p := by
          rintro q member rfl
          exact once member
        obtain ⟨answer,after,h',run,layout,owned',others,answered⟩ :=
          @ih _ { buffer with data := Function.update buffer.data p (some h.next) } multiple distinct
            (fun q member => (Function.update_of_ne (later q member) ..).trans (empty q (List.mem_cons_of_mem p member)))
            (owned_alloc owned (empty p List.mem_cons_self))
        refine ⟨answer,after,h',?_,layout,owned',fun q outside => ?_,?_⟩
        · rw [allocPlanes_granted nothing (multiple p) grant]
          exact run
        · have outside' : q ∉ rest := fun member => outside (List.mem_cons_of_mem p member)
          exact (others q outside').trans (Function.update_of_ne (List.ne_of_not_mem_cons outside) ..)
        · rcases answered with ⟨success,all⟩ | ⟨failure,q,member,reason⟩
          · refine Or.inl ⟨success,fun q member => ?_⟩
            rcases List.mem_cons.mp member with rfl | member
            · have kept : after.data q = some h.next := (others q once).trans (Function.update_self ..)
              exact ⟨nothing,grant,by rw [kept]; exact Option.some_ne_none _⟩
            · exact all q member
          · exact Or.inr ⟨failure,q,List.mem_cons_of_mem p member,reason⟩

/-- Freeing planes empties their slots and keeps what the others own. -/
theorem freePlanes_owned {bytes : Plane → Nat} {ps : List Plane} (owned : Owned base buffer.data bytes h) :
    ∃ freed h', freePlanes h buffer ps = some (freed,h') ∧ Owned base freed.data bytes h' ∧
      ∀ p, p ∈ ps ∨ buffer.data p = none → freed.data p = none := by
  induction ps generalizing h buffer with
  | nil => exact ⟨buffer,h,rfl,owned,fun p empty => empty.resolve_left List.not_mem_nil⟩
  | cons p rest ih =>
    obtain ⟨h1,release,owned1⟩ := owned_free owned p
    obtain ⟨freed,h',run,owned',emptied⟩ := @ih _ { buffer with data := Function.update buffer.data p none } owned1
    refine ⟨freed,h',?_,owned',fun q empty => emptied q ?_⟩
    · rw [freePlanes,release]
      exact run
    · by_cases here : q = p
      · subst here
        exact Or.inr (Function.update_self ..)
      · rcases empty with member | nothing
        · exact Or.inl (List.mem_of_ne_of_mem here member)
        · exact Or.inr ((Function.update_of_ne here ..).trans nothing)

/-- A plane of a buffer that was allocated: its block has exactly the bytes of its lines,
    and the heap knows the block by that size. -/
structure Allocated (width height : Int) (subW subH : Nat) (buffer : Buffer) (h : Heap) (p : Plane) : Prop where
  aligned : 64 ∣ buffer.layout.pitch p
  wide : chromaDim width (planeShift subW p) ≤ buffer.layout.pitch p
  padded : buffer.layout.lines p = chromaDim height (planeShift subH p) + 8
  block : ∃ b bytes : Nat, buffer.data p = some b ∧ h.size b = some bytes ∧ 64 ∣ bytes ∧
    (bytes : Int) = buffer.layout.pitch p * buffer.layout.lines p

/-- The layout and the requests of a picture that can be held. -/
theorem layoutOf_sizable (halvedW : subW ≤ 1) (halvedH : subH ≤ 1) (sizable : Sizable z width height subW subH) (p : Plane) :
    (layoutOf width height subW subH).pitch p = exactPitch width (planeShift subW p) ∧
      (layoutOf width height subW subH).lines p = exactLines height (planeShift subH p) ∧
      (planeBytes z (layoutOf width height subW subH) p : Int) = exactBytes width height subW subH p :=
  ⟨if_pos ⟨sizable.wide,sizable.rounding p⟩,if_pos ⟨sizable.tall,sizable.padding p⟩,
    (planeBytes_sizable halvedW halvedH p sizable).1⟩

/-- A plane that can be held has its lines, one pitch apart. -/
theorem planeBytes_lines (halvedW : subW ≤ 1) (halvedH : subH ≤ 1) (sizable : Sizable z width height subW subH) (p : Plane) :
    planeBytes z (layoutOf width height subW subH) p =
      (exactLines height (planeShift subH p)).toNat * ((layoutOf width height subW subH).pitch p).toNat := by
  obtain ⟨pitch,-,bytes⟩ := layoutOf_sizable halvedW halvedH sizable p
  have wide := (chromaDim_bounds (planeShift_le halvedW p).1 sizable.wide).1
  have tall := (chromaDim_bounds (planeShift_le halvedH p).1 sizable.tall).1
  have positive : 0 ≤ exactPitch width (planeShift subW p) ∧ 0 ≤ exactLines height (planeShift subH p) := by
    simp only [exactPitch,exactLines]
    omega
  rw [pitch,← Int.toNat_mul positive.2 positive.1,Int.mul_comm]
  exact Int.ofNat_inj.mp (bytes.trans (Int.toNat_of_nonneg (Int.mul_nonneg positive.1 positive.2)).symm)

/-- Allocating the planes of a picture succeeds exactly if the types of the platform can
    hold them and every request is granted. Then no plane is smaller than its lines and
    the total is exact. Either way the buffer owns what was allocated, and freeing it
    leaves the heap as it was and every pointer null. -/
theorem allocPlaneBuffer_exact (z : SizeT) (width height : Int) {subW subH : Nat} (halvedW : subW ≤ 1) (halvedH : subH ≤ 1)
    (granted : Plane → Bool) (h : Heap) (buffer : Buffer) (empty : ∀ p, buffer.data p = none) :
    ∃ layout, initPlaneLayout width height subW subH = some layout ∧
    ∃ answer after h', allocPlaneBuffer z granted h { buffer with layout := layout } = some (answer,after,h') ∧
      after.layout = layout ∧
      ((answer = 0 ∧ Sizable z width height subW subH ∧ (∀ p, granted p = true) ∧
          (∀ p, Allocated width height subW subH after h' p) ∧
          (planeBufferBytes z layout : Int) =
            layout.pitch .y * layout.lines .y + layout.pitch .u * layout.lines .u + layout.pitch .v * layout.lines .v) ∨
        (answer = -1 ∧ ¬ (Sizable z width height subW subH ∧ ∀ p, granted p = true))) ∧
      Owned h.size after.data (planeBytes z layout) h' ∧
      ∃ freed h'', freePlaneBuffer h' after = some (freed,h'') ∧ (∀ p, freed.data p = none) ∧ h''.size = h.size := by
  refine ⟨_,initPlaneLayout_eq halvedW halvedH,?_⟩
  have held := @sizable_iff z width height subW subH halvedW halvedH
  have layouts := fun sizable => @layoutOf_sizable z width height subW subH halvedW halvedH sizable
  have multiple := fun p => @planeBytes_dvd z width height subW subH halvedW halvedH p
  generalize layoutOf width height subW subH = layout at held layouts multiple
  have release : ∀ {after : Buffer} {h' : Heap}, Owned h.size after.data (planeBytes z layout) h' →
      ∃ freed h'', freePlaneBuffer h' after = some (freed,h'') ∧ (∀ p, freed.data p = none) ∧ h''.size = h.size := by
    intro after h' owned
    obtain ⟨freed,h'',run,owned',emptied⟩ := @freePlanes_owned _ _ _ _ planes owned
    have nothing : ∀ p, freed.data p = none := fun p => emptied p (Or.inl (mem_planes p))
    exact ⟨freed,h'',run,nothing,owned_clear owned' nothing⟩
  have start : Owned h.size buffer.data (planeBytes z layout) h := owned_start empty
  by_cases total : planeBufferBytes z layout = z.max
  · have refused : ¬ (Sizable z width height subW subH ∧ ∀ p, granted p = true) := fun both => (held.mp both.1).1 total
    exact ⟨-1,{ buffer with layout := layout },h,if_pos total,rfl,Or.inr ⟨rfl,refused⟩,start,release start⟩
  · obtain ⟨answer,after,h',run,same,owned,_,answered⟩ :=
      @allocPlanes_filled z h.size granted h { buffer with layout := layout } multiple planes (by decide) (fun p _ => empty p) start
    refine ⟨answer,after,h',(if_neg total).trans run,same,?_,owned,release owned⟩
    rcases answered with ⟨success,all⟩ | ⟨failure,p,_,reason⟩
    · have sizable := held.mpr ⟨total,fun p member => (all p member).1⟩
      refine Or.inl ⟨success,sizable,fun p => (all p (mem_planes p)).2.1,fun p => ?_,?_⟩
      · obtain ⟨pitch,lines,bytes⟩ := layouts sizable p
        obtain ⟨b,block⟩ := Option.ne_none_iff_exists'.mp (all p (mem_planes p)).2.2
        refine ⟨?_,?_,?_,b,_,block,owned.live p b block,multiple p,?_⟩
        · rw [same,pitch]
          exact Int.dvd_mul_right 64 _
        · rw [same,pitch,exactPitch]
          omega
        · rw [same,lines]
          rfl
        · rw [same,pitch,lines]
          exact bytes
      · have y := layouts sizable .y
        have u := layouts sizable .u
        have v := layouts sizable .v
        rw [planeBufferBytes_eq] at total ⊢
        rw [y.1,y.2.1,u.1,u.2.1,v.1,v.2.1,min_eq_left (by omega),Nat.cast_add,Nat.cast_add,y.2.2,u.2.2,v.2.2]
        rfl
    · refine Or.inr ⟨failure,fun both => ?_⟩
      rcases reason with nothing | refused
      · exact (held.mp both.1).2 p (mem_planes p) nothing
      · rw [both.2 p] at refused
        exact absurd refused (by decide)

/-- The planes of a frame of 1920 by 1080 pixels with halved chroma. -/
theorem allocPlaneBuffer_hd : ∃ layout, initPlaneLayout 1920 1080 1 1 = some layout ∧
    ∃ after h', allocPlaneBuffer size64 (fun _ => true) vacant ⟨fun _ => none,layout⟩ = some (0,after,h') ∧
      ∀ p, Allocated 1920 1080 1 1 after h' p := by
  obtain ⟨layout,isLayout,answer,after,h',run,_,answered,_⟩ :=
    allocPlaneBuffer_exact size64 1920 1080 (le_refl 1) (le_refl 1) (fun _ => true) vacant ⟨fun _ => none,fun _ => 0,fun _ => 0⟩
      (fun _ => rfl)
  have sizable : Sizable size64 1920 1080 1 1 := by
    refine ⟨by decide,by decide,?_,?_,?_,by decide⟩ <;> rintro (_ | _ | _) <;> decide
  rcases answered with ⟨rfl,_,_,allocated,_⟩ | ⟨_,refused⟩
  · exact ⟨layout,isLayout,after,h',run,allocated⟩
  · exact absurd ⟨sizable,fun _ => rfl⟩ refused

end AutoUpscale.PlaneBuffer
