import AutoUpscale.PlaneBuffer
import AutoUpscale.PoolHooks
import AutoUpscale.ZimgProcess

/-!
What the zimg backend allocates: the hooks of `scaler_zimg.c` that give the sides and the
workers their buffers, graphs and temporary memory, and take them back. Each hook leaves a
heap in which the backend owns what its pointers say (`allocScratchBuffers_spec`,
`poolConstruct_spec`, `poolRelease_spec`), so the hooks keep the rules of a pool
(`zimg_rules`).
-/
namespace AutoUpscale.ZimgStorage
open AutoUpscale.Blocks AutoUpscale.PlaneBuffer AutoUpscale.SizeType
open AutoUpscale.WorkerPool (Event Releases Rules StartOutcome)
open AutoUpscale.ZimgCells (Geometry Plane StripeWorker)
open AutoUpscale.ZimgHelpers (pitchAlign)

/-- What is allocated for a `stripe_worker_t`. -/
structure Resources where
  colTiled : Bool
  tileDst : Buffer
  graph : Option Nat
  tmpSize : Nat
  tmp : Option Nat

/-- The heap, and what is allocated for a `zimg_priv_t`, with itself. -/
structure Storage where
  heap : Heap
  priv : Option Nat
  src : Buffer
  dst : Buffer
  workers : Nat → Resources

/-- What the allocator and the library grant to the hooks of a start; `tmpSize` has
    nothing where `zimg_filter_graph_get_tmp_size` fails. -/
structure Grants where
  src : Plane → Bool
  dst : Plane → Bool
  tile : Nat → Plane → Bool
  graph : Nat → Bool
  tmpSize : Nat → Option Nat
  tmp : Nat → Bool

/-- The bytes that are counted for a block whose size is no matter of the backend's: the
    state of the backend and the graphs of the library. -/
def handleBytes : Nat := 1

variable (z : SizeT)

/-! ## Hooks -/

/-- One side of `alloc_scratch_buffers`. -/
def allocSide (needed : Bool) (granted : Plane → Bool) (h : Heap) (buffer : Buffer) : Option (Bool × Buffer × Heap) :=
  if needed = false then some (true,buffer,h)
  else do
    let (answer,buffer,h) ← allocPlaneBuffer z granted h buffer
    some (decide (answer = 0),buffer,h)

/-- `alloc_scratch_buffers`, which is all of `zimg_pool_prepare`; whether it returned 0. -/
def allocScratchBuffers (g : Geometry) (grants : Grants) (s : Storage) : Option (Bool × Storage) := do
  let (ok,src,heap) ← allocSide z (!g.plan.srcZerocopy) grants.src s.heap s.src
  let s := { s with src := src, heap := heap }
  if ok = false then some (false,s)
  else do
    let (ok,dst,heap) ← allocSide z (!g.plan.dstZerocopy && !g.plan.colTiled) grants.dst s.heap s.dst
    some (ok,{ s with dst := dst, heap := heap })

/-- `alloc_tile_dst`. -/
def allocTileDst (g : Geometry) (granted : Plane → Bool) (w : StripeWorker) (r : Resources) (h : Heap) :
    Option (Bool × Resources × Heap) := do
  let layout ← initPlaneLayout w.cell.dstW (w.cell.dstYEnd - w.cell.dstYStart) g.subW g.subH
  let (answer,tile,h) ← allocPlaneBuffer z granted h { r.tileDst with layout := layout }
  some (decide (answer = 0),{ r with tileDst := tile },h)

/-- The temporary memory of a graph that asks for `size` bytes. -/
def allocTmp (granted : Bool) (size : Nat) (r : Resources) (h : Heap) : Option (Bool × Resources × Heap) :=
  let r := { r with tmpSize := size }
  if size > 0 then do
    let (tmp,h) ← h.alignedAlloc pitchAlign.toNat (z.alignUp pitchAlign.toNat size) granted
    some (tmp.isSome,{ r with tmp := tmp },h)
  else some (true,r,h)

/-- `build_worker_graph_and_tmp`. -/
def buildWorkerGraphAndTmp (grants : Grants) (i : Nat) (r : Resources) (h : Heap) : Option (Bool × Resources × Heap) :=
  if grants.graph i = false then some (false,{ r with graph := none },h)
  else
    let r := { r with graph := some h.next }
    let h := h.extend handleBytes
    match grants.tmpSize i with
    | none => some (false,r,h)
    | some size => allocTmp z (grants.tmp i) size r h

/-- What `init_stripe_worker` allocates. -/
def initStripeWorker (g : Geometry) (grants : Grants) (i : Nat) (w : StripeWorker) (r : Resources) (h : Heap) :
    Option (Bool × Resources × Heap) :=
  let r := { r with colTiled := w.colTiled }
  if r.colTiled then do
    let (ok,r,h) ← allocTileDst z g (grants.tile i) w r h
    if ok = false then some (false,r,h) else buildWorkerGraphAndTmp z grants i r h
  else buildWorkerGraphAndTmp z grants i r h

/-- What `zimg_pool_release` frees of a worker. -/
def releaseWorker (r : Resources) (h : Heap) : Option (Resources × Heap) := do
  let h ← h.free r.graph
  let h ← h.free r.tmp
  let r := { r with graph := none, tmp := none }
  if r.colTiled then do
    let (tile,h) ← freePlaneBuffer h r.tileDst
    some ({ r with tileDst := tile },h)
  else some (r,h)

def Storage.setWorker (s : Storage) (i : Nat) (r : Resources) (h : Heap) : Storage :=
  { s with heap := h, workers := Function.update s.workers i r }

/-- `zimg_pool_release`. -/
def poolRelease (s : Storage) (i : Nat) : Option Storage := do
  let (r,h) ← releaseWorker (s.workers i) s.heap
  some (s.setWorker i r h)

/-- `zimg_pool_construct`. -/
def poolConstruct (g : Geometry) (grants : Grants) (s : Storage) (i : Nat) : Option (Bool × Storage) :=
  match ZimgCells.poolConstruct g i with
  | none => some (false,s)
  | some w => do
    let (ok,r,h) ← initStripeWorker z g grants i w (s.workers i) s.heap
    let s := s.setWorker i r h
    if ok = false then do
      let s ← poolRelease s i
      some (false,s)
    else some (true,s)

/-- A hook that answered what the pool has recorded. -/
def recorded (ok : Bool) : Option (Bool × Storage) → Option Storage
  | some (answer,s) => if answer = ok then some s else none
  | none => none

/-- The hooks of `zimg_pool_ops`. There is nothing where a hook frees what it may not, or
    answers otherwise than the pool recorded. -/
def hook (g : Geometry) (grants : Grants) : Event → Storage → Option Storage
  | .prepare ok, s => recorded ok (allocScratchBuffers z g grants s)
  | .construct i ok, s => recorded ok (poolConstruct z g grants s i)
  | .release i, s => poolRelease s i
  | _, s => some s

/-- What a hook returns. -/
def answer (called : Option (Bool × Storage)) : Bool := called.any Prod.fst

/-- A start that meets the answers of the hooks. -/
def answered (g : Geometry) (grants : Grants) (s : Storage) (o : StartOutcome) : StartOutcome :=
  { o with prepare := answer (allocScratchBuffers z g grants s), construct := fun i => answer (poolConstruct z g grants s i) }

/-! ## Ownership -/

/-- What a worker may own. -/
inductive Item
  | tile (p : Plane)
  | graph
  | tmp
  deriving DecidableEq

/-- What the backend may own. -/
inductive Holding
  | priv
  | src (p : Plane)
  | dst (p : Plane)
  | worker (i : Nat) (item : Item)
  deriving DecidableEq

def Resources.held (r : Resources) : Item → Option Nat
  | .tile p => r.tileDst.data p
  | .graph => r.graph
  | .tmp => r.tmp

def Resources.bytes (r : Resources) : Item → Nat
  | .tile p => planeBytes z r.tileDst.layout p
  | .graph => handleBytes
  | .tmp => z.alignUp pitchAlign.toNat r.tmpSize

def Storage.held (s : Storage) : Holding → Option Nat
  | .priv => s.priv
  | .src p => s.src.data p
  | .dst p => s.dst.data p
  | .worker i item => (s.workers i).held item

def Storage.bytes (s : Storage) : Holding → Nat
  | .priv => handleBytes
  | .src p => planeBytes z s.src.layout p
  | .dst p => planeBytes z s.dst.layout p
  | .worker i item => (s.workers i).bytes z item

variable {z} {g : Geometry} {grants : Grants} {base : Nat → Option Nat} {r : Resources} {h : Heap} {s : Storage} {i : Nat}

section Planes
variable {ι : Type} {held held' : ι → Option Nat} {bytes bytes' : ι → Nat} {e : Plane → ι} {buffer : Buffer}
  (owned : Owned base held bytes h) (distinct : Function.Injective e) (here : ∀ p, held (e p) = buffer.data p)
include owned distinct here

/-- Planes that are allocated into empty slots of an owner. -/
theorem allocPlaneBuffer_owned {width height : Int} {subW subH : Nat} (halvedW : subW ≤ 1) (halvedH : subH ≤ 1)
    (granted : Plane → Bool) (layout : buffer.layout = layoutOf width height subW subH) (empty : ∀ p, buffer.data p = none) :
    ∃ answer after h', allocPlaneBuffer z granted h buffer = some (answer,after,h') ∧ after.layout = buffer.layout ∧
      (answer = 0 ↔ Sizable z width height subW subH ∧ ∀ p, granted p = true) ∧ (answer = 0 → ∀ p, after.data p ≠ none) ∧
      ∀ held' bytes', (∀ p, held' (e p) = after.data p) → (∀ p, bytes' (e p) = planeBytes z buffer.layout p) →
        (∀ i, (∀ p, e p ≠ i) → held' i = held i ∧ bytes' i = bytes i) → Owned base held' bytes' h' := by
  have multiple : ∀ p, 64 ∣ planeBytes z buffer.layout p := fun p => by
    rw [layout]
    exact planeBytes_dvd halvedW halvedH p
  have holds := @sizable_iff z width height subW subH halvedW halvedH
  rw [← layout] at holds
  have part := owned_part owned distinct
  have own : held ∘ e = buffer.data := funext here
  have start : Owned (besides (held ∘ e) h) buffer.data (planeBytes z buffer.layout) h := by
    rw [own] at part ⊢
    exact owned_bytes part fun p some => absurd (empty p) some
  by_cases total : planeBufferBytes z buffer.layout = z.max
  · refine ⟨-1,buffer,h,if_pos total,rfl,⟨fun zero => absurd zero (by decide),fun both => absurd total (holds.mp both.1).1⟩,
      fun zero => absurd zero (by decide),fun held' bytes' inside sized outside => owned_whole owned start inside sized outside⟩
  · obtain ⟨answer,after,h',run,same,after_owned,-,answered⟩ :=
      @allocPlanes_filled _ _ granted _ _ multiple planes (by decide) (fun p _ => empty p) start
    refine ⟨answer,after,h',(if_neg total).trans run,same,?_,?_,fun held' bytes' inside sized outside =>
      owned_whole owned after_owned inside sized outside⟩
    · rcases answered with ⟨rfl,all⟩ | ⟨rfl,p,-,reason⟩
      · exact ⟨fun _ => ⟨holds.mpr ⟨total,fun p member => (all p member).1⟩,fun p => (all p (mem_planes p)).2.1⟩,fun _ => rfl⟩
      · refine ⟨fun zero => absurd zero (by decide),fun both => ?_⟩
        rcases reason with nothing | refused
        · exact absurd nothing ((holds.mp both.1).2 p (mem_planes p))
        · rw [both.2 p] at refused
          cases refused
    · rcases answered with ⟨-,all⟩ | ⟨rfl,-⟩
      · exact fun _ p => (all p (mem_planes p)).2.2
      · exact fun zero => absurd zero (by decide)

/-- A side that is allocated only if it is needed. -/
theorem allocSide_owned {width height : Int} {subW subH : Nat} (halvedW : subW ≤ 1) (halvedH : subH ≤ 1) (needed : Bool)
    (granted : Plane → Bool) (layout : buffer.layout = layoutOf width height subW subH) (empty : ∀ p, buffer.data p = none) :
    ∃ ok after h', allocSide z needed granted h buffer = some (ok,after,h') ∧ after.layout = buffer.layout ∧
      (ok = true ↔ (needed = true → Sizable z width height subW subH ∧ ∀ p, granted p = true)) ∧
      (ok = true → needed = true → ∀ p, after.data p ≠ none) ∧
      ∀ held' bytes', (∀ p, held' (e p) = after.data p) → (∀ p, bytes' (e p) = planeBytes z buffer.layout p) →
        (∀ i, (∀ p, e p ≠ i) → held' i = held i ∧ bytes' i = bytes i) → Owned base held' bytes' h' := by
  cases needed with
  | false =>
    refine ⟨true,buffer,h,rfl,rfl,⟨fun _ odd => Bool.noConfusion odd,fun _ => rfl⟩,fun _ odd => Bool.noConfusion odd,
      fun held' bytes' inside sized outside => ?_⟩
    have part : Owned (besides (held ∘ e) h) buffer.data (planeBytes z buffer.layout) h := by
      have own : held ∘ e = buffer.data := funext here
      have held := owned_part owned distinct
      rw [own] at held ⊢
      exact owned_bytes held fun p some => absurd (empty p) some
    exact owned_whole owned part inside sized outside
  | true =>
    obtain ⟨answer,after,h',run,same,success,filled,rest⟩ :=
      allocPlaneBuffer_owned owned distinct here halvedW halvedH granted layout empty
    refine ⟨decide (answer = 0),after,h',?_,same,?_,fun ok _ => filled (of_decide_eq_true ok),rest⟩
    · simp only [allocSide,run]
      rfl
    · rw [decide_eq_true_iff,success]
      exact ⟨fun both _ => both,fun both => both rfl⟩

/-- Planes of an owner that are freed. -/
theorem freePlaneBuffer_owned : ∃ freed h', freePlaneBuffer h buffer = some (freed,h') ∧ (∀ p, freed.data p = none) ∧
    ∀ held' bytes', (∀ p, held' (e p) = none) → (∀ i, (∀ p, e p ≠ i) → held' i = held i ∧ bytes' i = bytes i) →
      Owned base held' bytes' h' := by
  have part := owned_part owned distinct
  have own : held ∘ e = buffer.data := funext here
  rw [own] at part
  obtain ⟨freed,h',run,after_owned,emptied⟩ := @freePlanes_owned _ _ _ _ planes part
  have nothing : ∀ p, freed.data p = none := fun p => emptied p (Or.inl (mem_planes p))
  refine ⟨freed,h',run,nothing,fun held' bytes' inside outside => ?_⟩
  rw [← own] at after_owned
  exact owned_whole owned (owned_bytes after_owned fun p some => absurd (nothing p) some)
    (fun p => (inside p).trans (nothing p).symm) (fun _ => rfl) outside

end Planes

/-- A plane that is held is an allocated one. -/
theorem held_allocated {width height : Int} {subW subH : Nat} {buffer : Buffer} {p : Plane} (halvedW : subW ≤ 1)
    (halvedH : subH ≤ 1) (layout : buffer.layout = layoutOf width height subW subH) (sizable : Sizable z width height subW subH)
    (given : buffer.data p ≠ none) (live : ∀ b, buffer.data p = some b → h.size b = some (planeBytes z buffer.layout p)) :
    Allocated width height subW subH buffer h p := by
  obtain ⟨pitch,lines,bytes⟩ := layoutOf_sizable halvedW halvedH sizable p
  obtain ⟨b,block⟩ := Option.ne_none_iff_exists'.mp given
  have size := live b block
  rw [layout] at size
  refine ⟨?_,?_,?_,b,_,block,size,planeBytes_dvd halvedW halvedH p,?_⟩
  · rw [layout,pitch]
    exact Int.dvd_mul_right 64 _
  · rw [layout,pitch,exactPitch]
    omega
  · rw [layout,lines]
    rfl
  · rw [layout,pitch,lines]
    exact bytes

/-! ## Workers -/

theorem tile_injective : Function.Injective Item.tile := fun _ _ same => Item.tile.inj same

/-- A worker that owns nothing. -/
def Resources.Empty (r : Resources) : Prop := ∀ item, r.held item = none

/-- A worker without a tile has no planes of its own. -/
def Resources.Tidy (r : Resources) : Prop := r.colTiled = false → ∀ p, r.tileDst.data p = none

/-- What the library and the allocator grant for the graph of a worker. -/
def GraphGranted (grants : Grants) (i : Nat) : Prop :=
  grants.graph i = true ∧ ∃ size, grants.tmpSize i = some size ∧ (0 < size → grants.tmp i = true)

/-- A worker with its graph and the memory that the graph asked for. -/
def Resources.Built (r : Resources) : Prop := r.graph ≠ none ∧ (0 < r.tmpSize → r.tmp ≠ none)

theorem allocTmp_spec (owned : Owned base r.held (r.bytes z) h) (empty : r.tmp = none) (granted : Bool) (size : Nat) :
    ∃ ok tmp h', allocTmp z granted size r h = some (ok,{ r with tmpSize := size, tmp := tmp },h') ∧
      Owned base { r with tmpSize := size, tmp := tmp }.held ({ r with tmpSize := size, tmp := tmp }.bytes z) h' ∧
      (ok = true ↔ (0 < size → granted = true)) ∧ (ok = true → 0 < size → tmp ≠ none) := by
  have sized : Owned base { r with tmpSize := size, tmp := none }.held ({ r with tmpSize := size, tmp := none }.bytes z) h := by
    rw [← empty]
    refine owned_bytes owned fun item holds => ?_
    cases item with
    | tmp => exact absurd empty holds
    | _ => rfl
  unfold allocTmp
  by_cases asked : size > 0
  · simp only [if_pos asked]
    cases granted with
    | false =>
      have request : h.alignedAlloc pitchAlign.toNat (z.alignUp pitchAlign.toNat size) false = some (none,h) :=
        alignedAlloc_refused alignUp_dvd
      rw [request]
      exact ⟨false,none,h,rfl,sized,⟨fun ok => Bool.noConfusion ok,fun all => Bool.noConfusion (all asked)⟩,
        fun ok => Bool.noConfusion ok⟩
    | true =>
      have request : h.alignedAlloc pitchAlign.toNat (z.alignUp pitchAlign.toNat size) true =
          some (some h.next,h.extend (z.alignUp pitchAlign.toNat size)) := alignedAlloc_granted alignUp_dvd
      rw [request]
      refine ⟨true,some h.next,_,rfl,?_,⟨fun _ _ => rfl,fun _ => rfl⟩,fun _ _ => Option.some_ne_none _⟩
      have filled : { r with tmpSize := size, tmp := some h.next }.held =
          Function.update { r with tmpSize := size, tmp := none }.held Item.tmp (some h.next) := by
        funext item
        cases item <;> simp [Resources.held]
      rw [filled]
      exact owned_alloc sized rfl
  · simp only [if_neg asked]
    refine ⟨true,none,h,?_,sized,⟨fun _ more => absurd more asked,fun _ => rfl⟩,fun _ more => absurd more asked⟩
    rw [← empty]

theorem buildWorkerGraphAndTmp_spec (grants : Grants) (i : Nat) (owned : Owned base r.held (r.bytes z) h) (noGraph : r.graph = none)
    (noTmp : r.tmp = none) :
    ∃ ok r' h', buildWorkerGraphAndTmp z grants i r h = some (ok,r',h') ∧ Owned base r'.held (r'.bytes z) h' ∧
      r'.colTiled = r.colTiled ∧ r'.tileDst = r.tileDst ∧ (ok = true ↔ GraphGranted grants i) ∧ (ok = true → r'.Built) := by
  unfold buildWorkerGraphAndTmp
  cases granted : grants.graph i with
  | false =>
    have same : { r with graph := none } = r := by rw [← noGraph]
    rw [if_pos rfl,same]
    exact ⟨false,r,h,rfl,owned,rfl,rfl,⟨fun ok => Bool.noConfusion ok,fun both => absurd (granted.symm.trans both.1) (by decide)⟩,
      fun ok => Bool.noConfusion ok⟩
  | true =>
    rw [if_neg (by decide)]
    have own : Owned base { r with graph := some h.next }.held ({ r with graph := some h.next }.bytes z) (h.extend handleBytes) := by
      have filled : { r with graph := some h.next }.held = Function.update r.held .graph (some h.next) := by
        funext item
        cases item <;> simp [Resources.held]
      rw [filled]
      exact owned_alloc owned noGraph
    dsimp only
    cases asked : grants.tmpSize i with
    | none =>
      refine ⟨false,_,_,rfl,own,rfl,rfl,⟨fun ok => Bool.noConfusion ok,?_⟩,fun ok => Bool.noConfusion ok⟩
      rintro ⟨-,size,same,-⟩
      rw [asked] at same
      cases same
    | some size =>
      obtain ⟨ok,tmp,h',run,after,enough,filled⟩ := allocTmp_spec own noTmp (grants.tmp i) size
      refine ⟨ok,_,h',run,after,rfl,rfl,?_,fun good => ⟨Option.some_ne_none _,filled good⟩⟩
      rw [enough]
      constructor
      · exact fun all => ⟨granted,size,asked,all⟩
      · rintro ⟨-,_,same,all⟩
        obtain rfl := Option.some.inj (asked.symm.trans same)
        exact all

/-- Whatever a worker owns is given back. -/
theorem releaseWorker_spec (owned : Owned base r.held (r.bytes z) h) (tidy : r.Tidy) :
    ∃ r' h', releaseWorker r h = some (r',h') ∧ Owned base r'.held (r'.bytes z) h' ∧ r'.Empty := by
  obtain ⟨h1,freeGraph,owned1⟩ := owned_free owned .graph
  obtain ⟨h2,freeTmp,owned2⟩ := owned_free owned1 .tmp
  have graph : h.free r.graph = some h1 := freeGraph
  have tmp : h1.free r.tmp = some h2 := freeTmp
  have cleared : { r with graph := none, tmp := none }.held = Function.update (Function.update r.held .graph none) .tmp none := by
    funext item
    cases item <;> simp [Resources.held]
  have own : Owned base { r with graph := none, tmp := none }.held ({ r with graph := none, tmp := none }.bytes z) h2 := by
    rw [cleared]
    exact owned2
  simp only [releaseWorker,graph,tmp,Option.bind_eq_bind,Option.bind_some]
  cases tiled : r.colTiled with
  | false =>
    refine ⟨{ r with colTiled := false, graph := none, tmp := none },h2,rfl,own,fun item => ?_⟩
    cases item with
    | tile p => exact tidy tiled p
    | _ => rfl
  | true =>
    rw [if_pos rfl]
    obtain ⟨freed,h3,run,nothing,rest⟩ := freePlaneBuffer_owned own tile_injective (fun _ => rfl)
    have run : freePlaneBuffer h2 r.tileDst = some (freed,h3) := run
    rw [run]
    refine ⟨_,h3,rfl,rest _ _ nothing fun item away => ?_,fun item => ?_⟩
    · cases item with
      | tile p => exact absurd rfl (away p)
      | _ => exact ⟨rfl,rfl⟩
    · cases item with
      | tile p => exact nothing p
      | _ => rfl

/-- The planes of a tile of this worker can be held. -/
def TileSizable (z : SizeT) (g : Geometry) (w : StripeWorker) : Prop :=
  Sizable z w.cell.dstW (w.cell.dstYEnd - w.cell.dstYStart) g.subW g.subH

/-- A worker has all planes of its tile. -/
def Tiled (g : Geometry) (w : StripeWorker) (r : Resources) : Prop :=
  r.tileDst.layout = layoutOf w.cell.dstW (w.cell.dstYEnd - w.cell.dstYStart) g.subW g.subH ∧ ∀ p, r.tileDst.data p ≠ none

/-- What the allocator and the library grant to worker `i`. -/
def WorkerGranted (z : SizeT) (g : Geometry) (grants : Grants) (i : Nat) (w : StripeWorker) : Prop :=
  (w.colTiled = true → TileSizable z g w ∧ ∀ p, grants.tile i p = true) ∧ GraphGranted grants i

section Subsampled
variable (halvedW : g.subW ≤ 1) (halvedH : g.subH ≤ 1)
include halvedW halvedH

theorem allocTileDst_spec (w : StripeWorker) (granted : Plane → Bool) (owned : Owned base r.held (r.bytes z) h) (empty : r.Empty) :
    ∃ ok tile h', allocTileDst z g granted w r h = some (ok,{ r with tileDst := tile },h') ∧
      Owned base { r with tileDst := tile }.held ({ r with tileDst := tile }.bytes z) h' ∧
      (ok = true ↔ TileSizable z g w ∧ ∀ p, granted p = true) ∧ (ok = true → Tiled g w { r with tileDst := tile }) := by
  have layout := @initPlaneLayout_eq w.cell.dstW (w.cell.dstYEnd - w.cell.dstYStart) _ _ halvedW halvedH
  simp only [allocTileDst,layout,Option.bind_eq_bind,Option.bind_some]
  generalize laid : layoutOf w.cell.dstW (w.cell.dstYEnd - w.cell.dstYStart) g.subW g.subH = room
  have here : ∀ p, r.held (Item.tile p) = ({ r.tileDst with layout := room } : Buffer).data p := fun _ => rfl
  obtain ⟨answer,tile,h',run,same,success,filled,rest⟩ := allocPlaneBuffer_owned owned tile_injective here halvedW halvedH granted
    laid.symm (fun p => empty (.tile p))
  rw [run]
  refine ⟨decide (answer = 0),tile,h',rfl,rest _ _ (fun _ => rfl) (fun p => ?_) (fun item away => ?_),?_,fun ok => ?_⟩
  · show planeBytes z tile.layout p = _
    rw [same]
  · cases item with
    | tile p => exact absurd rfl (away p)
    | _ => exact ⟨rfl,rfl⟩
  · rw [decide_eq_true_iff,success]
    rfl
  · exact ⟨same.trans laid.symm,filled (of_decide_eq_true ok)⟩

theorem initStripeWorker_spec (grants : Grants) (i : Nat) (w : StripeWorker) (owned : Owned base r.held (r.bytes z) h) (empty : r.Empty) :
    ∃ ok r' h', initStripeWorker z g grants i w r h = some (ok,r',h') ∧ Owned base r'.held (r'.bytes z) h' ∧ r'.Tidy ∧
      (ok = true ↔ WorkerGranted z g grants i w) ∧
      (ok = true → r'.Built ∧ (w.colTiled = true → Tiled g w r')) := by
  have bare : { r with colTiled := w.colTiled }.Empty := empty
  have own : Owned base { r with colTiled := w.colTiled }.held ({ r with colTiled := w.colTiled }.bytes z) h := owned
  unfold initStripeWorker WorkerGranted
  dsimp only
  cases tiled : w.colTiled with
  | false =>
    rw [tiled] at own
    obtain ⟨ok,r',h',run,after,sameTiled,sameTile,success,built⟩ :=
      buildWorkerGraphAndTmp_spec grants i own (empty .graph) (empty .tmp)
    rw [if_neg (by decide)]
    refine ⟨ok,r',h',run,after,fun _ p => ?_,?_,fun good => ⟨built good,fun odd => Bool.noConfusion odd⟩⟩
    · rw [sameTile]
      exact empty (.tile p)
    · rw [success]
      exact ⟨fun granted => ⟨fun odd => Bool.noConfusion odd,granted⟩,And.right⟩
  | true =>
    rw [tiled] at own bare
    obtain ⟨ok,tile,h1,run,after,success,filled⟩ := allocTileDst_spec halvedW halvedH w (grants.tile i) own bare
    rw [if_pos rfl,run]
    cases ok with
    | false =>
      refine ⟨false,_,h1,rfl,after,fun odd => Bool.noConfusion odd,?_,fun ok => Bool.noConfusion ok⟩
      refine ⟨fun ok => Bool.noConfusion ok,fun granted => success.mpr (granted.1 rfl)⟩
    | true =>
      obtain ⟨ok,r',h',runs,after',sameTiled,sameTile,success',built⟩ :=
        buildWorkerGraphAndTmp_spec grants i after (empty .graph) (empty .tmp)
      refine ⟨ok,r',h',runs,after',fun odd => ?_,?_,fun good => ⟨built good,fun _ => ?_⟩⟩
      · rw [sameTiled] at odd
        exact Bool.noConfusion odd
      · rw [success']
        exact ⟨fun granted => ⟨fun _ => success.mp rfl,granted⟩,And.right⟩
      · rw [Tiled,sameTile]
        exact filled rfl

end Subsampled

/-! ## The whole backend -/

theorem worker_injective (i : Nat) : Function.Injective (Holding.worker i) := fun _ _ same => (Holding.worker.inj same).2

/-- What one worker owns. -/
theorem worker_part (owned : Owned base s.held (s.bytes z) s.heap) (i : Nat) :
    Owned (besides (s.workers i).held s.heap) (s.workers i).held ((s.workers i).bytes z) s.heap :=
  owned_part owned (worker_injective i)

/-- A worker in the place of another one. -/
theorem setWorker_owned (owned : Owned base s.held (s.bytes z) s.heap)
    (inner : Owned (besides (s.workers i).held s.heap) r.held (r.bytes z) h) :
    Owned base (s.setWorker i r h).held ((s.setWorker i r h).bytes z) (s.setWorker i r h).heap := by
  have here : (s.setWorker i r h).workers i = r := Function.update_self ..
  have part : Owned (besides (s.held ∘ Holding.worker i) s.heap) r.held (r.bytes z) h := inner
  refine owned_whole owned part (fun item => ?_) (fun item => ?_) (fun k away => ?_)
  · show ((s.setWorker i r h).workers i).held item = _
    rw [here]
  · show ((s.setWorker i r h).workers i).bytes z item = _
    rw [here]
  · cases k with
    | worker j item =>
      have other : j ≠ i := by
        rintro rfl
        exact away item rfl
      have same : (s.setWorker i r h).workers j = s.workers j := Function.update_of_ne other ..
      simp only [Storage.held,Storage.bytes,same,and_self]
    | _ => exact ⟨rfl,rfl⟩

theorem recorded_same (ok : Bool) (s : Storage) : recorded ok (some (ok,s)) = some s := if_pos rfl

/-- A worker that is ready for frames. -/
structure Whole (z : SizeT) (g : Geometry) (i : Nat) (r : Resources) : Prop where
  built : r.Built
  tidy : r.Tidy
  tile : g.plan.colTiled = true →
    ∃ w, ZimgCells.poolConstruct g i = some w ∧ TileSizable z g w ∧ Tiled g w r

/-- What the backend keeps after `prepare` gave this answer, with these workers. -/
structure Keeps (z : SizeT) (g : Geometry) (base : Nat → Option Nat) (prepared : Option Bool) (live : Nat → Prop) (s : Storage) :
    Prop where
  owned : Owned base s.held (s.bytes z) s.heap
  priv : s.priv ≠ none
  srcLayout : s.src.layout = layoutOf g.srcW g.srcH g.subW g.subH
  dstLayout : s.dst.layout = layoutOf g.dstW g.dstH g.subW g.subH
  bare : prepared = none → ∀ p, s.src.data p = none ∧ s.dst.data p = none
  source : prepared = some true → g.plan.srcZerocopy = false →
    Sizable z g.srcW g.srcH g.subW g.subH ∧ ∀ p, s.src.data p ≠ none
  target : prepared = some true → g.plan.dstZerocopy = false → g.plan.colTiled = false →
    Sizable z g.dstW g.dstH g.subW g.subH ∧ ∀ p, s.dst.data p ≠ none
  whole : ∀ i, live i → Whole z g i (s.workers i)
  empty : ∀ i, ¬ live i → (s.workers i).Empty

variable {prepared : Option Bool} {live : Nat → Prop}

/-- A slot of the backend is given to a worker or taken from it. -/
theorem setWorker_keeps (keeps : Keeps z g base prepared live s)
    (inner : Owned (besides (s.workers i).held s.heap) r.held (r.bytes z) h) {live' : Nat → Prop}
    (others : ∀ j, j ≠ i → (live' j ↔ live j)) (whole : live' i → Whole z g i r) (empty : ¬ live' i → r.Empty) :
    Keeps z g base prepared live' (s.setWorker i r h) := by
  have here : (s.setWorker i r h).workers i = r := Function.update_self ..
  have away : ∀ j, j ≠ i → (s.setWorker i r h).workers j = s.workers j := fun j other => Function.update_of_ne other ..
  refine ⟨setWorker_owned keeps.owned inner,keeps.priv,keeps.srcLayout,keeps.dstLayout,keeps.bare,keeps.source,keeps.target,
    fun j alive => ?_,fun j gone => ?_⟩
  · by_cases same : j = i
    · subst same
      rw [here]
      exact whole alive
    · rw [away j same]
      exact keeps.whole j ((others j same).mp alive)
  · by_cases same : j = i
    · subst same
      rw [here]
      exact empty gone
    · rw [away j same]
      exact keeps.empty j fun alive => gone ((others j same).mpr alive)

/-- Releasing a live slot. -/
theorem poolRelease_spec (keeps : Keeps z g base prepared live s) (alive : live i) :
    ∃ t, poolRelease s i = some t ∧ Keeps z g base prepared (fun j => live j ∧ j ≠ i) t := by
  obtain ⟨r,h,run,owned,empty⟩ := releaseWorker_spec (worker_part keeps.owned i) (keeps.whole i alive).tidy
  simp only [poolRelease,run,Option.bind_eq_bind,Option.bind_some]
  exact ⟨_,rfl,setWorker_keeps keeps owned (fun j other => and_iff_left other) (fun odd => absurd rfl odd.2) fun _ => empty⟩

section Subsampled
variable (halvedW : g.subW ≤ 1) (halvedH : g.subH ≤ 1)
include halvedW halvedH

/-- Constructing an empty slot; what a failed construction had allocated is given back. -/
theorem poolConstruct_spec (grants : Grants) (keeps : Keeps z g base prepared live s) (gone : ¬ live i) :
    ∃ ok t, poolConstruct z g grants s i = some (ok,t) ∧
      (ok = true ↔ ∃ w, ZimgCells.poolConstruct g i = some w ∧ WorkerGranted z g grants i w) ∧
      Keeps z g base prepared (fun j => live j ∨ (j = i ∧ ok = true)) t := by
  have empty := keeps.empty i gone
  unfold poolConstruct
  cases found : ZimgCells.poolConstruct g i with
  | none =>
    refine ⟨false,s,rfl,⟨fun ok => Bool.noConfusion ok,?_⟩,?_⟩
    · rintro ⟨w,none,-⟩
      cases none
    · simpa using keeps
  | some w =>
    have tiled : w.colTiled = g.plan.colTiled := by
      obtain ⟨c,-,rfl⟩ := Option.map_eq_some_iff.mp found
      rfl
    obtain ⟨ok,r,h,run,owned,tidy,success,built⟩ :=
      initStripeWorker_spec halvedW halvedH grants i w (worker_part keeps.owned i) empty
    simp only [run,Option.bind_eq_bind,Option.bind_some]
    cases ok with
    | false =>
      have here : (s.setWorker i r h).workers i = r := Function.update_self ..
      obtain ⟨r',h',runs,owned',empty'⟩ := releaseWorker_spec owned tidy
      have released : poolRelease (s.setWorker i r h) i = some (s.setWorker i r' h') := by
        simp only [poolRelease,here]
        have heap : (s.setWorker i r h).heap = h := rfl
        rw [heap,runs]
        simp only [Option.bind_eq_bind,Option.bind_some,Storage.setWorker,Function.update_idem]
      rw [if_pos rfl,released]
      refine ⟨false,_,rfl,⟨fun ok => Bool.noConfusion ok,?_⟩,?_⟩
      · rintro ⟨w',same,granted⟩
        obtain rfl := Option.some.inj same
        exact success.mpr granted
      · refine setWorker_keeps keeps owned' (fun j _ => by simp) (fun alive => ?_) fun _ => empty'
        exact absurd alive (by simpa using gone)
    | true =>
      rw [if_neg (by decide)]
      refine ⟨true,_,rfl,⟨fun _ => ⟨w,rfl,success.mp rfl⟩,fun _ => rfl⟩,?_⟩
      refine setWorker_keeps keeps owned (fun j other => by simp [other]) (fun _ => ?_) fun dead => absurd (Or.inr ⟨rfl,rfl⟩) dead
      refine ⟨(built rfl).1,tidy,fun wide => ⟨w,found,?_,?_⟩⟩
      · exact ((success.mp rfl).1 (tiled.trans wide)).1
      · exact (built rfl).2 (tiled.trans wide)

/-- What the allocator grants to the sides that are copied. -/
def ScratchGranted (z : SizeT) (g : Geometry) (grants : Grants) : Prop :=
  (g.plan.srcZerocopy = false → Sizable z g.srcW g.srcH g.subW g.subH ∧ ∀ p, grants.src p = true) ∧
  (g.plan.dstZerocopy = false → g.plan.colTiled = false →
    Sizable z g.dstW g.dstH g.subW g.subH ∧ ∀ p, grants.dst p = true)

theorem allocScratchBuffers_spec (grants : Grants) (keeps : Keeps z g base none live s) :
    ∃ ok t, allocScratchBuffers z g grants s = some (ok,t) ∧ (ok = true ↔ ScratchGranted z g grants) ∧
      Keeps z g base (some ok) live t := by
  obtain ⟨ok,src,h1,run,same,success,filled,rest⟩ := allocSide_owned (e := Holding.src) keeps.owned
    (fun _ _ same => Holding.src.inj same) (fun _ => rfl) halvedW halvedH (!g.plan.srcZerocopy) grants.src keeps.srcLayout
    fun p => (keeps.bare rfl p).1
  have owned : Owned base { s with src := src, heap := h1 }.held ({ s with src := src, heap := h1 }.bytes z) h1 := by
    refine rest _ _ (fun _ => rfl) (fun p => ?_) (fun k away => ?_)
    · show planeBytes z src.layout p = _
      rw [same]
    · cases k with
      | src p => exact absurd rfl (away p)
      | _ => exact ⟨rfl,rfl⟩
  simp only [allocScratchBuffers,run,Option.bind_eq_bind,Option.bind_some]
  cases ok with
  | false =>
    refine ⟨false,_,rfl,⟨fun ok => Bool.noConfusion ok,fun granted => success.mpr fun copies => granted.1 (by simpa using copies)⟩,?_⟩
    exact ⟨owned,keeps.priv,same.trans keeps.srcLayout,keeps.dstLayout,by simp,by simp,by simp,keeps.whole,keeps.empty⟩
  | true =>
    rw [if_neg (by decide)]
    obtain ⟨ok,dst,h2,runs,same',success',filled',rest'⟩ := allocSide_owned (e := Holding.dst)
      owned (fun _ _ same => Holding.dst.inj same) (fun _ => rfl) halvedW halvedH
      (!g.plan.dstZerocopy && !g.plan.colTiled) grants.dst keeps.dstLayout fun p => (keeps.bare rfl p).2
    have owned' : Owned base { s with src := src, heap := h2, dst := dst }.held
        ({ s with src := src, heap := h2, dst := dst }.bytes z) h2 := by
      refine rest' _ _ (fun _ => rfl) (fun p => ?_) (fun k away => ?_)
      · show planeBytes z dst.layout p = _
        rw [same']
      · cases k with
        | dst p => exact absurd rfl (away p)
        | _ => exact ⟨rfl,rfl⟩
    rw [runs]
    have source : g.plan.srcZerocopy = false → Sizable z g.srcW g.srcH g.subW g.subH ∧ ∀ p, grants.src p = true :=
      fun copies => success.mp rfl (by simpa using copies)
    have target : ok = true ↔ (g.plan.dstZerocopy = false → g.plan.colTiled = false →
        Sizable z g.dstW g.dstH g.subW g.subH ∧ ∀ p, grants.dst p = true) := by
      rw [success']
      simp only [Bool.and_eq_true,Bool.not_eq_true',and_imp]
    refine ⟨ok,_,rfl,⟨fun good => ⟨source,target.mp good⟩,fun granted => target.mpr granted.2⟩,?_⟩
    refine ⟨owned',keeps.priv,same.trans keeps.srcLayout,same'.trans keeps.dstLayout,by simp,
      fun good copies => ⟨(source copies).1,filled rfl (by simpa using copies)⟩,fun good copies untiled => ?_,keeps.whole,keeps.empty⟩
    have whole : ok = true := Option.some.inj good
    exact ⟨(target.mp whole copies untiled).1,filled' whole (by simp [copies,untiled])⟩

/-! ## The rules of the pool -/

omit halvedW halvedH in
theorem zimg_releases (grants : Grants) : Releases ZimgProcess.zimgPoolOps (hook z g grants) (Keeps z g base) := by
  refine ⟨rfl,fun e t quiet => ?_,fun answered live i t keeps alive => poolRelease_spec keeps alive⟩
  cases e <;> first | rfl | exact Bool.noConfusion quiet

/-- The hooks of the backend keep the rules of its pool, which records what they answer. -/
theorem zimg_rules (grants : Grants) (o : StartOutcome) (start : Keeps z g base none (fun _ => False) s) :
    Rules ZimgProcess.zimgPoolOps (hook z g grants) (answered z g grants s o) (Keeps z g base) := by
  obtain ⟨prepared,_,prepares,ready,-⟩ := allocScratchBuffers_spec halvedW halvedH grants start
  refine ⟨zimg_releases grants,rfl,rfl,fun t keeps => ?_,fun answered live i t keeps gone => ?_⟩
  · obtain ⟨ok,t',run,success,after⟩ := allocScratchBuffers_spec halvedW halvedH grants keeps
    have answer : (answered z g grants s o).prepare = ok := by
      simp only [answered,prepares,ZimgStorage.answer,Option.any_some]
      rw [Bool.eq_iff_iff,ready,success]
    rw [answer]
    refine ⟨t',?_,after⟩
    rw [hook,run,recorded_same]
  · obtain ⟨ok,t',run,success,after⟩ := poolConstruct_spec halvedW halvedH grants keeps gone
    obtain ⟨first,_,runs,first_success,-⟩ := poolConstruct_spec (i := i) halvedW halvedH grants start (fun odd => odd)
    have answer : (ZimgStorage.answered z g grants s o).construct i = ok := by
      simp only [ZimgStorage.answered,runs,ZimgStorage.answer,Option.any_some]
      rw [Bool.eq_iff_iff,first_success,success]
    rw [answer]
    refine ⟨t',?_,after⟩
    rw [hook,run,recorded_same]

end Subsampled

end AutoUpscale.ZimgStorage
