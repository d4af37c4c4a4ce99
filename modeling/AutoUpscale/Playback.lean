import AutoUpscale.FilterLinked
import AutoUpscale.FleetMemory

/-!
The filter at play: with its backends, the pools that sharpen, and the memory. A call of
`Filter` finds the pictures as the player has filled them, the backend in use scales one
into the other, and what `ApplyUsmIfEnabled` asks for the pools then do to the output, in
place. So what a returned picture shows is known in every run (`playback_shows`).
-/
namespace AutoUpscale.Playback
open AutoUpscale.AdaptiveFleet (Serving Sizing Tailored apply_size begin_size create_tailored disabled_size serveLeaving serve_leaves)
open AutoUpscale.Blocks (Heap)
open AutoUpscale.Chroma (chromaToZimg)
open AutoUpscale.Filter hiding Block step
open AutoUpscale.FilterLinked hiding step
open AutoUpscale.Footprint (advance)
open AutoUpscale.PictureView (Picture PlaneView viewInit)
open AutoUpscale.Programs (Program)
open AutoUpscale.Rows
open AutoUpscale.Runs (run)
open AutoUpscale.SizeType (SizeT)
open AutoUpscale.Story (newer)
open AutoUpscale.Tuner (Double)
open AutoUpscale.UpscaleLogic (Dims)
open AutoUpscale.Usm
open AutoUpscale.UsmAdaptive (Timespec)
open AutoUpscale.UsmPool (Pool)
open AutoUpscale.ZimgCells (Geometry Graph Plane planeShift)
open AutoUpscale.ZimgFrame
open AutoUpscale.ZimgHeap (World geometryOf)
open AutoUpscale.ZimgHelpers (IoPlan)
open AutoUpscale.ZimgPictures (Separate geometry)
open AutoUpscale.ZimgPlaces
open AutoUpscale.ZimgProcess (ScalerCtx WorkerView dstRegion srcRegion)
open AutoUpscale.ZimgRuns (From Sizes apartFrame apartFrame_separate)
open AutoUpscale.ZimgWorker (Block Bytes Contract Image Library PlaneRef Result pictureView planeSize)
set_option linter.unusedSectionVars false
universe u
variable {R : Type u} [Double R]

/-- The filter, its pools, and what is in memory. -/
structure Player (R : Type u) where
  linked : Linked R
  pools : Nat → Option Pool
  memory : Bytes

/-- A call of `Filter`: the pictures with what the player has put into them, and what the
    system does. The workers of zimg get to their actions in some order, swscale makes
    something of the memory, and the scratch blocks of the pools hold anything. -/
structure Call where
  input : Option Picture
  pictures : Nat → UInt8
  newPicture : Option Picture
  clock : Option Timespec
  granted : Granted
  order : (n : Nat) → List (Fin n)
  swscaled : Bytes → Bytes
  scratch : UsmPool.Bytes
  allocated : Bool
  selected : UsmPool.Outcome
  recovered : UsmPool.Outcome
  start : Option Timespec
  finish : Option Timespec

/-- The memory that a call finds. -/
def given (memory : Bytes) (c : Call) : Bytes := fun a => if a.block = .pictures then c.pictures a.offset else memory a

/-- The bytes from the first one on that a view of the input shows. -/
def lumaBytes (ctx : ScalerCtx) (input : Option Picture) (memory : Bytes) : Int → UInt8 :=
  match input.bind fun pic => viewInit pic ctx.chroma (srcRegion ctx) with
  | none => fun _ => 0
  | some view => fun place => memory ⟨.pictures,((view.plane.getD 0 ⟨0,0⟩).pixels + place).toNat⟩

/-- The call for the filter and its backends, with what the pools answer. -/
def request (w : Player R) (c : Call) (usm : UsmAdaptive.Outcome) : Request :=
  ⟨c.input,lumaBytes w.linked.sys.ctx c.input (given w.memory c),c.newPicture,c.clock,usm,c.granted⟩

/-- The answers of pools that are not asked. -/
def unasked : UsmAdaptive.Outcome := ⟨false,.failedUnchanged,.failedUnchanged,0,none,none⟩

/-! ## Scaling -/

/-- Whether a worker is where the results say, after a dispatch that has completed or not. -/
def told (completed answer : Bool) : Program (Pointer Block) UInt8 Result → Bool
  | .done v => decide (v.result = 0) == answer
  | .act _ _ => !completed

variable (zimg : Library) (j : Job)

/-- What the workers of a dispatch leave. -/
def workersLeave (g : Geometry) (n m : Nat) (src dst : WorkerView) (completed : Bool) (c : Call) (memory : Bytes) : Option Bytes :=
  (run (advance Programs.step) (frameStart zimg g n m src dst memory) (c.order (n * m))).bind fun t =>
    if ∀ i : Fin (n * m), told completed (c.granted.results i) (t.cursor i) = true then some t.memory else none

/-- What a call of zimg leaves, which may have come to a dispatch. -/
def zimgLeaves (before after : World) (c : Call) (memory : Bytes) : Option Bytes :=
  match newer before.priv.trace after.priv.trace with
  | .dispatch plan src dst :: _ =>
    workersLeave zimg (geometryOf after.priv) plan.nRows.toNat plan.nCols.toNat src dst
      (after.priv.pool.inlineRun || c.granted.complete) c memory
  | _ => some memory

/-- What the call of `process` leaves, if there is one. -/
def processLeaves (w : Player R) (c : Call) : Option Bytes :=
  match w.linked.machine.engine,processed j w.linked (request w c unasked) with
  | .zimg before,some (⟨.zimg after,_⟩,_) => zimgLeaves zimg before after c (given w.memory c)
  | .swscale _ _,some (⟨.swscale _ _,_⟩,_) => some (c.swscaled (given w.memory c))
  | _,_ => some (given w.memory c)

/-! ## Sharpening -/

/-- The filter once the input has its number. -/
def numbered (s : Sys R) : Sys R := { s.emit (.input s.nextPicture) with nextPicture := s.nextPicture + 1 }

/-- The filter after the probe. -/
def probed (s : Sys R) (input : Picture) (luma : Int → UInt8) : Sys R :=
  if s.probeActive = true ∧ input.planes ≥ 1 then runProbe s input luma else s

/-- The filter when it calls `FinishScaledFrame`. -/
def arrived (s : Sys R) (b : Backend) (input : Picture) (o : Outcome) : Sys R :=
  let src := s.nextPicture
  let s := probed (numbered s) input o.luma
  let dst := s.nextPicture
  let s := { s.emit (.newPicture dst) with nextPicture := dst + 1 }
  { s with usm := UsmAdaptive.begin s.usm o.clock }.emit (.process b s.priv src dst o.status)

/-- The plane that `ApplyUsmIfEnabled` gives to `RunUsm`. -/
def usmPlane (s : Sys R) (pic : Picture) : Option PlaneView :=
  if s.usmAmountQ8 ≤ 0 ∨ s.usm.best = none ∨ pic.planes < 1 ∨ s.usmSkipSharp = true then none
  else (viewInit pic s.ctx.chroma (dstRegion s.ctx)).map fun view => view.plane.getD 0 ⟨0,0⟩

/-- The filter when it calls `RunUsm`, and the plane, if it comes to that. -/
def sharpens (s : Sys R) (input : Option Picture) (o : Outcome) : Option (Sys R × PlaneView) :=
  match s.backend,input,o.newPicture with
  | some b,some input,some pic =>
    if o.status = .ok then (usmPlane (arrived s b input o) pic).map fun plane => (arrived s b input o,plane) else none
  | _,_,_ => none

/-- The memory as the pools see it, and what they leave of it. -/
def planesOf (memory : Bytes) (scratch : UsmPool.Bytes) : UsmPool.Bytes := fun a =>
  if a.block = .plane then memory ⟨.pictures,a.offset⟩ else scratch a

def withPlanes (memory : Bytes) (planes : UsmPool.Bytes) : Bytes := fun a =>
  if a.block = .pictures then planes ⟨.plane,a.offset⟩ else memory a

/-- `up_usm_adaptive_apply` as `RunUsm` calls it. -/
def serving (s : Sys R) (plane : PlaneView) (c : Call) (memory : Bytes) : Serving :=
  ⟨planesOf memory c.scratch,⟨some plane.pixels,plane.pitch,some plane.pixels,plane.pitch,s.usmAmountQ8⟩,c.allocated,c.selected,
    c.recovered,c.start,c.finish⟩

/-! ## Frames -/

/-- `Filter` at play. -/
def filterPlayer (w : Player R) (c : Call) : Option (Player R × Option Nat) :=
  (processLeaves zimg j w c).bind fun memory =>
    match sharpens w.linked.sys c.input (outcomeOf j w.linked (request w c unasked)) with
    | none => (filterLinked j w.linked (request w c unasked)).map fun out => (⟨out.1,w.pools,memory⟩,out.2)
    | some (s,plane) =>
      (serveLeaving ⟨s.usm,w.pools⟩ (serving s plane c memory)).bind fun l =>
        (filterLinked j w.linked (request w c l.answers)).map fun out =>
          (⟨out.1,l.pools,withPlanes memory l.memory⟩,out.2)

def step (w : Player R) (c : Call) : Option (Player R) := (filterPlayer zimg j w c).map Prod.fst

/-- What the opening is given and settles first: the crop of the source and the target. -/
structure Setup (R : Type u) where
  filter : FilterT R
  options : Tunable → Int
  outcome : OpenOutcome
  crop : SourceCrop
  target : Dims

def Setup.config (u : Setup R) : Config R := openedConfig u.filter u.options u.outcome u.crop u.target

/-- The pool that `InitUsmPool` creates. -/
def basePools (u : Setup R) : Nat → Option Pool := fun number =>
  if number = 0 then
    UsmPool.create (usmThreadsDecide (threadsPref u.options) u.outcome.cores u.target.width u.target.height) u.target.width
      u.target.height (inheritIntSat u.options .usmStripeMinRows)
  else none

/-- The filter as it is opened, with anything in memory. -/
def openPlayer (zimgLinked : Bool) (u : Setup R) (heap : Heap) (g : Granted) (memory : Bytes) : Option (Player R) :=
  (openLinked j zimgLinked u.config heap g).map fun linked => ⟨linked,basePools u,memory⟩

/-! ## The end of a frame -/

variable {s t : Sys R} {o : Outcome} {pic : Picture} {b : Backend} {src dst number : Nat} {view : PlaneView}

theorem probed_same (s : Sys R) (input : Picture) (luma : Int → UInt8) : Same s (probed s input luma) := by
  rw [probed]
  split_ifs
  · exact runProbe_same s input luma
  · exact ⟨rfl,rfl,rfl,rfl⟩

/-- A frame that has been scaled comes to `FinishScaledFrame`. -/
theorem filter_arrived (live : s.backend = some b) (allocated : o.newPicture = some pic) (ok : o.status = .ok) (input : Picture) :
    filter s (some input) o = finishScaledFrame (arrived s b input o) s.nextPicture (s.nextPicture + 1) pic o.usm ∧
      (arrived s b input o).trace =
        .process b s.priv s.nextPicture (s.nextPicture + 1) .ok :: .newPicture (s.nextPicture + 1) :: .input s.nextPicture :: s.trace := by
  obtain ⟨scaler,-,numbers,trace⟩ := probed_same (numbered s) input o.luma
  have number : (probed (numbered s) input o.luma).nextPicture = s.nextPicture + 1 := numbers
  have priv : ∀ e, ((probed (numbered s) input o.luma).emit e).priv = s.priv := fun _ => congrArg Scaler.priv scaler
  have backend : (numbered s).backend = some b := live
  have framed : filter s (some input) o = filterFrame (numbered s) s.nextPicture input o := rfl
  refine ⟨?_,?_⟩
  · rw [framed,filterFrame,backend,allocated,← number]
    show scaleFrame _ b _ _ pic o = _
    rw [scaleFrame,if_neg (by simp [ok])]
    rfl
  · rw [arrived,ok]
    simp only [emit_trace,priv,number,trace]
    rfl

theorem finish_plain (plain : usmPlane s pic = none) (usm : UsmAdaptive.Outcome) :
    finishScaledFrame s src dst pic usm = ((s.emit (.release src)).emit (.deliver dst),some dst) := by
  have skipped : applyUsmIfEnabled s dst pic usm = (s,.ok) := by
    rw [usmPlane] at plain
    rw [applyUsmIfEnabled]
    split_ifs at plain ⊢
    · rfl
    · rw [Option.map_eq_none_iff.mp plain]
  simp only [finishScaledFrame,skipped]
  rfl

theorem finish_sharpened (plane : usmPlane s pic = some view) {usm : UsmAdaptive.Outcome}
    (back : finishScaledFrame s src dst pic usm = (t,some number)) : number = dst ∧
      (UsmAdaptive.apply s.usm usm).2 ≠ .outputUncertain ∧
      t.trace = .deliver dst :: .release src :: .sharpen dst (UsmAdaptive.apply s.usm usm).2 :: s.trace := by
  have tried : applyUsmIfEnabled s dst pic usm = runUsm s dst usm := by
    rw [usmPlane] at plane
    rw [applyUsmIfEnabled]
    split_ifs at plane ⊢
    obtain ⟨v,viewed,-⟩ := Option.map_eq_some_iff.mp plane
    rw [viewed]
  obtain ⟨-,-,trace,sharpened⟩ := runUsm_spec s dst usm
  rw [finishScaledFrame,tried] at back
  generalize runUsm s dst usm = ran at trace sharpened back
  obtain ⟨u,status⟩ := ran
  dsimp only at trace sharpened back
  generalize (UsmAdaptive.apply s.usm usm).2 = answer at trace sharpened ⊢
  cases sharpened with
  | tried =>
    split_ifs at back with uncertain
    · cases back
    obtain ⟨rfl,same⟩ := Prod.mk.inj back
    refine ⟨(Option.some.inj same).symm,uncertain,?_⟩
    simp only [Sys.emit,trace,List.singleton_append]

/-! ## The luma that is sharpened -/

/-- An image with its luma sharpened. -/
def sharpenedFrame (width height : Nat) (amountQ8 : Int) (image : Image) : Image
  | .y, y, x => byte (sharpened (fun y x => (image .y y x).toNat) width height (clampAmountQ8 amountQ8) x y)
  | p, y, x => image p y x

variable {memory : Bytes} {scratch : UsmPool.Bytes} {p : Pool} {r : UsmPool.Applied} {usm : UsmPool.Outcome} {amount : Int}

theorem withPlanes_same (memory : Bytes) (scratch : UsmPool.Bytes) : withPlanes memory (planesOf memory scratch) = memory := by
  funext a
  obtain ⟨block,offset⟩ := a
  rw [withPlanes]
  split_ifs with pictures
  · obtain rfl : block = .pictures := pictures
    rfl
  · rfl

/-- A pool that succeeds sharpens the plane, and nothing else changes. -/
theorem served_luma {width height : Nat} {luma : PlaneView} (inv : UsmPool.Inv width height p) (wide : 0 < width) (positive : 0 < amount)
    (applied : UsmPool.apply p (planesOf memory scratch) ⟨some luma.pixels,luma.pitch,some luma.pixels,luma.pitch,amount⟩ usm = some r)
    (ok : r.status = .ok) :
    (∀ y x, y < height → x < width → withPlanes memory r.memory (PlaneRef.pixel ⟨⟨.pictures,luma.pixels⟩,luma.pitch⟩ x y) =
      byte (sharpened (fun y x => (memory (PlaneRef.pixel ⟨⟨.pictures,luma.pixels⟩,luma.pitch⟩ x y)).toNat) width height
        (clampAmountQ8 amount) x y)) ∧
    ∀ a, a ∉ PlaneRef.area ⟨⟨.pictures,luma.pixels⟩,luma.pitch⟩ 0 width 0 height → withPlanes memory r.memory a = memory a := by
  have planes : UsmPool.SameOrApart width height ⟨some luma.pixels,luma.pitch,some luma.pixels,luma.pitch,amount⟩ := Or.inl rfl
  have sharpens : clampAmountQ8 amount ≠ 0 := by
    simp only [clampAmountQ8,amountQ8Max]
    split_ifs <;> omega
  refine ⟨fun y x row column => ?_,fun a outside => ?_⟩
  · have value := UsmPool.apply_ok inv wide planes applied ok column row
    rw [UsmPool.promised,if_neg sharpens] at value
    calc withPlanes memory r.memory _ = byte (bytesAt r.memory (rowAt ⟨.plane,luma.pixels⟩ luma.pitch.toNat y) x) :=
          UInt8.ofNat_toNat.symm
      _ = _ := congrArg byte value
  · rw [withPlanes]
    split_ifs with pictures
    · rw [UsmPool.apply_frame (k := ⟨.plane,a.offset⟩) inv wide planes applied ok rfl fun inside => ?_]
      · obtain ⟨block,offset⟩ := a
        obtain rfl : block = .pictures := pictures
        rfl
      · obtain ⟨y,_,below,member⟩ := inside
        obtain ⟨x,within,same⟩ := mem_row_iff.mp member
        refine outside ⟨y,x,Nat.zero_le y,below,Nat.zero_le x,within,?_⟩
        obtain ⟨block,offset⟩ := a
        obtain rfl : block = .pictures := pictures
        exact congrArg (Pointer.mk Block.pictures) (congrArg Pointer.offset same)
    · rfl

section Frame
variable {z : SizeT} {g : Geometry} {n m : Nat} {srcView dstView : WorkerView} {image result : Image}

/-- A pool that succeeds leaves the output with its luma sharpened, and the source alone. -/
theorem served_shows (setting : Setting z g n m srcView dstView) (seen : ShowsImage srcView (sourceSize g) image memory)
    (shown : ShowsImage dstView (targetSize g) result memory) (inv : UsmPool.Inv g.dstW.toNat g.dstH.toNat p) (positive : 0 < amount)
    (applied : UsmPool.apply p (planesOf memory scratch)
      ⟨some dstView.y.pixels,dstView.y.pitch,some dstView.y.pixels,dstView.y.pitch,amount⟩ usm = some r) (ok : r.status = .ok) :
    ShowsImage srcView (sourceSize g) image (withPlanes memory r.memory) ∧
      ShowsImage dstView (targetSize g) (sharpenedFrame g.dstW.toNat g.dstH.toNat amount result) (withPlanes memory r.memory) := by
  have wide : 0 < g.dstW.toNat := by have := setting.aligned.dstW; omega
  have size : targetSize g .y = (g.dstW.toNat,g.dstH.toNat) := by simp [targetSize,planeSize,planeShift]
  obtain ⟨luma,kept⟩ := served_luma inv wide positive applied ok
  -- the luma is sharpened in place, so it lies in its plane of the output
  have own : (pictureView dstView .y).area 0 g.dstW.toNat 0 g.dstH.toNat ⊆ targetPlane g dstView .y := by
    have room := setting.pictures.dstPitch .y
    rw [size] at room
    refine area_mono (le_refl _) (by omega) (le_refl _) (le_of_eq ?_)
    rw [size]
  refine ⟨fun q y x row column => ?_,fun q y x row column => ?_⟩
  · have member : (pictureView srcView q).pixel x y ∈ sourcePlane g srcView q := mem_area (Nat.zero_le y) row (Nat.zero_le x) column
    rw [kept _ fun inside => Set.disjoint_left.mp (setting.pictures.apart q .y) member (own inside)]
    exact seen q y x row column
  · have other (q : Plane) (different : q ≠ .y) (row : y < (targetSize g q).2) (column : x < (targetSize g q).1) :
        withPlanes memory r.memory ((pictureView dstView q).pixel x y) = result q y x := by
      have room := setting.pictures.dstPitch q
      have member : (pictureView dstView q).pixel x y ∈ targetPlane g dstView q :=
        mem_area (Nat.zero_le y) row (Nat.zero_le x) (by omega)
      rw [kept _ fun inside => Set.disjoint_left.mp (setting.pictures.separate q .y different) member (own inside)]
      exact shown q y x row column
    cases q with
    | y =>
      rw [size] at row column
      refine (luma y x row column).trans (congrArg byte (sharpened_congr (fun y x row column => ?_) column row))
      exact congrArg UInt8.toNat (shown .y y x (by rwa [size]) (by rwa [size]))
    | u => exact other .u (by decide) row column
    | v => exact other .v (by decide) row column

end Frame

/-! ## Runs -/

/-- The amount is the one that was chosen, or sharpening is off, and the choice of a pool is
    for the target. -/
def Settled (ctx : ScalerCtx) (chosen amount : Int) (w : UsmAdaptive.World R) : Prop :=
  (amount = chosen ∨ amount = 0) ∧ Sizing ctx.dstW ctx.dstH w

/-- What every run keeps. -/
structure Playing (j : Job) (pref : Int) (ctx : ScalerCtx) (chosen : Int) (heap : Heap) (w : Player R) : Prop where
  joined : Joined j pref ctx heap w.linked.sys w.linked.machine
  settled : Settled ctx chosen w.linked.sys.usmAmountQ8 w.linked.sys.usm
  tailored : Tailored ctx.dstW ctx.dstH w.pools

variable {ctx : ScalerCtx} {w : UsmAdaptive.World R} {pref chosen level : Int}

theorem settled_disabled (settled : Settled ctx chosen level w) : Settled ctx chosen 0 (disabled w) :=
  ⟨Or.inr rfl,(disabled_size w).sizing settled.2⟩

theorem settled_begin (settled : Settled ctx chosen level w) (clock : Option Timespec) :
    Settled ctx chosen level (UsmAdaptive.begin w clock) :=
  ⟨settled.1,(begin_size w clock).sizing settled.2⟩

theorem settled_apply (settled : Settled ctx chosen level w) (usm : UsmAdaptive.Outcome) :
    Settled ctx chosen level (UsmAdaptive.apply w usm).1 :=
  ⟨settled.1,(apply_size w usm).sizing settled.2⟩

theorem filter_settled (settled : Settled ctx chosen s.usmAmountQ8 s.usm) (input : Option Picture) (o : Outcome) :
    Settled ctx chosen (filter s input o).1.usmAmountQ8 (filter s input o).1.usm :=
  filter_usm (P := Settled ctx chosen) (fun _ _ => settled_disabled) (fun _ _ clock settled => settled_begin settled clock)
    (fun _ _ usm settled => settled_apply settled usm) settled input o

theorem arrived_settled (settled : Settled ctx chosen s.usmAmountQ8 s.usm) (b : Backend) (input : Picture) (o : Outcome) :
    Settled ctx chosen (arrived s b input o).usmAmountQ8 (arrived s b input o).usm := by
  have watched : Settled ctx chosen (probed (numbered s) input o.luma).usmAmountQ8 (probed (numbered s) input o.luma).usm := by
    rw [probed]
    split_ifs
    · exact runProbe_usm (P := Settled ctx chosen) (s := numbered s) (fun _ _ => settled_disabled) settled input o.luma
    · exact settled
  exact settled_begin watched o.clock

/-- `InitUsmPool` makes the choice of a pool for the target. -/
theorem config_settled (u : Setup R) : Settled u.config.ctx u.config.usmAmountQ8 u.config.usmAmountQ8 u.config.usm := by
  refine ⟨Or.inl rfl,?_⟩
  have off : ∀ w : UsmAdaptive.World R, w.adaptive.enabled = false → Sizing u.target.width u.target.height w :=
    fun w off on => absurd (off.symm.trans on) (by decide)
  show Sizing u.target.width u.target.height (initUsmPool (R := R) u.options u.filter.fmtIn.chroma.toNat u.target u.outcome.cores
    (openConfig u.options).usm u.outcome.poolAllocated).2.1
  simp only [initUsmPool]
  split_ifs
  · exact off _ rfl
  · split
    · exact off _ rfl
    · cases u.outcome.poolAllocated with
      | false => exact off _ rfl
      | true =>
        show Sizing _ _ (initAdaptiveUsm _ _ _ _ _ _)
        simp only [initAdaptiveUsm]
        split_ifs
        · exact off _ rfl
        · exact off _ rfl
        · exact fun _ => ⟨rfl,rfl⟩

section Runs
variable {zimg : Library} {j : Job} {heap : Heap} {cfg : Config R} {w w' : Player R} {c : Call} {result : Option Nat}

/-- How a call of `Filter` goes: without the pools or with them. -/
inductive Plays (zimg : Library) (j : Job) (w : Player R) (c : Call) : Player R → Option Nat → Prop
  | plain (memory : Bytes) (leaves : processLeaves zimg j w c = some memory)
      (off : sharpens w.linked.sys c.input (outcomeOf j w.linked (request w c unasked)) = none) (linked : Linked R) (result : Option Nat)
      (answered : filterLinked j w.linked (request w c unasked) = some (linked,result)) :
      Plays zimg j w c ⟨linked,w.pools,memory⟩ result
  | sharpened (memory : Bytes) (leaves : processLeaves zimg j w c = some memory) (s : Sys R) (plane : PlaneView)
      (asked : sharpens w.linked.sys c.input (outcomeOf j w.linked (request w c unasked)) = some (s,plane)) (l : AdaptiveFleet.Left)
      (served : serveLeaving ⟨s.usm,w.pools⟩ (serving s plane c memory) = some l) (linked : Linked R) (result : Option Nat)
      (answered : filterLinked j w.linked (request w c l.answers) = some (linked,result)) :
      Plays zimg j w c ⟨linked,l.pools,withPlanes memory l.memory⟩ result

theorem filterPlayer_plays (played : filterPlayer zimg j w c = some (w',result)) : Plays zimg j w c w' result := by
  obtain ⟨memory,leaves,rest⟩ := Option.bind_eq_some_iff.mp played
  cases asked : sharpens w.linked.sys c.input (outcomeOf j w.linked (request w c unasked)) with
  | none =>
    rw [asked] at rest
    obtain ⟨⟨linked,answer⟩,answered,same⟩ := Option.map_eq_some_iff.mp rest
    obtain ⟨rfl,rfl⟩ := Prod.mk.inj same
    exact .plain memory leaves asked linked answer answered
  | some arrival =>
    obtain ⟨s,plane⟩ := arrival
    rw [asked] at rest
    obtain ⟨l,served,rest⟩ := Option.bind_eq_some_iff.mp rest
    obtain ⟨⟨linked,answer⟩,answered,same⟩ := Option.map_eq_some_iff.mp rest
    obtain ⟨rfl,rfl⟩ := Prod.mk.inj same
    exact .sharpened memory leaves s plane asked l served linked answer answered

/-- The filter sharpens a picture that a backend has scaled. -/
theorem sharpens_some {s t : Sys R} {input : Option Picture} {o : Outcome} {plane : PlaneView}
    (asked : sharpens s input o = some (t,plane)) : ∃ b picture pic, s.backend = some b ∧ input = some picture ∧
      o.newPicture = some pic ∧ o.status = .ok ∧ t = arrived s b picture o ∧ usmPlane t pic = some plane := by
  unfold sharpens at asked
  split at asked
  · rename_i b picture pic live allocated
    split_ifs at asked with ok
    obtain ⟨v,found,same⟩ := Option.map_eq_some_iff.mp asked
    obtain ⟨rfl,rfl⟩ := Prod.mk.inj same
    exact ⟨b,picture,pic,live,rfl,allocated,ok,rfl,found⟩
  · cases asked

theorem linked_playing (playing : Playing j pref ctx chosen heap w) {r : Request} {linked : Linked R}
    (answered : filterLinked j w.linked r = some (linked,result)) :
    Joined j pref ctx heap linked.sys linked.machine ∧ Settled ctx chosen linked.sys.usmAmountQ8 linked.sys.usm := by
  obtain ⟨_,_,ran,filtered,joined,-⟩ := filterLinked_joined playing.joined r
  obtain ⟨rfl,rfl⟩ := Prod.mk.inj (Option.some.inj (ran.symm.trans answered))
  have settled := filter_settled playing.settled r.input (outcomeOf j w.linked r)
  rw [filtered] at settled
  exact ⟨joined,settled⟩

theorem filterPlayer_playing (playing : Playing j pref ctx chosen heap w) (played : filterPlayer zimg j w c = some (w',result)) :
    Playing j pref ctx chosen heap w' := by
  cases filterPlayer_plays played with
  | plain memory leaves off linked result answered =>
    obtain ⟨joined,settled⟩ := linked_playing playing answered
    exact ⟨joined,settled,playing.tailored⟩
  | sharpened memory leaves s plane asked l served linked result answered =>
    obtain ⟨joined,settled⟩ := linked_playing playing answered
    obtain ⟨b,input,pic,-,-,-,-,rfl,-⟩ := sharpens_some asked
    obtain ⟨-,tailored,-⟩ := serve_leaves (arrived_settled playing.settled b input _).2 playing.tailored served
    exact ⟨joined,settled,tailored⟩

theorem run_playing {calls : List Call} (playing : Playing j pref ctx chosen heap w) (executed : run (step zimg j) w calls = some w') :
    Playing j pref ctx chosen heap w' := by
  refine Runs.reachable_preserves (fun w c w' playing moved => ?_) playing ⟨calls,executed⟩
  obtain ⟨⟨_,_⟩,played,rfl⟩ := Option.map_eq_some_iff.mp moved
  exact filterPlayer_playing playing played

theorem openFilter_usm {s : Sys R} {opens : Backend → Bool} (opened : openFilter cfg opens = some s) :
    s.usmAmountQ8 = cfg.usmAmountQ8 ∧ s.usm = cfg.usm := by
  obtain ⟨be,-,tried⟩ := Option.bind_eq_some_iff.mp opened
  have same := openScalerOrFallback_rest (configured cfg) be opens cfg.usmAmountQ8 cfg.usmSharpThreshold cfg.usm cfg.probeAdvice
    cfg.probeActive false
  simp only at tried
  split_ifs at tried
  obtain rfl := Option.some.inj tried
  exact ⟨congrArg (fun out => out.1.usmAmountQ8) same,congrArg (fun out => out.1.usm) same⟩

theorem openPlayer_playing {zimgLinked : Bool} {u : Setup R} {g : Granted} {memory : Bytes}
    (opened : openPlayer j zimgLinked u heap g memory = some w) :
    Playing j u.config.backendPref u.config.ctx u.config.usmAmountQ8 heap w := by
  obtain ⟨linked,started,rfl⟩ := Option.map_eq_some_iff.mp opened
  obtain ⟨s,configured,rest⟩ := Option.bind_eq_some_iff.mp started
  obtain ⟨m,played,rfl⟩ := Option.map_eq_some_iff.mp rest
  obtain ⟨m',opens,joined⟩ := openLinked_joined configured
  obtain ⟨-,rfl⟩ := Linked.mk.inj (Option.some.inj (started.symm.trans opens))
  obtain ⟨amount,usm⟩ := openFilter_usm configured
  have amount : s.usmAmountQ8 = u.config.usmAmountQ8 := amount
  have usm : s.usm = u.config.usm := usm
  refine ⟨joined,?_,fun number p found => ?_⟩
  · show Settled u.config.ctx u.config.usmAmountQ8 s.usmAmountQ8 s.usm
    rw [amount,usm]
    exact config_settled u
  · have found : basePools u number = some p := found
    rw [basePools] at found
    split_ifs at found
    exact create_tailored found

/-! ## What a returned picture shows -/

section Shown
variable {resample : Graph → Image → Image} {subW subH : Nat} {swap : Bool} {before world : World} {src dst : Picture} {number : Nat}
  {r : Request} {m : Machine} {plan : IoPlan} {srcView dstView : WorkerView}

/-- A call of zimg that has answered. -/
theorem processed_zimg {l : Linked R} (ran : processed j l r = some (m,.ok)) (inUse : m.engine = .zimg world) (input : r.input = some src)
    (output : r.newPicture = some dst) : ∃ before, l.machine.engine = .zimg before ∧
      ZimgHeap.processWorld j.z l.sys.ctx before ⟨frameOf src dst r.granted,r.granted.grants⟩ = some (world,.ok) := by
  obtain ⟨b,-,rest⟩ := Option.bind_eq_some_iff.mp ran
  rw [input,output] at rest
  simp only [Option.bind_eq_bind,Option.bind_some,Machine.process] at rest
  split at rest
  · rename_i before used
    obtain ⟨⟨after,status⟩,called,same⟩ := Option.bind_eq_some_iff.mp rest
    obtain ⟨rfl,rfl⟩ := Prod.mk.inj (Option.some.inj same)
    obtain rfl := Engine.zimg.inj inUse
    exact ⟨before,used,called⟩
  · obtain ⟨priv,-,same⟩ := Option.bind_eq_some_iff.mp rest
    obtain ⟨rfl,-⟩ := Prod.mk.inj (Option.some.inj same)
    cases inUse
  · cases rest

/-- The dispatch of a frame that zimg has answered, on planes that its plan can take. -/
structure Dispatched (j : Job) (ctx : ScalerCtx) (subW subH : Nat) (swap : Bool) (src dst : Picture) (g : Granted) (before world : World)
    (plan : IoPlan) (srcView dstView : WorkerView) (k l : Nat) : Prop where
  history : world.priv.trace = .dispatch plan srcView dstView :: .inspect :: before.priv.trace
  shown : From ctx swap (frameOf src dst g) srcView dstView
  threads : plan.nThreads = (k * l : Nat)
  shape : geometryOf world.priv = geometry ctx subW subH plan
  setting : Setting j.z (geometry ctx subW subH plan) k l srcView dstView
  completed : (world.priv.pool.inlineRun || g.complete) = true
  results : ∀ i : Fin (k * l), g.results i = true

theorem processed_dispatched {g : Granted} {heap : Heap} (planar : chromaToZimg ctx.chroma = some (subW,subH,swap))
    (sizes : Sizes ctx subW subH) (separate : Separate src dst)
    (good : ZimgHeap.Good j.z ctx j.nThreads subW subH swap heap.size before)
    (called : ZimgHeap.processWorld j.z ctx before ⟨frameOf src dst g,g.grants⟩ = some (world,.ok)) :
    ∃ plan srcView dstView k l, Dispatched j ctx subW subH swap src dst g before world plan srcView dstView k l := by
  obtain ⟨_,_,ran,answered,good'⟩ := ZimgHeap.processWorld_good planar good ⟨frameOf src dst g,g.grants⟩
  obtain ⟨rfl,rfl⟩ := Prod.mk.inj (Option.some.inj (called.symm.trans ran))
  have success := (ZimgRuns.process_steady (f := ZimgHeap.started j.z ctx before ⟨frameOf src dst g,g.grants⟩) good.steady trivial).2
  have completed := ZimgProcess.process_completed ctx before.priv
    (ZimgHeap.started j.z ctx before ⟨frameOf src dst g,g.grants⟩)
  rw [answered] at success completed
  obtain ⟨plan,srcView,dstView,history,shown,results⟩ := success rfl
  have member : .dispatch plan srcView dstView ∈ world.priv.trace := history ▸ List.mem_cons_self
  obtain ⟨k,l,threads,setting,-⟩ := ZimgHeap.dispatched_setting planar sizes good' member shown separate
  obtain ⟨-,same,-⟩ := good'.steady.inv.dispatched plan srcView dstView member
  refine ⟨plan,srcView,dstView,k,l,history,shown,threads,same ▸ good'.shape,setting,completed rfl,fun i => results i ?_⟩
  rw [threads]
  exact i.isLt

/-- What the workers of such a frame leave. -/
theorem dispatched_leaves {k l : Nat} {memory left : Bytes} {image : Image} (contract : Contract zimg resample)
    (dispatched : Dispatched j ctx subW subH swap src dst c.granted before world plan srcView dstView k l)
    (seen : ShowsImage srcView (sourceSize (geometry ctx subW subH plan)) image memory)
    (leaves : zimgLeaves zimg before world c memory = some left) :
    ShowsImage srcView (sourceSize (geometry ctx subW subH plan)) image left ∧
      ShowsImage dstView (targetSize (geometry ctx subW subH plan))
        (resampledFrame resample (geometry ctx subW subH plan) k l image) left := by
  obtain ⟨history,-,-,shape,setting,completed,results⟩ := dispatched
  have rows : plan.nRows.toNat = k := by rw [show plan.nRows = k from setting.aligned.rows]; rfl
  have cols : plan.nCols.toNat = l := by rw [show plan.nCols = l from setting.aligned.cols]; rfl
  have new : newer before.priv.trace world.priv.trace = [.dispatch plan srcView dstView,.inspect] := by
    rw [history]
    exact Story.newer_append [_,_] before.priv.trace
  rw [zimgLeaves,new] at leaves
  dsimp only at leaves
  rw [shape,rows,cols,completed] at leaves
  obtain ⟨t,executed,kept⟩ := Option.bind_eq_some_iff.mp leaves
  split_ifs at kept with ended
  obtain rfl := Option.some.inj kept
  have resampled := frame_resampled setting contract seen executed
  refine ⟨left_source setting resampled seen,left_shows setting.aligned resampled fun i => ?_⟩
  have done := ended i
  rw [results i] at done
  cases cursor : t.cursor i with
  | act write rest => simp [cursor,told] at done
  | done v =>
    rw [cursor,told] at done
    exact ⟨v,rfl,by simpa using done⟩

/-- What a frame leaves that comes to `FinishScaledFrame` with zimg in use. -/
theorem scaled_shows {linked : Linked R} {usm : UsmAdaptive.Outcome} {left : Bytes} (contract : Contract zimg resample)
    (planar : chromaToZimg ctx.chroma = some (subW,subH,swap)) (sizes : Sizes ctx subW subH) (playing : Playing j pref ctx chosen heap w)
    (input : c.input = some src) (output : c.newPicture = some dst) (separate : Separate src dst)
    (answered : filterLinked j w.linked (request w c usm) = some (linked,some number)) (inUse : linked.machine.engine = .zimg world)
    (leaves : processLeaves zimg j w c = some left) : ∃ before plan srcView dstView k l, w.linked.machine.engine = .zimg before ∧
      Dispatched j ctx subW subH swap src dst c.granted before world plan srcView dstView k l ∧
      ShowsImage srcView (sourceSize (geometry ctx subW subH plan)) (imageOf srcView (given w.memory c)) left ∧
      ShowsImage dstView (targetSize (geometry ctx subW subH plan))
        (resampledFrame resample (geometry ctx subW subH plan) k l (imageOf srcView (given w.memory c))) left := by
  obtain ⟨_,_,ran,-,-,scaled⟩ := filterLinked_joined playing.joined (request w c usm)
  obtain ⟨rfl,rfl⟩ := Prod.mk.inj (Option.some.inj (answered.symm.trans ran))
  have processed : processed j w.linked (request w c unasked) = some (linked.machine,.ok) := (scaled number rfl).1
  obtain ⟨before,used,called⟩ := processed_zimg processed inUse input output
  rw [playing.joined.context] at called
  obtain ⟨_,_,_,planar',good⟩ := running_zimg playing.joined.running used
  obtain ⟨rfl,same⟩ := Prod.mk.inj (Option.some.inj (planar.symm.trans planar'))
  obtain ⟨rfl,rfl⟩ := Prod.mk.inj same
  obtain ⟨plan,srcView,dstView,k,l,dispatched⟩ := processed_dispatched planar sizes separate good called
  have zimgLeft : zimgLeaves zimg before world c (given w.memory c) = some left := by
    rw [processLeaves,used,processed] at leaves
    generalize linked.machine = m at leaves inUse
    obtain ⟨engine,quarantined⟩ := m
    obtain rfl : engine = .zimg world := inUse
    exact leaves
  exact ⟨before,plan,srcView,dstView,k,l,used,dispatched,dispatched_leaves contract dispatched (imageOf_shown _ _ _) zimgLeft⟩

theorem arrived_ctx (s : Sys R) (b : Backend) (input : Picture) (o : Outcome) : (arrived s b input o).ctx = s.ctx := by
  show (probed (numbered s) input o.luma).ctx = s.ctx
  rw [probed]
  split_ifs
  · exact (runProbe_quiet (numbered s) input o.luma).ctx
  · rfl

/-- The plane that is sharpened is the luma of the output that zimg has been given. -/
theorem usmPlane_luma {s : Sys R} {g : Granted} {plane : PlaneView} (context : s.ctx = ctx)
    (shown : From ctx swap (frameOf src dst g) srcView dstView) (found : usmPlane s dst = some plane) :
    0 < s.usmAmountQ8 ∧ plane = dstView.y := by
  obtain ⟨p,srcShown,dstShown,-,viewed,-,rfl⟩ := shown
  obtain ⟨-,output⟩ := ZimgProcess.frameViewsInit_some viewed
  have output : viewInit dst ctx.chroma (dstRegion ctx) = some dstShown := output
  rw [usmPlane] at found
  split_ifs at found with off
  obtain ⟨view,again,same⟩ := Option.map_eq_some_iff.mp found
  rw [context,output] at again
  obtain rfl := Option.some.inj again
  exact ⟨by omega,same.symm⟩

/-- The end of a frame whose picture is returned. -/
theorem filterLinked_finish {linked : Linked R} {usm : UsmAdaptive.Outcome} (playing : Playing j pref ctx chosen heap w)
    (live : w.linked.sys.backend = some b) (input : c.input = some src) (output : c.newPicture = some dst)
    (answered : filterLinked j w.linked (request w c usm) = some (linked,some number)) :
    (outcomeOf j w.linked (request w c unasked)).status = .ok ∧
      finishScaledFrame (arrived w.linked.sys b src (outcomeOf j w.linked (request w c unasked))) w.linked.sys.nextPicture
        (w.linked.sys.nextPicture + 1) dst usm = (linked.sys,some number) ∧
      (arrived w.linked.sys b src (outcomeOf j w.linked (request w c unasked))).trace =
        .process b w.linked.sys.priv w.linked.sys.nextPicture (w.linked.sys.nextPicture + 1) .ok ::
          .newPicture (w.linked.sys.nextPicture + 1) :: .input w.linked.sys.nextPicture :: w.linked.sys.trace := by
  obtain ⟨_,_,ran,filtered,-,scaled⟩ := filterLinked_joined playing.joined (request w c usm)
  obtain ⟨rfl,rfl⟩ := Prod.mk.inj (Option.some.inj (answered.symm.trans ran))
  have processed : processed j w.linked (request w c unasked) = some (linked.machine,.ok) := (scaled number rfl).1
  have ok : (outcomeOf j w.linked (request w c unasked)).status = .ok := by simp [outcomeOf,processed]
  obtain ⟨finish,trace⟩ := filter_arrived (o := outcomeOf j w.linked (request w c usm)) live output ok src
  have called : filter w.linked.sys (some src) (outcomeOf j w.linked (request w c usm)) = (linked.sys,some number) := by
    rw [← filtered,← input]
    rfl
  exact ⟨ok,finish.symm.trans called,trace⟩

/-- The events of a frame whose picture is returned by zimg, the last one first. -/
def returnedTrace (s : Sys R) (number : Nat) (sharp : List Event) : List Event :=
  .deliver number :: .release s.nextPicture :: (sharp ++
    .process .zimg s.priv s.nextPicture number .ok :: .newPicture number :: .input s.nextPicture :: s.trace)

/-- A frame that is returned as zimg has scaled it. -/
theorem returned_plain {linked : Linked R} {usm : UsmAdaptive.Outcome} (playing : Playing j pref ctx chosen heap w)
    (live : w.linked.sys.backend = some .zimg) (input : c.input = some src) (output : c.newPicture = some dst)
    (off : sharpens w.linked.sys c.input (outcomeOf j w.linked (request w c unasked)) = none)
    (answered : filterLinked j w.linked (request w c usm) = some (linked,some number)) :
    linked.sys.trace = returnedTrace w.linked.sys number [] := by
  obtain ⟨ok,finish,trace⟩ := filterLinked_finish playing live input output answered
  have plain : usmPlane (arrived w.linked.sys .zimg src (outcomeOf j w.linked (request w c unasked))) dst = none := by
    have allocated : (outcomeOf j w.linked (request w c unasked)).newPicture = some dst := output
    unfold sharpens at off
    rw [live,input,allocated] at off
    simpa [ok] using off
  rw [finish_plain plain] at finish
  obtain ⟨final,same⟩ := Prod.mk.inj finish
  obtain rfl := Option.some.inj same
  rw [← final]
  simp only [emit_trace,trace]
  rfl

/-- What the pools leave of a picture that has been scaled, where they do not spoil it. -/
theorem sharpened_shows {z : SizeT} {g : Geometry} {n m : Nat} {image result : Image} {memory : Bytes} {s : Sys R}
    {pools : Nat → Option Pool} {l : AdaptiveFleet.Left} (setting : Setting z g n m srcView dstView) (width : g.dstW = ctx.dstW)
    (height : g.dstH = ctx.dstH) (seen : ShowsImage srcView (sourceSize g) image memory)
    (shown : ShowsImage dstView (targetSize g) result memory) (settled : Settled ctx chosen s.usmAmountQ8 s.usm)
    (tailored : Tailored ctx.dstW ctx.dstH pools) (positive : 0 < s.usmAmountQ8)
    (served : serveLeaving ⟨s.usm,pools⟩ (serving s dstView.y c memory) = some l)
    (certain : (UsmAdaptive.apply s.usm l.answers).2 ≠ .outputUncertain) :
    ShowsImage srcView (sourceSize g) image (withPlanes memory l.memory) ∧
      ShowsImage dstView (targetSize g)
        (if (UsmAdaptive.apply s.usm l.answers).2 = .ok then sharpenedFrame ctx.dstW.toNat ctx.dstH.toNat chosen result else result)
        (withPlanes memory l.memory) := by
  obtain ⟨-,-,failed,succeeded⟩ := serve_leaves settled.2 tailored served
  generalize (UsmAdaptive.apply s.usm l.answers).2 = status at certain failed succeeded ⊢
  cases status with
  | outputUncertain => exact absurd rfl certain
  | failedUnchanged =>
    have same : l.memory = planesOf memory c.scratch := failed rfl
    rw [same,withPlanes_same,if_neg (by simp)]
    exact ⟨seen,shown⟩
  | ok =>
    obtain ⟨p,usm,r,inv,applied,ok,left⟩ := succeeded rfl
    have amount : s.usmAmountQ8 = chosen := by
      rcases settled.1 with same | off
      · exact same
      · omega
    rw [← width,← height] at inv ⊢
    rw [if_pos rfl,left,← amount]
    exact served_shows setting seen shown inv positive applied ok

/-- What a picture shows that the filter returns while zimg is in use: the source resampled,
    and where it has been sharpened, with the luma of that sharpened. -/
theorem returned_shows (contract : Contract zimg resample) (planar : chromaToZimg ctx.chroma = some (subW,subH,swap))
    (sizes : Sizes ctx subW subH) (playing : Playing j pref ctx chosen heap w) (input : c.input = some src) (output : c.newPicture = some dst)
    (separate : Separate src dst) (returned : filterPlayer zimg j w c = some (w',some number))
    (inUse : w'.linked.machine.engine = .zimg world) : ∃ before plan srcView dstView k l status sharp,
      w.linked.machine.engine = .zimg before ∧
      Dispatched j ctx subW subH swap src dst c.granted before world plan srcView dstView k l ∧
      w'.linked.sys.trace = returnedTrace w.linked.sys number sharp ∧ Sharpened number status sharp ∧ status ≠ .outputUncertain ∧
      ShowsImage srcView (sourceSize (geometry ctx subW subH plan)) (imageOf srcView (given w.memory c)) w'.memory ∧
      ShowsImage dstView (targetSize (geometry ctx subW subH plan))
        (if sharp = [.sharpen number .ok] then
          sharpenedFrame ctx.dstW.toNat ctx.dstH.toNat chosen
            (resampledFrame resample (geometry ctx subW subH plan) k l (imageOf srcView (given w.memory c)))
        else resampledFrame resample (geometry ctx subW subH plan) k l (imageOf srcView (given w.memory c))) w'.memory := by
  have zimgUsed {before : World} (used : w.linked.machine.engine = .zimg before) : w.linked.sys.backend = some .zimg := by
    rw [← playing.joined.inUse,used]
    rfl
  cases filterPlayer_plays returned with
  | plain memory leaves off linked _ answered =>
    obtain ⟨before,plan,srcView,dstView,k,l,used,dispatched,seen,shown⟩ :=
      scaled_shows contract planar sizes playing input output separate answered inUse leaves
    refine ⟨before,plan,srcView,dstView,k,l,.ok,[],used,dispatched,?_,.skipped,by simp,seen,?_⟩
    · exact returned_plain playing (zimgUsed used) input output off answered
    · rw [if_neg (by simp)]
      exact shown
  | sharpened memory leaves s plane asked answers served linked _ answered =>
    obtain ⟨before,plan,srcView,dstView,k,l,used,dispatched,seen,shown⟩ :=
      scaled_shows contract planar sizes playing input output separate answered inUse leaves
    obtain ⟨-,finish,trace⟩ := filterLinked_finish playing (zimgUsed used) input output answered
    obtain ⟨b,picture,pic,live,input',output',-,rfl,found⟩ := sharpens_some asked
    obtain rfl := Option.some.inj (live.symm.trans (zimgUsed used))
    obtain rfl := Option.some.inj (input'.symm.trans input)
    obtain rfl := Option.some.inj (output'.symm.trans output)
    obtain ⟨rfl,certain,final⟩ := finish_sharpened found finish
    have settled := arrived_settled playing.settled .zimg picture (outcomeOf j w.linked (request w c unasked))
    have context := (arrived_ctx w.linked.sys .zimg picture (outcomeOf j w.linked (request w c unasked))).trans playing.joined.context
    obtain ⟨positive,rfl⟩ := usmPlane_luma context dispatched.shown found
    obtain ⟨seen,shown⟩ := sharpened_shows dispatched.setting rfl rfl seen shown settled playing.tailored positive served certain
    refine ⟨before,plan,srcView,dstView,k,l,_,[_],used,dispatched,?_,.tried _,certain,seen,?_⟩
    · rw [final,trace]
      rfl
    · simpa only [List.cons.injEq,and_true,Event.sharpen.injEq,true_and] using shown

/-- What a picture shows that the filter returns while zimg is in use, from the opening on
    and in every run, for a library of which only the contract is known and whatever the
    interleavings of the workers of zimg and of the pools: the source resampled by the
    graphs of the plan, and where the frame has been sharpened, with its luma sharpened by
    the amount that was settled. The source itself is still shown. -/
theorem playback_shows {zimgLinked : Bool} {u : Setup R} {g : Granted} {memory : Bytes} {w0 : Player R} {calls : List Call}
    (contract : Contract zimg resample) (planar : chromaToZimg u.config.ctx.chroma = some (subW,subH,swap))
    (sizes : Sizes u.config.ctx subW subH) (opened : openPlayer j zimgLinked u heap g memory = some w0)
    (executed : run (step zimg j) w0 calls = some w) (input : c.input = some src) (output : c.newPicture = some dst)
    (separate : Separate src dst) (returned : filterPlayer zimg j w c = some (w',some number))
    (inUse : w'.linked.machine.engine = .zimg world) : ∃ before plan srcView dstView k l status sharp, w.linked.machine.engine = .zimg before ∧
      Dispatched j u.config.ctx subW subH swap src dst c.granted before world plan srcView dstView k l ∧
      w'.linked.sys.trace = returnedTrace w.linked.sys number sharp ∧ Sharpened number status sharp ∧ status ≠ .outputUncertain ∧
      ShowsImage srcView (sourceSize (geometry u.config.ctx subW subH plan)) (imageOf srcView (given w.memory c)) w'.memory ∧
      ShowsImage dstView (targetSize (geometry u.config.ctx subW subH plan))
        (if sharp = [.sharpen number .ok] then
          sharpenedFrame u.config.ctx.dstW.toNat u.config.ctx.dstH.toNat u.config.usmAmountQ8
            (resampledFrame resample (geometry u.config.ctx subW subH plan) k l (imageOf srcView (given w.memory c)))
        else resampledFrame resample (geometry u.config.ctx subW subH plan) k l (imageOf srcView (given w.memory c))) w'.memory :=
  returned_shows contract planar sizes (run_playing (openPlayer_playing opened) executed) input output separate returned inUse

end Shown

end Runs

/-- A filter that doubles 4 by 4 pixels in two stripes, and sharpens in four. -/
def stripes : Setup ℚ :=
  let chroma := UInt32.ofNat (Chroma.fourcc 'I' '4' '2' '0')
  let options : Tunable → Int
    | .zimgStripeLines => 2
    | .zerocopyDst => 1
    | .zerocopySrc => 1
    | .usmStripeMinRows => 2
    | name => Filter.sharpening name
  { filter := { unopened with fmtIn := ⟨chroma,4,4,4,4,0,0⟩ }, options := options, outcome := Filter.granted, crop := ⟨⟨4,4⟩,0,0⟩,
    target := ⟨8,8⟩ }

/-- Each worker in turn, for so many of its actions. -/
def inTurn (count : Nat) : (n : Nat) → List (Fin n) := fun n => (List.finRange n).flatMap fun i => List.replicate count i

def resized (pic : Picture) (side : Nat) : Picture := { pic with width := side, height := side, visibleWidth := side, visibleHeight := side }

/-- A picture for `stripes`; a worker of zimg needs 96 actions, one that sharpens six. -/
def stripesCall : Call :=
  let served : UsmPool.Outcome := ⟨apartFrame.start,inTurn 6,true,apartFrame.stop⟩
  { input := some (resized apartFrame.src 4), pictures := UInt8.ofNat, newPicture := some (resized apartFrame.dst 8),
    clock := some ⟨0,0⟩, granted := FilterLinked.granted true, order := inTurn 96, swscaled := id, scratch := fun _ => 0,
    allocated := true, selected := served, recovered := served, start := some ⟨0,0⟩, finish := some ⟨1,0⟩ }

/-- With a zimg that samples points, the first picture comes back sharpened. -/
theorem playback_shows_sharpened : ∃ w0 w' world plan srcView dstView k l,
    openPlayer job true stripes Blocks.vacant (FilterLinked.granted true) (fun _ => 0) = some w0 ∧
    filterPlayer ZimgPoint.pointProcess job w0 stripesCall = some (w',some 1) ∧ w'.linked.machine.engine = .zimg world ∧
    world.priv.trace.head? = some (.dispatch plan srcView dstView) ∧ plan.nThreads = (k * l : Nat) ∧
    ShowsImage dstView (targetSize (geometry stripes.config.ctx 1 1 plan))
      (sharpenedFrame 8 8 256 (resampledFrame ZimgPoint.pointResample (geometry stripes.config.ctx 1 1 plan) k l
        (imageOf srcView (given w0.memory stripesCall)))) w'.memory := by
  have shown : ((openPlayer job true stripes Blocks.vacant (FilterLinked.granted true) fun _ => 0).bind fun w0 =>
      (filterPlayer ZimgPoint.pointProcess job w0 stripesCall).map fun out =>
        ((out.2,out.1.linked.machine.engine.backend),out.1.linked.sys.trace[2]?)) =
      some ((some 1,some .zimg),some (.sharpen 1 .ok)) := by decide +kernel
  obtain ⟨w0,opened,shown⟩ := Option.bind_eq_some_iff.mp shown
  obtain ⟨⟨w',result⟩,returned,same⟩ := Option.map_eq_some_iff.mp shown
  simp only [Prod.mk.injEq] at same
  obtain ⟨⟨rfl,backend⟩,third⟩ := same
  obtain ⟨world,engine⟩ : ∃ world, w'.linked.machine.engine = .zimg world := by
    cases engine : w'.linked.machine.engine with
    | idle h => simp [engine,Engine.backend] at backend
    | swscale p h => simp [engine,Engine.backend] at backend
    | zimg world => exact ⟨world,rfl⟩
  have planar : chromaToZimg stripes.config.ctx.chroma = some (1,1,false) := by decide
  have sizes : Sizes stripes.config.ctx 1 1 := ⟨by decide,by decide,by decide⟩
  have separate : Separate (resized apartFrame.src 4) (resized apartFrame.dst 8) :=
    ⟨apartFrame_separate.apart,apartFrame_separate.separate⟩
  have ran : run (step ZimgPoint.pointProcess job) w0 [] = some w0 := rfl
  obtain ⟨before,plan,srcView,dstView,k,l,status,sharp,-,dispatched,trace,sharpened,-,-,shows⟩ :=
    playback_shows ZimgPoint.pointProcess_contract planar sizes opened ran rfl rfl separate returned engine
  refine ⟨w0,w',world,plan,srcView,dstView,k,l,opened,returned,engine,?_,dispatched.threads,?_⟩
  · rw [dispatched.history]
    rfl
  · rw [trace] at third
    cases sharpened with
    | skipped => simp [returnedTrace] at third
    | tried =>
      simp only [returnedTrace,List.singleton_append,List.getElem?_cons_succ,List.getElem?_cons_zero,Option.some.injEq] at third
      rwa [if_pos (by rw [third])] at shows

end AutoUpscale.Playback
