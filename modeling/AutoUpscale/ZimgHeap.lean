import AutoUpscale.ZimgRuns
import AutoUpscale.ZimgStorage

/-!
The zimg backend with its heap, from opening to closing. In every sequence of frames the
hooks allocate once, free only what they own and never twice; the workers of every frame
find the buffers that their plan asks for, and closing gives everything back or, where a
thread cannot be joined, keeps it (`zimg_storage`). Whatever their interleaving, the
workers resample their cells, inside these buffers, and a frame that is answered with
success shows its source resampled (`zimg_frames_resample`).
-/
namespace AutoUpscale.ZimgHeap
open AutoUpscale.Blocks AutoUpscale.PlaneBuffer AutoUpscale.SizeType
open AutoUpscale.Chroma (chromaToZimg chromaToZimg_sub)
open AutoUpscale.Footprint (advance)
open AutoUpscale.Runs (run run_preserves)
open AutoUpscale.Story (newer play)
open AutoUpscale.WorkerPool (Played Pool StartOutcome StopOutcome Stopped Untouched played_newer played_start)
open AutoUpscale.ZimgCells (Aligned Geometry Graph Plane)
open AutoUpscale.ZimgFrame
open AutoUpscale.ZimgHelpers (IoPlan resolveIoPlan)
open AutoUpscale.ZimgPictures (Separate geometry views_pictures)
open AutoUpscale.ZimgPlaces (Buffered Pictures Setting sourceSize targetSize worker)
open AutoUpscale.ZimgProcess
open AutoUpscale.ZimgRuns (From Gridded Sizes Steady apartFrame apartFrame_separate apartSource apartTarget copying counting
  throughBuffers)
open AutoUpscale.ZimgStorage
open AutoUpscale.ZimgWorker (Contract Image Library)

/-- The backend with what it has allocated. -/
structure World where
  priv : Priv
  storage : Storage

/-- A frame, and what is granted where it starts the pool. -/
structure Request where
  frame : Frame
  grants : Grants

/-- What the hooks find in `zimg_priv_t`. -/
def geometryOf (p : Priv) : Geometry := ⟨p.subW,p.subH,p.srcW,p.srcH,p.dstW,p.dstH,p.plan⟩

/-- A slot as `calloc` leaves it. -/
def noWorker : Resources := ⟨false,⟨fun _ => none,⟨fun _ => 0,fun _ => 0⟩⟩,none,0,none⟩

variable (z : SizeT)

/-- `zimg_open` with a heap. -/
def openWorld (ctx : ScalerCtx) (nThreads : Int) (allocated : Bool) (heap : Heap) : Option World := do
  let p ← zimgOpen ctx nThreads allocated
  let src ← initPlaneLayout ctx.srcW ctx.srcH p.subW p.subH
  let dst ← initPlaneLayout ctx.dstW ctx.dstH p.subW p.subH
  some ⟨p,⟨heap.extend handleBytes,some heap.next,⟨fun _ => none,src⟩,⟨fun _ => none,dst⟩,fun _ => noWorker⟩⟩

/-- The backend as a start in this frame finds it. -/
def planned (ctx : ScalerCtx) (p : Priv) (f : Frame) : Priv :=
  match frameViewsInit ctx f.src f.dst with
  | none => p
  | some (src,dst) => prepareFirstFrameIo p ctx src dst

/-- The frame with what the hooks answer in a start. -/
def started (ctx : ScalerCtx) (w : World) (r : Request) : Frame :=
  { r.frame with start := answered z (geometryOf (planned ctx w.priv r.frame)) r.grants w.storage r.frame.start }

/-- `zimg_process` with the hooks that it calls. -/
def processWorld (ctx : ScalerCtx) (w : World) (r : Request) : Option (World × Status) := do
  let (priv,status) := process ctx w.priv (started z ctx w r)
  let storage ← play (hook z (geometryOf (planned ctx w.priv r.frame)) r.grants) w.storage
    (newer w.priv.pool.trace priv.pool.trace)
  some (⟨priv,storage⟩,status)

/-- One frame. -/
def step (ctx : ScalerCtx) (w : World) (r : Request) : Option World := (processWorld z ctx w r).map Prod.fst

/-- A close starts nothing. -/
def noGrants : Grants := ⟨fun _ => false,fun _ => false,fun _ _ => false,fun _ => false,fun _ => none,fun _ => false⟩

/-- `zimg_close`; whether the pool was destroyed, and the heap. -/
def close (w : World) (o : StopOutcome) : Option (Bool × Heap) := do
  let (pool,destroyed) := WorkerPool.destroy zimgPoolOps w.priv.pool o
  let s ← play (hook z (geometryOf w.priv) noGrants) w.storage (newer w.priv.pool.trace pool.trace)
  if destroyed = false then some (false,s.heap)
  else do
    let (_,h) ← freePlaneBuffer s.heap s.src
    let (_,h) ← freePlaneBuffer h s.dst
    let h ← h.free s.priv
    some (true,h)

/-! ## Frames -/

/-- What the backend has of the storage between two frames. -/
def Kept (z : SizeT) (base : Nat → Option Nat) (p : Priv) (s : Storage) : Prop :=
  ∃ prepared, Keeps z (geometryOf p) base prepared (· < p.pool.nWorkers) s ∧
    (p.pool.lazyDone = true → prepared = some true) ∧ (p.pool.lazyDone = false → p.pool.lazyFailed = false → prepared = none)

/-- The hooks over the events since `before` leave the storage as the backend needs it. -/
def Reached (z : SizeT) (base : Nat → Option Nat) (g : Geometry) (grants : Grants) (s : Storage) (before : List WorkerPool.Event)
    (p : Priv) : Prop :=
  geometryOf p = g ∧ ∃ prepared, Played (hook z g grants) (Keeps z g base) s before p.pool.trace prepared (· < p.pool.nWorkers) ∧
    (p.pool.lazyDone = true → prepared = some true) ∧ (p.pool.lazyDone = false → p.pool.lazyFailed = false → prepared = none)

variable {z} {ctx : ScalerCtx} {base : Nat → Option Nat} {g : Geometry} {grants : Grants} {s : Storage} {p : Priv} {f : Frame}
  {before : List WorkerPool.Event} {src dst : PictureView.View}

theorem reached_kept (reached : Reached z base g grants s before p) :
    ∃ t, play (hook z g grants) s (newer before p.pool.trace) = some t ∧ Kept z base p t := by
  obtain ⟨rfl,prepared,played,done,fresh⟩ := reached
  obtain ⟨t,run,keeps⟩ := played_newer played
  exact ⟨t,run,prepared,keeps,done,fresh⟩

theorem kept_reached (kept : Kept z base p s) (grants : Grants) : Reached z base (geometryOf p) grants s p.pool.trace p := by
  obtain ⟨prepared,keeps,done,fresh⟩ := kept
  exact ⟨rfl,prepared,played_start keeps,done,fresh⟩

/-- Stopping the pool asks nothing of the hooks. -/
theorem reached_stopped {pool : Pool} (reached : Reached z base g grants s before p) (stopped : Stopped p.pool pool) :
    Reached z base g grants s before { p with pool := pool } := by
  obtain ⟨same,prepared,played,done,fresh⟩ := reached
  have config := stopped.config
  have workers : pool.nWorkers = p.pool.nWorkers := by rw [stopped.same]
  have after := WorkerPool.stopped_played (zimg_releases grants) stopped played
  rw [← workers] at after
  exact ⟨same,prepared,after,fun now => done (config.lazyDone.symm.trans now),
    fun now still => fresh (config.lazyDone.symm.trans now) (config.lazyFailed.symm.trans still)⟩

/-- The plan is all that a frame settles before the start. -/
theorem planned_eq (ctx : ScalerCtx) (p : Priv) (f : Frame) : ∃ plan, planned ctx p f = { p with plan := plan } := by
  unfold planned
  split
  · exact ⟨p.plan,rfl⟩
  · rw [prepareFirstFrameIo]
    split_ifs
    · exact ⟨p.plan,rfl⟩
    · exact ⟨_,rfl⟩

theorem planned_emit (ctx : ScalerCtx) (p : Priv) (f : Frame) (e : Event) :
    planned ctx (p.emit e) f = (planned ctx p f).emit e := by
  unfold planned
  split
  · rfl
  · rw [prepareFirstFrameIo,prepareFirstFrameIo]
    by_cases settled : (p.pool.lazyDone || p.pool.lazyFailed) = true
    · have again : ((p.emit e).pool.lazyDone || (p.emit e).pool.lazyFailed) = true := settled
      rw [if_pos settled,if_pos again]
    · have again : ¬((p.emit e).pool.lazyDone || (p.emit e).pool.lazyFailed) = true := settled
      rw [if_neg settled,if_neg again]
      rfl

/-- Before the pool has started the storage is good for any plan. -/
theorem kept_planned (kept : Kept z base p s) (inv : Inv p) (f : Frame) : Kept z base (planned ctx p f) s := by
  unfold planned
  split
  · exact kept
  · obtain settled | ⟨done,failed⟩ := settled_or_fresh p
    · rw [prepareFirstFrameIo_settled settled]
      exact kept
    · obtain ⟨prepared,keeps,-,fresh⟩ := kept
      obtain rfl := fresh done failed
      obtain ⟨untouched,-,-⟩ := inv.fresh done failed
      rw [prepareFirstFrameIo,if_neg (by simp [done,failed])]
      refine ⟨none,⟨keeps.owned,keeps.priv,keeps.srcLayout,keeps.dstLayout,keeps.bare,by simp,by simp,fun i alive => ?_,keeps.empty⟩,
        fun odd => absurd (done.symm.trans odd) (by decide),fun _ _ => rfl⟩
      have few : i < p.pool.nWorkers := alive
      rw [untouched.nWorkers] at few
      exact absurd few (Nat.not_lt_zero i)

section Subsampled
variable (halvedW : p.subW ≤ 1) (halvedH : p.subH ≤ 1)
include halvedW halvedH

/-- The start of the pool, whatever it is granted. -/
theorem ensureLazyInit_reached (grants : Grants) (kept : Kept z base p s) (inv : Inv p) (o : StartOutcome) :
    Reached z base (geometryOf p) grants s p.pool.trace (ensureLazyInit p (answered z (geometryOf p) grants s o)).1 := by
  obtain settled | ⟨done,failed⟩ := settled_or_fresh p
  · have same : (ensureLazyInit p (answered z (geometryOf p) grants s o)).1 = p := by
      rw [ensureLazyInit]
      split_ifs with started gone
      · rfl
      · rfl
      · exact absurd settled (by simp [Settled,started,gone])
    rw [same]
    exact kept_reached kept grants
  · obtain ⟨prepared,keeps,-,fresh⟩ := kept
    obtain rfl := fresh done failed
    obtain ⟨untouched,-,-⟩ := inv.fresh done failed
    have nobody : (· < p.pool.nWorkers) = fun _ => False := by
      funext i
      simp [untouched.nWorkers]
    rw [nobody] at keeps
    have configured : Untouched { p.pool with nPref := p.plan.nThreads, nWorkers := 0 } :=
      ⟨untouched.trace,untouched.started,untouched.threads,rfl⟩
    have rules := zimg_rules (g := geometryOf p) halvedW halvedH grants o keeps
    obtain ⟨prepared,played,success⟩ := WorkerPool.start_played rules configured keeps
    have config := (WorkerPool.start_spec zimgPoolOps configured (answered z (geometryOf p) grants s o)).2.1
    rw [ensureLazyInit,if_neg (by simp [done]),if_neg (by simp [failed]),WorkerPool.ensureStarted,if_neg (by simp [done]),
      if_neg (by simp [failed])]
    generalize WorkerPool.start zimgPoolOps { p.pool with nPref := p.plan.nThreads, nWorkers := 0 }
      (answered z (geometryOf p) grants s o) = out at played success config
    obtain ⟨pool,ok⟩ := out
    dsimp only at played success config ⊢
    cases ok with
    | true => exact ⟨rfl,prepared,played,fun _ => success rfl,fun odd => Bool.noConfusion odd⟩
    | false =>
      have undone : pool.lazyDone = false := config.lazyDone.trans done
      exact ⟨rfl,prepared,played,fun odd => absurd (undone.symm.trans odd) (by decide),fun _ odd => Bool.noConfusion odd⟩

/-- A frame, with the start that it may have to make. -/
theorem process_reached (kept : Kept z base p s) (inv : Inv p) (f : Frame) (grants : Grants) :
    Reached z base (geometryOf (planned ctx p f)) grants s p.pool.trace
      (process ctx p { f with start := answered z (geometryOf (planned ctx p f)) grants s f.start }).1 := by
  generalize called : answered z (geometryOf (planned ctx p f)) grants s f.start = start
  cases broken : p.pool.broken with
  | true =>
    have settled : Settled p := by
      obtain settled | ⟨done,failed⟩ := settled_or_fresh p
      · exact settled
      · exact absurd (broken.symm.trans (inv.fresh done failed).2.1) (by decide)
    have same : planned ctx p f = p := by
      unfold planned
      split
      · rfl
      · exact prepareFirstFrameIo_settled settled
    rw [process_broken broken,same]
    exact kept_reached kept grants
  | false =>
    cases viewed : frameViewsInit ctx f.src f.dst with
    | none =>
      have same : planned ctx p f = p := by simp only [planned,viewed]
      rw [process,if_neg (by simp [broken]),same]
      simp only [viewed]
      exact kept_reached kept grants
    | some views =>
      obtain ⟨src,dst⟩ := views
      have inspected : Kept z base (p.emit .inspect) s := kept
      have prepared : Kept z base (planned ctx (p.emit .inspect) f) s := kept_planned inspected (emit_inspect_inv inv) f
      have geometry : geometryOf (planned ctx p f) = geometryOf (planned ctx (p.emit .inspect) f) := by
        rw [planned_emit]
        rfl
      have fields : (planned ctx (p.emit .inspect) f).pool = p.pool ∧ (planned ctx (p.emit .inspect) f).subW = p.subW ∧
          (planned ctx (p.emit .inspect) f).subH = p.subH := by
        obtain ⟨plan,same⟩ := planned_eq ctx (p.emit .inspect) f
        rw [same]
        exact ⟨rfl,rfl,rfl⟩
      have whole : Inv (planned ctx (p.emit .inspect) f) := by
        simp only [planned,viewed]
        exact prepareFirstFrameIo_inv (emit_inspect_inv inv)
      rw [geometry] at called ⊢
      rw [process_views (f := { f with start := start }) broken viewed,processViews]
      have same : prepareFirstFrameIo (p.emit .inspect) ctx src dst = planned ctx (p.emit .inspect) f := by
        simp only [planned,viewed]
      rw [same]
      generalize planned ctx (p.emit .inspect) f = r at prepared fields whole called
      obtain ⟨samePool,sameW,sameH⟩ := fields
      rw [← samePool]
      have kept := kept_reached prepared grants
      dsimp only
      split_ifs with refused unready
      · rw [noteAlignmentDrift]
        dsimp only
        split_ifs
        · exact reached_stopped kept (WorkerPool.poison_stopped r.pool f.stop).1
        · exact kept
      · subst called
        exact ensureLazyInit_reached (sameW ▸ halvedW) (sameH ▸ halvedH) grants prepared whole f.start
      · subst called
        have started := ensureLazyInit_reached (sameW ▸ halvedW) (sameH ▸ halvedH) grants prepared whole f.start
        generalize (ensureLazyInit r (answered z (geometryOf r) grants s f.start)).1 = q at started ⊢
        have waited := reached_stopped started (WorkerPool.dispatch_stopped q.pool f.complete f.stop).1
        rw [dispatchAndWait]
        dsimp only
        split_ifs
        · exact waited
        · rw [checkWorkerResults]
          split_ifs
          · exact waited
          · exact reached_stopped waited (WorkerPool.poison_stopped _ f.stop).1

end Subsampled

/-! ## Runs -/

/-- What every sequence of frames keeps. -/
structure Good (z : SizeT) (ctx : ScalerCtx) (nThreads : Int) (subW subH : Nat) (swap : Bool) (base : Nat → Option Nat)
    (w : World) : Prop where
  steady : Steady ctx nThreads swap (fun _ => True) w.priv
  shape : geometryOf w.priv = geometry ctx subW subH w.priv.plan
  kept : Kept z base w.priv w.storage

/-- A backend that owns nothing but itself. -/
theorem keeps_opened (g : Geometry) (heap : Heap) (workers : Int) : Keeps z g heap.size none (· < (WorkerPool.configured workers).nWorkers)
    ⟨heap.extend handleBytes,some heap.next,⟨fun _ => none,layoutOf g.srcW g.srcH g.subW g.subH⟩,
      ⟨fun _ => none,layoutOf g.dstW g.dstH g.subW g.subH⟩,fun _ => noWorker⟩ := by
  have nothing : noWorker.Empty := fun item => by cases item <;> rfl
  generalize whole : (⟨heap.extend handleBytes,some heap.next,⟨fun _ => none,layoutOf g.srcW g.srcH g.subW g.subH⟩,
    ⟨fun _ => none,layoutOf g.dstW g.dstH g.subW g.subH⟩,fun _ => noWorker⟩ : Storage) = s
  have before : Owned heap.size { s with priv := none }.held ({ s with priv := none }.bytes z) heap := by
    refine owned_start fun k => ?_
    subst whole
    cases k with
    | worker i item => exact nothing item
    | _ => rfl
  have owned : Owned heap.size s.held (s.bytes z) s.heap := by
    have filled : s.held = Function.update { s with priv := none }.held Holding.priv (some heap.next) := by
      subst whole
      funext k
      cases k <;> simp [Storage.held]
    rw [filled]
    subst whole
    exact owned_alloc (i := Holding.priv) before rfl
  subst whole
  exact ⟨owned,Option.some_ne_none _,rfl,rfl,fun _ _ => ⟨rfl,rfl⟩,by simp,by simp,fun i alive => absurd alive (Nat.not_lt_zero i),
    fun _ _ => nothing⟩

/-- Closing a backend: where the pool is destroyed everything is given back, else nothing
    is touched. -/
theorem close_kept {w : World} (kept : Kept z base w.priv w.storage) (o : StopOutcome) : ∃ destroyed h, close z w o = some (destroyed,h) ∧
    destroyed = (WorkerPool.destroy zimgPoolOps w.priv.pool o).2 ∧ (destroyed = true → h.size = base) ∧
    (destroyed = false → h = w.storage.heap) := by
  obtain ⟨prepared,keeps,-⟩ := kept
  obtain ⟨t,played,clean,untouched⟩ := WorkerPool.destroy_played (zimg_releases noGrants) o keeps
  unfold close
  generalize WorkerPool.destroy zimgPoolOps w.priv.pool o = out at played clean untouched ⊢
  obtain ⟨pool,destroyed⟩ := out
  dsimp only at played clean untouched ⊢
  rw [played]
  cases destroyed with
  | false =>
    rw [untouched rfl]
    exact ⟨false,_,rfl,rfl,fun odd => Bool.noConfusion odd,fun _ => rfl⟩
  | true =>
    have after := clean rfl
    obtain ⟨src,h1,freeSrc,noSrc,rest⟩ := freePlaneBuffer_owned (e := Holding.src) after.owned
      (fun _ _ same => Holding.src.inj same) (fun _ => rfl)
    have owned1 : Owned base { t with heap := h1, src := src }.held ({ t with heap := h1, src := src }.bytes z) h1 := by
      refine rest _ _ noSrc fun k away => ?_
      cases k with
      | src p => exact absurd rfl (away p)
      | _ => exact ⟨rfl,rfl⟩
    obtain ⟨dst,h2,freeDst,noDst,rest⟩ := @freePlaneBuffer_owned _ _ _ _ _ Holding.dst t.dst owned1
      (fun _ _ same => Holding.dst.inj same) (fun _ => rfl)
    have owned2 : Owned base { t with heap := h2, src := src, dst := dst }.held
        ({ t with heap := h2, src := src, dst := dst }.bytes z) h2 := by
      refine rest _ _ noDst fun k away => ?_
      cases k with
      | dst p => exact absurd rfl (away p)
      | _ => exact ⟨rfl,rfl⟩
    obtain ⟨h3,freePriv,owned3⟩ := owned_free owned2 Holding.priv
    have freePriv : h2.free t.priv = some h3 := freePriv
    refine ⟨true,h3,?_,rfl,fun _ => owned_clear owned3 fun k => ?_,fun odd => Bool.noConfusion odd⟩
    · simp only [Option.bind_eq_bind,Option.bind_some,Bool.true_eq_false,if_false,freeSrc,freeDst,freePriv]
    · cases k with
      | priv => exact Function.update_self ..
      | src p => exact noSrc p
      | dst p => exact noDst p
      | worker i item => exact after.empty i (Nat.not_lt_zero i) item

/-- A frame of the backend with its heap is a frame of the backend. -/
theorem run_process {requests : List Request} {w w' : World} (executed : run (step z ctx) w requests = some w') :
    ∃ starts : List StartOutcome, starts.length = requests.length ∧
      run (ZimgProcess.step ctx) w.priv (List.zipWith (fun r o => { r.frame with start := o }) requests starts) = some w'.priv := by
  induction requests generalizing w with
  | nil =>
    obtain rfl := Option.some.inj executed
    exact ⟨[],rfl,rfl⟩
  | cons r rest ih =>
    obtain ⟨w1,moved,ran⟩ := Runs.run_cons_iff.mp executed
    obtain ⟨starts,length,process⟩ := ih ran
    obtain ⟨⟨w2,status⟩,answered,rfl⟩ := Option.map_eq_some_iff.mp moved
    obtain ⟨storage,-,same⟩ := Option.bind_eq_some_iff.mp answered
    obtain ⟨rfl,-⟩ := Prod.mk.inj (Option.some.inj same)
    exact ⟨_ :: starts,congrArg (· + 1) length,Runs.run_cons_iff.mpr ⟨_,rfl,process⟩⟩

section Supported
variable {nThreads : Int} {subW subH : Nat} {swap : Bool} {w opened : World} {heap : Heap} {r : Request}
  (supported : chromaToZimg ctx.chroma = some (subW,subH,swap))
include supported

theorem openWorld_good (begun : openWorld ctx nThreads true heap = some opened) :
    Good z ctx nThreads subW subH swap heap.size opened := by
  obtain ⟨halvedW,halvedH⟩ := chromaToZimg_sub supported
  cases first : zimgOpen ctx nThreads true with
  | none => simp [openWorld,first] at begun
  | some p =>
    have steady : Steady ctx nThreads swap (fun _ => True) p := ZimgRuns.zimgOpen_steady supported first
    have same := first
    simp only [zimgOpen,supported,Bool.true_eq_false,if_false] at same
    have fields := Option.some.inj same
    have subs : p.subW = subW ∧ p.subH = subH := by
      rw [← fields]
      exact ⟨rfl,rfl⟩
    simp only [openWorld,first,Option.bind_eq_bind,Option.bind_some,subs.1,subs.2,initPlaneLayout_eq halvedW halvedH] at begun
    obtain rfl := Option.some.inj begun
    have shape : geometryOf p = geometry ctx subW subH p.plan := by
      rw [← fields]
      rfl
    refine ⟨steady,shape,none,?_,?_,fun _ _ => rfl⟩
    · rw [shape,← fields]
      exact keeps_opened (geometry ctx subW subH _) heap 0
    · rw [← fields]
      exact fun odd => Bool.noConfusion odd

/-- A frame, its answer and its end. -/
theorem processWorld_good (good : Good z ctx nThreads subW subH swap base w) (r : Request) :
    ∃ w' status, processWorld z ctx w r = some (w',status) ∧ process ctx w.priv (started z ctx w r) = (w'.priv,status) ∧
      Good z ctx nThreads subW subH swap base w' := by
  obtain ⟨steady,shape,kept⟩ := good
  obtain ⟨halvedW,halvedH⟩ := chromaToZimg_sub supported
  have subs : w.priv.subW = subW ∧ w.priv.subH = subH := ⟨congrArg Geometry.subW shape,congrArg Geometry.subH shape⟩
  have reached : Reached z base (geometryOf (planned ctx w.priv r.frame)) r.grants w.storage w.priv.pool.trace
      (process ctx w.priv (started z ctx w r)).1 :=
    process_reached (subs.1 ▸ halvedW) (subs.2 ▸ halvedH) kept steady.inv r.frame r.grants
  have steady' : Steady ctx nThreads swap (fun _ => True) (process ctx w.priv (started z ctx w r)).1 :=
    (ZimgRuns.process_steady steady trivial).1
  unfold processWorld
  generalize process ctx w.priv (started z ctx w r) = out at reached steady'
  obtain ⟨priv,status⟩ := out
  obtain ⟨storage,played,after⟩ := reached_kept reached
  refine ⟨⟨priv,storage⟩,status,?_,rfl,steady',?_,after⟩
  · simp only [played,Option.bind_eq_bind,Option.bind_some]
  · obtain ⟨plan,same⟩ := planned_eq ctx w.priv r.frame
    have moved : geometryOf (planned ctx w.priv r.frame) = { geometryOf w.priv with plan := plan } := by
      rw [same]
      rfl
    have settled : priv.plan = plan := congrArg Geometry.plan (reached.1.trans moved)
    show geometryOf priv = geometry ctx subW subH priv.plan
    rw [settled,reached.1,moved,shape]
    rfl

theorem step_good (good : Good z ctx nThreads subW subH swap base w) (r : Request) :
    ∃ w', step z ctx w r = some w' ∧ Good z ctx nThreads subW subH swap base w' := by
  obtain ⟨w',status,ran,-,good'⟩ := processWorld_good supported good r
  exact ⟨w',by rw [step,ran]; rfl,good'⟩

theorem run_good (good : Good z ctx nThreads subW subH swap base w) (requests : List Request) :
    ∃ w', run (step z ctx) w requests = some w' ∧ Good z ctx nThreads subW subH swap base w' := by
  induction requests generalizing w with
  | nil => exact ⟨w,rfl,good⟩
  | cons r rest ih =>
    obtain ⟨w1,moved,good1⟩ := step_good supported good r
    obtain ⟨w',ran,good'⟩ := ih good1
    exact ⟨w',Runs.run_cons_iff.mpr ⟨w1,moved,ran⟩,good'⟩

/-- The workers have what their plan asks for: blocks of the exact sizes of the planes
    that they copy, their graphs and the memory of the graphs. -/
structure Furnished (z : SizeT) (g : Geometry) (n m : Nat) (s : Storage) : Prop where
  source : g.plan.srcZerocopy = false → ∀ p, Allocated g.srcW g.srcH g.subW g.subH s.src s.heap p
  target : g.plan.dstZerocopy = false → g.plan.colTiled = false → ∀ p, Allocated g.dstW g.dstH g.subW g.subH s.dst s.heap p
  tile : g.plan.colTiled = true → ∀ i < n * m, ∀ p, Allocated (worker g n m i).cell.dstW
    ((worker g n m i).cell.dstYEnd - (worker g n m i).cell.dstYStart) g.subW g.subH (s.workers i).tileDst s.heap p
  graph : ∀ i < n * m, (s.workers i).graph ≠ none
  /-- Unless rounding the request up wraps, the block is no smaller. -/
  tmp : ∀ i < n * m, 0 < (s.workers i).tmpSize → ∃ b bytes, (s.workers i).tmp = some b ∧ s.heap.size b = some bytes ∧
    64 ∣ bytes ∧ ((s.workers i).tmpSize + 63 ≤ z.max → (s.workers i).tmpSize ≤ bytes)

theorem kept_furnished {p : Priv} {n m : Nat} (gridded : Gridded ctx subW subH p.plan n m)
    (shape : geometryOf p = geometry ctx subW subH p.plan) (workers : p.pool.nWorkers = n * m) (kept : Kept z base p s)
    (done : p.pool.lazyDone = true) :
    Buffered z (geometry ctx subW subH p.plan) n m ∧ Furnished z (geometry ctx subW subH p.plan) n m s := by
  obtain ⟨halvedW,halvedH⟩ := chromaToZimg_sub supported
  obtain ⟨prepared,keeps,started,-⟩ := kept
  obtain rfl := started done
  rw [shape,workers] at keeps
  have tiles : p.plan.colTiled = true → ∀ i < n * m,
      TileSizable z (geometry ctx subW subH p.plan) (worker (geometry ctx subW subH p.plan) n m i) ∧
        Tiled (geometry ctx subW subH p.plan) (worker (geometry ctx subW subH p.plan) n m i) (s.workers i) := by
    intro tiled i inside
    obtain ⟨w,found,sizable,filled⟩ := (keeps.whole i inside).tile tiled
    rw [ZimgCells.poolConstruct_cuts gridded.aligned inside] at found
    obtain rfl := Option.some.inj found
    exact ⟨sizable,filled⟩
  refine ⟨⟨fun copies => (keeps.source rfl copies).1,fun copies untiled => (keeps.target rfl copies untiled).1,
    fun tiled i inside => (tiles tiled i inside).1⟩,?_⟩
  refine ⟨fun copies q => ?_,fun copies untiled q => ?_,fun tiled i inside q => ?_,fun i inside => (keeps.whole i inside).built.1,
    fun i inside asked => ?_⟩
  · obtain ⟨sizable,filled⟩ := keeps.source rfl copies
    exact held_allocated halvedW halvedH keeps.srcLayout sizable (filled q) fun b => keeps.owned.live (.src q) b
  · obtain ⟨sizable,filled⟩ := keeps.target rfl copies untiled
    exact held_allocated halvedW halvedH keeps.dstLayout sizable (filled q) fun b => keeps.owned.live (.dst q) b
  · obtain ⟨sizable,layout,filled⟩ := tiles tiled i inside
    exact held_allocated halvedW halvedH layout sizable (filled q) fun b => keeps.owned.live (.worker i (.tile q)) b
  · obtain ⟨b,block⟩ := Option.ne_none_iff_exists'.mp ((keeps.whole i inside).built.2 asked)
    refine ⟨b,_,block,keeps.owned.live (.worker i .tmp) b block,alignUp_dvd,fun fits => ?_⟩
    exact (alignUp_spec (by decide) fits).1

/-- The memory of the zimg backend, in every sequence of frames and whatever the system
    grants. No hook frees what it may not, and the pool records what the hooks answer. The
    blocks that the pointers of the backend name are distinct and all that it has taken
    of the heap. Slots beyond the workers of the pool hold nothing. Once the pool has
    started, each side and each worker has what the plan asks for, so every dispatch had
    it. Closing frees everything, or nothing where a thread cannot be joined. -/
theorem zimg_storage (sizes : Sizes ctx subW subH) (begun : openWorld ctx nThreads true heap = some opened)
    (requests : List Request) :
    ∃ w, run (step z ctx) opened requests = some w ∧
      (∃ starts : List StartOutcome, starts.length = requests.length ∧
        run (ZimgProcess.step ctx) opened.priv (List.zipWith (fun r o => { r.frame with start := o }) requests starts) =
          some w.priv) ∧
      Owned heap.size w.storage.held (w.storage.bytes z) w.storage.heap ∧
      (∀ i, w.priv.pool.nWorkers ≤ i → (w.storage.workers i).Empty) ∧
      (w.priv.pool.lazyDone = true → ∃ n m : Nat, w.priv.plan.nThreads = (n * m : Nat) ∧ w.priv.pool.nWorkers = n * m ∧
        Buffered z (geometry ctx subW subH w.priv.plan) n m ∧
        Furnished z (geometry ctx subW subH w.priv.plan) n m w.storage) ∧
      (∀ (plan : IoPlan) (src dst : WorkerView), .dispatch plan src dst ∈ w.priv.trace →
        w.priv.pool.lazyDone = true ∧ plan = w.priv.plan) ∧
      ∀ o, ∃ destroyed h, close z w o = some (destroyed,h) ∧
        destroyed = (WorkerPool.destroy zimgPoolOps w.priv.pool o).2 ∧ (destroyed = true → h.size = heap.size) ∧
        (destroyed = false → h = w.storage.heap) := by
  obtain ⟨w,ran,good⟩ := run_good supported (openWorld_good (z := z) supported begun) requests
  obtain ⟨steady,shape,kept⟩ := good
  refine ⟨w,ran,run_process ran,?_,?_,fun done => ?_,fun plan src dst member => ?_,fun o => close_kept kept o⟩
  · obtain ⟨prepared,keeps,-⟩ := kept
    exact keeps.owned
  · obtain ⟨prepared,keeps,-⟩ := kept
    exact fun i beyond => keeps.empty i (not_lt.mpr beyond)
  · obtain ⟨srcWhole,dstWhole,resolved⟩ := steady.plan
    obtain ⟨n,m,gridded⟩ : ∃ n m, Gridded ctx subW subH (resolveIoPlan (buildIoReq ctx nThreads srcWhole dstWhole)) n m :=
      ZimgRuns.resolve_gridded supported sizes srcWhole dstWhole
    rw [← resolved] at gridded
    have workers : w.priv.pool.nWorkers = n * m := by
      have all := (steady.pool.up done steady.live).all rfl
      have preferred := steady.count done
      have threads := gridded.threads
      omega
    exact ⟨n,m,gridded.threads,workers,kept_furnished supported gridded shape workers kept done⟩
  · obtain ⟨done,same,-⟩ := steady.inv.dispatched plan src dst member
    exact ⟨done,same⟩

/-! ## What the workers do -/

variable {zimg : Library} {resample : Graph → Image → Image}

/-- A dispatch of the planes of a frame is on planes that the plan can take, with the
    buffers that it asks for. -/
theorem dispatched_setting {f : Frame} {plan : IoPlan} {src dst : WorkerView} (sizes : Sizes ctx subW subH)
    (good : Good z ctx nThreads subW subH swap base w) (member : .dispatch plan src dst ∈ w.priv.trace)
    (shown : From ctx swap f src dst) (separate : Separate f.src f.dst) : ∃ n m : Nat, plan.nThreads = (n * m : Nat) ∧
      Setting z (geometry ctx subW subH plan) n m src dst ∧ Furnished z (geometry ctx subW subH plan) n m w.storage := by
  obtain ⟨steady,shape,kept⟩ := good
  obtain ⟨done,same,srcAligned,dstAligned⟩ := steady.inv.dispatched plan src dst member
  obtain ⟨srcWhole,dstWhole,resolved⟩ := steady.plan
  obtain ⟨n,m,gridded⟩ : ∃ n m, Gridded ctx subW subH (resolveIoPlan (buildIoReq ctx nThreads srcWhole dstWhole)) n m :=
    ZimgRuns.resolve_gridded supported sizes srcWhole dstWhole
  rw [← resolved] at gridded
  have workers : w.priv.pool.nWorkers = n * m := by
    have all := (steady.pool.up done steady.live).all rfl
    have preferred := steady.count done
    have threads := gridded.threads
    omega
  obtain ⟨buffered,furnished⟩ := kept_furnished supported gridded shape workers kept done
  rw [← same] at gridded buffered furnished
  obtain ⟨q,srcSeen,dstSeen,swapped,viewed,rfl,rfl⟩ := shown
  have pictures : Pictures (geometry ctx subW subH plan) _ _ :=
    views_pictures (swapped.symm ▸ supported) sizes.evenW sizes.evenH viewed separate srcAligned dstAligned
  exact ⟨n,m,gridded.threads,⟨gridded.aligned,gridded.tiles,pictures,buffered⟩,furnished⟩

/-- Frames with pictures that share no byte, on the backend with its heap. -/
theorem run_separate {requests : List Request} (begun : openWorld ctx nThreads true heap = some opened)
    (separate : ∀ r ∈ requests, Separate r.frame.src r.frame.dst) (executed : run (step z ctx) opened requests = some w) :
    Good z ctx nThreads subW subH swap heap.size w ∧ Steady ctx nThreads swap (fun f => Separate f.src f.dst) w.priv := by
  have start : Steady ctx nThreads swap (fun f => Separate f.src f.dst) opened.priv := by
    obtain ⟨p,first,rest⟩ := Option.bind_eq_some_iff.mp begun
    obtain ⟨src,-,rest⟩ := Option.bind_eq_some_iff.mp rest
    obtain ⟨dst,-,rest⟩ := Option.bind_eq_some_iff.mp rest
    obtain rfl := Option.some.inj rest
    exact ZimgRuns.zimgOpen_steady supported first
  refine run_preserves (P := fun w => Good z ctx nThreads subW subH swap heap.size w ∧
    Steady ctx nThreads swap (fun f => Separate f.src f.dst) w.priv) (fun w r w' apart before moved => ?_) separate
    ⟨openWorld_good supported begun,start⟩ executed
  obtain ⟨good,steady⟩ := before
  obtain ⟨w1,status,ran,answered,good'⟩ := processWorld_good supported good r
  rw [step,ran] at moved
  obtain rfl := Option.some.inj moved
  have kept := (ZimgRuns.process_steady (f := started z ctx w r) steady apart).1
  rw [answered] at kept
  exact ⟨good',kept⟩

/-- What the workers of a plan do to memory, whatever their interleaving. -/
def Resamples (zimg : Library) (resample : Graph → Image → Image) (z : SizeT) (g : Geometry) (n m : Nat) (src dst : WorkerView) : Prop :=
  ∀ image memory schedule t, ShowsImage src (sourceSize g) image memory →
    run (advance Programs.step) (frameStart zimg g n m src dst memory) schedule = some t →
    Left z g n m dst (resampledFrame resample g n m image) memory t

/-- Every sequence of frames on an opened backend, for a library of which only the contract
    is known. Each dispatch is one of the workers that the pool has constructed, with blocks
    of the sizes that the plan asks for. Whatever their interleaving, which can always be
    carried on to the end, the workers leave their cells resampled and write nothing else of
    the pictures, but for the padding of a destination that they write in place, and nothing
    outside the blocks. A frame that is answered with success leaves the source resampled in
    the destination. -/
theorem zimg_frames_resample {requests : List Request} (contract : Contract zimg resample) (sizes : Sizes ctx subW subH)
    (begun : openWorld ctx nThreads true heap = some opened) (executed : run (step z ctx) opened requests = some w)
    (separate : ∀ r ∈ requests, Separate r.frame.src r.frame.dst) :
    (∀ (plan : IoPlan) (src dst : WorkerView), .dispatch plan src dst ∈ w.priv.trace → ∃ n m : Nat,
      plan.nThreads = (n * m : Nat) ∧ Furnished z (geometry ctx subW subH plan) n m w.storage ∧
      (∀ i < n * m, ZimgCells.poolConstruct (geometry ctx subW subH plan) i = some (worker (geometry ctx subW subH plan) n m i)) ∧
      Resamples zimg resample z (geometry ctx subW subH plan) n m src dst ∧
      ∀ memory, ∃ schedule t, run (advance Programs.step)
        (frameStart zimg (geometry ctx subW subH plan) n m src dst memory) schedule = some t ∧ ∀ i, ∃ v, t.cursor i = .done v) ∧
    (∀ r w', Separate r.frame.src r.frame.dst → processWorld z ctx w r = some (w',.ok) →
      ∃ (plan : IoPlan) (src dst : WorkerView) (n m : Nat),
      w'.priv.trace = .dispatch plan src dst :: .inspect :: w.priv.trace ∧ plan.nThreads = (n * m : Nat) ∧
      ∀ image memory schedule t, ShowsImage src (sourceSize (geometry ctx subW subH plan)) image memory →
        run (advance Programs.step) (frameStart zimg (geometry ctx subW subH plan) n m src dst memory) schedule = some t →
        (∀ i, ∃ v, t.cursor i = .done v ∧ (v.result = 0 ↔ r.frame.results i = true)) →
        ShowsImage dst (targetSize (geometry ctx subW subH plan))
          (resampledFrame resample (geometry ctx subW subH plan) n m image) t.memory) := by
  obtain ⟨good,steady⟩ := run_separate (z := z) supported begun separate executed
  constructor
  · intro plan src dst dispatched
    obtain ⟨f,apart,shown⟩ := steady.origin plan src dst dispatched
    obtain ⟨n,m,threads,setting,furnished⟩ := dispatched_setting supported sizes good dispatched shown apart
    refine ⟨n,m,threads,furnished,fun i inside => ZimgCells.poolConstruct_cuts setting.aligned inside,?_,
      fun memory => Programs.threads_complete _⟩
    exact fun image memory schedule t seen moved => frame_resampled setting contract seen moved
  · intro r w' apart returned
    obtain ⟨_,_,ran,answered,good'⟩ := processWorld_good supported good r
    obtain ⟨rfl,rfl⟩ := Prod.mk.inj (Option.some.inj (ran.symm.trans returned))
    have success := (ZimgRuns.process_steady (f := started z ctx w r) steady apart).2
    rw [answered] at success
    obtain ⟨plan,src,dst,history,shown,results⟩ := success rfl
    obtain ⟨n,m,threads,setting,-⟩ := dispatched_setting supported sizes good' (history ▸ List.mem_cons_self) shown apart
    refine ⟨plan,src,dst,n,m,history,threads,fun image memory schedule t seen moved ended => ?_⟩
    refine left_shows setting.aligned (frame_resampled setting contract seen moved) fun i => ?_
    obtain ⟨v,done,status⟩ := ended i
    have within : i.val < plan.nThreads.toNat := by rw [threads]; exact i.isLt
    exact ⟨v,done,status.mpr (results i within)⟩

end Supported

/-- An allocator and a library that grant everything. -/
def allGrants : Grants := ⟨fun _ => true,fun _ => true,fun _ _ => true,fun _ => true,fun _ => some 4096,fun _ => true⟩

/-- Two frames of a backend that copies its pictures. -/
theorem zimg_storage_copying : ∃ opened w, openWorld copying 2 true vacant = some opened ∧
    run (step size64 copying) opened (List.replicate 2 ⟨apartFrame,allGrants⟩) = some w ∧
    Owned vacant.size w.storage.held (w.storage.bytes size64) w.storage.heap := by
  obtain ⟨opened,begun⟩ := Option.isSome_iff_exists.mp (by decide : (openWorld copying 2 true vacant).isSome = true)
  have supported : chromaToZimg copying.chroma = some (1,1,false) := by decide
  have sizes : Sizes copying 1 1 := ⟨by decide,by decide,by decide⟩
  obtain ⟨w,ran,-,owned,-⟩ := zimg_storage supported sizes begun (List.replicate 2 ⟨apartFrame,allGrants⟩)
  exact ⟨opened,w,begun,ran,owned⟩

/-- The first frame of a backend that copies its pictures, with a library that samples
    points: the workers can be carried on to a picture that shows its source resampled. -/
theorem zimg_frames_resample_point : ∃ opened w, openWorld copying 2 true vacant = some opened ∧
    processWorld size64 copying opened ⟨apartFrame,allGrants⟩ = some (w,.ok) ∧
    w.priv.trace = [.dispatch throughBuffers apartSource apartTarget,.inspect] ∧ ∃ n m : Nat, 2 = n * m ∧
    ∀ memory, ∃ schedule t, run (advance Programs.step)
      (frameStart ZimgPoint.pointProcess (geometry copying 1 1 throughBuffers) n m apartSource apartTarget memory) schedule = some t ∧
      ShowsImage apartTarget (targetSize (geometry copying 1 1 throughBuffers))
        (resampledFrame ZimgPoint.pointResample (geometry copying 1 1 throughBuffers) n m (imageOf apartSource memory)) t.memory := by
  obtain ⟨opened,begun,first⟩ : ∃ opened, openWorld copying 2 true vacant = some opened ∧
      (processWorld size64 copying opened ⟨apartFrame,allGrants⟩).map (fun out => (out.2,out.1.priv.trace)) =
        some (.ok,[.dispatch throughBuffers apartSource apartTarget,.inspect]) := Option.map_eq_some_iff.mp rfl
  obtain ⟨⟨w,status⟩,answered,shown⟩ := Option.map_eq_some_iff.mp first
  obtain ⟨rfl,trace⟩ := Prod.mk.inj shown
  have supported : chromaToZimg copying.chroma = some (1,1,false) := by decide
  have sizes : Sizes copying 1 1 := ⟨by decide,by decide,by decide⟩
  have ran : run (step size64 copying) opened [] = some opened := rfl
  obtain ⟨-,returned⟩ := zimg_frames_resample supported ZimgPoint.pointProcess_contract sizes begun ran nofun
  obtain ⟨plan,src,dst,n,m,history,threads,shows⟩ := returned ⟨apartFrame,allGrants⟩ w apartFrame_separate answered
  obtain ⟨same,-⟩ := List.cons.inj (history.symm.trans trace)
  obtain ⟨rfl,rfl,rfl⟩ := Event.dispatch.inj same
  refine ⟨opened,w,begun,answered,trace,n,m,Int.ofNat_inj.mp threads,fun memory => ?_⟩
  obtain ⟨schedule,t,executed,ended⟩ := frame_succeeds ZimgPoint.pointProcess_succeeds (geometry copying 1 1 throughBuffers) n m
    apartSource apartTarget memory
  refine ⟨schedule,t,executed,shows _ memory schedule t (imageOf_shown _ _ _) executed fun i => ?_⟩
  obtain ⟨v,done,success⟩ := ended i
  exact ⟨v,done,fun _ => rfl,fun _ => success⟩

end AutoUpscale.ZimgHeap
