import AutoUpscale.FilterCalls
import AutoUpscale.FilterOwnership
import AutoUpscale.Swscale
import AutoUpscale.ZimgHeap

/-!
The filter with its backends. The calls that a frame makes of a backend go to zimg or to
swscale as they are, on one heap, and what these answer is what the filter acts on
(`happens`, `outcomeOf`). In every run each call is one that the backend in use can take,
swscale is never unusable, zimg becomes so once at most, a returned picture has been scaled
whole, and in the end the heap is given back (`linked_filter`).
-/
namespace AutoUpscale.FilterLinked
open AutoUpscale.Blocks
open AutoUpscale.Chroma (chromaToZimg descriptor layoutIsPlanar)
open AutoUpscale.Filter
open AutoUpscale.PictureView (Picture)
open AutoUpscale.Runs (run)
open AutoUpscale.SizeType
open AutoUpscale.Story (Followed followed_cons followed_idle followed_newer followed_start newer play)
open AutoUpscale.Swscale
open AutoUpscale.Tuner (Double)
open AutoUpscale.UsmAdaptive (Timespec)
open AutoUpscale.WorkerPool (StartOutcome StopOutcome)
open AutoUpscale.ZimgHeap (Good World openWorld openWorld_good processWorld processWorld_good started)
open AutoUpscale.ZimgProcess (ScalerCtx)
open AutoUpscale.ZimgRuns (From apartFrame)
open AutoUpscale.ZimgStorage (Grants)
set_option linter.unusedSectionVars false
universe u

/-- What opening a backend is granted: a zimg of the right version and its state, and what
    swscale asks for. -/
structure Openings where
  version : Bool
  state : Bool
  sws : SwsGrants

/-- What the backends are granted and told during one call of the filter: by the threads of
    zimg, the allocator and `sws_scale`, and when zimg is closed. -/
structure Granted where
  start : StartOutcome
  complete : Bool
  stop : StopOutcome
  results : Nat → Bool
  grants : Grants
  rc : Int
  closing : StopOutcome
  openings : Openings

/-- The backend in use with what it has allocated, or the heap alone. -/
inductive Engine
  | idle (h : Heap)
  | zimg (w : World)
  | swscale (p : SwsPriv) (h : Heap)

/-- The backends; a zimg whose threads could not be joined is kept as it was. -/
structure Machine where
  engine : Engine
  quarantined : List World

def Engine.backend : Engine → Option Backend
  | .idle _ => none
  | .zimg _ => some .zimg
  | .swscale _ _ => some .swscale

/-- `zimg_supports`, where zimg is linked, and `sws_supports`. -/
def supportsOf (zimgLinked : Bool) (chroma : Nat) : Backend → Bool
  | .zimg => zimgLinked && (chromaToZimg chroma).isSome
  | .swscale => swsSupports chroma

/-- What does not change: `size_t`, how many threads zimg may use, and `algo`. -/
structure Job where
  z : SizeT
  nThreads : Int
  algo : Int

variable (j : Job)

/-- The member `open` of a backend, and whether it returned 0. -/
def Machine.open (ctx : ScalerCtx) (m : Machine) (b : Backend) (o : Openings) : Option (Machine × Bool) :=
  match m.engine, b with
  | .idle h, .zimg =>
    match if o.version then openWorld ctx j.nThreads o.state h else none with
    | none => some (m,false)
    | some w => some ({ m with engine := .zimg w },true)
  | .idle h, .swscale => do
    let (opened,h) ← swsOpen ctx j.algo o.sws h
    match opened with
    | none => some ({ m with engine := .idle h },false)
    | some p => some ({ m with engine := .swscale p h },true)
  | _, _ => none

/-- A frame for zimg. -/
def frameOf (src dst : Picture) (g : Granted) : ZimgProcess.Frame := ⟨src,dst,g.start,g.complete,g.stop,g.results⟩

/-- The member `process` of a backend. -/
def Machine.process (ctx : ScalerCtx) (m : Machine) (b : Backend) (src dst : Picture) (g : Granted) :
    Option (Machine × ProcessStatus) :=
  match m.engine, b with
  | .zimg w, .zimg => do
    let (w,status) ← processWorld j.z ctx w ⟨frameOf src dst g,g.grants⟩
    some ({ m with engine := .zimg w },status)
  | .swscale p h, .swscale => do
    let (priv,status) := swsProcess ctx (some p) src dst g.rc
    let p ← priv
    some ({ m with engine := .swscale p h },status)
  | _, _ => none

/-- The member `close` of a backend. -/
def Machine.close (m : Machine) (b : Backend) (closing : StopOutcome) : Option Machine :=
  match m.engine, b with
  | .zimg w, .zimg => do
    let (destroyed,h) ← ZimgHeap.close j.z w closing
    some ⟨.idle h,if destroyed then m.quarantined else w :: m.quarantined⟩
  | .swscale p h, .swscale => do
    let h ← swsClose p h
    some { m with engine := .idle h }
  | _, _ => none

/-- A call of a backend, made with these pictures, that answers what the event says. -/
def happens (ctx : ScalerCtx) (src dst : Option Picture) (g : Granted) (e : Event) (m : Machine) : Option Machine :=
  match e with
  | .openBackend b _ ok => do
    let (m,opened) ← m.open j ctx b g.openings
    if opened = ok then some m else none
  | .process b _ _ _ status => do
    let src ← src
    let dst ← dst
    let (m,answer) ← m.process j ctx b src dst g
    if answer = status then some m else none
  | .closeBackend b _ => m.close j b g.closing
  | .input _ | .newPicture _ | .release _ | .deliver _ | .sharpen _ _ => some m

/-! ## The filter -/

variable {R : Type u} [Double R]

/-- The filter and its backends. -/
structure Linked (R : Type u) where
  sys : Sys R
  machine : Machine

/-- A call of `Filter`, what it is given, and what the backends are granted. -/
structure Request where
  input : Option Picture
  luma : Int → UInt8
  newPicture : Option Picture
  clock : Option Timespec
  usm : UsmAdaptive.Outcome
  granted : Granted

/-- What the backend in use answers to `process`. -/
def processed (w : Linked R) (r : Request) : Option (Machine × ProcessStatus) := do
  let b ← w.sys.backend
  let src ← r.input
  let dst ← r.newPicture
  w.machine.process j w.sys.ctx b src dst r.granted

/-- Whether swscale opens after zimg has failed. -/
def fallback (w : Linked R) (r : Request) : Option (Machine × Bool) := do
  let (m,_) ← processed j w r
  let m ← m.close j .zimg r.granted.closing
  m.open j w.sys.ctx .swscale r.granted.openings

/-- A frame as the backends answer it. -/
def outcomeOf (w : Linked R) (r : Request) : Outcome :=
  { luma := r.luma, newPicture := r.newPicture, clock := r.clock, status := ((processed j w r).map Prod.snd).getD .fatal,
    openFallback := ((fallback j w r).map Prod.snd).getD false, usm := r.usm }

/-- `Filter` with its backends. -/
def filterLinked (w : Linked R) (r : Request) : Option (Linked R × Option Nat) :=
  let (sys,result) := filter w.sys r.input (outcomeOf j w r)
  (play (happens j w.sys.ctx r.input r.newPicture r.granted) w.machine (newer w.sys.trace sys.trace)).map fun machine =>
    (⟨sys,machine⟩,result)

def step (w : Linked R) (r : Request) : Option (Linked R) := (filterLinked j w r).map Prod.fst

/-- Which backends open on a heap. -/
def opensOn (ctx : ScalerCtx) (h : Heap) (g : Granted) (b : Backend) : Bool :=
  ((Machine.open j ctx ⟨.idle h,[]⟩ b g.openings).map Prod.snd).getD false

/-- The configuration with what the backends support. -/
def supported (zimgLinked : Bool) (c : Config R) : Config R := { c with supports := supportsOf zimgLinked c.ctx.chroma }

/-- `up_autoupscale_open`, as far as the backends are concerned, on a heap. -/
def openLinked (zimgLinked : Bool) (c : Config R) (h : Heap) (g : Granted) : Option (Linked R) :=
  (openFilter (supported zimgLinked c) (opensOn j c.ctx h g)).bind fun sys =>
    (play (happens j c.ctx none none g) ⟨.idle h,[]⟩ sys.trace).map fun machine => ⟨sys,machine⟩

/-- `up_autoupscale_close` with the backends. -/
def closeLinked (w : Linked R) (g : Granted) : Option (Linked R) :=
  let sys := Filter.close w.sys
  (play (happens j w.sys.ctx none none g) w.machine (newer w.sys.trace sys.trace)).map fun machine => ⟨sys,machine⟩

/-! ## The backend in use -/

/-- What the heap holds but for the backend in use: what it held before, or besides what
    a zimg keeps whose threads could not be joined, which is its own. -/
inductive Rest (z : SizeT) (heap : Heap) : List World → (Nat → Option Nat) → Prop
  | before : Rest z heap [] heap.size
  | quarantine (q : World) (owned : Owned heap.size q.storage.held (q.storage.bytes z) q.storage.heap) :
    Rest z heap [q] q.storage.heap.size

/-- The backend in use is as it should be. -/
inductive Running (ctx : ScalerCtx) (heap : Heap) : Machine → Prop
  | idle (h : Heap) (quarantined : List World) (rest : Rest j.z heap quarantined h.size) : Running ctx heap ⟨.idle h,quarantined⟩
  | zimg (w : World) (subW subH : Nat) (swap : Bool) (supported : chromaToZimg ctx.chroma = some (subW,subH,swap))
      (good : Good j.z ctx j.nThreads subW subH swap heap.size w) : Running ctx heap ⟨.zimg w,[]⟩
  | swscale (p : SwsPriv) (h : Heap) (quarantined : List World) (base : Nat → Option Nat) (rest : Rest j.z heap quarantined base)
      (kept : SwsKept ctx j.algo base p h) : Running ctx heap ⟨.swscale p h,quarantined⟩

/-- The backend has scaled `src` into `dst`: zimg has dispatched their planes last and no
    worker failed, or swscale has written all lines. -/
def Scaled (ctx : ScalerCtx) (src dst : Picture) (g : Granted) : Engine → Prop
  | .idle _ => False
  | .zimg w => ∃ subW subH swap plan srcView dstView earlier, chromaToZimg ctx.chroma = some (subW,subH,swap) ∧
    w.priv.trace = .dispatch plan srcView dstView :: earlier ∧ From ctx swap (frameOf src dst g) srcView dstView ∧
    ∀ i < plan.nThreads.toNat, g.results i = true
  | .swscale p _ => SwsScaled ctx src dst p

variable {j} {ctx : ScalerCtx} {heap : Heap} {m : Machine} {b : Backend}

theorem zimgOpen_supported {nThreads : Int} {state : Bool} {h : Heap} {w : World} (made : openWorld ctx nThreads state h = some w) :
    state = true ∧ ∃ subW subH swap, chromaToZimg ctx.chroma = some (subW,subH,swap) := by
  obtain ⟨p,opened,-⟩ := Option.bind_eq_some_iff.mp made
  rw [ZimgProcess.zimgOpen] at opened
  cases supported : chromaToZimg ctx.chroma with
  | none => simp [supported] at opened
  | some s =>
    obtain ⟨subW,subH,swap⟩ := s
    refine ⟨?_,subW,subH,swap,rfl⟩
    simp only [supported] at opened
    cases state with
    | false => cases opened
    | true => rfl

theorem running_zimg {w : World} (running : Running j ctx heap m) (inUse : m.engine = .zimg w) : ∃ subW subH swap,
    chromaToZimg ctx.chroma = some (subW,subH,swap) ∧ Good j.z ctx j.nThreads subW subH swap heap.size w := by
  cases running with
  | idle => cases inUse
  | swscale => cases inUse
  | zimg w' subW subH swap supported good =>
    obtain rfl := Engine.zimg.inj inUse
    exact ⟨subW,subH,swap,supported,good⟩

theorem open_running (running : Running j ctx heap m) (idle : m.engine.backend = none) (b : Backend) (o : Openings)
    (fresh : b = .zimg → m.quarantined = []) : ∃ m' ok, m.open j ctx b o = some (m',ok) ∧ Running j ctx heap m' ∧
      m'.engine.backend = (if ok then some b else none) ∧ m'.quarantined = m.quarantined := by
  cases running with
  | zimg => cases idle
  | swscale => cases idle
  | idle h quarantined rest =>
    cases b with
    | zimg =>
      obtain rfl : quarantined = [] := fresh rfl
      simp only [Machine.open]
      cases made : (if o.version then openWorld ctx j.nThreads o.state h else none) with
      | none => exact ⟨_,false,rfl,.idle h [] rest,rfl,rfl⟩
      | some w =>
        refine ⟨_,true,rfl,?_,rfl,rfl⟩
        have made : openWorld ctx j.nThreads o.state h = some w := by
          cases version : o.version with
          | false => simp [version] at made
          | true => simpa [version] using made
        obtain ⟨state,subW,subH,swap,supported⟩ := zimgOpen_supported made
        rw [state] at made
        have good := openWorld_good (z := j.z) supported made
        generalize h.size = base at rest good
        cases rest with
        | before => exact .zimg w subW subH swap supported good
    | swscale =>
      obtain ⟨opened,h',ran,refused,kept,-⟩ := swsOpen_kept ctx j.algo o.sws h
      simp only [Machine.open,ran,Option.bind_eq_bind,Option.bind_some]
      cases opened with
      | none =>
        refine ⟨_,false,rfl,.idle h' quarantined ?_,rfl,rfl⟩
        rw [refused rfl]
        exact rest
      | some p => exact ⟨_,true,rfl,.swscale p h' quarantined _ rest (kept p rfl),rfl,rfl⟩

theorem process_running (running : Running j ctx heap m) (inUse : m.engine.backend = some b) (src dst : Picture) (g : Granted) :
    ∃ m' status, m.process j ctx b src dst g = some (m',status) ∧ Running j ctx heap m' ∧ m'.engine.backend = some b ∧
      (status = .fatal → b = .zimg) ∧ (status = .ok → Scaled ctx src dst g m'.engine) := by
  cases running with
  | idle => cases inUse
  | zimg w subW subH swap supported good =>
    obtain rfl : Backend.zimg = b := Option.some.inj inUse
    obtain ⟨w',status,ran,answered,good'⟩ := processWorld_good supported good ⟨frameOf src dst g,g.grants⟩
    refine ⟨⟨.zimg w',[]⟩,status,?_,.zimg w' subW subH swap supported good',rfl,fun _ => rfl,fun ok => ?_⟩
    · simp only [Machine.process,ran,Option.bind_eq_bind,Option.bind_some]
    · have success := (ZimgRuns.process_steady (f := started j.z ctx w ⟨frameOf src dst g,g.grants⟩) good.steady trivial).2
      rw [answered] at success
      obtain ⟨plan,srcView,dstView,history,shown,results⟩ := success ok
      exact ⟨subW,subH,swap,plan,srcView,dstView,_,supported,history,shown,results⟩
  | swscale p h quarantined base rest kept =>
    obtain rfl : Backend.swscale = b := Option.some.inj inUse
    obtain ⟨p',status,ran,kept',harmless,scaled⟩ := swsProcess_kept kept src dst g.rc
    refine ⟨⟨.swscale p' h,quarantined⟩,status,?_,.swscale p' h quarantined base rest kept',rfl,fun odd => absurd odd harmless,scaled⟩
    simp only [Machine.process,ran,Option.bind_eq_bind,Option.bind_some]

theorem close_running (running : Running j ctx heap m) (inUse : m.engine.backend = some b) (closing : StopOutcome) :
    ∃ m', m.close j b closing = some m' ∧ Running j ctx heap m' ∧ m'.engine.backend = none := by
  cases running with
  | idle => cases inUse
  | zimg w subW subH swap supported good =>
    obtain rfl : Backend.zimg = b := Option.some.inj inUse
    obtain ⟨destroyed,h,ran,-,clean,untouched⟩ := ZimgHeap.close_kept good.kept closing
    refine ⟨⟨.idle h,if destroyed then [] else [w]⟩,?_,.idle h _ ?_,rfl⟩
    · simp only [Machine.close,ran,Option.bind_eq_bind,Option.bind_some]
    · cases destroyed with
      | true =>
        rw [clean rfl]
        exact .before
      | false =>
        rw [untouched rfl]
        obtain ⟨prepared,keeps,-⟩ := good.kept
        exact .quarantine w keeps.owned
  | swscale p h quarantined base rest kept =>
    obtain rfl : Backend.swscale = b := Option.some.inj inUse
    obtain ⟨h',ran,size⟩ := swsClose_kept kept
    refine ⟨⟨.idle h',quarantined⟩,?_,.idle h' quarantined (size ▸ rest),rfl⟩
    simp only [Machine.close,ran,Option.bind_eq_bind,Option.bind_some]

/-! ## The trace -/

/-- Whether a backend has become unusable. -/
def fatal : Event → Bool
  | .process _ _ _ _ status => decide (status = .fatal)
  | .input _ | .newPicture _ | .release _ | .deliver _ | .sharpen _ _ | .openBackend _ _ _ | .closeBackend _ _ => false

/-- What the trace tells of the backends: zimg has become unusable once at most, and then
    it is not in use; without a backend zimg is forced or swscale did not open. -/
structure Record (c : Scaler) (trace : List Event) : Prop where
  once : trace.countP fatal = if c.fallbackTried then 1 else 0
  zimg : ∀ b priv src dst, .process b priv src dst .fatal ∈ trace → b = .zimg
  replaced : c.fallbackTried = true → c.backend ≠ some .zimg
  gone : c.backend = none → c.backendPref = backendZimg ∨ ∃ k, .openBackend .swscale k false ∈ trace

variable {c : Scaler} {e : Event} {trace new : List Event}

theorem happens_quiet {src dst : Option Picture} {g : Granted} (quiet : callsBackend e = false) (m : Machine) :
    happens j ctx src dst g e m = some m := by
  cases e <;> first | rfl | cases quiet

theorem record_quiet (record : Record c trace) (quiet : ∀ e ∈ new, callsBackend e = false) : Record c (new ++ trace) := by
  have silent : new.countP fatal = 0 := List.countP_eq_zero.mpr fun e member => by
    have calls := quiet e member
    cases e with
    | process => cases calls
    | _ => simp [fatal]
  refine ⟨?_,fun b priv src dst member => ?_,record.replaced,fun none => ?_⟩
  · rw [List.countP_append,silent,Nat.zero_add]
    exact record.once
  · rcases List.mem_append.mp member with inside | inside
    · exact absurd (quiet _ inside) (by simp [callsBackend])
    · exact record.zimg b priv src dst inside
  · rcases record.gone none with forced | ⟨k,member⟩
    · exact .inl forced
    · exact .inr ⟨k,List.mem_append_right new member⟩

/-- A frame that does not fail for good. -/
theorem record_process {status : ProcessStatus} (record : Record c trace) (live : c.backend = some b) (src dst : Nat)
    (fine : status ≠ .fatal) : Record c (.process b c.priv src dst status :: trace) := by
  refine ⟨?_,fun b' priv src' dst' member => ?_,record.replaced,fun none => ?_⟩
  · rw [List.countP_cons_of_neg (by simp [fatal,fine])]
    exact record.once
  · rcases List.mem_cons.mp member with same | inside
    · exact absurd (Event.process.inj same).2.2.2.2.symm fine
    · exact record.zimg b' priv src' dst' inside
  · rw [live] at none
    cases none

/-- The frame in which zimg fails, and the fallback. -/
theorem record_fallback (record : Record c trace) (zimg : c.backend = some .zimg) (src dst : Nat) {d : Scaler} {swap : List Event}
    (calm : ∀ e ∈ swap, fatal e = false) (tried : d.fallbackTried = true) (other : d.backend ≠ some .zimg)
    (gone : d.backend = none → d.backendPref = backendZimg ∨ ∃ k, .openBackend .swscale k false ∈ swap) :
    Record d (swap ++ .process .zimg c.priv src dst .fatal :: trace) := by
  have quiet : swap.countP fatal = 0 := List.countP_eq_zero.mpr fun e member => by simp [calm e member]
  have untried : c.fallbackTried = false := by
    cases before : c.fallbackTried with
    | false => rfl
    | true => exact absurd zimg (record.replaced before)
  refine ⟨?_,fun b priv src' dst' member => ?_,fun _ => other,fun none => ?_⟩
  · have once := record.once
    rw [List.countP_append,quiet,List.countP_cons_of_pos (by simp [fatal]),once,untried,tried]
    rfl
  · rcases List.mem_append.mp member with inside | inside
    · exact absurd (calm _ inside) (by simp [fatal])
    · rcases List.mem_cons.mp inside with same | inside
      · exact (Event.process.inj same).1
      · exact record.zimg b priv src' dst' inside
  · rcases gone none with forced | ⟨k,member⟩
    · exact .inl forced
    · exact .inr ⟨k,List.mem_append_left _ member⟩

/-! ## Runs -/

/-- The filter and its backends agree. -/
structure Joined (j : Job) (pref : Int) (ctx : ScalerCtx) (heap : Heap) (s : Sys R) (m : Machine) : Prop where
  running : Running j ctx heap m
  inUse : m.engine.backend = s.backend
  context : s.ctx = ctx
  supports : s.supports .swscale = swsSupports ctx.chroma
  pref : s.backendPref = pref
  record : Record s.scaler s.trace

variable {pref : Int} {s t : Sys R} {w : Linked R} {r : Request} {g : Granted}

theorem joined_quiet (joined : Joined j pref ctx heap s m) (quiet : Quiet s t) : Joined j pref ctx heap t m := by
  obtain ⟨running,inUse,context,supports,same,record⟩ := joined
  obtain ⟨new,newest,silent⟩ := quiet.trace
  refine ⟨running,inUse.trans (congrArg Scaler.backend quiet.scaler).symm,quiet.ctx.trans context,
    (congrFun quiet.supports _).trans supports,(congrArg Scaler.backendPref quiet.scaler).trans same,?_⟩
  rw [newest,quiet.scaler]
  exact record_quiet record silent

theorem followed_quiet {before : List Event} {m0 : Machine} {src dst : Option Picture}
    (followed : Followed (happens j ctx src dst g) before m0 s.trace m) (quiet : Quiet s t) :
    Followed (happens j ctx src dst g) before m0 t.trace m := by
  obtain ⟨new,newest,silent⟩ := quiet.trace
  rw [newest]
  exact followed_idle followed fun e member m => happens_quiet (silent e member) m

/-- What zimg supports swscale supports. -/
theorem zimg_swscale {chroma subW subH : Nat} {swap : Bool} (supported : chromaToZimg chroma = some (subW,subH,swap)) :
    swsSupports chroma = true := by
  rw [chromaToZimg] at supported
  rw [swsSupports,chromaToAVFmt]
  cases found : descriptor chroma with
  | none => simp [found] at supported
  | some desc =>
    simp only [found] at supported
    cases layout : desc.layout <;> simp_all [layoutIsPlanar,formatOf]

/-- The fallback after zimg has failed, played by the backends. -/
theorem fallback_joined {src dst : Nat} {m1 : Machine} (joined : Joined j pref ctx heap s m) (zimg : s.backend = some .zimg)
    (running : Running j ctx heap m1) (inUse : m1.engine.backend = some .zimg) {before : List Event} {m0 : Machine}
    {input output : Option Picture}
    (followed : Followed (happens j ctx input output g) before m0 (.process .zimg s.priv src dst .fatal :: s.trace) m1)
    (ok : Bool) (answers : ∀ m2 m3 opened, m1.close j .zimg g.closing = some m2 → m2.open j ctx .swscale g.openings = some (m3,opened) →
      ok = opened) :
    ∃ m', Followed (happens j ctx input output g) before m0
        (tryBackendFallback (s.emit (.process .zimg s.priv src dst .fatal)) ok).trace m' ∧
      Joined j pref ctx heap (tryBackendFallback (s.emit (.process .zimg s.priv src dst .fatal)) ok) m' := by
  obtain ⟨-,-,context,supports,same,record⟩ := joined
  have untried : s.fallbackTried = false := by
    cases before : s.fallbackTried with
    | false => rfl
    | true => exact absurd zimg (record.replaced before)
  have supported : swsSupports ctx.chroma = true := by
    cases running with
    | idle => cases inUse
    | swscale => cases inUse
    | zimg w subW subH swap supported => exact zimg_swscale supported
  obtain ⟨m2,closed,running2,idle⟩ := close_running running inUse g.closing
  have closing : Followed (happens j ctx input output g) before m0
      (.closeBackend .zimg s.priv :: .process .zimg s.priv src dst .fatal :: s.trace) m2 := followed_cons followed closed
  obtain ⟨_,_,_,_,_,rest⟩ := tryBackendFallback_rest (s.emit (.process .zimg s.priv src dst .fatal)) ok
  have forcing := fallback_forced (s := s.emit (.process .zimg s.priv src dst .fatal)) zimg untried
  have freeing := fallback_free (s := s.emit (.process .zimg s.priv src dst .fatal)) zimg untried
  have keeps : (tryBackendFallback (s.emit (.process .zimg s.priv src dst .fatal)) ok).ctx = s.ctx ∧
      (tryBackendFallback (s.emit (.process .zimg s.priv src dst .fatal)) ok).supports = s.supports ∧
      (tryBackendFallback (s.emit (.process .zimg s.priv src dst .fatal)) ok).backendPref = s.backendPref := by
    rw [rest]
    exact ⟨rfl,rfl,rfl⟩
  by_cases forced : s.backendPref = backendZimg
  · obtain ⟨scaler,trace⟩ := forcing forced ok
    generalize tryBackendFallback (s.emit (.process .zimg s.priv src dst .fatal)) ok = t at scaler trace keeps ⊢
    have trace : t.trace = [.closeBackend .zimg s.priv] ++ .process .zimg s.priv src dst .fatal :: s.trace := trace
    refine ⟨m2,trace ▸ closing,running2,idle.trans (congrArg Scaler.backend scaler).symm,keeps.1.trans context,
      (congrFun keeps.2.1 _).trans supports,keeps.2.2.trans same,?_⟩
    rw [trace,scaler]
    exact record_fallback record zimg src dst (by simp [fatal]) rfl (by simp) fun _ => .inl forced
  · obtain ⟨scaler,trace⟩ := freeing forced (supports.trans supported) ok
    obtain ⟨m3,opened,opens,running3,inUse3,-⟩ := open_running running2 idle .swscale g.openings (by simp)
    obtain rfl := answers m2 m3 opened closed opens
    generalize tryBackendFallback (s.emit (.process .zimg s.priv src dst .fatal)) ok = t at scaler trace keeps ⊢
    have trace : t.trace = [.openBackend .swscale s.nextPriv ok,.closeBackend .zimg s.priv] ++
      .process .zimg s.priv src dst .fatal :: s.trace := trace
    have opening := followed_cons (e := .openBackend .swscale s.nextPriv ok) closing
      (r := m3) (by simp [happens,opens])
    refine ⟨m3,trace ▸ opening,running3,inUse3.trans (congrArg Scaler.backend scaler).symm,keeps.1.trans context,
      (congrFun keeps.2.1 _).trans supports,keeps.2.2.trans same,?_⟩
    rw [trace,scaler]
    refine record_fallback record zimg src dst (by simp [fatal]) rfl ?_ fun none => .inr ⟨s.nextPriv,?_⟩
    · cases ok <;> simp
    · cases ok with
      | true => cases none
      | false => simp

/-- A frame with its backends: each call of a backend can be taken, and a picture that is
    returned has been scaled. -/
theorem filterLinked_joined (joined : Joined j pref ctx heap w.sys w.machine) (r : Request) :
    ∃ w' result, filterLinked j w r = some (w',result) ∧ filter w.sys r.input (outcomeOf j w r) = (w'.sys,result) ∧
      Joined j pref ctx heap w'.sys w'.machine ∧
      ∀ n, result = some n → processed j w r = some (w'.machine,.ok) ∧ ∃ src dst, r.input = some src ∧ r.newPicture = some dst ∧
        Scaled ctx src dst r.granted w'.machine.engine := by
  have start : Followed (happens j ctx r.input r.newPicture r.granted) w.sys.trace w.machine w.sys.trace w.machine := followed_start
  have context := joined.context
  -- what is left to show once the new events have been followed
  have finish : ∀ t result m', filter w.sys r.input (outcomeOf j w r) = (t,result) →
      Followed (happens j ctx r.input r.newPicture r.granted) w.sys.trace w.machine t.trace m' →
      filterLinked j w r = some (⟨t,m'⟩,result) := by
    intro t result m' answered followed
    rw [filterLinked,answered,context]
    simp only [followed_newer followed,Option.map_some]
  cases input : r.input with
  | none =>
    have answered : filter w.sys r.input (outcomeOf j w r) = (w.sys,none) := by
      rw [input]
      rfl
    exact ⟨w,none,finish w.sys none w.machine answered start,input ▸ answered,joined,by simp⟩
  | some picture =>
    have calls := filter_calls w.sys picture (outcomeOf j w r)
    rw [← input]
    rw [← input] at calls
    generalize answered : filter w.sys r.input (outcomeOf j w r) = out at calls
    obtain ⟨t,result⟩ := out
    cases calls with
    | none _ quiet =>
      exact ⟨⟨t,w.machine⟩,none,finish t none w.machine answered (followed_quiet start quiet),rfl,joined_quiet joined quiet,by simp⟩
    | process b live pic allocated src dst asked before _ _ after scaled =>
      have allocated : r.newPicture = some pic := allocated
      have asking := joined_quiet joined before
      have reached := followed_quiet start before
      have inUse : w.machine.engine.backend = some b := joined.inUse.trans live
      obtain ⟨m1,status,ran,running,inUse1,blame,whole⟩ := process_running joined.running inUse picture pic r.granted
      have backend : asked.backend = some b := (congrArg Scaler.backend before.scaler).trans live
      have priv : w.sys.priv = asked.priv := (congrArg Scaler.priv before.scaler).symm
      have found : processed j w r = some (m1,status) := by
        simp [processed,live,input,allocated,context,ran]
      have told : (outcomeOf j w r).status = status := by simp [outcomeOf,found]
      rw [told,priv] at after
      rw [told] at scaled
      have called : Followed (happens j ctx r.input r.newPicture r.granted) w.sys.trace w.machine
          (.process b asked.priv src dst status :: asked.trace) m1 :=
        followed_cons reached (by simp [happens,input,allocated,ran])
      by_cases bad : status = .fatal
      · obtain rfl := blame bad
        subst bad
        rw [if_pos rfl] at after
        obtain ⟨m',followed,joined'⟩ := fallback_joined asking backend running inUse1 called (outcomeOf j w r).openFallback
          (fun m2 m3 opened closed opens => by simp [outcomeOf,fallback,found,closed,context,opens])
        refine ⟨⟨t,m'⟩,result,finish t result m' answered (followed_quiet followed after),rfl,joined_quiet joined' after,?_⟩
        intro n returned
        exact absurd (scaled (by simp [returned])) (by simp)
      · rw [if_neg bad] at after
        have joined' : Joined j pref ctx heap (asked.emit (.process b asked.priv src dst status)) m1 :=
          ⟨running,inUse1.trans backend.symm,asking.context,asking.supports,asking.pref,
            record_process asking.record backend src dst bad⟩
        have followed := followed_quiet (t := t) (s := asked.emit (.process b asked.priv src dst status)) called after
        refine ⟨⟨t,m1⟩,result,finish t result m1 answered followed,rfl,joined_quiet joined' after,fun n returned => ?_⟩
        have ok := scaled (by simp [returned])
        exact ⟨by rw [found,ok],picture,pic,input,allocated,whole ok⟩

theorem openScalerOrFallback_supports (s : Sys R) (be : Backend) (opens : Backend → Bool) :
    (openScalerOrFallback s be opens).1.supports = s.supports := by
  simp only [openScalerOrFallback,openBackendAttempt]
  split_ifs
  all_goals first | rfl | (split; rfl; split_ifs <;> rfl)

/-- A backend that does not open changes nothing but the heap's unused blocks. -/
theorem open_refused {h : Heap} {o : Openings} {m' : Machine}
    (refused : Machine.open j ctx ⟨.idle h,[]⟩ .zimg o = some (m',false)) : m' = ⟨.idle h,[]⟩ := by
  simp only [Machine.open] at refused
  split at refused
  · exact (Prod.mk.inj (Option.some.inj refused)).1.symm
  · cases refused

/-- The filter opens with a backend that did. -/
theorem openLinked_joined {zimgLinked : Bool} {c : Config R}
    (configured : openFilter (supported zimgLinked c) (opensOn j c.ctx heap g) = some s) :
    ∃ m, openLinked j zimgLinked c heap g = some ⟨s,m⟩ ∧ Joined j c.backendPref c.ctx heap s m := by
  obtain ⟨preferred,-,shape,-⟩ := openFilter_spec configured
  have context : s.ctx = c.ctx := congrArg Probe.ctx (openFilter_probe configured).1
  have supports : s.supports = supportsOf zimgLinked c.ctx.chroma := by
    obtain ⟨be,-,tried⟩ := Option.bind_eq_some_iff.mp configured
    simp only at tried
    split_ifs at tried
    rw [← Option.some.inj tried]
    exact openScalerOrFallback_supports _ be _
  have idle : Running j c.ctx heap ⟨.idle heap,[]⟩ := .idle heap [] .before
  suffices found : ∃ m, play (happens j c.ctx none none g) ⟨.idle heap,[]⟩ s.trace = some m ∧
      Running j c.ctx heap m ∧ m.engine.backend = s.scaler.backend ∧ s.scaler.backendPref = c.backendPref ∧
      Record s.scaler s.trace by
    obtain ⟨m,played,running,inUse,pref,record⟩ := found
    refine ⟨m,?_,running,inUse,context,congrFun supports _,pref,record⟩
    rw [openLinked,configured]
    simp only [Option.bind_some,played,Option.map_some]
  generalize s.scaler = scaler at shape ⊢
  generalize s.trace = trace at shape ⊢
  cases shape with
  | first ok =>
    obtain ⟨m,opened,ran,running,inUse,-⟩ := open_running idle rfl preferred g.openings fun _ => rfl
    obtain rfl : opened = true := by simpa [opensOn,ran] using ok
    exact ⟨m,by simp [play,happens,ran],running,inUse,rfl,by simp [fatal],by simp,by simp,by simp⟩
  | second auto zimg refused ok =>
    obtain ⟨m1,opened1,ran1,running1,inUse1,fresh⟩ := open_running idle rfl .zimg g.openings fun _ => rfl
    obtain rfl : opened1 = false := by simpa [opensOn,ran1] using refused
    obtain rfl := open_refused ran1
    obtain ⟨m,opened,ran,running,inUse,-⟩ := open_running idle rfl .swscale g.openings fun _ => rfl
    obtain rfl : opened = true := by simpa [opensOn,ran] using ok
    exact ⟨m,by simp [play,happens,ran1,ran],running,inUse,rfl,by simp [fatal],by simp,by simp,by simp⟩

theorem closeLinked_joined (joined : Joined j pref ctx heap w.sys w.machine) (g : Granted) :
    ∃ w' h, closeLinked j w g = some w' ∧ w'.machine.engine = .idle h ∧ Rest j.z heap w'.machine.quarantined h.size := by
  have closing : ∃ m, Followed (happens j w.sys.ctx none none g) w.sys.trace w.machine (Filter.close w.sys).trace m ∧
      Running j ctx heap m ∧ m.engine.backend = none := by
    have trace : (Filter.close w.sys).trace = (closeBackend w.sys).trace := rfl
    rw [trace,closeBackend]
    cases live : w.sys.backend with
    | none => exact ⟨w.machine,followed_start,joined.running,joined.inUse.trans live⟩
    | some b =>
      obtain ⟨m,closed,running,idle⟩ := close_running joined.running (joined.inUse.trans live) g.closing
      exact ⟨m,followed_cons followed_start closed,running,idle⟩
  obtain ⟨m,followed,running,idle⟩ := closing
  cases running with
  | zimg => cases idle
  | swscale => cases idle
  | idle h quarantined rest =>
    refine ⟨⟨Filter.close w.sys,⟨.idle h,quarantined⟩⟩,h,?_,rfl,rest⟩
    rw [closeLinked]
    simp only [followed_newer followed,Option.map_some]

theorem run_joined (joined : Joined j pref ctx heap w.sys w.machine) (requests : List Request) :
    ∃ w', run (step j) w requests = some w' ∧ Joined j pref ctx heap w'.sys w'.machine ∧
      ∃ calls : List Call, calls.map Call.input = requests.map Request.input ∧ run Filter.step w.sys calls = some w'.sys := by
  induction requests generalizing w with
  | nil => exact ⟨w,rfl,joined,[],rfl,rfl⟩
  | cons r rest ih =>
    obtain ⟨w1,result,ran,answered,joined1,-⟩ := filterLinked_joined joined r
    obtain ⟨w',runs,joined',calls,inputs,filtered⟩ := ih joined1
    have moved : step j w r = some w1 := by rw [step,ran]; rfl
    refine ⟨w',Runs.run_cons_iff.mpr ⟨w1,moved,runs⟩,joined',⟨r.input,outcomeOf j w r⟩ :: calls,?_,?_⟩
    · rw [List.map_cons,List.map_cons,inputs]
    · exact Runs.run_cons_iff.mpr ⟨w1.sys,congrArg some (congrArg Prod.fst answered),filtered⟩

/-- The filter linked with its backends, in every run and whatever these are granted. Each
    call of a backend is one that the backend in use can take, with the answer that the
    filter acts on, so it is a run of the filter. Only zimg becomes unusable, once at most,
    and is not in use from then on; no backend is left only where zimg is forced or swscale
    was refused. A picture that is returned has been scaled whole. When the filter is closed
    the heap is as it was, but for what a zimg keeps whose threads could not be joined. -/
theorem linked_filter {zimgLinked : Bool} {c : Config R} (configured : openFilter (supported zimgLinked c) (opensOn j c.ctx heap g) = some s)
    (requests : List Request) :
    ∃ m w, openLinked j zimgLinked c heap g = some ⟨s,m⟩ ∧ run (step j) ⟨s,m⟩ requests = some w ∧
      (∃ calls : List Call, calls.map Call.input = requests.map Request.input ∧ run Filter.step s calls = some w.sys) ∧
      w.machine.engine.backend = w.sys.backend ∧
      w.sys.trace.countP fatal ≤ 1 ∧
      (∀ b priv src dst, .process b priv src dst .fatal ∈ w.sys.trace → b = .zimg ∧ w.sys.backend ≠ some .zimg) ∧
      (w.sys.backend = none → c.backendPref = backendZimg ∨ ∃ k, .openBackend .swscale k false ∈ w.sys.trace) ∧
      (∀ r, ∃ w' result, filterLinked j w r = some (w',result) ∧ ∀ n, result = some n → ∃ src dst, r.input = some src ∧
        r.newPicture = some dst ∧ Scaled c.ctx src dst r.granted w'.machine.engine) ∧
      ∀ g, ∃ w' h, closeLinked j w g = some w' ∧ w'.machine.engine = .idle h ∧ Rest j.z heap w'.machine.quarantined h.size := by
  obtain ⟨m,opened,joined⟩ := openLinked_joined configured
  obtain ⟨w,ran,joined',runs⟩ := run_joined (w := ⟨s,m⟩) joined requests
  have record := joined'.record
  refine ⟨m,w,opened,ran,runs,joined'.inUse,?_,fun b priv src dst member => ⟨record.zimg b priv src dst member,?_⟩,?_,fun r => ?_,
    fun g => closeLinked_joined joined' g⟩
  · rw [record.once]
    split_ifs <;> simp
  · refine record.replaced ?_
    have once := record.once
    have some : 0 < w.sys.trace.countP fatal := List.countP_pos_iff.mpr ⟨_,member,by simp [fatal]⟩
    by_contra untried
    rw [if_neg untried] at once
    omega
  · intro none
    rcases record.gone none with forced | refused
    · exact .inl (joined'.pref.symm.trans forced)
    · exact .inr refused
  · obtain ⟨w',result,answered,-,-,scaled⟩ := filterLinked_joined joined' r
    exact ⟨w',result,answered,fun n back => (scaled n back).2⟩

/-- Everything is granted; `works` says whether the workers of zimg succeed. -/
def granted (works : Bool) : Granted :=
  ⟨apartFrame.start,true,apartFrame.stop,fun _ => works,ZimgHeap.allGrants,64,apartFrame.stop,⟨true,true,true,true⟩⟩

def request (works : Bool) : Request :=
  ⟨some apartFrame.src,fun _ => 0,some apartFrame.dst,some ⟨0,0⟩,(received .ok .ok).outcome.usm,granted works⟩

/-- Two threads for zimg, and Spline36. -/
def job : Job := ⟨size64,2,3⟩

/-- zimg scales a picture and fails, swscale scales the next one, and the heap is empty in
    the end. -/
theorem linked_filter_swapped : ∃ s m w, openLinked job true doubling vacant (granted true) = some ⟨s,m⟩ ∧
    run (step job) ⟨s,m⟩ [request true,request false,request true] = some w ∧ w.sys.trace.countP fatal = 1 ∧
    w.machine.engine.backend = some .swscale ∧ .deliver 1 ∈ w.sys.trace ∧ .deliver 5 ∈ w.sys.trace ∧
    ∃ w' h, closeLinked job w (granted true) = some w' ∧ w'.machine.engine = .idle h ∧ h.size = vacant.size := by
  obtain ⟨s,configured⟩ := Option.isSome_iff_exists.mp
    (by decide +kernel : (openFilter (supported true doubling) (opensOn job doubling.ctx vacant (granted true))).isSome = true)
  obtain ⟨m,w,opened,ran,-,inUse,-,-,-,-,closing⟩ := linked_filter configured [request true,request false,request true]
  obtain ⟨w',h,closed,idle,rest⟩ := closing (granted true)
  have shown : ((openLinked job true doubling vacant (granted true)).bind fun w0 =>
      (run (step job) w0 [request true,request false,request true]).bind fun w => (closeLinked job w (granted true)).map fun w' =>
        ((w.sys.backend,w.sys.trace.countP fatal),(decide (.deliver 1 ∈ w.sys.trace),decide (.deliver 5 ∈ w.sys.trace)),
          w'.machine.quarantined.length)) = some ((some .swscale,1),(true,true),0) := by decide +kernel
  rw [opened,Option.bind_some,ran,Option.bind_some,closed,Option.map_some] at shown
  simp only [Option.some.injEq,Prod.mk.injEq,decide_eq_true_eq,List.length_eq_zero_iff] at shown
  obtain ⟨⟨backend,once⟩,⟨first,third⟩,joined⟩ := shown
  rw [joined] at rest
  have size : h.size = vacant.size := by
    generalize h.size = size at rest
    cases rest with
    | before => rfl
  exact ⟨s,m,w,opened,ran,once,inUse.trans backend,first,third,w',h,closed,idle,size⟩

end AutoUpscale.FilterLinked
