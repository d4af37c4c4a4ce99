import AutoUpscale.CropAlign
import AutoUpscale.FilterBackends
import AutoUpscale.UpscaleLogic

/-!
The opening of the filter: `up_autoupscale_open` of `autoupscale.c`, with the number of
workers of `thread_policy.h`. What the backends and the allocations answer is an
argument, and the trace records what is acquired and released. The opening fails and
changes nothing, or it is complete (`open_all_or_nothing`); then the filter is one of
those that `openFilter` opens (`open_filter`).
-/
namespace AutoUpscale.Filter
open AutoUpscale.Chroma (chromaIsOpaque chromaHasYPlane)
open AutoUpscale.CropAlign (alignCropEven)
open AutoUpscale.Tuner (Double)
open AutoUpscale.UpscaleLogic (Dims intMax normalizeAutoEnum planUpscale targetMax)
open AutoUpscale.ZimgProcess (ScalerCtx)
set_option linter.unusedSectionVars false
universe u
variable {R : Type u} [Double R]

def intMin : Int := -2147483648

/-! ## The number of workers -/

/-- `UP_THREADS_AUTO`, `UP_THREADS_MAX` and `UP_THREADS_AUTO_MAX`. -/
def threadsAuto : Int := 0
def threadsMax : Int := 64
def threadsAutoMax : Int := 12

/-- `up_threads_decide`. -/
def threadsDecide (userPref totalCores : Int) : Int :=
  let totalCores := if totalCores ≤ 0 then 1 else totalCores
  let n :=
    if userPref ≤ threadsAuto then
      let n := totalCores.tdiv 2 - 2
      let n := if n < 1 then 1 else n
      if n > threadsAutoMax then threadsAutoMax else n
    else userPref
  let n := if n > totalCores then totalCores else n
  let n := if n > threadsMax then threadsMax else n
  if n < 1 then 1 else n

/-- `up_usm_threads_decide`. -/
def usmThreadsDecide (userPref totalCores width height : Int) : Int :=
  if userPref > threadsAuto then threadsDecide userPref totalCores
  else if width ≤ 0 ∨ height ≤ 0 then 1
  else
    let pixels := width * height
    let count := if pixels ≤ 1280 * 720 then 8 else if pixels ≤ 1920 * 1080 then 12 else 16
    threadsDecide count totalCores

/-! ## The filter of the player -/

/-- The chroma and the sizes of `video_format_t`. -/
structure VideoFormat where
  chroma : UInt32
  width : UInt32
  visibleWidth : UInt32
  height : UInt32
  visibleHeight : UInt32
  xOffset : UInt32
  yOffset : UInt32
  deriving DecidableEq, Repr

/-- `filter_sys_t` with what only the opening reads of it. -/
structure FilterSys (R : Type u) where
  sys : Sys R
  algo : Int
  threadsPref : Int
  pinCpus : Int
  metrics : Bool

/-- `p_sys`: an address that is not of this filter, or its state. -/
inductive SysPointer (R : Type u)
  | other (address : Nat)
  | own (sys : FilterSys R)

/-- `pf_video_filter`: an address, or `Filter`. -/
inductive VideoFilter
  | other (address : Nat)
  | filter
  deriving DecidableEq, Repr

/-- `filter_t`. -/
structure FilterT (R : Type u) where
  fmtIn : VideoFormat
  fmtOut : VideoFormat
  allowFmtOutChange : Bool
  sys : SysPointer R
  videoFilter : VideoFilter

/-- The options of the filter. -/
inductive Tunable
  | skipAbove
  | target
  | algo
  | backend
  | usm
  | threads
  | pinThreads
  | zimgStripeLines
  | zerocopyDst
  | zerocopySrc
  | adaptiveUsm
  | usmStripeMinRows
  | usmSharpThreshold
  | contentProbe
  | metrics
  deriving DecidableEq, Repr

/-- What `up_autoupscale_open` allocates. -/
inductive Block
  | sys
  | usmPool
  | metrics
  deriving DecidableEq, Repr

inductive OpenEvent
  | calloc (block : Block) (ok : Bool)
  | free (block : Block)
  | backend (event : Event)
  deriving DecidableEq, Repr

/-- What the environment answers during the opening. -/
structure OpenOutcome where
  cores : Int
  supports : Backend → Nat → Int → Bool
  sysAllocated : Bool
  opens : Backend → Bool
  poolAllocated : Bool
  metricsAllocated : Bool

inductive VlcStatus
  | success
  | egeneric
  | enomem
  deriving DecidableEq, Repr

/-- What the opening returns and leaves; the last event is first. -/
structure Opening (R : Type u) where
  status : VlcStatus
  filter : FilterT R
  trace : List OpenEvent

/-- `source_crop_t`. -/
structure SourceCrop where
  dims : Dims
  xOffset : Nat
  yOffset : Nat

/-- The five values that `ClampConfig` clamps. -/
structure OpenConfig where
  preset : Int
  algo : Int
  backend : Int
  usm : Int
  skip : Int

/-! ## The phases of the opening -/

/-- A dimension of the crop as an `int`, or -1. -/
def cropDim (n : UInt32) : Int := if (n.toNat : Int) ≤ intMax then n.toNat else -1

/-- `ResolveSourceCrop`. -/
def resolveSourceCrop (fmt : VideoFormat) : Option SourceCrop := do
  let width := if fmt.visibleWidth ≠ 0 then fmt.visibleWidth else fmt.width
  let height := if fmt.visibleHeight ≠ 0 then fmt.visibleHeight else fmt.height
  match ← alignCropEven fmt.chroma.toNat (some (cropDim width)) (some (cropDim height))
      (some fmt.xOffset.toNat) (some fmt.yOffset.toNat) with
  | (some w,some h,some x,some y) => some ⟨⟨w,h⟩,x.toNat,y.toNat⟩
  | _ => none

/-- `PickBackendOrReject`. -/
def pickBackendOrReject (supports : Backend → Bool) (chroma : Nat) (backendPref : Int) : Option Backend :=
  if chromaIsOpaque chroma then none else scalerPick supports backendPref

/-- `InheritIntSat` of the value of an option, which has 64 bits. -/
def inheritIntSat (options : Tunable → Int) (name : Tunable) : Int :=
  let v := options name
  if v > intMax then intMax else if v < intMin then intMin else v

/-- `UP_ALGO_MAX`, `SCALER_BACKEND_MAX` and `UP_USM_AMOUNT_MAX`. -/
def algoMax : Int := 3
def backendMax : Int := backendSwscale
def usmAmountMax : Int := 200

/-- `ClampConfig`. -/
def clampConfig (c : OpenConfig) : OpenConfig where
  preset := normalizeAutoEnum c.preset targetMax
  algo := if c.algo < 0 then 0 else if c.algo > algoMax then algoMax else c.algo
  backend := normalizeAutoEnum c.backend backendMax
  usm := if c.usm < 0 then 0 else if c.usm > usmAmountMax then usmAmountMax else c.usm
  skip := if c.skip < 0 then 0 else c.skip

/-- The options that `up_autoupscale_open` reads first, clamped. -/
def openConfig (options : Tunable → Int) : OpenConfig :=
  clampConfig
    { preset := inheritIntSat options .target, algo := inheritIntSat options .algo,
      backend := inheritIntSat options .backend, usm := inheritIntSat options .usm,
      skip := inheritIntSat options .skipAbove }

/-- The option `threads` as `ConfigureScaler` clamps it. -/
def threadsPref (options : Tunable → Int) : Int :=
  let threads := inheritIntSat options .threads
  let threads := if threads < 0 then 0 else threads
  if threads > threadsMax then threadsMax else threads

/-- The geometry and the tunables of `ConfigureScaler`. -/
def configureScaler (options : Tunable → Int) (fmtIn : VideoFormat) (src : SourceCrop) (target : Dims) : ScalerCtx where
  srcW := src.dims.width
  srcH := src.dims.height
  srcCodedW := fmtIn.width.toNat
  srcCodedH := fmtIn.height.toNat
  srcXOffset := src.xOffset
  srcYOffset := src.yOffset
  dstW := target.width
  dstH := target.height
  chroma := fmtIn.chroma.toNat
  minStripeLines := inheritIntSat options .zimgStripeLines
  zerocopy := inheritIntSat options .zerocopyDst
  srcZerocopy := inheritIntSat options .zerocopySrc

/-- A pool that is not there, beside an adaptive choice that `calloc` has cleared. -/
def noUsm : UsmAdaptive.World R :=
  let zero : R := ((0 : Nat) : R)
  { adaptive :=
      { tuner :=
          { limit := 0, best := 0, current := 0, candidate := 0, cursor := 0, warmup := 0, remaining := 0, drift := 0,
            changes := 0, samples := [], base := ⟨zero,zero,zero⟩, trial := ⟨zero,zero,zero⟩, steady := ⟨zero,zero,zero⟩,
            phase := .base },
        trial := none, trialCount := 0, width := 0, height := 0, stripeRows := 0, enabled := false, stopped := false,
        retained := false, framePending := false, frameTimed := false, frameStart := ⟨0,0⟩ },
    best := none, next := 0, trace := [] }

/-- `InitAdaptiveUsm`. -/
def initAdaptiveUsm (w : UsmAdaptive.World R) (options : Tunable → Int) (initial cores : Int) (target : Dims)
    (stripeMin : Int) : UsmAdaptive.World R :=
  if inheritIntSat options .adaptiveUsm = 0 then w
  else if threadsPref options ≠ threadsAuto then w
  else
    let limit := threadsDecide threadsMax cores
    { w with adaptive := (UsmAdaptive.init initial limit target.width target.height stripeMin).adaptive }

/-- `up_usm_amount_pct_to_q8`. -/
def amountPctToQ8 (amountPct : Int) : Int :=
  if amountPct ≤ 0 then 0
  else
    let amountPct := if amountPct > usmAmountMax then usmAmountMax else amountPct
    (amountPct * 256).tdiv 100

/-- `InitUsmPool`: the amount, the pools and what is allocated. -/
def initUsmPool (options : Tunable → Int) (chroma : Nat) (target : Dims) (cores usmPct : Int) (poolAllocated : Bool) :
    Int × UsmAdaptive.World R × List OpenEvent :=
  if usmPct ≤ 0 ∨ chromaHasYPlane chroma = false then (0,noUsm,[])
  else
    let nThreads := usmThreadsDecide (threadsPref options) cores target.width target.height
    let stripeMin := inheritIntSat options .usmStripeMinRows
    match UsmPool.create nThreads target.width target.height stripeMin with
    | none => (0,noUsm,[])
    | some _ =>
      match UsmAdaptive.poolCreate noUsm poolAllocated with
      | (w,none) => (0,w,[.calloc .usmPool false])
      | (w,some pool) =>
        (amountPctToQ8 usmPct,initAdaptiveUsm { w with best := some pool } options nThreads cores target stripeMin,
          [.calloc .usmPool true])

/-- `probe.advice` of `InitProbe`. -/
def probeAdvice (options : Tunable → Int) : Bool := decide (inheritIntSat options .contentProbe ≠ 0)

/-- `probe.active` of `InitProbe`. -/
def probeActive (options : Tunable → Int) (chroma : Nat) (usmPct : Int) : Bool :=
  (probeAdvice options || (decide (inheritIntSat options .usmSharpThreshold > 0) && decide (usmPct > 0))) &&
    chromaHasYPlane chroma

/-- The metrics of the time spent, if they are asked for: what is allocated, and whether there are any. -/
def initMetrics (options : Tunable → Int) (ok : Bool) : List OpenEvent × Bool :=
  if inheritIntSat options .metrics > 0 then ([.calloc .metrics ok],ok) else ([],false)

/-- What `SetOutputFormat` wires. -/
def targetFormat (chroma : UInt32) (target : Dims) : VideoFormat where
  chroma := chroma
  width := .ofInt target.width
  visibleWidth := .ofInt target.width
  height := .ofInt target.height
  visibleHeight := .ofInt target.height
  xOffset := 0
  yOffset := 0

/-- `OutputFormatAllowed`. -/
def outputFormatAllowed (f : FilterT R) (chroma : UInt32) (target : Dims) : Bool :=
  f.allowFmtOutChange ||
    (decide (f.fmtOut.chroma = chroma) && decide (f.fmtOut.width = .ofInt target.width) &&
      decide (f.fmtOut.visibleWidth = .ofInt target.width) && decide (f.fmtOut.height = .ofInt target.height) &&
      decide (f.fmtOut.visibleHeight = .ofInt target.height) && decide (f.fmtOut.xOffset = 0) &&
      decide (f.fmtOut.yOffset = 0))

/-! ## The opening -/

/-- What is left of `up_autoupscale_open` once a backend has opened. -/
def completeOpen (f : FilterT R) (options : Tunable → Int) (o : OpenOutcome) (target : Dims) (s : Sys R)
    (trace : List OpenEvent) : Opening R :=
  let config := openConfig options
  let chroma := f.fmtIn.chroma
  let (usmAmountQ8,usm,pools) := initUsmPool options chroma.toNat target o.cores config.usm o.poolAllocated
  let s :=
    { s with
      usmAmountQ8 := usmAmountQ8, usm := usm, usmSharpThreshold := inheritIntSat options .usmSharpThreshold,
      probeAdvice := probeAdvice options, probeActive := probeActive options chroma.toNat config.usm, adviceLogged := false }
  let (blocks,metrics) := initMetrics options o.metricsAllocated
  let sys : FilterSys R :=
    { sys := s, algo := config.algo, threadsPref := threadsPref options,
      pinCpus := if inheritIntSat options .pinThreads ≠ 0 then 1 else 0, metrics := metrics }
  { status := .success,
    filter := { f with fmtOut := targetFormat chroma target, sys := .own sys, videoFilter := .filter },
    trace := blocks ++ (pools ++ trace) }

/-- `filter_sys_t` before the backend opens. -/
def configuredSys (f : FilterT R) (options : Tunable → Int) (o : OpenOutcome) (src : SourceCrop) (target : Dims) : Sys R :=
  configured
    { ctx := configureScaler options f.fmtIn src target, backendPref := (openConfig options).backend,
      supports := fun b => o.supports b f.fmtIn.chroma.toNat (openConfig options).algo, usmAmountQ8 := 0, usm := noUsm,
      probeAdvice := false, probeActive := false, usmSharpThreshold := 0 }

/-- `up_autoupscale_open` from the allocation of `p_sys` on. -/
def openWith (f : FilterT R) (options : Tunable → Int) (o : OpenOutcome) (src : SourceCrop) (target : Dims) (be : Backend) :
    Opening R :=
  if o.sysAllocated = false then ⟨.enomem,f,[.calloc .sys false]⟩
  else
    let (s,opened) := openScalerOrFallback (configuredSys f options o src target) be o.opens
    let trace := s.trace.map .backend ++ [.calloc .sys true]
    if opened then completeOpen f options o target s trace else ⟨.egeneric,f,.free .sys :: trace⟩

/-- `up_autoupscale_open` once the upscaling is planned. -/
def openPlanned (f : FilterT R) (options : Tunable → Int) (o : OpenOutcome) (src : SourceCrop) (target : Dims) : Opening R :=
  let config := openConfig options
  let chroma := f.fmtIn.chroma
  if outputFormatAllowed f chroma target = false then ⟨.egeneric,f,[]⟩
  else match pickBackendOrReject (fun b => o.supports b chroma.toNat config.algo) chroma.toNat config.backend with
    | none => ⟨.egeneric,f,[]⟩
    | some be => openWith f options o src target be

/-- `up_autoupscale_open`; without a value where the arithmetic overflows. -/
def upAutoupscaleOpen (f : FilterT R) (options : Tunable → Int) (o : OpenOutcome) : Option (Opening R) :=
  let config := openConfig options
  (resolveSourceCrop f.fmtIn).bind fun src =>
    (planUpscale src.dims.width src.dims.height config.skip config.preset o.cores 0).map fun (planned,target) =>
      if planned = false then ⟨.egeneric,f,[]⟩ else openPlanned f options o src target

/-! ## What an opening acquires and tries -/

/-- An allocated block, or an opened backend. -/
inductive Resource
  | block (block : Block)
  | backend (backend : Backend) (priv : Nat)
  deriving DecidableEq, Repr

/-- What was acquired and not released yet. -/
def held : List OpenEvent → List Resource
  | [] => []
  | .calloc block true :: past => .block block :: held past
  | .calloc _ false :: past => held past
  | .free block :: past => (held past).erase (.block block)
  | .backend (.openBackend b priv true) :: past => .backend b priv :: held past
  | .backend (.closeBackend b (some priv)) :: past => (held past).erase (.backend b priv)
  | .backend _ :: past => held past

/-- The backends that were tried, the last one first, and whether they opened. -/
def attempts (trace : List OpenEvent) : List (Backend × Bool) :=
  trace.filterMap fun
    | .backend (.openBackend b _ ok) => some (b,ok)
    | _ => none

/-- A second backend is tried after zimg alone, where any would do, and is swscale. -/
structure Tried (pref : Int) (tries : List (Backend × Bool)) : Prop where
  few : tries.length ≤ 2
  second : ∀ later earlier, tries = [later,earlier] → pref = backendAuto ∧ earlier = (.zimg,false) ∧ later.1 = .swscale

/-- The backend that a filter uses is the one that opened, and what is held. -/
structure Live (opens : Backend → Bool) (c : Scaler) (trace : List OpenEvent) (b : Backend) (priv : Nat) : Prop where
  inUse : c.backend = some b
  owner : c.priv = some priv
  answer : opens b = true
  opened : ∀ b', (b',true) ∈ attempts trace ↔ b' = b
  backend : Resource.backend b priv ∈ held trace
  sys : Resource.block .sys ∈ held trace

/-- The filter that a successful opening leaves: all that the planned target settles. -/
structure Complete (f : FilterT R) (options : Tunable → Int) (o : OpenOutcome) (src : SourceCrop) (target : Dims)
    (r : Opening R) : Prop where
  planned : planUpscale src.dims.width src.dims.height (openConfig options).skip (openConfig options).preset o.cores 0 =
    some (true,target)
  chroma : r.filter.fmtOut.chroma = f.fmtIn.chroma
  width : (r.filter.fmtOut.width.toNat : Int) = target.width
  visibleWidth : (r.filter.fmtOut.visibleWidth.toNat : Int) = target.width
  height : (r.filter.fmtOut.height.toNat : Int) = target.height
  visibleHeight : (r.filter.fmtOut.visibleHeight.toNat : Int) = target.height
  xOffset : r.filter.fmtOut.xOffset = 0
  yOffset : r.filter.fmtOut.yOffset = 0
  fixed : f.allowFmtOutChange = false → f.fmtOut = r.filter.fmtOut
  wired : r.filter.videoFilter = .filter
  live : ∃ sys b priv, r.filter.sys = .own sys ∧ Live o.opens sys.sys.scaler r.trace b priv

variable {f : FilterT R} {options : Tunable → Int} {o : OpenOutcome} {src : SourceCrop} {target : Dims}
  {trace blocks : List OpenEvent} {pref : Int} {preferred : Backend} {opens supports : Backend → Bool}

theorem tried_none (pref : Int) : Tried pref [] := ⟨by simp,by simp⟩

theorem tried_once (pref : Int) (b : Backend) (ok : Bool) : Tried pref [(b,ok)] := ⟨by simp,by simp⟩

theorem tried_twice (auto : pref = backendAuto) (ok : Bool) : Tried pref [(.swscale,ok),(.zimg,false)] := by
  refine ⟨by simp,fun later earlier same => ?_⟩
  obtain ⟨rfl,rfl⟩ : (.swscale,ok) = later ∧ (.zimg,false) = earlier := by simpa using same
  exact ⟨auto,rfl,rfl⟩

/-- Of a backend that opened, and of what was tried before. -/
theorem opened_live {c : Scaler} {events : List Event} (opened : Opened pref preferred opens c events) :
    ∃ b priv, Live opens c (events.map .backend ++ [.calloc .sys true]) b priv ∧
      Tried pref (attempts (events.map .backend ++ [.calloc .sys true])) := by
  cases opened with
  | first ok => exact ⟨preferred,0,⟨rfl,rfl,ok,by simp [attempts],by simp [held],by simp [held]⟩,tried_once pref preferred true⟩
  | second auto zimg refused ok =>
    exact ⟨.swscale,1,⟨rfl,rfl,ok,by simp [attempts],by simp [held],by simp [held]⟩,tried_twice auto true⟩

/-- Where no backend opens, the block is all that is to be released. -/
theorem refused_released {events : List Event} (refused : Refused pref preferred opens supports events) :
    held (.free .sys :: (events.map .backend ++ [.calloc .sys true])) = [] ∧
    Tried pref (attempts (.free .sys :: (events.map .backend ++ [.calloc .sys true]))) := by
  cases refused with
  | first refused alone => exact ⟨by simp [held],tried_once pref preferred false⟩
  | second auto zimg refused again => exact ⟨by simp [held],tried_twice auto false⟩

/-! ## The blocks of a complete opening -/

/-- Whether an event is an allocation. -/
def allocates : OpenEvent → Bool
  | .calloc _ _ => true
  | .free _ => false
  | .backend _ => false

theorem held_allocates (only : ∀ e ∈ blocks, allocates e = true) {x : Resource} (member : x ∈ held trace) :
    x ∈ held (blocks ++ trace) := by
  induction blocks with
  | nil => exact member
  | cons e rest ih =>
    have later := ih fun e member => only e (List.mem_cons_of_mem _ member)
    cases e with
    | calloc block ok =>
      cases ok with
      | true => exact List.mem_cons_of_mem _ later
      | false => exact later
    | free block => exact absurd (only _ List.mem_cons_self) (by simp [allocates])
    | backend event => exact absurd (only _ List.mem_cons_self) (by simp [allocates])

theorem attempts_allocates (only : ∀ e ∈ blocks, allocates e = true) : attempts (blocks ++ trace) = attempts trace := by
  have nothing : attempts blocks = [] := by
    refine List.filterMap_eq_nil_iff.mpr fun e member => ?_
    cases e with
    | calloc block ok => rfl
    | free block => rfl
    | backend event => exact absurd (only _ member) (by simp [allocates])
  have parts : attempts (blocks ++ trace) = attempts blocks ++ attempts trace := List.filterMap_append
  rw [parts,nothing,List.nil_append]

theorem live_allocates {c : Scaler} {b : Backend} {priv : Nat} (live : Live opens c trace b priv)
    (only : ∀ e ∈ blocks, allocates e = true) : Live opens c (blocks ++ trace) b priv := by
  obtain ⟨inUse,owner,answer,opened,backend,sys⟩ := live
  exact ⟨inUse,owner,answer,by rwa [attempts_allocates only],held_allocates only backend,held_allocates only sys⟩

theorem initUsmPool_allocates (options : Tunable → Int) (chroma : Nat) (target : Dims) (cores usmPct : Int) (ok : Bool) :
    ∀ e ∈ (initUsmPool (R := R) options chroma target cores usmPct ok).2.2, allocates e = true := by
  simp only [initUsmPool]
  split_ifs with off
  · simp
  · split
    · simp
    · cases ok with
      | true => simp [UsmAdaptive.poolCreate,allocates]
      | false => simp [UsmAdaptive.poolCreate,allocates]

theorem initMetrics_allocates (options : Tunable → Int) (ok : Bool) : ∀ e ∈ (initMetrics options ok).1, allocates e = true := by
  rw [initMetrics]
  split_ifs with measured
  · simp [allocates]
  · simp

theorem completeOpen_attempts (f : FilterT R) (options : Tunable → Int) (o : OpenOutcome) (target : Dims) (s : Sys R)
    (trace : List OpenEvent) : attempts (completeOpen f options o target s trace).trace = attempts trace := by
  simp only [completeOpen]
  rw [attempts_allocates (initMetrics_allocates options o.metricsAllocated),
    attempts_allocates (initUsmPool_allocates options f.fmtIn.chroma.toNat target o.cores _ o.poolAllocated)]

/-! ## All or nothing -/

theorem ofInt_toNat {n : Int} (nonneg : 0 ≤ n) (small : n ≤ 4294967295) : ((UInt32.ofInt n).toNat : Int) = n := by
  simp only [UInt32.ofInt,UInt32.toNat_ofNat']
  omega

theorem cropDim_fits (n : UInt32) : Signed.Fits .int (cropDim n) := by
  refine Signed.fits_int.mpr ?_
  simp only [cropDim,intMax]
  split_ifs <;> omega

theorem offset_fits (n : UInt32) : Signed.Fits .uint n.toNat := by
  refine Signed.fits_uint.mpr ?_
  have small := n.toNat_lt
  omega

/-- A crop is resolved without an overflow. -/
theorem resolveSourceCrop_some (fmt : VideoFormat) : ∃ src, resolveSourceCrop fmt = some src := by
  have typed : PictureView.Typed ⟨0,0,fmt.xOffset.toNat,fmt.yOffset.toNat,
      cropDim (if fmt.visibleWidth ≠ 0 then fmt.visibleWidth else fmt.width),
      cropDim (if fmt.visibleHeight ≠ 0 then fmt.visibleHeight else fmt.height)⟩ :=
    ⟨cropDim_fits _,cropDim_fits _,offset_fits fmt.xOffset,offset_fits fmt.yOffset⟩
  obtain ⟨w,h,x,y,value,_⟩ := CropAlign.alignCropEven_aligned fmt.chroma.toNat typed
  dsimp only at value
  exact ⟨⟨⟨w,h⟩,x,y⟩,by rw [resolveSourceCrop,value]; rfl⟩

theorem planUpscale_range {srcW srcH skipAbove preset cores : Int}
    (planned : planUpscale srcW srcH skipAbove preset cores 0 = some (true,target)) :
    (0 ≤ target.width ∧ target.width ≤ 4294967295) ∧ 0 ≤ target.height ∧ target.height ≤ 4294967295 := by
  obtain ⟨ok,out,value,accepted,size,_⟩ := UpscaleLogic.plan_upscale_contract srcW srcH skipAbove preset cores 0
  obtain ⟨rfl,rfl⟩ : ok = true ∧ out = target := by simpa using value.symm.trans planned
  obtain ⟨⟨lowW,highW⟩,⟨lowH,highH⟩,_⟩ := accepted.mp rfl
  obtain ⟨_,_,_,minW,maxW,minH,maxH,_⟩ := size rfl
  simp only [UpscaleLogic.maxDim] at highW highH
  omega

theorem fixed_of_allowed (allowed : outputFormatAllowed f f.fmtIn.chroma target = true) (fixed : f.allowFmtOutChange = false) :
    f.fmtOut = targetFormat f.fmtIn.chroma target := by
  simp only [outputFormatAllowed,fixed,Bool.false_or,Bool.and_eq_true,decide_eq_true_eq] at allowed
  obtain ⟨⟨⟨⟨⟨⟨chroma,width⟩,visibleWidth⟩,height⟩,visibleHeight⟩,xOffset⟩,yOffset⟩ := allowed
  calc f.fmtOut = ⟨_,_,_,_,_,_,_⟩ := rfl
    _ = targetFormat f.fmtIn.chroma target := by
      rw [chroma,width,visibleWidth,height,visibleHeight,xOffset,yOffset]
      rfl

theorem completeOpen_complete {s : Sys R} {b : Backend} {priv : Nat}
    (planned : planUpscale src.dims.width src.dims.height (openConfig options).skip (openConfig options).preset o.cores 0 =
      some (true,target))
    (allowed : outputFormatAllowed f f.fmtIn.chroma target = true) (live : Live o.opens s.scaler trace b priv) :
    Complete f options o src target (completeOpen f options o target s trace) := by
  obtain ⟨⟨lowW,highW⟩,lowH,highH⟩ := planUpscale_range planned
  have wired := live_allocates (live_allocates live (initUsmPool_allocates (R := R) options f.fmtIn.chroma.toNat target o.cores
    (openConfig options).usm o.poolAllocated)) (initMetrics_allocates options o.metricsAllocated)
  constructor
  case planned => exact planned
  case width => exact ofInt_toNat lowW highW
  case visibleWidth => exact ofInt_toNat lowW highW
  case height => exact ofInt_toNat lowH highH
  case visibleHeight => exact ofInt_toNat lowH highH
  case fixed => exact fixed_of_allowed allowed
  case live => exact ⟨_,b,priv,rfl,wired⟩
  all_goals rfl

/-- What an opening comes to once it is known what would be scaled. -/
structure AllOrNothing (f : FilterT R) (options : Tunable → Int) (o : OpenOutcome) (src : SourceCrop) (target : Dims)
    (r : Opening R) : Prop where
  nothing : r.status ≠ .success → r.filter = f ∧ held r.trace = []
  all : r.status = .success → Complete f options o src target r
  tried : Tried (openConfig options).backend (attempts r.trace)

theorem nothing_tried (f : FilterT R) (options : Tunable → Int) (o : OpenOutcome) (src : SourceCrop) (target : Dims) :
    AllOrNothing f options o src target ⟨.egeneric,f,[]⟩ :=
  ⟨fun _ => ⟨rfl,rfl⟩,by simp,tried_none _⟩

theorem openWith_spec (be : Backend)
    (planned : planUpscale src.dims.width src.dims.height (openConfig options).skip (openConfig options).preset o.cores 0 =
      some (true,target))
    (allowed : outputFormatAllowed f f.fmtIn.chroma target = true) :
    AllOrNothing f options o src target (openWith f options o src target be) := by
  rw [openWith]
  by_cases full : o.sysAllocated = false
  · rw [if_pos full]
    exact ⟨fun _ => ⟨rfl,rfl⟩,by simp,tried_none _⟩
  rw [if_neg full]
  have untouched : Untouched (configuredSys f options o src target) (openConfig options).backend := ⟨rfl,rfl,rfl⟩
  obtain ⟨_,⟨ok,opened⟩ | ⟨bad,refused⟩⟩ := openScalerOrFallback_cases untouched be o.opens
  · simp only [ok,if_true]
    obtain ⟨b,priv,live,tried⟩ := opened_live opened
    have complete := completeOpen_complete planned allowed live
    refine ⟨by simp [completeOpen],fun _ => complete,?_⟩
    rwa [completeOpen_attempts]
  · simp only [bad]
    obtain ⟨released,tried⟩ := refused_released refused
    exact ⟨fun _ => ⟨rfl,released⟩,by simp,tried⟩

theorem openPlanned_spec
    (planned : planUpscale src.dims.width src.dims.height (openConfig options).skip (openConfig options).preset o.cores 0 =
      some (true,target)) : AllOrNothing f options o src target (openPlanned f options o src target) := by
  simp only [openPlanned]
  by_cases allowed : outputFormatAllowed f f.fmtIn.chroma target = true
  · rw [if_neg (by simp [allowed])]
    split
    · exact nothing_tried f options o src target
    · exact openWith_spec _ planned allowed
  · rw [if_pos (by simpa using allowed)]
    exact nothing_tried f options o src target

/-- The opening returns. It fails with the filter as it was and all released, or it is
    complete; and it tries one backend, or swscale after zimg where any would do. -/
theorem open_all_or_nothing (f : FilterT R) (options : Tunable → Int) (o : OpenOutcome) :
    ∃ r, upAutoupscaleOpen f options o = some r ∧
      (r.status ≠ .success → r.filter = f ∧ held r.trace = []) ∧
      (r.status = .success → ∃ src target, resolveSourceCrop f.fmtIn = some src ∧ Complete f options o src target r) ∧
      Tried (openConfig options).backend (attempts r.trace) := by
  obtain ⟨src,crop⟩ := resolveSourceCrop_some f.fmtIn
  obtain ⟨ok,target,planned,_⟩ := UpscaleLogic.plan_upscale_contract src.dims.width src.dims.height
    (openConfig options).skip (openConfig options).preset o.cores 0
  simp only [upAutoupscaleOpen,crop,Option.bind_some,planned,Option.map_some]
  cases ok with
  | false => exact ⟨_,rfl,fun _ => ⟨rfl,rfl⟩,by simp,tried_none _⟩
  | true =>
    obtain ⟨nothing,all,tried⟩ := openPlanned_spec (f := f) planned
    exact ⟨_,rfl,nothing,fun success => ⟨src,target,rfl,all success⟩,tried⟩

/-- A filter whose output may change, for 16 by 16 pixels in 4:2:0. -/
def unopened : FilterT ℚ :=
  let chroma := UInt32.ofNat (Chroma.fourcc 'I' '4' '2' '0')
  ⟨⟨chroma,16,16,16,16,0,0⟩,⟨chroma,16,16,16,16,0,0⟩,true,.other 0,.other 0⟩

/-- A larger target, adaptive sharpening, the probe and its threshold. -/
def sharpening : Tunable → Int
  | .target => 1
  | .usm => 100
  | .adaptiveUsm => 1
  | .usmSharpThreshold => 40
  | .contentProbe => 1
  | _ => 0

/-- Everything is granted, and both backends open. -/
def granted : OpenOutcome := ⟨4,fun _ _ _ => true,true,fun _ => true,true,true⟩

/-- Zimg opens. -/
example : (upAutoupscaleOpen unopened sharpening granted).map (fun r => (r.status,attempts r.trace)) =
    some (.success,[(.zimg,true)]) := by decide +kernel

/-- Where zimg does not open, swscale does. -/
example : (upAutoupscaleOpen unopened sharpening { granted with opens := fun b => decide (b = .swscale) }).map
    (fun r => (r.status,attempts r.trace)) = some (.success,[(.swscale,true),(.zimg,false)]) := by decide +kernel

/-- Where neither opens the filter stays as it was. -/
example : (upAutoupscaleOpen unopened sharpening { granted with opens := fun _ => false }).map
    (fun r => (r.status,attempts r.trace,held r.trace)) = some (.egeneric,[(.swscale,false),(.zimg,false)],[]) := by decide +kernel

/-! ## The filter that is opened -/

/-- The backend is opened in the same way before and after the rest is settled. -/
theorem openScalerOrFallback_rest (s : Sys R) (be : Backend) (opens : Backend → Bool) (amountQ8 threshold : Int)
    (usm : UsmAdaptive.World R) (advice active logged : Bool) :
    openScalerOrFallback
        { s with
          usmAmountQ8 := amountQ8, usm := usm, usmSharpThreshold := threshold, probeAdvice := advice,
          probeActive := active, adviceLogged := logged } be opens =
      ({ (openScalerOrFallback s be opens).1 with
          usmAmountQ8 := amountQ8, usm := usm, usmSharpThreshold := threshold, probeAdvice := advice,
          probeActive := active, adviceLogged := logged },(openScalerOrFallback s be opens).2) := by
  simp only [openScalerOrFallback,openBackendAttempt,Sys.emit]
  split_ifs
  all_goals first | rfl | (split; rfl; split_ifs <;> rfl)

/-- What a complete opening has settled before it opens a backend, and after. -/
def openedConfig (f : FilterT R) (options : Tunable → Int) (o : OpenOutcome) (src : SourceCrop) (target : Dims) : Config R :=
  let chroma := f.fmtIn.chroma.toNat
  let pools := initUsmPool options chroma target o.cores (openConfig options).usm o.poolAllocated
  { ctx := configureScaler options f.fmtIn src target, backendPref := (openConfig options).backend,
    supports := fun b => o.supports b chroma (openConfig options).algo, usmAmountQ8 := pools.1, usm := pools.2.1,
    probeAdvice := probeAdvice options, probeActive := probeActive options chroma (openConfig options).usm,
    usmSharpThreshold := inheritIntSat options .usmSharpThreshold }

theorem pickBackendOrReject_some {chroma : Nat} {be : Backend} (picked : pickBackendOrReject supports chroma pref = some be) :
    scalerPick supports pref = some be := by
  rw [pickBackendOrReject] at picked
  split_ifs at picked
  exact picked

/-- An opening that succeeds has come to the end. -/
theorem upAutoupscaleOpen_success {r : Opening R} (opened : upAutoupscaleOpen f options o = some r)
    (success : r.status = .success) : ∃ src target be,
      planUpscale src.dims.width src.dims.height (openConfig options).skip (openConfig options).preset o.cores 0 =
        some (true,target) ∧
      scalerPick (fun b => o.supports b f.fmtIn.chroma.toNat (openConfig options).algo) (openConfig options).backend = some be ∧
      r = openWith f options o src target be := by
  obtain ⟨src,_,opened⟩ := Option.bind_eq_some_iff.mp opened
  obtain ⟨⟨ok,target⟩,planned,rfl⟩ := Option.map_eq_some_iff.mp opened
  simp only [openPlanned] at success ⊢
  split_ifs at success ⊢ with bypass fixed
  split at success
  · cases success
  · rename_i be picked
    obtain rfl : ok = true := by simpa using bypass
    exact ⟨src,target,be,planned,pickBackendOrReject_some picked,rfl⟩

theorem openWith_success {be : Backend} (success : (openWith f options o src target be).status = .success) :
    (openScalerOrFallback (configuredSys f options o src target) be o.opens).2 = true ∧
    ∃ trace, openWith f options o src target be = completeOpen f options o target
      (openScalerOrFallback (configuredSys f options o src target) be o.opens).1 trace := by
  rw [openWith] at success ⊢
  simp only at success ⊢
  split_ifs at success ⊢ with full opened
  exact ⟨opened,_,rfl⟩

/-- The state of a filter that was opened is one that `openFilter` gives. -/
theorem open_filter {r : Opening R} (opened : upAutoupscaleOpen f options o = some r) (success : r.status = .success) :
    ∃ src target sys, r.filter.sys = .own sys ∧
      planUpscale src.dims.width src.dims.height (openConfig options).skip (openConfig options).preset o.cores 0 =
        some (true,target) ∧
      openFilter (openedConfig f options o src target) o.opens = some sys.sys := by
  obtain ⟨src,target,be,planned,picked,rfl⟩ := upAutoupscaleOpen_success opened success
  obtain ⟨live,trace,complete⟩ := openWith_success success
  rw [complete]
  refine ⟨src,target,_,rfl,planned,?_⟩
  have same := openScalerOrFallback_rest (configuredSys f options o src target) be o.opens
    (openedConfig f options o src target).usmAmountQ8 (openedConfig f options o src target).usmSharpThreshold
    (openedConfig f options o src target).usm (openedConfig f options o src target).probeAdvice
    (openedConfig f options o src target).probeActive false
  have configuredSame : configured (openedConfig f options o src target) = { configuredSys f options o src target with
      usmAmountQ8 := (openedConfig f options o src target).usmAmountQ8, usm := (openedConfig f options o src target).usm,
      usmSharpThreshold := (openedConfig f options o src target).usmSharpThreshold,
      probeAdvice := (openedConfig f options o src target).probeAdvice,
      probeActive := (openedConfig f options o src target).probeActive, adviceLogged := false } := rfl
  rw [← configuredSame] at same
  have value : scalerPick (openedConfig f options o src target).supports (openedConfig f options o src target).backendPref =
      some be := picked
  simp only [openFilter,value,Option.bind_some,same,live,if_true]
  rfl

end AutoUpscale.Filter
