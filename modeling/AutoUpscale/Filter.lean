import AutoUpscale.ContentProbe
import AutoUpscale.UsmAdaptive
import AutoUpscale.ZimgProcess

/-!
The filter: opening a backend, a frame, and the end, of `autoupscale.c`, with the
choice of a backend of `scaler_pick_logic.h`. Pictures and opened backends get
numbers in the order in which they appear, and the trace records what is done with
them. What a backend, the picture pool of the player and the sharpening pools
answer is an argument of each frame. Messages other than those of the content probe
and metrics of the time spent are left out.
-/
namespace AutoUpscale.Filter
open AutoUpscale.ContentProbe
open AutoUpscale.PictureView (Picture View viewInit)
open AutoUpscale.Tuner (Double)
open AutoUpscale.UsmAdaptive (Timespec)
open AutoUpscale.ZimgProcess (ScalerCtx srcRegion dstRegion)
universe u
variable {R : Type u} [Double R]

/-- `scaler_process_status_t`. -/
abbrev ProcessStatus := ZimgProcess.Status

/-- What `up_usm_pool_apply` answers. -/
abbrev UsmStatus := UsmPool.Status

/-- The backends that are linked. -/
inductive Backend
  | zimg
  | swscale
  deriving DecidableEq, Repr

/-- `SCALER_BACKEND_AUTO`, `SCALER_BACKEND_ZIMG` and `SCALER_BACKEND_SWSCALE`. -/
def backendAuto : Int := 0
def backendZimg : Int := 1
def backendSwscale : Int := 2

/-- The member `id` of `scaler_backend_t`. -/
def Backend.id : Backend → Int
  | .zimg => backendZimg
  | .swscale => backendSwscale

/-- What the filter does with pictures and backends. -/
inductive Event
  | input (picture : Nat)
  | newPicture (picture : Nat)
  | release (picture : Nat)
  | deliver (picture : Nat)
  | sharpen (picture : Nat) (status : UsmStatus)
  | openBackend (backend : Backend) (priv : Nat) (ok : Bool)
  | process (backend : Backend) (priv : Option Nat) (src dst : Nat) (status : ProcessStatus)
  | closeBackend (backend : Backend) (priv : Option Nat)
  deriving DecidableEq, Repr

/-- What is told once the window of the probe is full: that sharpening is skipped, the
    advice, with a smaller target where there is one, or that there is none. -/
inductive ProbeMessage
  | textured (lapMean : UInt64) (threshold : Int)
  | advice (lapMean edgeMean : UInt64) (smallerTarget : Bool)
  | appropriate (lapMean edgeMean : UInt64)
  deriving DecidableEq, Repr

/-- `filter_sys_t`. `priv` is the number of the opened backend whose state
    `scaler.priv` points to, and `usm` holds `usm_pool` and `usm_adaptive`. `supports`
    is what the backends say of the chroma and the algorithm; the counters, the
    messages and the trace, both with the last first, are history. -/
structure Sys (R : Type u) where
  ctx : ScalerCtx
  backend : Option Backend
  priv : Option Nat
  usmAmountQ8 : Int
  usm : UsmAdaptive.World R
  probeAdvice : Bool
  probeActive : Bool
  adviceLogged : Bool
  accum : ProbeAccum
  usmSharpThreshold : Int
  usmSkipSharp : Bool
  backendPref : Int
  fallbackTried : Bool
  supports : Backend → Bool
  nextPriv : Nat
  nextPicture : Nat
  messages : List ProbeMessage
  trace : List Event

/-- What the environment answers during one frame. `luma` holds the bytes from the first
    one on that a view of the input shows. -/
structure Outcome where
  luma : Int → UInt8
  newPicture : Option Picture
  clock : Option Timespec
  status : ProcessStatus
  openFallback : Bool
  usm : UsmAdaptive.Outcome

def Sys.emit (s : Sys R) (e : Event) : Sys R := { s with trace := e :: s.trace }

/-! ## Backends -/

/-- `up_pick_zimg_if_ok`; a zimg that is not linked supports nothing. -/
def pickZimgIfOk (supports : Backend → Bool) : Option Backend := if supports .zimg then some .zimg else none

/-- `up_pick_swscale_if_ok`. -/
def pickSwscaleIfOk (supports : Backend → Bool) : Option Backend := if supports .swscale then some .swscale else none

/-- `scaler_pick`. -/
def scalerPick (supports : Backend → Bool) (pref : Int) : Option Backend :=
  if pref = backendZimg then pickZimgIfOk supports
  else if pref = backendSwscale then pickSwscaleIfOk supports
  else match pickZimgIfOk supports with
    | some z => some z
    | none => pickSwscaleIfOk supports

/-- `OpenBackendAttempt`; whether the backend opened. One that does not leaves no state. -/
def openBackendAttempt (s : Sys R) (b : Backend) (ok : Bool) : Sys R × Bool :=
  ({ s.emit (.openBackend b s.nextPriv ok) with
      backend := some b, priv := if ok then some s.nextPriv else none, nextPriv := s.nextPriv + 1 },ok)

/-- `OpenScalerOrFallback` with `up_scaler_open_with_fallback`; `opens` says which
    backends open. -/
def openScalerOrFallback (s : Sys R) (preferred : Backend) (opens : Backend → Bool) : Sys R × Bool :=
  let allowFallback := decide (s.backendPref = backendAuto) && decide (preferred.id = backendZimg)
  let fallback := if allowFallback then scalerPick s.supports backendSwscale else none
  let (s,opened) := openBackendAttempt s preferred (opens preferred)
  if opened then (s,true)
  else match fallback with
    | none => (s,false)
    | some fallback =>
      if allowFallback = false ∨ fallback = preferred then (s,false) else openBackendAttempt s fallback (opens fallback)

/-- The call of `close` of the backend that is in use. -/
def closeBackend (s : Sys R) : Sys R :=
  match s.backend with
  | none => s
  | some b => s.emit (.closeBackend b s.priv)

/-- `RetireBackend`. -/
def retireBackend (s : Sys R) : Sys R := { closeBackend s with priv := none, backend := none }

/-- The end of `TryBackendFallback`, once zimg is retired. -/
def openFallback (s : Sys R) (sw : Option Backend) (ok : Bool) : Sys R :=
  match sw with
  | none => s
  | some sw =>
    let (s,opened) := openBackendAttempt s sw ok
    if opened then s else { s with backend := none }

/-- `TryBackendFallback`. -/
def tryBackendFallback (s : Sys R) (ok : Bool) : Sys R :=
  if s.fallbackTried then s
  else
    let s := { s with fallbackTried := true }
    if s.backend.map Backend.id ≠ some backendZimg then s
    else if s.backendPref = backendZimg then retireBackend s
    else openFallback (retireBackend s) (scalerPick s.supports backendSwscale) ok

/-! ## Sharpening -/

/-- `DisableUsm`. -/
def disableUsm (s : Sys R) : Sys R :=
  let usm := UsmAdaptive.stop s.usm
  { s with usmAmountQ8 := 0, usm := { UsmAdaptive.poolDestroy usm usm.best with best := none } }

/-- `LogProbeVerdict`; a mean of no samples is 0. -/
def logProbeVerdict (s : Sys R) : Sys R :=
  let recommendBypass := shouldBypassForContent s.accum
  let lapMean := if none : s.accum.lapSamples = 0 then 0 else mean s.accum.lapSum s.accum.lapSamples none
  let edgeMean := if none : s.accum.edgeSamples = 0 then 0 else mean s.accum.edgeSum s.accum.edgeSamples none
  if recommendBypass = true ∧ s.adviceLogged = false then
    let smallerTarget := decide (s.ctx.dstH > 720) && decide (s.ctx.srcH < 720)
    { s with adviceLogged := true, messages := .advice lapMean edgeMean smallerTarget :: s.messages }
  else { s with messages := .appropriate lapMean edgeMean :: s.messages }

/-- What `RunProbe` does for a source that is too sharp. -/
def skipSharp (s : Sys R) (lapMean : UInt64) : Sys R :=
  let s := disableUsm { s with usmSkipSharp := true }
  { s with messages := .textured lapMean s.usmSharpThreshold :: s.messages }

/-- The sharpness gate of `RunProbe`. -/
def gateSharpness (s : Sys R) : Sys R :=
  if skip : shouldSkipUsmForSharpness s.accum s.usmSharpThreshold = true
  then skipSharp s (mean s.accum.lapSum s.accum.lapSamples (samples_of_skip skip)) else s

/-- The end of `RunProbe`, once the window is full. -/
def closeProbe (s : Sys R) : Sys R :=
  let s := gateSharpness { s with probeActive := false }
  if s.probeAdvice then logProbeVerdict s else s

/-- `up_probe_metrics` of the luma plane of a view, which can be read. -/
def viewMetrics (ctx : ScalerCtx) (view : View) (luma : Int → UInt8) : Metrics :=
  let pitch := (view.plane.getD 0 ⟨0,0⟩).pitch
  (probeMetrics (some fun place => some (luma place)) pitch ctx.srcW ctx.srcH).getD ⟨0,0,0,0⟩

/-- `RunProbe`. -/
def runProbe (s : Sys R) (pic : Picture) (luma : Int → UInt8) : Sys R :=
  match viewInit pic s.ctx.chroma (srcRegion s.ctx) with
  | none => s
  | some view =>
    let s := { s with accum := probeObserve s.accum (viewMetrics s.ctx view luma) }
    if s.accum.frames < probeWindowFrames then s else closeProbe s

/-- `RunUsm` and what `ApplyUsmIfEnabled` makes of its status. -/
def runUsm (s : Sys R) (number : Nat) (o : UsmAdaptive.Outcome) : Sys R × UsmStatus :=
  let (usm,status) := UsmAdaptive.apply s.usm o
  let s := { s.emit (.sharpen number status) with usm := usm }
  if status ≠ .ok then if s.usm.adaptive.retained then (s,status) else (disableUsm s,status) else (s,.ok)

/-- `ApplyUsmIfEnabled`. -/
def applyUsmIfEnabled (s : Sys R) (number : Nat) (pic : Picture) (o : UsmAdaptive.Outcome) : Sys R × UsmStatus :=
  if s.usmAmountQ8 ≤ 0 ∨ s.usm.best = none ∨ pic.planes < 1 ∨ s.usmSkipSharp = true then (s,.ok)
  else match viewInit pic s.ctx.chroma (dstRegion s.ctx) with
    | none => (s,.ok)
    | some _ => runUsm s number o

/-! ## Frames -/

/-- `FinishScaledFrame`. -/
def finishScaledFrame (s : Sys R) (src dst : Nat) (pic : Picture) (o : UsmAdaptive.Outcome) : Sys R × Option Nat :=
  let (s,result) := applyUsmIfEnabled s dst pic o
  if result = .outputUncertain then ((s.emit (.release dst)).emit (.release src),none)
  else ((s.emit (.release src)).emit (.deliver dst),some dst)

/-- `FilterFrame` from the call of `process` on. -/
def scaleFrame (s : Sys R) (b : Backend) (src dst : Nat) (pic : Picture) (o : Outcome) : Sys R × Option Nat :=
  let s := { s with usm := UsmAdaptive.begin s.usm o.clock }
  let s := s.emit (.process b s.priv src dst o.status)
  if o.status ≠ .ok then
    let s := if o.status = .fatal then tryBackendFallback s o.openFallback else s
    ((s.emit (.release dst)).emit (.release src),none)
  else finishScaledFrame s src dst pic o.usm

/-- `FilterFrame` of a picture that has got a number. -/
def filterFrame (s : Sys R) (src : Nat) (input : Picture) (o : Outcome) : Sys R × Option Nat :=
  match s.backend with
  | none => (s.emit (.release src),none)
  | some b =>
    let s := if s.probeActive = true ∧ input.planes ≥ 1 then runProbe s input o.luma else s
    match o.newPicture with
    | none => (s.emit (.release src),none)
    | some pic =>
      let dst := s.nextPicture
      scaleFrame { s.emit (.newPicture dst) with nextPicture := dst + 1 } b src dst pic o

/-- `Filter`. -/
def filter (s : Sys R) (input : Option Picture) (o : Outcome) : Sys R × Option Nat :=
  match input with
  | none => (s,none)
  | some picture =>
    let src := s.nextPicture
    filterFrame { s.emit (.input src) with nextPicture := src + 1 } src picture o

/-- `up_autoupscale_close`. -/
def close (s : Sys R) : Sys R := disableUsm (closeBackend s)

/-! ## Opening -/

/-- What `up_autoupscale_open` has settled before it opens a backend, and after. -/
structure Config (R : Type u) where
  ctx : ScalerCtx
  backendPref : Int
  supports : Backend → Bool
  usmAmountQ8 : Int
  usm : UsmAdaptive.World R
  probeAdvice : Bool
  probeActive : Bool
  usmSharpThreshold : Int

/-- The filter before `OpenScalerOrFallback`. -/
def configured (c : Config R) : Sys R where
  ctx := c.ctx
  backend := none
  priv := none
  usmAmountQ8 := c.usmAmountQ8
  usm := c.usm
  probeAdvice := c.probeAdvice
  probeActive := c.probeActive
  adviceLogged := false
  accum := ⟨0,0,0,0,0⟩
  usmSharpThreshold := c.usmSharpThreshold
  usmSkipSharp := false
  backendPref := c.backendPref
  fallbackTried := false
  supports := c.supports
  nextPriv := 0
  nextPicture := 0
  messages := []
  trace := []

/-- `up_autoupscale_open`, as far as the backend is concerned. -/
def openFilter (c : Config R) (opens : Backend → Bool) : Option (Sys R) :=
  (scalerPick c.supports c.backendPref).bind fun be =>
    let (s,opened) := openScalerOrFallback (configured c) be opens
    if opened then some s else none

/-- A picture for `Filter`, or NULL. -/
structure Call where
  input : Option Picture
  outcome : Outcome

def step (s : Sys R) (c : Call) : Option (Sys R) := some (filter s c.input c.outcome).1

end AutoUpscale.Filter
