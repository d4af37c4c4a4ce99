import AutoUpscale.FilterPictures
import AutoUpscale.FilterBackends
import AutoUpscale.Runs

/-!
Ownership over whole runs of the filter, from its opening to its end. At run time a
backend is closed, and another opened, right after a fatal failure of zimg, once
(`Swaps`); when none is left, every picture is dropped (`filter_dead`). What the
stories of pictures and backends say at the end of a run is `filter_ownership`.
-/
namespace AutoUpscale.Filter
open AutoUpscale.PictureView (Picture)
open AutoUpscale.Story
open AutoUpscale.Runs (run run_append_iff run_cons_iff reachable_preserves)
open AutoUpscale.Tuner (Double)
set_option linter.unusedSectionVars false
universe u
variable {R : Type u} [Double R]

/-- Whether an event opens a backend. -/
def opensBackend : Event → Bool
  | .openBackend _ _ _ => true
  | _ => false

/-- Whether an event closes a backend. -/
def closesBackend : Event → Bool
  | .closeBackend _ _ => true
  | _ => false

/-- What comes right before a backend is closed, or opened, at run time. -/
def SwapJustified (pref : Int) : Event → List Event → Prop
  | .closeBackend b priv,earlier => b = .zimg ∧ ∃ src dst rest, earlier = .process .zimg priv src dst .fatal :: rest
  | .openBackend b _ _,earlier => b = .swscale ∧ pref ≠ backendZimg ∧
      ∃ priv src dst rest, earlier = .closeBackend .zimg priv :: .process .zimg priv src dst .fatal :: rest
  | _,_ => True

/-- The swaps among the events `later` since the filter opened. -/
structure Swaps (pref : Int) (c : Scaler) (later : List Event) : Prop where
  kept : c.backendPref = pref
  justified : Justified (SwapJustified pref) later
  once : later.countP opensBackend ≤ 1 ∧ later.countP closesBackend ≤ 1
  first : c.fallbackTried = false → later.countP opensBackend = 0 ∧ later.countP closesBackend = 0

variable {pref : Int} {c d : Scaler} {e : Event} {events later : List Event} {n m : Nat} {result : Option Nat}

theorem swaps_quiet (swaps : Swaps pref c later) (quiet : callsBackend e = false) : Swaps pref c (e :: later) := by
  have unopened : opensBackend e = false := by cases e <;> first | rfl | cases quiet
  have unclosed : closesBackend e = false := by cases e <;> first | rfl | cases quiet
  have justified : SwapJustified pref e later := by
    cases e with
    | openBackend => cases quiet
    | closeBackend => cases quiet
    | _ => trivial
  refine ⟨swaps.kept,justified_cons.mpr ⟨justified,swaps.justified⟩,?_,?_⟩
  · simpa [unopened,unclosed] using swaps.once
  · simpa [unopened,unclosed] using swaps.first

theorem swaps_process (swaps : Swaps pref c later) (b : Backend) (priv : Option Nat) (src dst : Nat) (status : ProcessStatus) :
    Swaps pref c (.process b priv src dst status :: later) := by
  refine ⟨swaps.kept,justified_cons.mpr ⟨trivial,swaps.justified⟩,?_,?_⟩
  · simpa [opensBackend,closesBackend] using swaps.once
  · simpa [opensBackend,closesBackend] using swaps.first

/-- A swap, right after a failure of the backend in use. -/
theorem swaps_swap {b : Backend} {src dst : Nat} {status : ProcessStatus} (live : c.backend = some b)
    (swaps : Swaps pref c (.process b c.priv src dst status :: later)) (swapped : Swap c d events)
    (fatal : status ≠ .fatal → d = c ∧ events = []) :
    Swaps pref d (events ++ .process b c.priv src dst status :: later) := by
  by_cases failed : status = .fatal
  · subst failed
    cases swapped with
    | kept tried sticky =>
      refine ⟨swaps.kept,swaps.justified,swaps.once,fun untried => swaps.first ?_⟩
      by_contra tried'
      rw [sticky (by simpa using tried')] at untried
      cases untried
    | retired zimg first =>
      obtain rfl : b = .zimg := Option.some.inj (live.symm.trans zimg)
      obtain ⟨unopened,unclosed⟩ := swaps.first first
      refine ⟨swaps.kept,justified_cons.mpr ⟨⟨rfl,src,dst,later,rfl⟩,swaps.justified⟩,?_,nofun⟩
      rw [List.countP_append,List.countP_append,unopened,unclosed]
      simp [opensBackend,closesBackend,List.countP_cons]
    | swapped zimg first free ok =>
      obtain rfl : b = .zimg := Option.some.inj (live.symm.trans zimg)
      obtain ⟨unopened,unclosed⟩ := swaps.first first
      have closed : Justified (SwapJustified pref) (.closeBackend .zimg c.priv :: .process .zimg c.priv src dst .fatal :: later) :=
        justified_cons.mpr ⟨⟨rfl,src,dst,later,rfl⟩,swaps.justified⟩
      refine ⟨swaps.kept,justified_cons.mpr ⟨⟨rfl,swaps.kept ▸ free,c.priv,src,dst,later,rfl⟩,closed⟩,?_,nofun⟩
      rw [List.countP_append,List.countP_append,unopened,unclosed]
      simp [opensBackend,closesBackend,List.countP_cons]
  · obtain ⟨rfl,rfl⟩ := fatal failed
    exact swaps

theorem swaps_sharp {status : UsmStatus} (swaps : Swaps pref c later) (sharpened : Sharpened n status events) :
    Swaps pref c (events ++ later) := by
  cases sharpened with
  | skipped => exact swaps
  | tried => exact swaps_quiet swaps rfl

theorem frame_swaps (frame : Frame c n d m events result) (swaps : Swaps pref c later) : Swaps pref d (events ++ later) := by
  have received : Swaps pref c (.input n :: later) := swaps_quiet swaps rfl
  have allocated : Swaps pref c (.newPicture (n + 1) :: .input n :: later) := swaps_quiet received rfl
  cases frame with
  | dropped => exact swaps_quiet received rfl
  | failed b live status bad _ swap swapped fatal =>
    have processed := swaps_process allocated b c.priv n (n + 1) status
    simp only [List.cons_append,List.append_assoc,List.nil_append]
    exact swaps_quiet (swaps_quiet (swaps_swap live processed swapped fatal) rfl) rfl
  | spoiled b live =>
    have processed := swaps_process allocated b c.priv n (n + 1) .ok
    exact swaps_quiet (swaps_quiet (swaps_quiet processed rfl) rfl) rfl
  | delivered b live status sharp sharpened certain =>
    have processed := swaps_process allocated b c.priv n (n + 1) .ok
    simp only [List.cons_append,List.append_assoc,List.nil_append]
    exact swaps_quiet (swaps_quiet (swaps_sharp processed sharpened) rfl) rfl

/-! ## Whole runs -/

/-- What holds between the calls of a filter that opened as `s0`. -/
structure Settled (s0 s : Sys R) : Prop where
  pictures : Told aboutPicture PictureLife s.nextPicture s.trace
  backends : Backends s.scaler s.trace
  swaps : ∃ later, s.trace = later ++ s0.trace ∧ Swaps s0.backendPref s.scaler later

theorem opened_pictures {preferred : Backend} {opens : Backend → Bool} {trace : List Event} (opened : Opened pref preferred opens c trace) :
    Told aboutPicture PictureLife 0 trace := by
  have silent (h : Nat) : story aboutPicture h trace = [] := by
    cases opened with
    | first ok => rfl
    | second auto zimg refused ok => rfl
  exact ⟨fun h small => absurd small (Nat.not_lt_zero h),fun h _ => silent h⟩

theorem opened_pref {preferred : Backend} {opens : Backend → Bool} {trace : List Event} (opened : Opened pref preferred opens c trace) :
    c.backendPref = pref := by
  cases opened with
  | first ok => rfl
  | second auto zimg refused ok => rfl

theorem settled_open {c : Config R} {opens : Backend → Bool} {s0 : Sys R} (opened : openFilter c opens = some s0) :
    Settled s0 s0 := by
  obtain ⟨preferred,-,shape,pictures⟩ := openFilter_spec opened
  refine ⟨?_,opened_backends shape,[],rfl,rfl,justified_nil,by simp,by simp⟩
  rw [pictures]
  exact opened_pictures shape

theorem settled_step {s0 s t : Sys R} {call : Call} (settled : Settled s0 s) (stepped : step s call = some t) : Settled s0 t := by
  obtain rfl := Option.some.inj stepped
  cases received : call.input with
  | none => exact settled
  | some picture =>
    obtain ⟨events,frame,trace⟩ := filter_spec s picture call.outcome
    obtain ⟨later,since,swaps⟩ := settled.swaps
    refine ⟨?_,?_,events ++ later,?_,frame_swaps frame swaps⟩
    · rw [trace]
      exact frame_pictures frame settled.pictures
    · rw [trace]
      exact frame_backends frame settled.backends
    · rw [trace,since,List.append_assoc]

theorem settled_run {s0 s : Sys R} {calls : List Call} (start : Settled s0 s0) (executed : run step s0 calls = some s) : Settled s0 s :=
  reachable_preserves (fun _ _ _ settled stepped => settled_step settled stepped) start ⟨calls,executed⟩

/-- What a call adds to the trace, and what it returns. -/
structure Answer (s : Sys R) (call : Call) (new : List Event) : Prop where
  trace : (filter s call.input call.outcome).1.trace = new ++ s.trace
  ignored : call.input = none → new = []
  received : call.input ≠ none → .input s.nextPicture ∈ new
  returned : ∀ h, (filter s call.input call.outcome).2 = some h ↔ .deliver h ∈ new
  dead : s.backend = none → (filter s call.input call.outcome).1.backend = none ∧
    ∀ e ∈ new, e = .input s.nextPicture ∨ e = .release s.nextPicture

theorem deliver_swap (swapped : Swap c d events) (h : Nat) : .deliver h ∉ events := by
  cases swapped <;> simp

theorem deliver_sharp {status : UsmStatus} (sharpened : Sharpened n status events) (h : Nat) : .deliver h ∉ events := by
  cases sharpened <;> simp

theorem frame_returned (frame : Frame c n d m events result) (h : Nat) : result = some h ↔ .deliver h ∈ events := by
  cases frame with
  | dropped => simp
  | failed b live status bad _ swap swapped fatal => simp [deliver_swap swapped h]
  | spoiled b live => simp
  | delivered b live status sharp sharpened certain => simp [deliver_sharp sharpened h,eq_comm]

theorem frame_dead (frame : Frame c n d m events result) (dead : c.backend = none) : d = c ∧ events = [.release n,.input n] := by
  cases frame with
  | dropped => exact ⟨rfl,rfl⟩
  | failed b live => simp [dead] at live
  | spoiled b live => simp [dead] at live
  | delivered b live => simp [dead] at live

theorem frame_received (frame : Frame c n d m events result) : .input n ∈ events := by
  cases frame <;> simp

theorem filter_answer (s : Sys R) (call : Call) : ∃ new, Answer s call new := by
  cases input : call.input with
  | none =>
    refine ⟨[],?_,fun _ => rfl,fun received => absurd input received,?_,?_⟩
    · rw [input]
      rfl
    · rw [input]
      simp [filter]
    · rw [input]
      exact fun dead => ⟨dead,fun e member => absurd member List.not_mem_nil⟩
  | some picture =>
    obtain ⟨events,frame,trace⟩ := filter_spec s picture call.outcome
    refine ⟨events,?_,?_,fun _ => frame_received frame,?_,?_⟩
    · rw [input]
      exact trace
    · simp [input]
    · rw [input]
      exact frame_returned frame
    · rw [input]
      intro dead
      obtain ⟨same,rfl⟩ := frame_dead frame dead
      exact ⟨(congrArg Scaler.backend same).trans dead,by simp⟩

/-- A run only adds to the trace, and so does the end of the filter. -/
theorem trace_grows {s t : Sys R} {calls : List Call} (executed : run step s calls = some t) : s.trace <:+ t.trace := by
  induction calls generalizing s with
  | nil =>
    cases executed
    exact List.suffix_rfl
  | cons call rest ih =>
    obtain ⟨next,stepped,tail⟩ := run_cons_iff.mp executed
    obtain rfl := Option.some.inj stepped
    obtain ⟨new,answer⟩ := filter_answer s call
    exact (List.suffix_append new s.trace).trans (answer.trace ▸ ih tail)

theorem close_trace (s : Sys R) : s.trace <:+ (close s).trace := by
  have traceOf : (close s).trace = (closeBackend s).trace := rfl
  rw [traceOf,closeBackend]
  split
  · exact List.suffix_rfl
  · exact List.suffix_cons _ _

/-- Once no backend is live, pictures only arrive and are released. -/
theorem filter_dead {s t : Sys R} {calls : List Call} (dead : s.backend = none) (executed : run step s calls = some t) :
    t.backend = none ∧ ∃ new, t.trace = new ++ s.trace ∧ ∀ e ∈ new, ∃ h, e = .input h ∨ e = .release h := by
  induction calls generalizing s with
  | nil =>
    cases executed
    exact ⟨dead,[],rfl,fun e member => absurd member List.not_mem_nil⟩
  | cons call rest ih =>
    obtain ⟨next,stepped,tail⟩ := run_cons_iff.mp executed
    obtain rfl := Option.some.inj stepped
    obtain ⟨first,answer⟩ := filter_answer s call
    obtain ⟨stillDead,few⟩ := answer.dead dead
    obtain ⟨ended,others,since,rest⟩ := ih stillDead tail
    refine ⟨ended,others ++ first,?_,?_⟩
    · rw [since,answer.trace,List.append_assoc]
    · intro e member
      obtain late | early := List.mem_append.mp member
      · exact rest e late
      · exact ⟨s.nextPicture,few e early⟩

/-- What has come true of pictures and backends when the filter is closed. -/
structure Closed (trace : List Event) : Prop where
  inputs : ∀ h, .input h ∈ trace → trace.count (.input h) = 1 ∧ trace.count (.release h) = 1 ∧ .deliver h ∉ trace
  outputs : ∀ h, .newPicture h ∈ trace → trace.count (.newPicture h) = 1 ∧
    (trace.count (.release h) = 1 ∧ .deliver h ∉ trace ∨ .release h ∉ trace ∧ trace.count (.deliver h) = 1)
  delivered : ∀ h, .deliver h ∈ trace → .newPicture h ∈ trace ∧ (∃ b priv src, .process b priv src h .ok ∈ trace) ∧
    (∀ b priv src status, .process b priv src h status ∈ trace → status = .ok) ∧ .sharpen h .outputUncertain ∉ trace
  afterRelease : ∀ h later earlier, trace = later ++ .release h :: earlier → ∀ e ∈ later, aboutPicture h e = false
  afterClose : ∀ b k later earlier, trace = later ++ .closeBackend b (some k) :: earlier → ∀ e ∈ later, aboutBackend k e = false
  called : ∀ b priv, ((∃ src dst status, .process b priv src dst status ∈ trace) ∨ .closeBackend b priv ∈ trace) →
    ∃ k, priv = some k ∧ .openBackend b k true ∈ trace
  opened : ∀ b k, .openBackend b k true ∈ trace →
    trace.count (.openBackend b k true) = 1 ∧ trace.count (.closeBackend b (some k)) = 1

theorem settled_close {s0 s : Sys R} (settled : Settled s0 s) : Closed (close s).trace := by
  have traceOf : (close s).trace = (closeBackend s).trace := rfl
  rw [traceOf]
  obtain ⟨told,d,idle,backends⟩ : Told aboutPicture PictureLife s.nextPicture (closeBackend s).trace ∧
      ∃ d : Scaler, d.priv = none ∧ Backends d (closeBackend s).trace := by
    cases live : s.backend with
    | none =>
      have same : closeBackend s = s := by simp [closeBackend,live]
      rw [same]
      exact ⟨settled.pictures,s.scaler,settled.backends.idle live,settled.backends⟩
    | some b =>
      have ended : (closeBackend s).trace = .closeBackend b s.scaler.priv :: s.trace := by
        simp [closeBackend,live,Sys.scaler]
      rw [ended]
      exact ⟨told_quiet [_] settled.pictures fun _ => rfl,_,rfl,backends_close settled.backends live true⟩
  exact {
    inputs h := input_settled told
    outputs h := output_settled told
    delivered h := deliver_settled told
    afterRelease h later earlier := quiet_after_release told
    afterClose b k later earlier := quiet_after_close backends
    called b priv := called_opened backends
    opened b k := opened_closed backends idle }

/-- Ownership over whole runs of the filter: what is settled when it is closed, that at
    run time at most one backend is retired and at most one opened, each for its
    reason, what each call returns, and that nothing is scaled once no backend is live. -/
theorem filter_ownership {c : Config R} {opens : Backend → Bool} {s0 s : Sys R} {calls : List Call}
    (opened : openFilter c opens = some s0) (executed : run step s0 calls = some s) :
    Closed (close s).trace ∧
    (∃ later, s.trace = later ++ s0.trace ∧ later.countP opensBackend ≤ 1 ∧ later.countP closesBackend ≤ 1 ∧
      Justified (SwapJustified c.backendPref) later) ∧
    (∀ before call after, calls = before ++ call :: after →
      ∃ m new, run step s0 before = some m ∧ Answer m call new ∧ new ++ m.trace <:+ (close s).trace) ∧
    ∀ before after m, calls = before ++ after → run step s0 before = some m → m.backend = none →
      ∃ new, s.trace = new ++ m.trace ∧ ∀ e ∈ new, ∃ h, e = .input h ∨ e = .release h := by
  have settled := settled_run (settled_open opened) executed
  refine ⟨settled_close settled,?_,?_,?_⟩
  · obtain ⟨later,since,swaps⟩ := settled.swaps
    obtain ⟨preferred,-,shape,-⟩ := openFilter_spec opened
    have pref : s0.backendPref = c.backendPref := opened_pref shape
    exact ⟨later,since,swaps.once.1,swaps.once.2,pref ▸ swaps.justified⟩
  · rintro before call after rfl
    obtain ⟨m,first,second⟩ := run_append_iff.mp executed
    obtain ⟨new,answer⟩ := filter_answer m call
    obtain ⟨next,stepped,tail⟩ := run_cons_iff.mp second
    obtain rfl := Option.some.inj stepped
    exact ⟨m,new,first,answer,answer.trace ▸ (trace_grows tail).trans (close_trace s)⟩
  · rintro before after m rfl first dead
    obtain ⟨m',first',second⟩ := run_append_iff.mp executed
    obtain rfl := Option.some.inj (first.symm.trans first')
    exact (filter_dead dead second).2

/-- From 32 by 32 to 64 by 64 pixels in 4:2:0, any backend, two workers that sharpen. -/
def doubling : Config ℚ :=
  let chroma := Chroma.fourcc 'I' '4' '2' '0'
  ⟨⟨32,32,32,32,0,0,64,64,chroma,0,1,1⟩,backendAuto,fun _ => true,128,UsmAdaptive.init 2 4 64 64 0,true,true,40⟩

/-- A picture for `doubling`, what the backend answers and what sharpening does. -/
def received (status : ProcessStatus) (sharpened : UsmStatus) : Call :=
  let picture (side : Nat) : Picture := ⟨Chroma.fourcc 'I' '4' '2' '0',side,side,side,side,3,fun _ => ⟨4096,64,64,1⟩⟩
  ⟨some (picture 32),⟨fun _ => 0,some (picture 64),some ⟨0,0⟩,status,true,⟨true,sharpened,.ok,2,some ⟨0,0⟩,some ⟨1,0⟩⟩⟩⟩

/-- zimg scales a picture, fails, and swscale goes on, until sharpening spoils one. -/
theorem filter_ownership_swapped : ∃ s0 s, openFilter doubling (fun _ => true) = some s0 ∧
    run step s0 [received .ok .ok,received .fatal .ok,received .transient .ok,received .ok .outputUncertain] = some s ∧
    s.backend = some .swscale ∧ .deliver 1 ∈ s.trace ∧ .closeBackend .zimg (some 0) ∈ s.trace ∧ Closed (close s).trace := by
  obtain ⟨s0,opened⟩ := Option.isSome_iff_exists.mp (by decide +kernel : (openFilter doubling (fun _ => true)).isSome = true)
  have executed : (openFilter doubling fun _ => true).bind (fun s0 =>
      (run step s0 [received .ok .ok,received .fatal .ok,received .transient .ok,received .ok .outputUncertain]).map
        fun s => (s.backend,decide (.deliver 1 ∈ s.trace),decide (.closeBackend .zimg (some 0) ∈ s.trace))) =
      some (some .swscale,true,true) := by decide +kernel
  rw [opened,Option.bind_some] at executed
  obtain ⟨s,ran,shown⟩ := Option.map_eq_some_iff.mp executed
  simp only [Prod.mk.injEq,decide_eq_true_eq] at shown
  obtain ⟨live,delivered,closed⟩ := shown
  exact ⟨s0,s,opened,ran,live,delivered,closed,(filter_ownership opened ran).1⟩

end AutoUpscale.Filter
