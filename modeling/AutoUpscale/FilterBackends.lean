import AutoUpscale.FilterFrames
import AutoUpscale.Story

/-!
The backends of a run. The story of an opened backend is that it opened, the pictures
that it scaled, and that it was closed; only the one in use has not been closed yet
(`Backends`). When the filter opens, one backend is tried, or two (`Opened`, `Refused`).
-/
namespace AutoUpscale.Filter
open AutoUpscale.Story
open AutoUpscale.Tuner (Double)
set_option linter.unusedSectionVars false
universe u
variable {R : Type u} [Double R]

/-- Whether an event is about the backend with number `k`. -/
def aboutBackend (k : Nat) : Event → Bool
  | .openBackend _ priv _ => decide (priv = k)
  | .process _ priv _ _ _ => decide (priv = some k)
  | .closeBackend _ priv => decide (priv = some k)
  | .input _ => false
  | .newPicture _ => false
  | .release _ => false
  | .deliver _ => false
  | .sharpen _ _ => false

/-- Whether an event is a call of a backend. -/
def callsBackend : Event → Bool
  | .openBackend _ _ _ => true
  | .process _ _ _ _ _ => true
  | .closeBackend _ _ => true
  | .input _ => false
  | .newPicture _ => false
  | .release _ => false
  | .deliver _ => false
  | .sharpen _ _ => false

/-- The calls of `process` of one opened backend. -/
inductive Uses (b : Backend) (k : Nat) : List Event → Prop
  | nil : Uses b k []
  | cons (src dst : Nat) (status : ProcessStatus) {rest : List Event} (used : Uses b k rest) :
      Uses b k (.process b (some k) src dst status :: rest)

/-- The stories of a backend, its last event first, while `c` is in use. -/
inductive BackendLife (c : Scaler) (k : Nat) : List Event → Prop
  | refused (b : Backend) (gone : c.priv ≠ some k) : BackendLife c k [.openBackend b k false]
  | live (b : Backend) (uses : List Event) (inUse : c.backend = some b) (owner : c.priv = some k) (used : Uses b k uses) :
      BackendLife c k (uses ++ [.openBackend b k true])
  | ended (b : Backend) (uses : List Event) (gone : c.priv ≠ some k) (used : Uses b k uses) :
      BackendLife c k (.closeBackend b (some k) :: uses ++ [.openBackend b k true])

/-- All backends have a story, the one in use is the one that is live, and none is
    called that has no number. -/
structure Backends (c : Scaler) (trace : List Event) : Prop where
  told : Told aboutBackend (BackendLife c) c.nextPriv trace
  inUse : ∀ b, c.backend = some b → ∃ k < c.nextPriv, c.priv = some k
  idle : c.backend = none → c.priv = none
  known : ∀ e ∈ trace, callsBackend e = true → ∃ k, aboutBackend k e = true

variable {c d : Scaler} {b : Backend} {k n m : Nat} {e : Event} {events trace : List Event} {result : Option Nat}

theorem backends_start (pref : Int) (tried : Bool) : Backends ⟨none,none,pref,tried,0⟩ [] where
  told := told_start
  inUse _ live := nomatch live
  idle _ := rfl
  known _ member := absurd member List.not_mem_nil

theorem about_of_quiet (quiet : callsBackend e = false) (k : Nat) : aboutBackend k e = false := by
  cases e <;> first | rfl | cases quiet

theorem backends_quiet (backends : Backends c trace) (quiet : callsBackend e = false) : Backends c (e :: trace) where
  told := told_quiet [e] backends.told fun k => by simp [about_of_quiet quiet k]
  inUse := backends.inUse
  idle := backends.idle
  known x member called := by
    obtain rfl | member := List.mem_cons.mp member
    · rw [quiet] at called
      cases called
    · exact backends.known x member called

/-- Another backend lives on as it did. -/
theorem life_other (gone : c.priv ≠ some k) (goneLater : d.priv ≠ some k) (life : BackendLife c k events) : BackendLife d k events := by
  cases life with
  | refused b => exact .refused b goneLater
  | live b uses inUse owner => exact absurd owner gone
  | ended b uses _ used => exact .ended b uses goneLater used

/-- The stories depend on the backend in use only. -/
theorem life_same (backend : d.backend = c.backend) (priv : d.priv = c.priv) (life : BackendLife c k events) :
    BackendLife d k events := by
  cases life with
  | refused b gone => exact .refused b (priv ▸ gone)
  | live b uses inUse owner used => exact .live b uses (backend.trans inUse) (priv.trans owner) used
  | ended b uses gone used => exact .ended b uses (priv ▸ gone) used

/-- The story of the backend in use. -/
theorem life_inUse (live : c.backend = some b) (owner : c.priv = some k) (life : BackendLife c k events) :
    ∃ uses, Uses b k uses ∧ events = uses ++ [.openBackend b k true] := by
  cases life with
  | refused b gone => exact absurd owner gone
  | live b' uses inUse _ used =>
    obtain rfl : b = b' := Option.some.inj (live.symm.trans inUse)
    exact ⟨uses,used,rfl⟩
  | ended b uses gone => exact absurd owner gone

theorem backends_process (backends : Backends c trace) (live : c.backend = some b) (src dst : Nat) (status : ProcessStatus) :
    Backends c (.process b c.priv src dst status :: trace) := by
  obtain ⟨k,small,owner⟩ := backends.inUse b live
  refine ⟨told_step [_] backends.told (Nat.le_refl _) ?_ (by omega) ?_,backends.inUse,backends.idle,?_⟩
  · intro h _ life
    by_cases own : k = h
    · subst own
      obtain ⟨uses,used,told⟩ := life_inUse live owner life
      simpa [aboutBackend,owner,told] using BackendLife.live b (_ :: uses) live owner (.cons src dst status used)
    · simpa [aboutBackend,owner,own] using life
  · intro h large
    have other : k ≠ h := by omega
    simp [aboutBackend,owner,other]
  · intro x member called
    obtain rfl | member := List.mem_cons.mp member
    · exact ⟨k,by simp [aboutBackend,owner]⟩
    · exact backends.known x member called

theorem backends_close (backends : Backends c trace) (live : c.backend = some b) (tried : Bool) :
    Backends ⟨none,none,c.backendPref,tried,c.nextPriv⟩ (.closeBackend b c.priv :: trace) := by
  obtain ⟨k,small,owner⟩ := backends.inUse b live
  refine ⟨told_step [_] backends.told (Nat.le_refl _) ?_ (by simp only; omega) ?_,by simp,fun _ => rfl,?_⟩
  · intro h _ life
    by_cases own : k = h
    · subst own
      obtain ⟨uses,used,told⟩ := life_inUse live owner life
      simpa [aboutBackend,owner,told] using
        BackendLife.ended (c := ⟨none,none,c.backendPref,tried,c.nextPriv⟩) b uses (by simp) used
    · have gone : c.priv ≠ some h := by simp [owner,own]
      simpa [aboutBackend,owner,own] using life_other gone (by simp) life
  · intro h large
    have other : k ≠ h := by
      dsimp only at large
      omega
    simp [aboutBackend,owner,other]
  · intro x member called
    obtain rfl | member := List.mem_cons.mp member
    · exact ⟨k,by simp [aboutBackend,owner]⟩
    · exact backends.known x member called

theorem backends_open {pref : Int} {tried : Bool} (backends : Backends ⟨none,none,pref,tried,k⟩ trace) (b : Backend) (ok : Bool) :
    Backends ⟨if ok then some b else none,if ok then some k else none,pref,tried,k + 1⟩ (.openBackend b k ok :: trace) := by
  refine ⟨told_step [_] backends.told (Nat.le_succ k) ?_ ?_ ?_,?_,?_,?_⟩
  · intro h small life
    have other : k ≠ h := Nat.ne_of_gt small
    have gone : (if ok then some k else none) ≠ some h := by simp [other]
    simpa [aboutBackend,other] using life_other (by simp) gone life
  · intro h late small
    obtain rfl : k = h := by
      dsimp only at late small
      omega
    cases ok with
    | true => simpa [aboutBackend] using BackendLife.live b [] rfl rfl .nil
    | false => simpa [aboutBackend] using BackendLife.refused b (by simp)
  · intro h large
    have other : k ≠ h := by
      dsimp only at large
      omega
    simp [aboutBackend,other]
  · intro b' live
    cases ok with
    | true => exact ⟨k,Nat.lt_succ_self k,rfl⟩
    | false => cases live
  · intro idle
    cases ok with
    | true => cases idle
    | false => rfl
  · intro x member called
    obtain rfl | member := List.mem_cons.mp member
    · exact ⟨k,by simp [aboutBackend]⟩
    · exact backends.known x member called

theorem backends_swap (backends : Backends c trace) (swapped : Swap c d events) : Backends d (events ++ trace) := by
  cases swapped with
  | kept tried sticky =>
    exact ⟨⟨fun h small => life_same (c := c) rfl rfl (backends.told.given h small),backends.told.fresh⟩,
      backends.inUse,backends.idle,backends.known⟩
  | retired zimg first => exact backends_close backends zimg true
  | swapped zimg first free ok => exact backends_open (backends_close backends zimg true) .swscale ok

theorem backends_sharp {status : UsmStatus} (backends : Backends c trace) (sharpened : Sharpened n status events) :
    Backends c (events ++ trace) := by
  cases sharpened with
  | skipped => exact backends
  | tried => exact backends_quiet backends rfl

/-- The stories of the backends go on during a frame. -/
theorem frame_backends (frame : Frame c n d m events result) (backends : Backends c trace) : Backends d (events ++ trace) := by
  have received : Backends c (.input n :: trace) := backends_quiet backends rfl
  have allocated : Backends c (.newPicture (n + 1) :: .input n :: trace) := backends_quiet received rfl
  cases frame with
  | dropped => exact backends_quiet received rfl
  | failed b live status bad _ swap swapped fatal =>
    have processed := backends_process allocated live n (n + 1) status
    simp only [List.cons_append,List.append_assoc,List.nil_append]
    exact backends_quiet (backends_quiet (backends_swap processed swapped) rfl) rfl
  | spoiled b live =>
    have processed := backends_process allocated live n (n + 1) .ok
    exact backends_quiet (backends_quiet (backends_quiet processed rfl) rfl) rfl
  | delivered b live status sharp sharpened certain =>
    have processed := backends_process allocated live n (n + 1) .ok
    simp only [List.cons_append,List.append_assoc,List.nil_append]
    exact backends_quiet (backends_quiet (backends_sharp processed sharpened) rfl) rfl

/-! ## The ends of a run -/

/-- The backend that opened, and how: the preferred one, or swscale after zimg where
    any backend would do. -/
inductive Opened (pref : Int) (preferred : Backend) (opens : Backend → Bool) : Scaler → List Event → Prop
  | first (ok : opens preferred = true) :
      Opened pref preferred opens ⟨some preferred,some 0,pref,false,1⟩ [.openBackend preferred 0 true]
  | second (auto : pref = backendAuto) (zimg : preferred = .zimg) (refused : opens .zimg = false) (ok : opens .swscale = true) :
      Opened pref preferred opens ⟨some .swscale,some 1,pref,false,2⟩ [.openBackend .swscale 1 true,.openBackend .zimg 0 false]

/-- No backend opened: the preferred one did not, and where any backend would do
    swscale did not after zimg, or does not support the source. -/
inductive Refused (pref : Int) (preferred : Backend) (opens supports : Backend → Bool) : List Event → Prop
  | first (refused : opens preferred = false) (alone : ¬(pref = backendAuto ∧ preferred = .zimg ∧ supports .swscale = true)) :
      Refused pref preferred opens supports [.openBackend preferred 0 false]
  | second (auto : pref = backendAuto) (zimg : preferred = .zimg) (refused : opens .zimg = false)
      (again : opens .swscale = false) :
      Refused pref preferred opens supports [.openBackend .swscale 1 false,.openBackend .zimg 0 false]

/-- What no call has happened to yet. -/
structure Untouched (s : Sys R) (pref : Int) : Prop where
  scaler : s.scaler = ⟨none,none,pref,false,0⟩
  trace : s.trace = []
  nextPicture : s.nextPicture = 0

theorem scalerPick_swscale_eq (supports : Backend → Bool) :
    scalerPick supports backendSwscale = if supports .swscale then some .swscale else none := rfl

/-- Opening keeps the pictures, and either a backend has opened or none is there. -/
theorem openScalerOrFallback_cases {s : Sys R} {pref : Int} (untouched : Untouched s pref) (preferred : Backend)
    (opens : Backend → Bool) :
    (openScalerOrFallback s preferred opens).1.nextPicture = 0 ∧
    (((openScalerOrFallback s preferred opens).2 = true ∧
        Opened pref preferred opens (openScalerOrFallback s preferred opens).1.scaler
          (openScalerOrFallback s preferred opens).1.trace) ∨
      (openScalerOrFallback s preferred opens).2 = false ∧
        Refused pref preferred opens s.supports (openScalerOrFallback s preferred opens).1.trace) := by
  obtain ⟨scaler,trace,pictures⟩ := untouched
  have backendPref : s.backendPref = pref := congrArg Scaler.backendPref scaler
  have fallbackTried : s.fallbackTried = false := congrArg Scaler.fallbackTried scaler
  have nextPriv : s.nextPriv = 0 := congrArg Scaler.nextPriv scaler
  simp only [openScalerOrFallback,openBackendAttempt,backendPref]
  by_cases ok : opens preferred = true
  · rw [if_pos ok]
    refine ⟨pictures,.inl ⟨rfl,?_⟩⟩
    have first : Opened pref preferred opens _ _ := .first ok
    simpa [Sys.scaler,Sys.emit,ok,backendPref,fallbackTried,nextPriv,trace] using first
  rw [if_neg ok]
  have refused : opens preferred = false := by simpa using ok
  by_cases allowed : (decide (pref = backendAuto) && decide (preferred.id = backendZimg)) = true
  · obtain ⟨auto,zimgId⟩ : pref = backendAuto ∧ preferred.id = backendZimg := by simpa using allowed
    obtain rfl : preferred = .zimg := by
      cases preferred with
      | zimg => rfl
      | swscale => exact absurd zimgId (by decide)
    rw [if_pos allowed,scalerPick_swscale_eq]
    by_cases supported : s.supports .swscale = true
    · have distinct : ¬((decide (pref = backendAuto) && decide (Backend.zimg.id = backendZimg)) = false ∨ Backend.swscale = .zimg) := by
        simp [auto,zimgId]
      rw [if_pos supported]
      simp only
      rw [if_neg distinct]
      by_cases second : opens .swscale = true
      · refine ⟨pictures,.inl ⟨second,?_⟩⟩
        have fallback : Opened pref .zimg opens _ _ := .second auto rfl refused second
        simpa [Sys.scaler,Sys.emit,backendPref,fallbackTried,nextPriv,trace,refused,second] using fallback
      · have again : opens .swscale = false := by simpa using second
        refine ⟨pictures,.inr ⟨again,?_⟩⟩
        have both : Refused pref .zimg opens s.supports _ := .second auto rfl refused again
        simpa [Sys.emit,nextPriv,trace,refused,again] using both
    · rw [if_neg supported]
      refine ⟨pictures,.inr ⟨rfl,?_⟩⟩
      have alone : Refused pref .zimg opens s.supports _ := .first refused fun allowed => supported allowed.2.2
      simpa [Sys.emit,nextPriv,trace,refused] using alone
  · rw [if_neg allowed]
    refine ⟨pictures,.inr ⟨rfl,?_⟩⟩
    have alone : Refused pref preferred opens s.supports [.openBackend preferred 0 false] := by
      refine .first refused ?_
      rintro ⟨auto,rfl,_⟩
      exact allowed (by simp [auto,Backend.id])
    simpa [Sys.emit,nextPriv,trace,refused] using alone

/-- `up_autoupscale_open` leaves one backend live, and no pictures. -/
theorem openFilter_spec {c : Config R} {opens : Backend → Bool} {s : Sys R} (opened : openFilter c opens = some s) :
    ∃ preferred, scalerPick c.supports c.backendPref = some preferred ∧
      Opened c.backendPref preferred opens s.scaler s.trace ∧ s.nextPicture = 0 := by
  obtain ⟨preferred,picked,opened⟩ := Option.bind_eq_some_iff.mp opened
  obtain ⟨pictures,⟨ok,shape⟩ | ⟨bad,_⟩⟩ := openScalerOrFallback_cases (s := configured c) ⟨rfl,rfl,rfl⟩ preferred opens
  · simp only [ok,if_true,Option.some.injEq] at opened
    exact ⟨preferred,picked,opened ▸ ⟨shape,pictures⟩⟩
  · simp [bad] at opened

theorem opened_backends {pref : Int} {preferred : Backend} {opens : Backend → Bool} (opened : Opened pref preferred opens c trace) :
    Backends c trace := by
  cases opened with
  | first ok => exact backends_open (backends_start pref false) preferred true
  | second auto zimg refused ok => exact backends_open (backends_open (backends_start pref false) .zimg false) .swscale true

/-! ## What the stories say -/

theorem backend_mem (about : aboutBackend k e = true) : e ∈ trace ↔ e ∈ story aboutBackend k trace := (mem_story about).symm

theorem backend_count (about : aboutBackend k e = true) : trace.count e = (story aboutBackend k trace).count e := count_story about

theorem not_open_of_uses {uses : List Event} (used : Uses b k uses) (ok : Bool) (b' : Backend) : .openBackend b' k ok ∉ uses := by
  induction used with
  | nil => exact List.not_mem_nil
  | cons src dst status _ ih => simpa using ih

theorem not_close_of_uses {uses : List Event} (used : Uses b k uses) (b' : Backend) : .closeBackend b' (some k) ∉ uses := by
  induction used with
  | nil => exact List.not_mem_nil
  | cons src dst status _ ih => simpa using ih

theorem process_of_uses {uses : List Event} (used : Uses b k uses) {b' : Backend} {src dst : Nat} {status : ProcessStatus}
    (member : .process b' (some k) src dst status ∈ uses) : b' = b := by
  induction used with
  | nil => exact absurd member List.not_mem_nil
  | cons src dst status _ ih =>
    obtain same | member := List.mem_cons.mp member
    · injection same
    · exact ih member

/-- Once no backend is in use, every one that opened has been closed, once. -/
theorem opened_closed (backends : Backends c trace) (idle : c.priv = none) (member : .openBackend b k true ∈ trace) :
    trace.count (.openBackend b k true) = 1 ∧ trace.count (.closeBackend b (some k)) = 1 := by
  have life := life_of_mem (h := k) backends.told (by simp [aboutBackend]) member
  rw [backend_mem (k := k) (by simp [aboutBackend])] at member
  rw [backend_count (k := k) (e := .openBackend b k true) (by simp [aboutBackend]),
    backend_count (k := k) (e := .closeBackend b (some k)) (by simp [aboutBackend])]
  generalize story aboutBackend k trace = life at *
  cases life with
  | refused b' gone => simp at member
  | live b' uses inUse owner used => simp [idle] at owner
  | ended b' uses gone used =>
    have unopened := not_open_of_uses used true b
    have unclosed := not_close_of_uses used b
    obtain rfl : b = b' := by simpa [unopened] using member
    simp [List.count_eq_zero_of_not_mem unopened,List.count_eq_zero_of_not_mem unclosed]

/-- `process` and `close` are called of a backend that opened. -/
theorem called_opened (backends : Backends c trace) {priv : Option Nat}
    (called : (∃ src dst status, .process b priv src dst status ∈ trace) ∨ .closeBackend b priv ∈ trace) :
    ∃ k, priv = some k ∧ .openBackend b k true ∈ trace := by
  obtain ⟨e,member,calls,about⟩ : ∃ e ∈ trace, callsBackend e = true ∧ ∀ k, aboutBackend k e = true →
      priv = some k ∧ ((∃ src dst status, e = .process b (some k) src dst status) ∨ e = .closeBackend b (some k)) := by
    obtain ⟨src,dst,status,member⟩ | member := called
    · refine ⟨_,member,rfl,fun k about => ?_⟩
      obtain rfl : priv = some k := by simpa [aboutBackend] using about
      exact ⟨rfl,.inl ⟨src,dst,status,rfl⟩⟩
    · refine ⟨_,member,rfl,fun k about => ?_⟩
      obtain rfl : priv = some k := by simpa [aboutBackend] using about
      exact ⟨rfl,.inr rfl⟩
  obtain ⟨k,aboutK⟩ := backends.known e member calls
  obtain ⟨rfl,shape⟩ := about k aboutK
  refine ⟨k,rfl,?_⟩
  have life := life_of_mem backends.told aboutK member
  rw [← mem_story aboutK] at member
  rw [backend_mem (k := k) (by simp [aboutBackend])]
  generalize story aboutBackend k trace = life at *
  have shown (b' : Backend) (uses : List Event) (used : Uses b' k uses)
      (inside : e = .closeBackend b' (some k) ∨ e ∈ uses ∨ e = .openBackend b' k true) : b = b' := by
    obtain ⟨src,dst,status,rfl⟩ | rfl := shape
    · obtain same | inUses | same := inside
      · cases same
      · exact process_of_uses used inUses
      · cases same
    · obtain same | inUses | same := inside
      · injection same
      · exact absurd inUses (not_close_of_uses used b)
      · cases same
  cases life with
  | refused b' gone => obtain ⟨src,dst,status,rfl⟩ | rfl := shape <;> simp at member
  | live b' uses inUse owner used =>
    obtain rfl := shown b' uses used (.inr (by simpa using member))
    simp
  | ended b' uses gone used =>
    obtain rfl := shown b' uses used (by simpa using member)
    simp

/-- A backend is not called after its end. -/
theorem quiet_after_close (backends : Backends c trace) {later earlier : List Event} {b : Backend} {k : Nat}
    (parts : trace = later ++ .closeBackend b (some k) :: earlier) : ∀ e ∈ later, aboutBackend k e = false := by
  have about : aboutBackend k (.closeBackend b (some k)) = true := by simp [aboutBackend]
  have member : .closeBackend b (some k) ∈ trace := by simp [parts]
  have life := life_of_mem backends.told about member
  rw [← mem_story about] at member
  generalize lived : story aboutBackend k trace = life at *
  cases life with
  | refused b' gone => simp at member
  | live b' uses inUse owner used => exact absurd (by simpa using member) (not_close_of_uses used b)
  | ended b' uses gone used =>
    have unclosed := not_close_of_uses used b
    obtain rfl : b = b' := by simpa [unclosed] using member
    exact quiet_after lived (by simp [unclosed]) parts

end AutoUpscale.Filter
