import AutoUpscale.UsmAdaptive

/-!
Who owns the pools of the adaptive choice. The trace says which pools are live
(`Ledger`); between two calls they are the best one and, while the tuner tries or
confirms a count, the trial pool of that count (`Inv`).
-/
namespace AutoUpscale.UsmAdaptive
open AutoUpscale.Runs (run run_relates reachable_preserves)
open AutoUpscale.Tuner (Double Counts TunerInv SameCounts observe_cases)
open AutoUpscale.UsmPool (Status)
universe u
set_option linter.unusedSectionVars false
variable {R : Type u} [Double R] {w v : World R} {trace : List Event} {next : Nat} {held : List Nat}

/-! ## Traces -/

/-- The pools that were created and not yet destroyed. -/
def livePools : List Event → List Nat
  | [] => []
  | .create pool :: past => pool :: livePools past
  | .destroy pool :: past => (livePools past).erase pool
  | .apply _ _ :: past => livePools past
  | .swap _ _ _ :: past => livePools past

def creates (trace : List Event) (pool : Nat) : Nat := trace.count (.create pool)

def destroys (trace : List Event) (pool : Nat) : Nat := trace.count (.destroy pool)

/-- The pools that were applied, each with its answer. -/
def applied (events : List Event) : List (Nat × Status) :=
  events.filterMap fun
    | .apply pool status => some (pool,status)
    | _ => none

/-- The pools in `held` are the live ones; `next` is the number of the next pool. -/
structure Ledger (trace : List Event) (next : Nat) (held : List Nat) : Prop where
  live : (livePools trace).Perm held
  distinct : held.Nodup
  created : ∀ pool, creates trace pool = if pool < next then 1 else 0
  destroyed : ∀ pool, destroys trace pool = if pool < next ∧ pool ∉ held then 1 else 0
  known : ∀ pool ∈ held, pool < next
  few : ∀ past, past <:+ trace → (livePools past).length ≤ 2
  swaps : ∀ trial count best, .swap trial count best ∈ trace → trial ≠ none ∧ count = best

theorem ledger_perm {others : List Nat} (ledger : Ledger trace next held) (same : held.Perm others) :
    Ledger trace next others :=
  ⟨ledger.live.trans same,same.nodup_iff.mp ledger.distinct,ledger.created,
    fun pool => by rw [ledger.destroyed]; simp only [same.mem_iff],fun pool member => ledger.known pool (same.mem_iff.mpr member),
    ledger.few,ledger.swaps⟩

theorem ledger_few {e : Event} (ledger : Ledger trace next held) (room : (livePools (e :: trace)).length ≤ 2) :
    ∀ past, past <:+ e :: trace → (livePools past).length ≤ 2 := by
  intro past suffix
  obtain rfl | older := List.suffix_cons_iff.mp suffix
  · exact room
  · exact ledger.few past older

theorem ledger_create (ledger : Ledger trace next held) (room : held.length ≤ 1) :
    Ledger (.create next :: trace) (next + 1) (next :: held) := by
  have fresh : next ∉ held := fun member => lt_irrefl next (ledger.known next member)
  refine ⟨ledger.live.cons next,List.nodup_cons.mpr ⟨fresh,ledger.distinct⟩,fun pool => ?_,fun pool => ?_,
    fun pool member => ?_,?_,fun trial count best member => ?_⟩
  · rw [creates,List.count_cons,← creates,ledger.created]
    rcases eq_or_ne pool next with rfl | other
    · simp
    · simp only [beq_iff_eq,Event.create.injEq,other.symm,if_false]
      split_ifs <;> omega
  · rw [destroys,List.count_cons_of_ne (by simp),← destroys,ledger.destroyed]
    rcases eq_or_ne pool next with rfl | other
    · simp
    · have older : pool < next + 1 ↔ pool < next := by omega
      simp [other,older]
  · obtain rfl | older := List.mem_cons.mp member
    · omega
    · exact Nat.lt_succ_of_lt (ledger.known pool older)
  · refine ledger_few ledger ?_
    rw [livePools,List.length_cons,ledger.live.length_eq]
    omega
  · exact ledger.swaps trial count best (by simpa using member)

theorem ledger_destroy {pool : Nat} (ledger : Ledger trace next held) (owned : pool ∈ held) :
    Ledger (.destroy pool :: trace) next (held.erase pool) := by
  refine ⟨ledger.live.erase pool,ledger.distinct.erase pool,fun other => ?_,fun other => ?_,fun other member => ?_,?_,
    fun trial count best member => ?_⟩
  · rw [creates,List.count_cons_of_ne (by simp),← creates,ledger.created]
  · rw [destroys,List.count_cons,← destroys,ledger.destroyed]
    simp only [beq_iff_eq,Event.destroy.injEq,ledger.distinct.mem_erase_iff]
    rcases eq_or_ne pool other with rfl | apart
    · simp [owned,ledger.known pool owned]
    · simp [apart,apart.symm]
  · exact ledger.known other (List.mem_of_mem_erase member)
  · refine ledger_few ledger (le_trans (List.length_erase_le) ?_)
    exact ledger.few trace List.suffix_rfl
  · exact ledger.swaps trial count best (by simpa using member)

theorem ledger_apply {pool : Nat} {status : Status} (ledger : Ledger trace next held) :
    Ledger (.apply pool status :: trace) next held := by
  refine ⟨ledger.live,ledger.distinct,fun other => ?_,fun other => ?_,ledger.known,
    ledger_few ledger (ledger.few trace List.suffix_rfl),fun trial count best member => ?_⟩
  · rw [creates,List.count_cons_of_ne (by simp),← creates,ledger.created]
  · rw [destroys,List.count_cons_of_ne (by simp),← destroys,ledger.destroyed]
  · exact ledger.swaps trial count best (by simpa using member)

theorem ledger_swap {trial : Option Nat} {count best : Int} (ledger : Ledger trace next held) (present : trial ≠ none)
    (matching : count = best) : Ledger (.swap trial count best :: trace) next held := by
  refine ⟨ledger.live,ledger.distinct,fun other => ?_,fun other => ?_,ledger.known,
    ledger_few ledger (ledger.few trace List.suffix_rfl),fun trial' count' best' member => ?_⟩
  · rw [creates,List.count_cons_of_ne (by simp),← creates,ledger.created]
  · rw [destroys,List.count_cons_of_ne (by simp),← destroys,ledger.destroyed]
  · obtain same | older := List.mem_cons.mp member
    · cases same
      exact ⟨present,matching⟩
    · exact ledger.swaps trial' count' best' older

/-! ## The invariant -/

/-- The world between two calls. -/
structure Inv (w : World R) : Prop where
  owned : ∃ best, w.best = some best ∧ Ledger w.trace w.next (best :: w.adaptive.trial.toList)
  tuner : TunerInv w.adaptive.tuner
  absent : w.adaptive.trial = none → w.adaptive.trialCount = 0
  present : w.adaptive.trial ≠ none → w.adaptive.enabled = true ∧
    w.adaptive.trialCount = w.adaptive.tuner.candidate ∧
    (w.adaptive.tuner.phase = .trial ∨ w.adaptive.tuner.phase = .confirm)
  confirming : w.adaptive.enabled = true → w.adaptive.tuner.phase = .confirm → w.adaptive.trial ≠ none

theorem init_inv (initial limit width height stripeRows : Int) :
    Inv (init (R := R) initial limit width height stripeRows) := by
  refine ⟨⟨0,rfl,?_⟩,Tuner.init_inv _ _,fun _ => rfl,fun present => absurd rfl present,
    fun _ confirming => by cases confirming⟩
  refine ⟨List.Perm.refl _,List.pairwise_singleton _ 0,fun pool => ?_,fun pool => ?_,by simp [init],fun past suffix => ?_,
    by simp [init]⟩
  · rcases eq_or_ne pool 0 with rfl | other
    · rfl
    · simp [init,creates,other,other.symm]
  · simp [init,destroys]
  · obtain rfl | older := List.suffix_cons_iff.mp suffix
    · simp [livePools]
    · simp [List.suffix_nil.mp older,livePools]

/-- Only the tuner and the flags of the frame differ. -/
structure SamePools (w v : World R) : Prop where
  best : v.best = w.best
  next : v.next = w.next
  trace : v.trace = w.trace
  trial : v.adaptive.trial = w.adaptive.trial
  count : v.adaptive.trialCount = w.adaptive.trialCount
  enabled : v.adaptive.enabled = w.adaptive.enabled
  stopped : v.adaptive.stopped = w.adaptive.stopped
  tuner : v.adaptive.tuner = w.adaptive.tuner

theorem SamePools.inv (same : SamePools w v) (inv : Inv w) : Inv v := by
  obtain ⟨best,next,trace,trial,count,enabled,stopped,tuner⟩ := same
  constructor
  · rw [best,next,trace,trial]; exact inv.owned
  · rw [tuner]; exact inv.tuner
  · rw [trial,count]; exact inv.absent
  · rw [trial,count,enabled,tuner]; exact inv.present
  · rw [trial,enabled,tuner]; exact inv.confirming

/-- Once exploration is over, it stays so. -/
structure Stopped (w : World R) : Prop where
  enabled : w.adaptive.enabled = false
  stopped : w.adaptive.stopped = true
  trial : w.adaptive.trial = none

/-! ## The trial pool goes -/

theorem clearTrial_fields (w : World R) : (clearTrial w).best = w.best ∧ (clearTrial w).next = w.next ∧
    (clearTrial w).adaptive = { w.adaptive with trial := none, trialCount := 0 } := by
  simp only [clearTrial]
  cases trial : w.adaptive.trial with
  | none => exact ⟨rfl,rfl,rfl⟩
  | some pool => exact ⟨rfl,rfl,rfl⟩

theorem clearTrial_ledger {best : Nat} (ledger : Ledger w.trace w.next (best :: w.adaptive.trial.toList)) :
    Ledger (clearTrial w).trace (clearTrial w).next [best] := by
  rw [clearTrial]
  cases trial : w.adaptive.trial with
  | none => simpa [trial,poolDestroy] using ledger
  | some pool =>
    rw [trial] at ledger
    have apart : best ≠ pool := by simpa using ledger.distinct
    have gone := ledger_destroy ledger (by simp : pool ∈ best :: (some pool).toList)
    rwa [List.erase_cons_tail (by simpa using apart),Option.toList,List.erase_cons_head] at gone

/-- Without its trial a world that need not confirm anything is whole. -/
theorem clearTrial_inv {best : Nat} (found : w.best = some best)
    (ledger : Ledger w.trace w.next (best :: w.adaptive.trial.toList)) (tuner : TunerInv w.adaptive.tuner)
    (free : w.adaptive.enabled = true → w.adaptive.tuner.phase ≠ .confirm) : Inv (clearTrial w) := by
  obtain ⟨sameBest,_,adaptive⟩ := clearTrial_fields w
  have cleared := clearTrial_ledger ledger
  constructor
  · exact ⟨best,sameBest.trans found,by rw [adaptive]; exact cleared⟩
  · rw [adaptive]; exact tuner
  · rw [adaptive]; exact fun _ => rfl
  · rw [adaptive]; exact fun present => absurd rfl present
  · rw [adaptive]; exact fun enabled confirming => absurd confirming (free enabled)

theorem stop_stopped (w : World R) : Stopped (stop w) := by
  obtain ⟨_,_,adaptive⟩ := clearTrial_fields w
  refine ⟨rfl,rfl,?_⟩
  show (clearTrial w).adaptive.trial = none
  rw [adaptive]

theorem stop_best (w : World R) : (stop w).best = w.best := (clearTrial_fields w).1

theorem stop_inv (inv : Inv w) : Inv (stop w) := by
  obtain ⟨best,found,ledger⟩ := inv.owned
  have ended := stop_stopped w
  obtain ⟨_,_,adaptive⟩ := clearTrial_fields w
  constructor
  · refine ⟨best,(stop_best w).trans found,?_⟩
    rw [ended.trial]
    exact clearTrial_ledger ledger
  · show TunerInv (clearTrial w).adaptive.tuner
    rw [adaptive]
    exact inv.tuner
  · intro _
    show (clearTrial w).adaptive.trialCount = 0
    rw [adaptive]
  · exact fun present => absurd ended.trial present
  · intro enabled
    rw [ended.enabled] at enabled
    contradiction

/-! ## Quiet steps -/

/-- No pool was applied on the way. -/
def Quiet (w v : World R) : Prop := ∃ events, v.trace = events ++ w.trace ∧ applied events = []

theorem Quiet.refl (w : World R) : Quiet w w := ⟨[],rfl,rfl⟩

theorem Quiet.trans {x : World R} (first : Quiet w v) (second : Quiet v x) : Quiet w x := by
  obtain ⟨early,traced,quiet⟩ := first
  obtain ⟨late,traced',quiet'⟩ := second
  refine ⟨late ++ early,by rw [traced',traced,List.append_assoc],?_⟩
  rw [applied] at quiet quiet' ⊢
  rw [List.filterMap_append,quiet,quiet',List.append_nil]

theorem SamePools.quiet (same : SamePools w v) : Quiet w v := ⟨[],same.trace,rfl⟩

theorem poolDestroy_quiet (w : World R) (pool : Option Nat) : Quiet w (poolDestroy w pool) := by
  cases pool with
  | none => exact Quiet.refl w
  | some pool => exact ⟨[.destroy pool],rfl,rfl⟩

theorem clearTrial_quiet (w : World R) : Quiet w (clearTrial w) := poolDestroy_quiet w w.adaptive.trial

theorem stop_quiet (w : World R) : Quiet w (stop w) := clearTrial_quiet w

/-! ## Selecting a pool -/

/-- What `select` leaves: the best pool, or the live trial pool of the count that
    the tuner wants to see. -/
structure Selected (w v : World R) (selected : Option Nat) : Prop where
  inv : Inv v
  best : v.best = w.best
  quiet : Quiet w v
  chosen : (selected = v.best ∧ (v.adaptive.enabled = true → v.adaptive.tuner.phase ≠ .trial)) ∨
    (selected ≠ v.best ∧ selected ≠ none ∧ selected = v.adaptive.trial ∧ v.adaptive.enabled = true)

/-- Another count than the best is tried only by a trial. -/
theorem trying_of_other (inv : Inv w) (other : w.adaptive.tuner.current ≠ w.adaptive.tuner.best) :
    w.adaptive.tuner.phase = .trial := by
  by_contra resting
  exact other (inv.tuner.resting resting)

theorem best_not_trial (inv : Inv w) (present : w.adaptive.trial ≠ none) : w.adaptive.trial ≠ w.best := by
  obtain ⟨best,found,ledger⟩ := inv.owned
  obtain ⟨trial,running⟩ := Option.ne_none_iff_exists'.mp present
  rw [running] at ledger ⊢
  rw [found]
  rintro same
  cases same
  simpa using ledger.distinct

theorem startTrial_selected (inv : Inv w) (enabled : w.adaptive.enabled = true)
    (trying : w.adaptive.tuner.phase = .trial) (absent : w.adaptive.trial = none) (created : Bool) :
    Selected w (startTrial w created).1 (startTrial w created).2 := by
  cases created with
  | false =>
    have same : SamePools w { w with adaptive := { w.adaptive with trial := none } } :=
      ⟨rfl,rfl,rfl,absent.symm,rfl,rfl,rfl,rfl⟩
    have ended := stop_stopped { w with adaptive := { w.adaptive with trial := none } }
    have best := stop_best { w with adaptive := { w.adaptive with trial := none } }
    refine ⟨stop_inv (same.inv inv),best,same.quiet.trans (stop_quiet _),.inl ⟨best.symm,fun enabled => ?_⟩⟩
    exact absurd (enabled.symm.trans ended.enabled) (by decide)
  | true =>
    obtain ⟨best,found,ledger⟩ := inv.owned
    have two : Ledger (.create w.next :: w.trace) (w.next + 1) (best :: [w.next]) := by
      rw [absent] at ledger
      exact ledger_perm (ledger_create ledger (le_refl 1)) (List.Perm.swap _ _ _)
    have apart : best ≠ w.next := by simpa using two.distinct
    have current := inv.tuner.trying trying
    refine ⟨⟨⟨best,found,two⟩,inv.tuner,nofun,fun _ => ⟨enabled,current,.inl trying⟩,fun _ _ => nofun⟩,rfl,
      ⟨[.create w.next],rfl,rfl⟩,.inr ⟨?_,nofun,rfl,enabled⟩⟩
    show some w.next ≠ w.best
    rw [found]
    simpa using apart.symm

theorem select_selected (inv : Inv w) (enabled : w.adaptive.enabled = true) (created : Bool) :
    Selected w (select w created).1 (select w created).2 := by
  rw [select]
  by_cases best : w.adaptive.tuner.current = w.adaptive.tuner.best
  · rw [if_pos best]
    refine ⟨inv,rfl,Quiet.refl w,.inl ⟨rfl,fun _ trying => ?_⟩⟩
    obtain ⟨_,_,other⟩ := inv.tuner.candidate (.inl trying)
    exact other ((inv.tuner.trying trying).symm.trans best)
  rw [if_neg best]
  have trying := trying_of_other inv best
  obtain ⟨_,positive,_⟩ := inv.tuner.candidate (.inl trying)
  have current := inv.tuner.trying trying
  by_cases running : w.adaptive.trialCount = w.adaptive.tuner.current
  · rw [if_pos running]
    have present : w.adaptive.trial ≠ none := by
      intro absent
      have := inv.absent absent
      omega
    exact ⟨inv,rfl,Quiet.refl w,.inr ⟨best_not_trial inv present,present,rfl,enabled⟩⟩
  rw [if_neg running]
  obtain ⟨sameBest,_,adaptive⟩ := clearTrial_fields w
  obtain ⟨_,found,ledger⟩ := inv.owned
  have cleared := clearTrial_inv found ledger inv.tuner (fun _ => by simp [trying])
  have chosen := startTrial_selected cleared (by rw [adaptive]; exact enabled) (by rw [adaptive]; exact trying)
    (by rw [adaptive]) created
  exact ⟨chosen.inv,chosen.best.trans sameBest,(clearTrial_quiet w).trans chosen.quiet,chosen.chosen⟩

/-! ## Accepting a time -/

theorem promote_quiet (w : World R) : Quiet w (promote w) := by
  have taken : Quiet (poolDestroy w w.best) (promote w) := ⟨[.swap _ _ _],rfl,rfl⟩
  exact (poolDestroy_quiet w w.best).trans taken

theorem accept_quiet (w : World R) (elapsed : R) : Quiet w (accept w elapsed) := by
  have observed : Quiet w (observed w elapsed) := ⟨[],rfl,rfl⟩
  simp only [accept]
  split_ifs
  · exact observed.trans (clearTrial_quiet _)
  · exact observed
  · exact observed.trans (promote_quiet _)

/-- A trial pool that has the count of the new best takes over. -/
theorem promote_inv {best trial : Nat} (found : w.best = some best) (running : w.adaptive.trial = some trial)
    (ledger : Ledger w.trace w.next [best,trial]) (tuner : TunerInv w.adaptive.tuner)
    (base : w.adaptive.tuner.phase = .base) (count : w.adaptive.trialCount = w.adaptive.tuner.best) :
    Inv (promote w) := by
  have apart : best ≠ trial := by simpa using ledger.distinct
  have gone := ledger_destroy ledger List.mem_cons_self
  rw [List.erase_cons_head] at gone
  have taken : promote w = { w with best := some trial, adaptive := { w.adaptive with trial := none, trialCount := 0 },
                                    trace := .swap (some trial) w.adaptive.trialCount w.adaptive.tuner.best ::
                                      .destroy best :: w.trace } := by
    simp only [promote,found,poolDestroy,running]
  rw [taken]
  exact ⟨⟨trial,rfl,ledger_swap gone nofun count⟩,tuner,fun _ => rfl,fun present => absurd rfl present,
    fun _ confirming => absurd (base.symm.trans confirming) (by decide)⟩

/-- A tuner that keeps its best pool keeps the trial pool while it tries or
    confirms the count of that pool. -/
theorem observed_inv (inv : Inv w) {elapsed : R} (tuner : TunerInv (observed w elapsed).adaptive.tuner)
    (present : w.adaptive.trial ≠ none →
      (observed w elapsed).adaptive.tuner.candidate = w.adaptive.tuner.candidate ∧
      ((observed w elapsed).adaptive.tuner.phase = .trial ∨ (observed w elapsed).adaptive.tuner.phase = .confirm))
    (confirming : w.adaptive.enabled = true → (observed w elapsed).adaptive.tuner.phase = .confirm →
      w.adaptive.trial ≠ none) : Inv (observed w elapsed) := by
  refine ⟨inv.owned,tuner,inv.absent,fun running => ?_,confirming⟩
  obtain ⟨enabled,count,_⟩ := inv.present running
  obtain ⟨candidate,phase⟩ := present running
  exact ⟨enabled,count.trans candidate.symm,phase⟩

theorem resting_trial (inv : Inv w) (trying : w.adaptive.tuner.phase ≠ .trial)
    (confirming : w.adaptive.tuner.phase ≠ .confirm) : w.adaptive.trial = none := by
  by_contra present
  obtain ⟨_,_,phase | phase⟩ := inv.present present
  · exact trying phase
  · exact confirming phase

theorem accept_inv (inv : Inv w) (enabled : w.adaptive.enabled = true)
    (ready : w.adaptive.tuner.phase = .trial → w.adaptive.trial ≠ none) (elapsed : R) : Inv (accept w elapsed) := by
  obtain ⟨best,found,ledger⟩ := inv.owned
  obtain ⟨tuner,moved⟩ := observe_cases inv.tuner elapsed
  have kept (same : (observed w elapsed).adaptive.tuner.best = w.adaptive.tuner.best)
      (open_ : ¬ (w.adaptive.tuner.phase = .confirm ∧ (observed w elapsed).adaptive.tuner.phase = .base))
      (whole : Inv (observed w elapsed)) : Inv (accept w elapsed) := by
    simp only [accept]
    rw [if_pos same,if_neg open_]
    exact whole
  obtain same | moved := moved
  · refine kept same.best (fun ⟨confirming,base⟩ => ?_) (observed_inv inv tuner (fun present => ⟨same.candidate,?_⟩) ?_)
    · exact absurd ((confirming.symm.trans same.phase.symm).trans base) (by decide)
    · obtain ⟨_,_,phase⟩ := inv.present present
      rwa [← same.phase] at phase
    · exact fun on confirming => inv.confirming on (same.phase.symm.trans confirming)
  cases moved with
  | watch phase best current candidate cursor settled =>
    have absent := resting_trial inv (by simp [settled]) (by simp [settled])
    exact kept best (by simp [settled]) (observed_inv inv tuner (absurd absent)
      (fun _ confirming => absurd (phase.symm.trans confirming) (by simp [settled])))
  | settle base phase best current cursor =>
    have absent := resting_trial inv (by simp [base]) (by simp [base])
    exact kept best (by simp [base]) (observed_inv inv tuner (absurd absent)
      (fun _ confirming => absurd (phase.symm.trans confirming) (by decide)))
  | explore base phase best candidate current ahead bound other =>
    have absent := resting_trial inv (by simp [base]) (by simp [base])
    exact kept best (by simp [base]) (observed_inv inv tuner (absurd absent)
      (fun _ confirming => absurd (phase.symm.trans confirming) (by decide)))
  | tried trial phase best current candidate cursor =>
    exact kept best (by simp [trial]) (observed_inv inv tuner (fun _ => ⟨candidate,.inr phase⟩) (fun _ _ => ready trial))
  | decide confirming phase best current cursor =>
    have present := inv.confirming enabled confirming
    simp only [accept]
    by_cases same : (observed w elapsed).adaptive.tuner.best = w.adaptive.tuner.best
    · rw [if_pos same,if_pos ⟨confirming,phase⟩]
      exact clearTrial_inv found ledger tuner (fun _ => fun again => absurd (phase.symm.trans again) (by decide))
    · rw [if_neg same]
      obtain ⟨trial,running⟩ := Option.ne_none_iff_exists'.mp present
      obtain ⟨_,count,_⟩ := inv.present present
      rw [running] at ledger
      exact promote_inv found running ledger tuner phase (count.trans (best.resolve_left same).symm)
  | search settled phase best current cursor =>
    have absent := resting_trial inv (by simp [settled]) (by simp [settled])
    exact kept best (by simp [settled]) (observed_inv inv tuner (absurd absent)
      (fun _ confirming => absurd (phase.symm.trans confirming) (by decide)))

theorem measure_inv (inv : Inv w) (enabled : w.adaptive.enabled = true)
    (ready : w.adaptive.tuner.phase = .trial → w.adaptive.trial ≠ none) (o : Outcome) (selected : Option Nat)
    (start : Option Timespec) : Inv (measure w o selected start) := by
  rw [measure]
  by_cases fewer : effectiveThreads o.threads selected ≠ w.adaptive.tuner.current
  · rw [if_pos fewer]
    exact stop_inv inv
  rw [if_neg fewer]
  cases start.bind (fun start => elapsed (R := R) start o.finish) with
  | none => exact stop_inv inv
  | some time => exact accept_inv inv enabled ready time

theorem measure_quiet (w : World R) (o : Outcome) (selected : Option Nat) (start : Option Timespec) :
    Quiet w (measure w o selected start) := by
  rw [measure]
  split_ifs
  · exact stop_quiet w
  · cases start.bind (fun start => elapsed (R := R) start o.finish) with
    | none => exact stop_quiet w
    | some time => exact accept_quiet w time

/-! ## A frame -/

/-- What one apply does with the pools, from its first event to its last: the
    pools that it applied, the last first, and their answers. -/
inductive Frame (w v : World R) : Status → List (Nat × Status) → Prop
  | best {pool : Nat} (status : Status) (own : w.best = some pool) : Frame w v status [(pool,status)]
  | trial {pool : Nat} (other : w.best ≠ some pool) : Frame w v .ok [(pool,.ok)]
  | uncertain {pool : Nat} (other : w.best ≠ some pool) (same : v.best = w.best) (stopped : Stopped v)
      (retained : v.adaptive.retained = true) : Frame w v .outputUncertain [(pool,.outputUncertain)]
  | recovered {best trial : Nat} (status : Status) (own : w.best = some best) (other : w.best ≠ some trial) :
      Frame w v status [(best,status),(trial,.failedUnchanged)]

theorem choose_selected (inv : Inv w) (created : Bool) : Selected w (choose w created).1 (choose w created).2 := by
  rw [choose]
  cases enabled : w.adaptive.enabled with
  | false => exact ⟨inv,rfl,Quiet.refl w,.inl ⟨rfl,fun on => absurd (enabled.symm.trans on) (by decide)⟩⟩
  | true => exact select_selected inv enabled created

theorem timing_same (w : World R) (clock : Option Timespec) : SamePools w (timing w clock).1 := by
  rw [timing,takeStart]
  split_ifs <;> exact ⟨rfl,rfl,rfl,rfl,rfl,rfl,rfl,rfl⟩

theorem Selected.after {x : World R} {selected : Option Nat} (chosen : Selected w v selected) (same : SamePools v x) :
    Selected w x selected := by
  refine ⟨same.inv chosen.inv,same.best.trans chosen.best,chosen.quiet.trans same.quiet,?_⟩
  rw [same.best,same.enabled,same.tuner,same.trial]
  exact chosen.chosen

theorem Selected.before {x : World R} {selected : Option Nat} (same : SamePools x w) (chosen : Selected w v selected) :
    Selected x v selected :=
  ⟨chosen.inv,chosen.best.trans same.best,same.quiet.trans chosen.quiet,chosen.chosen⟩

/-- The event of an apply, whatever the pool is. -/
theorem poolApply_inv {pool : Nat} {status : Status} (inv : Inv w) : Inv (poolApply w status (some pool)).1 := by
  obtain ⟨best,found,ledger⟩ := inv.owned
  exact ⟨⟨best,found,ledger_apply ledger⟩,inv.tuner,inv.absent,inv.present,inv.confirming⟩

/-- A call that ends in the invariant and whose events are a frame. -/
def Framed (w v : World R) (status : Status) : Prop :=
  Inv v ∧ ∃ events, v.trace = events ++ w.trace ∧ Frame w v status (applied events)

/-- Quiet steps before and after the applies add nothing to a frame. -/
theorem framed_around {x y z : World R} {events : List Event} {status : Status} (first : Quiet w x)
    (middle : y.trace = events ++ x.trace) (last : Quiet y z) (inv : Inv z) (frame : Frame w z status (applied events)) :
    Framed w z status := by
  obtain ⟨before,traced,quiet⟩ := first
  obtain ⟨after,traced',quiet'⟩ := last
  refine ⟨inv,after ++ (events ++ before),by rw [traced',middle,traced,List.append_assoc,List.append_assoc],?_⟩
  rw [applied] at quiet quiet'
  rw [applied,List.filterMap_append,List.filterMap_append,quiet,quiet',List.append_nil,List.nil_append]
  exact frame

theorem applyBest_framed {pool : Nat} (inv : Inv v) (quiet : Quiet w v) (best : v.best = w.best)
    (own : v.best = some pool) (resting : v.adaptive.enabled = true → v.adaptive.tuner.phase ≠ .trial) (o : Outcome)
    (start : Option Timespec) :
    Framed w (applySelected v o (some pool) start).1 (applySelected v o (some pool) start).2 := by
  have whole : Inv (poolApply v o.selected (some pool)).1 := poolApply_inv inv
  have frame (u : World R) : Frame w u o.selected (applied [.apply pool o.selected]) :=
    .best o.selected (best.symm.trans own)
  have traced : (poolApply v o.selected (some pool)).1.trace = [.apply pool o.selected] ++ v.trace := rfl
  have first : ¬ ((poolApply v o.selected (some pool)).2 ≠ .ok ∧
      some pool ≠ (poolApply v o.selected (some pool)).1.best) := fun ⟨_,other⟩ => other own.symm
  simp only [applySelected]
  rw [if_neg first]
  by_cases last : (poolApply v o.selected (some pool)).2 ≠ .ok ∨
      (poolApply v o.selected (some pool)).1.adaptive.enabled = false
  · rw [if_pos last]
    exact framed_around quiet traced (Quiet.refl _) whole (frame _)
  · rw [if_neg last]
    have enabled : v.adaptive.enabled = true := by
      by_contra off
      exact last (.inr (Bool.eq_false_iff.mpr off))
    exact framed_around quiet traced (measure_quiet _ o _ start)
      (measure_inv whole enabled (fun trying => absurd trying (resting enabled)) o _ start) (frame _)

/-- A trial pool that fails: exploration ends, and unless the frame is uncertain the
    best pool sharpens it. -/
theorem recover_framed {x : World R} {best trial : Nat} {status : Status} (again : Status) (quiet : Quiet w v) (whole : Inv x)
    (traced : x.trace = [.apply trial status] ++ v.trace) (same : x.best = w.best) (own : x.best = some best)
    (apart : w.best ≠ some trial) (bad : status ≠ .ok) : Framed w (recover x status again).1 (recover x status again).2 := by
  simp only [recover]
  by_cases uncertain : status = .outputUncertain
  · rw [if_pos uncertain]
    have retained : SamePools (stop x) { stop x with adaptive := { (stop x).adaptive with retained := true } } :=
      ⟨rfl,rfl,rfl,rfl,rfl,rfl,rfl,rfl⟩
    refine framed_around quiet traced ((stop_quiet _).trans retained.quiet) (retained.inv (stop_inv whole)) ?_
    have ended := stop_stopped x
    rw [uncertain]
    exact .uncertain apart ((stop_best _).trans same) ⟨ended.enabled,ended.stopped,ended.trial⟩ rfl
  · rw [if_neg uncertain]
    have failed : status = .failedUnchanged := by
      cases status with
      | ok => exact absurd rfl bad
      | failedUnchanged => rfl
      | outputUncertain => exact absurd rfl uncertain
    obtain ⟨events,stopped,nothing⟩ := stop_quiet x
    have kept : (stop x).best = some best := (stop_best _).trans own
    rw [kept]
    have middle : (poolApply (stop x) again (some best)).1.trace =
        (.apply best again :: (events ++ [.apply trial status])) ++ v.trace := by
      show .apply best again :: (stop x).trace = _
      simp [stopped,traced]
    refine framed_around quiet middle (Quiet.refl _) (poolApply_inv (stop_inv whole)) ?_
    have both : applied (.apply best again :: (events ++ [.apply trial status])) =
        [(best,again),(trial,.failedUnchanged)] := by
      rw [applied] at nothing ⊢
      simp [nothing,failed]
    rw [both]
    exact .recovered again (same.symm.trans own) apart

theorem applyTrial_framed {best trial : Nat} (inv : Inv v) (quiet : Quiet w v) (same : v.best = w.best)
    (own : v.best = some best) (running : v.adaptive.trial = some trial) (other : some trial ≠ v.best)
    (enabled : v.adaptive.enabled = true) (o : Outcome) (start : Option Timespec) :
    Framed w (applySelected v o (some trial) start).1 (applySelected v o (some trial) start).2 := by
  have whole : Inv (poolApply v o.selected (some trial)).1 := poolApply_inv inv
  have apart : w.best ≠ some trial := fun equal => other (same.trans equal).symm
  have traced : (poolApply v o.selected (some trial)).1.trace = [.apply trial o.selected] ++ v.trace := rfl
  have away : some trial ≠ (poolApply v o.selected (some trial)).1.best := other
  simp only [applySelected]
  by_cases ok : (poolApply v o.selected (some trial)).2 = .ok
  · rw [if_neg (fun ⟨bad,_⟩ => bad ok),if_neg (fun bad => ?_)]
    · refine framed_around quiet traced (measure_quiet _ o _ start) (measure_inv whole enabled (fun _ => ?_) o _ start) ?_
      · show v.adaptive.trial ≠ none
        simp [running]
      · have answered : o.selected = .ok := ok
        rw [answered]
        exact .trial apart
    · obtain bad | off := bad
      · exact bad ok
      · exact absurd (enabled.symm.trans off) (by decide)
  · rw [if_pos ⟨ok,away⟩]
    exact recover_framed o.recovered quiet whole traced same own apart ok

theorem applySelected_framed {selected : Option Nat} (chosen : Selected w v selected) (o : Outcome)
    (start : Option Timespec) :
    Framed w (applySelected v o selected start).1 (applySelected v o selected start).2 := by
  obtain ⟨best,found,_⟩ := chosen.inv.owned
  obtain ⟨rfl,resting⟩ | ⟨other,present,rfl,enabled⟩ := chosen.chosen
  · rw [found]
    exact applyBest_framed chosen.inv chosen.quiet chosen.best found resting o start
  · obtain ⟨trial,running⟩ := Option.ne_none_iff_exists'.mp present
    rw [running] at other ⊢
    exact applyTrial_framed chosen.inv chosen.quiet chosen.best found running other enabled o start

theorem apply_framed (inv : Inv w) (o : Outcome) : Framed w (apply w o).1 (apply w o).2 := by
  have plain : SamePools w { w with adaptive := { w.adaptive with retained := false } } :=
    ⟨rfl,rfl,rfl,rfl,rfl,rfl,rfl,rfl⟩
  have chosen := (choose_selected (plain.inv inv) o.create).before plain
  exact applySelected_framed (chosen.after (timing_same _ o.start)) o _

theorem frame_once {answers : List (Nat × Status)} (frame : Frame w v .ok answers) :
    answers.countP (fun answer => answer.2 = .ok) = 1 ∧
    ∀ answer ∈ answers, answer.2 = .ok ∨ answer.2 = .failedUnchanged := by
  cases frame <;> simp

/-- A trial pool that leaves a frame uncertain is the last pool to see it. -/
theorem frame_uncertain {answers : List (Nat × Status)} {status : Status} {trial : Nat}
    (frame : Frame w v status answers) (uncertain : (trial,.outputUncertain) ∈ answers) (other : w.best ≠ some trial) :
    (∀ answer ∈ answers, w.best ≠ some answer.1) ∧ status = .outputUncertain ∧ v.best = w.best ∧
    v.adaptive.retained = true ∧ Stopped v := by
  cases frame with
  | best status own =>
    obtain ⟨rfl,_⟩ : trial = _ ∧ _ := by simpa using uncertain
    exact absurd own other
  | trial apart => simp at uncertain
  | uncertain apart same stopped retained => exact ⟨by simpa using apart,rfl,same,retained,stopped⟩
  | recovered status own apart =>
    obtain ⟨rfl,_⟩ : trial = _ ∧ _ := by simpa using uncertain
    exact absurd own other

/-! ## Runs -/

theorem begin_same (w : World R) (clock : Option Timespec) : SamePools w (begin w clock) := by
  simp only [begin]
  split_ifs
  · exact ⟨rfl,rfl,rfl,rfl,rfl,rfl,rfl,rfl⟩
  · cases clock <;> exact ⟨rfl,rfl,rfl,rfl,rfl,rfl,rfl,rfl⟩

theorem step_inv {call : Call} (inv : Inv w) (stepped : step w call = some v) : Inv v := by
  cases call with
  | begin clock =>
    cases stepped
    exact (begin_same w clock).inv inv
  | apply o =>
    cases stepped
    exact (apply_framed inv o).1
  | stop =>
    cases stepped
    exact stop_inv inv

/-- Once exploration is over a frame is sharpened by the best pool and nothing
    else changes hands. -/
theorem apply_stopped (ended : Stopped w) (o : Outcome) :
    Stopped (apply w o).1 ∧ (apply w o).1.best = w.best ∧ (apply w o).1.next = w.next := by
  have chosen : apply w o =
      applySelected { w with adaptive := { w.adaptive with retained := false } } o w.best none := by
    simp only [apply,choose,timing,ended.enabled]
    simp
  have kept (plain : World R) (selected : Option Nat) : (poolApply plain o.selected selected).1.adaptive = plain.adaptive ∧
      (poolApply plain o.selected selected).1.best = plain.best ∧
      (poolApply plain o.selected selected).1.next = plain.next := by
    cases selected <;> exact ⟨rfl,rfl,rfl⟩
  obtain ⟨adaptive,best,next⟩ := kept { w with adaptive := { w.adaptive with retained := false } } w.best
  rw [chosen]
  simp only [applySelected]
  rw [if_neg (fun ⟨_,other⟩ => other best.symm),if_pos (.inr (by rw [adaptive]; exact ended.enabled))]
  exact ⟨⟨by rw [adaptive]; exact ended.enabled,by rw [adaptive]; exact ended.stopped,by rw [adaptive]; exact ended.trial⟩,
    best,next⟩

theorem step_stopped {call : Call} (ended : Stopped w) (stepped : step w call = some v) :
    Stopped v ∧ (v.best = w.best ∧ v.next = w.next) := by
  cases call with
  | begin clock =>
    cases stepped
    have same := begin_same w clock
    exact ⟨⟨same.enabled.trans ended.enabled,same.stopped.trans ended.stopped,same.trial.trans ended.trial⟩,same.best,same.next⟩
  | apply o =>
    cases stepped
    exact apply_stopped ended o
  | stop =>
    cases stepped
    exact ⟨stop_stopped w,stop_best w,(clearTrial_fields w).2.1⟩

/-- The end of the owner destroys every pool that was ever created. -/
theorem close_destroys (inv : Inv w) (pool : Nat) :
    creates (close w).trace pool ≤ 1 ∧ destroys (close w).trace pool = creates (close w).trace pool := by
  obtain ⟨best,found,ledger⟩ := (stop_inv inv).owned
  rw [(stop_stopped w).trial] at ledger
  have gone := ledger_destroy ledger List.mem_cons_self
  rw [Option.toList,List.erase_cons_head] at gone
  have traced : (close w).trace = .destroy best :: (stop w).trace := by
    simp only [close,found,poolDestroy]
  rw [traced,gone.created,gone.destroyed]
  split_ifs <;> simp_all

/-- Ownership of the pools over every sequence of calls: `*best` is live, no more
    than two pools are live at any time, every pool is destroyed exactly once by
    the end, a trial pool takes over with the count that the tuner chose, a frame
    that succeeds was sharpened once, and a frame whose trial pool left it
    uncertain is not touched again and ends exploration for good. -/
theorem adaptive_ownership (initial limit width height stripeRows : Int) {calls : List Call}
    (executed : run step (init (R := R) initial limit width height stripeRows) calls = some w) :
    (∃ best, w.best = some best ∧ best ∈ livePools w.trace) ∧
    (∀ past, past <:+ w.trace → (livePools past).length ≤ 2) ∧
    (∀ pool, creates (close w).trace pool ≤ 1 ∧ destroys (close w).trace pool = creates (close w).trace pool) ∧
    (∀ trial count best, .swap trial count best ∈ w.trace → trial ≠ none ∧ count = best) ∧
    (∀ o, ∃ events, (apply w o).1.trace = events ++ w.trace ∧
      ((apply w o).2 = .ok → (applied events).countP (fun answer => answer.2 = .ok) = 1 ∧
        ∀ answer ∈ applied events, answer.2 = .ok ∨ answer.2 = .failedUnchanged) ∧
      (∀ trial, (trial,.outputUncertain) ∈ applied events → w.best ≠ some trial →
        (∀ answer ∈ applied events, w.best ≠ some answer.1) ∧ (apply w o).2 = .outputUncertain ∧
        (apply w o).1.best = w.best ∧ (apply w o).1.adaptive.retained = true ∧
        ∀ later u, run step (apply w o).1 later = some u →
          u.adaptive.enabled = false ∧ u.adaptive.stopped = true ∧ u.adaptive.trial = none ∧
          u.best = w.best ∧ u.next = (apply w o).1.next)) := by
  have inv : Inv w := reachable_preserves (fun _ _ _ => step_inv) (init_inv initial limit width height stripeRows) ⟨calls,executed⟩
  obtain ⟨best,found,ledger⟩ := inv.owned
  refine ⟨⟨best,found,ledger.live.mem_iff.mpr List.mem_cons_self⟩,ledger.few,close_destroys inv,ledger.swaps,fun o => ?_⟩
  obtain ⟨_,events,traced,frame⟩ := apply_framed inv o
  refine ⟨events,traced,fun ok => frame_once (v := (apply w o).1) (ok ▸ frame),fun trial uncertain other => ?_⟩
  obtain ⟨answers,status,same,retained,ended⟩ := frame_uncertain frame uncertain other
  refine ⟨answers,status,same,retained,fun later u continued => ?_⟩
  obtain ⟨⟨enabled,stopped,trial⟩,keeps,next⟩ := run_relates (P := Stopped)
    (R := fun s t => t.best = s.best ∧ t.next = s.next) (fun _ => ⟨rfl,rfl⟩)
    (fun _ _ _ first second => ⟨second.1.trans first.1,second.2.trans first.2⟩) (fun _ _ _ => step_stopped) ended continued
  exact ⟨enabled,stopped,trial,keeps.trans same,next⟩

/-- Two workers score a window of 64 frames after 2 of warm-up; the trial of one
    worker then leaves its first frame uncertain. -/
def uncertainTrial : List Call :=
  let timed (status : Status) (threads : Int) : Outcome := ⟨true,status,.ok,threads,some ⟨0,0⟩,some ⟨1,0⟩⟩
  List.replicate 66 (.apply (timed .ok 2)) ++ [.apply (timed .outputUncertain 1)]

theorem adaptive_ownership_uncertain : ∃ w, run step (init (R := ℚ) 2 4 64 64 0) uncertainTrial = some w ∧
    w.adaptive.retained = true ∧ creates w.trace 1 = 1 ∧
    ∀ pool, destroys (close w).trace pool = creates (close w).trace pool := by
  obtain ⟨w,executed⟩ := Option.isSome_iff_exists.mp
    (by decide +kernel : (run step (init (R := ℚ) 2 4 64 64 0) uncertainTrial).isSome = true)
  have retained : w.adaptive.retained = true := Runs.run_value (fun w => w.adaptive.retained) executed (by decide +kernel)
  have created : creates w.trace 1 = 1 := Runs.run_value (fun w => creates w.trace 1) executed (by decide +kernel)
  obtain ⟨_,_,balanced,_⟩ := adaptive_ownership 2 4 64 64 0 executed
  exact ⟨w,executed,retained,created,fun pool => (balanced pool).2⟩

end AutoUpscale.UsmAdaptive
