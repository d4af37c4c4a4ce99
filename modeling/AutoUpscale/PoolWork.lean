import AutoUpscale.Footprint
import AutoUpscale.GateFaultFree

/-!
A started pool at work: the gate of `pool_gate.h` and `worker_pool.h` together with what
its workers do inside `ops->run`. The operations of the callbacks on the memory interleave
with each other and with every step of the gate, and the owner uses the memory between two
calls. However that goes and whatever fails, a dispatch is an interleaving of callbacks that
each begin once, on the memory as the owner gave it (`dispatch_refines`), and no thread waits
for ever (`dispatch_progresses`).
-/
namespace AutoUpscale.PoolWork
open AutoUpscale.Footprint (advance advance_iff)
open AutoUpscale.Gate (Call FaultInv GateInv MainMove MainPc WorkerPc)
open AutoUpscale.Runs
variable {p n : Nat} {σ α β : Type}

/-! ## States -/

/-- What `ops->run` does: the operations of the callback of each slot, and whether it has
    returned. -/
structure Callbacks (p : Nat) (σ α β : Type) where
  step : Fin p → σ → (α → β) → Option (σ × (α → β))
  returned : σ → Bool

/-- The pool, the memory, what the owner has put into the slots, and how far the callbacks
    have come. The last two fields are history: the memory as the owner gave it to its last
    call, and the dispatches that were armed before that call. -/
structure State (p : Nat) (σ α β : Type) where
  gate : Gate.State p
  memory : α → β
  slots : Fin p → σ
  cursor : Fin p → σ
  given : α → β
  base : Nat

def initial (p n : Nat) (calls : List Call) (memory : α → β) (slots : Fin p → σ) : State p σ α β :=
  ⟨Gate.initial p n calls,memory,slots,slots,memory,0⟩

/-- The owner's last call has returned. -/
def resting : MainPc → Bool
  | .idle _ => true
  | _ => false

/-! ## Steps -/

inductive Action (p : Nat) (σ α β : Type)
  /-- The owner has the memory to itself, leaves it and the slots like this, and makes its next call. -/
  | call (memory : α → β) (slots : Fin p → σ)
  | gate (a : Gate.Action p)
  /-- An operation of a callback. -/
  | work (i : Fin p)

/-- A callback begins with what its slot holds. -/
def begun (s : State p σ α β) (g : Gate.State p) (i : Fin p) : σ :=
  if (s.gate.workers i).pc ≠ .run ∧ (g.workers i).pc = .run then s.slots i else s.cursor i

/-- A worker leaves `ops->run` once its callback has returned. -/
def leavable (w : Callbacks p σ α β) (s : State p σ α β) (g : Gate.State p) : Prop :=
  ∀ i, (s.gate.workers i).pc = .run → (g.workers i).pc = .run ∨ w.returned (s.cursor i) = true

instance (w : Callbacks p σ α β) (s : State p σ α β) (g : Gate.State p) : Decidable (leavable w s g) :=
  inferInstanceAs (Decidable (∀ i, (s.gate.workers i).pc = .run → (g.workers i).pc = .run ∨ w.returned (s.cursor i) = true))

def step (w : Callbacks p σ α β) (s : State p σ α β) : Action p σ α β → Option (State p σ α β)
  | .call memory slots =>
    if resting s.gate.main then (Gate.step s.gate (.main .ok)).map fun g => ⟨g,memory,slots,s.cursor,memory,s.gate.round⟩
    else none
  | .gate a =>
    match a, resting s.gate.main with
    | .main _, true => none
    | a, _ => (Gate.step s.gate a).bind fun g =>
      if leavable w s g then some { s with gate := g, cursor := begun s g } else none
  | .work i =>
    if (s.gate.workers i).pc = .run then
      (advance w.step ⟨s.memory,s.cursor⟩ i).map fun t => { s with memory := t.memory, cursor := t.cursor }
    else none

variable {w : Callbacks p σ α β} {s t : State p σ α β}

theorem call_iff {memory : α → β} {slots : Fin p → σ} : step w s (.call memory slots) = some t ↔ resting s.gate.main = true ∧
    ∃ g, Gate.step s.gate (.main .ok) = some g ∧ t = ⟨g,memory,slots,s.cursor,memory,s.gate.round⟩ := by
  simp only [step,Option.ite_none_right_eq_some,Option.map_eq_some_iff,eq_comm (b := t)]

theorem gate_iff {a : Gate.Action p} : step w s (.gate a) = some t ↔ (∀ outcome, a = .main outcome → resting s.gate.main = false) ∧
    ∃ g, Gate.step s.gate a = some g ∧ leavable w s g ∧ t = { s with gate := g, cursor := begun s g } := by
  have rest : ((Gate.step s.gate a).bind fun g => if leavable w s g then some { s with gate := g, cursor := begun s g } else none) =
      some t ↔ ∃ g, Gate.step s.gate a = some g ∧ leavable w s g ∧ t = { s with gate := g, cursor := begun s g } := by
    simp only [Option.bind_eq_some_iff,Option.ite_none_right_eq_some,Option.some.injEq,eq_comm (b := t)]
  cases a <;> cases at_rest : resting s.gate.main <;> simp [step,at_rest,rest]

theorem work_iff {i : Fin p} : step w s (.work i) = some t ↔ (s.gate.workers i).pc = .run ∧
    ∃ c m, w.step i (s.cursor i) s.memory = some (c,m) ∧ t = { s with memory := m, cursor := Function.update s.cursor i c } := by
  simp only [step,Option.ite_none_right_eq_some,Option.map_eq_some_iff]
  constructor
  · rintro ⟨inside,u,moved,rfl⟩
    obtain ⟨c,m,stepped,rfl⟩ := advance_iff.mp moved
    exact ⟨inside,c,m,stepped,rfl⟩
  · rintro ⟨inside,c,m,stepped,rfl⟩
    exact ⟨inside,_,advance_iff.mpr ⟨c,m,stepped,rfl⟩,rfl⟩

/-! ## What a step of the gate means for the callbacks -/

section Gate
variable {g h : Gate.State p} {i : Fin p}

/-- While a worker owes its dispatch, the dispatch is in progress. -/
theorem owes_busy (inv : GateInv g) (owes : (g.workers i).pc.owes = true) : g.main.quiet = false := by
  by_contra quiet
  have settled := inv.rounds.quiet (by simpa using quiet) i (Gate.owes_live owes)
  rw [owes] at settled
  exact absurd settled.2 (by simp)

/-- A worker inside `ops->run` has entered it for the last dispatch and not left it. -/
theorem running_logs (inv : GateInv g) (running : (g.workers i).pc = .run) :
    g.round ∈ (g.workers i).ran ∧ g.round ∉ (g.workers i).completed := by
  have seen := inv.rounds.owes i (by rw [running]; rfl)
  have positive := (inv.logs i).taken (.inr running)
  rw [(inv.logs i).ran,(inv.logs i).completed,Gate.mem_downTo,Gate.mem_downTo]
  simp only [Gate.Worker.entered,Gate.Worker.left,running,or_true,if_true,reduceCtorEq,if_false]
  omega

/-- A worker that is about to enter `ops->run` has not entered it for the last dispatch. -/
theorem entering_logs (inv : GateInv g) (taken : (g.workers i).pc = .unlock .run) : g.round ∉ (g.workers i).ran := by
  have seen := inv.rounds.owes i (by rw [taken]; rfl)
  have positive := (inv.logs i).taken (.inl taken)
  rw [(inv.logs i).ran,Gate.mem_downTo]
  simp only [Gate.Worker.entered,taken,if_true]
  omega

/-- No dispatch was run before it was armed. -/
theorem logs_bound (inv : GateInv g) {k : Nat} (later : g.round < k) :
    k ∉ (g.workers i).ran ∧ k ∉ (g.workers i).completed := by
  have bound := inv.rounds.bound i
  rw [(inv.logs i).ran,(inv.logs i).completed,Gate.mem_downTo,Gate.mem_downTo]
  simp only [Gate.Worker.entered,Gate.Worker.left]
  constructor <;> split <;> omega

/-- Outside `ops->run` and the step before it, a worker has left what it has entered. -/
theorem resting_logs (inv : GateInv g) (quiet : g.main.quiet = true) : (g.workers i).ran = (g.workers i).completed := by
  have outside : (g.workers i).pc.owes = false := by
    by_contra owes
    rw [owes_busy inv (by simpa using owes)] at quiet
    exact absurd quiet (by simp)
  obtain ⟨ran,completed⟩ := (Gate.logInv_idle outside).mp (inv.logs i)
  rw [ran,completed]

/-- Once the barrier has found no worker pending, all have left the last dispatch. -/
theorem finished_logs (inv : GateInv g) (finished : g.main.finished = true) (inside : i.val < g.nWorkers) (positive : 0 < g.round) :
    g.round ∈ (g.workers i).completed := by
  have elsewhere : g.main ≠ .bump := by
    intro at_bump
    rw [at_bump] at finished
    exact absurd finished (by simp [MainPc.finished])
  have nobody : Gate.owing g = ∅ := by
    have count := inv.rounds.pending elsewhere
    rw [inv.rounds.final finished] at count
    exact Finset.card_eq_zero.mp (by exact_mod_cast count.symm)
  have settled : ¬ Gate.Owing g i := by
    intro owing
    have member : i ∈ Gate.owing g := Finset.mem_filter.mpr ⟨Finset.mem_univ i,owing⟩
    rw [nobody] at member
    exact absurd member (Finset.notMem_empty i)
  rw [Gate.Owing,not_and] at settled
  obtain ⟨outside,seen⟩ := not_or.mp (settled inside)
  obtain ⟨-,completed⟩ := (Gate.logInv_idle (by simpa using outside)).mp (inv.logs i)
  rw [completed,Gate.mem_downTo]
  omega

/-- How the dispatching thread comes to arm a dispatch, to wait for it and to return. -/
structure Course (g h : Gate.State p) : Prop where
  unarmed : h.main.unarmed = true → g.main.unarmed = true ∧ h.round = g.round ∨ resting g.main = true
  busy : h.main.quiet = false → g.main.quiet = false ∧ h.round = g.round ∨ g.main = .bump ∧ h.round = g.round + 1
  done : h.main = .idle (some .done) → g.main = .finalFailed ∧ h.round = g.round

theorem main_course {outcome : Gate.Outcome} (move : MainMove g outcome h) : Course g h := by
  refine ⟨fun unarmed => ?_,fun busy => ?_,fun done => ?_⟩
  · cases move with
    | @unlock caster | @castFailed caster => cases caster <;> simp_all [MainPc.unarmed,Gate.Caster.sent,Gate.Caster.lost]
    | _ => simp_all [MainPc.unarmed,resting]
  · cases move.rule with
    | inner quiet _ _ _ round _ => exact .inl ⟨quiet.symm.trans busy,round⟩
    | arm _ after _ _ _ | done _ after _ _ _ | failed _ _ after _ _ _ => rw [after] at busy; exact absurd busy (by simp [MainPc.quiet])
    | bump before _ _ round _ => exact .inr ⟨before,round⟩
  · cases move with
    | @unlock caster | @castFailed caster => cases caster <;> simp_all [Gate.Caster.sent,Gate.Caster.lost]
    | @stopped why | @awaited why => cases why <;> simp_all [Gate.Recovery.returns]
    | _ => simp_all

end Gate

/-! ## The invariant -/

/-- The worker has entered `ops->run` since the owner's last call. -/
def State.Begun (s : State p σ α β) (i : Fin p) : Prop := s.base + 1 ∈ (s.gate.workers i).ran

/-- It has also left it. -/
def State.Ended (s : State p σ α β) (i : Fin p) : Prop := s.base + 1 ∈ (s.gate.workers i).completed

instance (s : State p σ α β) : DecidablePred s.Begun := fun i => inferInstanceAs (Decidable (s.base + 1 ∈ (s.gate.workers i).ran))

/-- How far the callbacks have come since that call. -/
def State.reached (s : State p σ α β) (i : Fin p) : σ := if s.Begun i then s.cursor i else s.slots i

theorem reached_begun {i : Fin p} (begun : s.Begun i) : s.reached i = s.cursor i := if_pos begun

theorem reached_fresh {i : Fin p} (fresh : ¬ s.Begun i) : s.reached i = s.slots i := if_neg fresh

theorem reached_same {i : Fin p} (begun : t.Begun i ↔ s.Begun i) (cursor : t.cursor i = s.cursor i) (slots : t.slots i = s.slots i) :
    t.reached i = s.reached i := by
  by_cases entered : s.Begun i
  · rw [reached_begun entered,reached_begun (begun.mpr entered),cursor]
  · rw [reached_fresh entered,reached_fresh (begun.not.mpr entered),slots]

/-- The memory is what an interleaving of callbacks, each from its slot on, makes of the
    memory as the owner gave it. -/
def Woven (w : Callbacks p σ α β) (s : State p σ α β) : Prop := ∃ schedule, (∀ i ∈ schedule, i.val < s.gate.nWorkers) ∧
  run (advance w.step) ⟨s.given,s.slots⟩ schedule = some ⟨s.memory,s.reached⟩

structure Inv (w : Callbacks p σ α β) (s : State p σ α β) : Prop where
  fault : FaultInv s.gate
  unarmed : s.gate.main.unarmed = true → s.gate.round = s.base
  busy : s.gate.main.quiet = false → s.gate.round = s.base + 1
  woven : Woven w s
  ended : ∀ i, s.Ended i → w.returned (s.cursor i) = true
  done : s.gate.main = .idle (some .done) → ∀ i, i.val < s.gate.nWorkers → s.Ended i

theorem inv_initial (fits : n ≤ p) (calls : List Call) (memory : α → β) (slots : Fin p → σ) :
    Inv w (initial p n calls memory slots) := by
  have fault : FaultInv (Gate.initial p n calls) := ⟨Gate.gateInv_initial fits calls,Gate.fateInv_initial n calls⟩
  refine ⟨fault,fun _ => rfl,fun busy => absurd busy (by simp [initial,Gate.initial,MainPc.quiet]),⟨[],by simp,?_⟩,fun i ceased => ?_,
    fun back => absurd back (by simp [initial,Gate.initial])⟩
  · have same : (initial p n calls memory slots).reached = slots := funext fun i => ite_self _
    rw [same]
    rfl
  · exact absurd ceased (logs_bound fault.1 (Nat.lt_succ_self 0)).2

theorem inv_call {memory : α → β} {slots : Fin p → σ} (inv : Inv w s) (stepped : step w s (.call memory slots) = some t) : Inv w t := by
  obtain ⟨at_rest,g,moved,rfl⟩ := call_iff.mp stepped
  have fault := Gate.faultInv_step inv.fault moved
  obtain ⟨last,idle⟩ : ∃ last, s.gate.main = .idle last := by
    cases pc : s.gate.main <;> simp_all [resting]
  have round : g.round = s.gate.round := by
    cases (Gate.mainStep_moves moved).rule with
    | bump before | arm before | done before => rw [idle] at before; cases before
    | inner _ _ _ _ round _ | failed _ _ _ _ round _ => exact round
  have fresh (i : Fin p) := logs_bound (i := i) fault.1 (k := s.gate.round + 1) (by omega)
  refine ⟨fault,fun _ => round,fun busy => ?_,⟨[],by simp,?_⟩,fun i ceased => absurd ceased (fresh i).2,fun back => ?_⟩
  · rcases (main_course (Gate.mainStep_moves moved)).busy busy with ⟨before,_⟩ | ⟨before,_⟩
    · rw [idle] at before
      exact absurd before (by simp [MainPc.quiet])
    · rw [idle] at before
      cases before
  · have same : State.reached ⟨g,memory,slots,s.cursor,memory,s.gate.round⟩ = slots := funext fun i => if_neg (fresh i).1
    rw [same]
    rfl
  · have before := ((main_course (Gate.mainStep_moves moved)).done back).1
    rw [idle] at before
    cases before

/-- A worker that goes on as far as its callback is concerned. -/
structure Onward (w : Callbacks p σ α β) (s t : State p σ α β) (i : Fin p) : Prop where
  reached : t.reached i = s.reached i
  ended : t.Ended i → w.returned (t.cursor i) = true
  still : s.Ended i → t.Ended i

section Onward
variable {g : Gate.State p} {i : Fin p}

/-- A worker that neither enters nor leaves `ops->run`. -/
theorem onward_same (inv : Inv w s) (ran : (g.workers i).ran = (s.gate.workers i).ran)
    (completed : (g.workers i).completed = (s.gate.workers i).completed)
    (outside : (g.workers i).pc = .run → (s.gate.workers i).pc = .run) :
    Onward w s { s with gate := g, cursor := begun s g } i := by
  have cursor : begun s g i = s.cursor i := if_neg fun both => both.1 (outside both.2)
  refine ⟨reached_same (by simp only [State.Begun,ran]) cursor rfl,fun ceased => ?_,fun ceased => ?_⟩
  · simp only [State.Ended,completed] at ceased
    exact (congrArg w.returned cursor).trans (inv.ended i ceased)
  · simp only [State.Ended,completed]
    exact ceased

theorem onward_kept (inv : Inv w s) (kept : Gate.Kept (s.gate.workers i) (g.workers i)) :
    Onward w s { s with gate := g, cursor := begun s g } i :=
  onward_same inv kept.same.ran kept.same.completed (kept.at_iff (by simp)).mp

theorem onward_rule (inv : Inv w s) (leaves : leavable w s g) (rule : Gate.WorkerRule s.gate g i) :
    Onward w s { s with gate := g, cursor := begun s g } i := by
  cases rule with
  | inner same idle pending =>
    refine onward_same inv same.ran same.completed fun running => ?_
    rw [running] at idle
    exact absurd idle.2 (by simp [WorkerPc.owes])
  | take before worker pending => exact onward_same inv (by rw [worker]) (by rw [worker]) (by simp [worker])
  | enter before worker pending =>
    have round := inv.busy (owes_busy inv.fault.1 (by rw [before]; rfl))
    have fresh := entering_logs inv.fault.1 before
    rw [round] at fresh
    have cursor : begun s g i = s.slots i := if_pos ⟨by simp [before],by simp [worker]⟩
    refine ⟨?_,fun ceased => ?_,fun ceased => ?_⟩
    · have after : s.base + 1 ∈ (g.workers i).ran := by simp [worker,round]
      exact (if_pos after).trans (cursor.trans (reached_fresh fresh).symm)
    · have early : s.base + 1 ∈ (s.gate.workers i).completed := by simpa [State.Ended,worker] using ceased
      rw [(inv.fault.1.logs i).completed,Gate.mem_downTo] at early
      rw [(inv.fault.1.logs i).ran,Gate.mem_downTo] at fresh
      simp only [Gate.Worker.entered,Gate.Worker.left,before,true_or,if_true] at early fresh
      exact absurd early fresh
    · simpa [State.Ended,worker] using ceased
  | leave before worker pending =>
    have returned := (leaves i before).resolve_left (by simp [worker])
    have cursor : begun s g i = s.cursor i := if_neg (by simp [before])
    refine ⟨reached_same (by simp only [State.Begun,worker]) cursor rfl,fun _ => (congrArg w.returned cursor).trans returned,
      fun ceased => ?_⟩
    · simp only [State.Ended,worker]
      exact List.mem_cons_of_mem _ ceased
  | count before same after pending =>
    refine onward_same inv same.ran same.completed fun running => ?_
    rw [running] at after
    exact absurd after (by simp [WorkerPc.owes])

end Onward

/-- The callbacks are woven as before where each goes on. -/
theorem woven_onward {g : Gate.State p} (inv : Inv w s) (nWorkers : g.nWorkers = s.gate.nWorkers)
    (onward : ∀ i, Onward w s { s with gate := g, cursor := begun s g } i) :
    Woven w { s with gate := g, cursor := begun s g } := by
  obtain ⟨schedule,inside,executed⟩ := inv.woven
  have same : State.reached { s with gate := g, cursor := begun s g } = s.reached := funext fun i => (onward i).reached
  refine ⟨schedule,fun i member => ?_,?_⟩
  · show i.val < g.nWorkers
    rw [nWorkers]
    exact inside i member
  · rw [same]
    exact executed

theorem inv_gate {a : Gate.Action p} (inv : Inv w s) (stepped : step w s (.gate a) = some t) : Inv w t := by
  obtain ⟨elsewhere,g,moved,leaves,rfl⟩ := gate_iff.mp stepped
  have fault := Gate.faultInv_step inv.fault moved
  have nWorkers := Gate.nWorkers_step moved
  -- A step of a worker, or a wake-up, leaves the dispatch where it is.
  have beside (main : g.main = s.gate.main ∨ g.main = s.gate.main.signal) (round : g.round = s.gate.round)
      (onward : ∀ i, Onward w s { s with gate := g, cursor := begun s g } i) :
      Inv w { s with gate := g, cursor := begun s g } := by
    refine ⟨fault,fun unarmed => ?_,fun busy => ?_,woven_onward inv nWorkers onward,fun i => (onward i).ended,fun back i inside => ?_⟩
    · refine round.trans (inv.unarmed ?_)
      rcases main with same | same <;> simpa [same] using unarmed
    · refine round.trans (inv.busy ?_)
      rcases main with same | same <;> simpa [same] using busy
    · refine (onward i).still (inv.done ?_ i (nWorkers ▸ inside))
      exact Gate.signalled_main (by simp) main back
  have moves {i : Fin p} {outcome : Option Gate.Outcome} (move : Gate.WorkerMove s.gate i outcome g) :
      Inv w { s with gate := g, cursor := begun s g } := by
    refine beside move.moved.main move.moved.round fun j => ?_
    by_cases own : j = i
    · exact own ▸ onward_rule inv leaves move.rule
    · exact onward_kept inv (by rw [move.moved.others j own]; exact Gate.kept_refl _)
  cases a with
  | main outcome =>
    have move := Gate.mainStep_moves moved
    have course := main_course move
    have onward := fun i => onward_kept inv (move.moved.workers i)
    refine ⟨fault,fun unarmed => ?_,fun busy => ?_,woven_onward inv nWorkers onward,fun i => (onward i).ended,fun back i inside => ?_⟩
    · obtain ⟨before,round⟩ := (course.unarmed unarmed).resolve_right (by simp [elsewhere outcome rfl])
      exact round.trans (inv.unarmed before)
    · rcases course.busy busy with ⟨before,round⟩ | ⟨before,round⟩
      · exact round.trans (inv.busy before)
      · rw [round,inv.unarmed (by rw [before]; rfl)]
    · obtain ⟨before,-⟩ := course.done back
      have round := inv.busy (by rw [before]; rfl)
      have ceased := finished_logs inv.fault.1 (by rw [before]; rfl) (nWorkers ▸ inside) (by omega)
      rw [round] at ceased
      exact (onward i).still ceased
  | worker i outcome => exact moves (Gate.workerStep_moves moved)
  | cancelled i => exact moves (Gate.cancelledStep_moves moved)
  | wake i =>
    have woken := Gate.wake_woken moved
    exact beside woken.main woken.round fun j => onward_kept inv (woken.workers j)
  | wakeMain =>
    have woken := Gate.wakeMain_woken moved
    exact beside woken.main woken.round fun j => onward_kept inv (woken.workers j)

theorem inv_work {i : Fin p} (inv : Inv w s) (stepped : step w s (.work i) = some t) : Inv w t := by
  obtain ⟨running,c,m,moved,rfl⟩ := work_iff.mp stepped
  have round := inv.busy (owes_busy inv.fault.1 (by rw [running]; rfl))
  obtain ⟨begun,unended⟩ := running_logs inv.fault.1 running
  rw [round] at begun unended
  have inside : i.val < s.gate.nWorkers := by
    by_contra outside
    have absent := (inv.fault.1.stop.present i).mpr (by omega)
    rw [running] at absent
    cases absent
  have others : ∀ j, j ≠ i → Function.update s.cursor i c j = s.cursor j := fun j other => Function.update_of_ne other ..
  obtain ⟨schedule,members,executed⟩ := inv.woven
  refine ⟨inv.fault,inv.unarmed,inv.busy,⟨schedule ++ [i],?_,?_⟩,fun j ceased => ?_,inv.done⟩
  · intro j member
    rcases List.mem_append.mp member with earlier | last
    · exact members j earlier
    · rw [List.mem_singleton.mp last]
      exact inside
  · refine run_append_iff.mpr ⟨_,executed,run_cons_iff.mpr ⟨_,advance_iff.mpr ⟨c,m,?_,rfl⟩,?_⟩⟩
    · exact (congrArg (w.step i · s.memory) (reached_begun begun)).trans moved
    · refine congrArg some (congrArg (Footprint.State.mk m) (funext fun j => ?_))
      by_cases own : j = i
      · subst own
        rw [Function.update_self]
        exact ((if_pos begun).trans (Function.update_self j c s.cursor)).symm
      · rw [Function.update_of_ne own]
        exact (reached_same (s := s) (t := { s with memory := m, cursor := Function.update s.cursor i c }) Iff.rfl
          (others j own) rfl).symm
  · by_cases own : j = i
    · subst own
      exact absurd ceased unended
    · exact (congrArg w.returned (others j own)).trans (inv.ended j ceased)

theorem inv_step {a : Action p σ α β} (inv : Inv w s) (stepped : step w s a = some t) : Inv w t := by
  cases a with
  | call memory slots => exact inv_call inv stepped
  | gate a => exact inv_gate inv stepped
  | work i => exact inv_work inv stepped

/-! ## Every run -/

/-- The gate goes its own way: every run of the pool at work is one of the gate. -/
theorem gate_run {actions : List (Action p σ α β)} (executed : run (step w) s actions = some t) :
    ∃ steps, run Gate.step s.gate steps = some t.gate ∧ ∀ a ∈ steps, a = .main .ok ∨ .gate a ∈ actions := by
  induction actions generalizing s with
  | nil =>
    cases executed
    exact ⟨[],rfl,by simp⟩
  | cons a rest ih =>
    obtain ⟨u,first,tail⟩ := run_cons_iff.mp executed
    obtain ⟨steps,later,allowed⟩ := ih tail
    cases a with
    | call memory slots =>
      obtain ⟨-,g,moved,rfl⟩ := call_iff.mp first
      refine ⟨_,run_cons_iff.mpr ⟨g,moved,later⟩,fun b member => ?_⟩
      rcases List.mem_cons.mp member with rfl | member
      · exact .inl rfl
      · exact (allowed b member).imp_right (List.mem_cons_of_mem _)
    | gate a =>
      obtain ⟨-,g,moved,-,rfl⟩ := gate_iff.mp first
      refine ⟨_,run_cons_iff.mpr ⟨g,moved,later⟩,fun b member => ?_⟩
      rcases List.mem_cons.mp member with rfl | member
      · exact .inr List.mem_cons_self
      · exact (allowed b member).imp_right (List.mem_cons_of_mem _)
    | work i =>
      obtain ⟨-,c,m,-,rfl⟩ := work_iff.mp first
      exact ⟨steps,later,fun b member => (allowed b member).imp_right (List.mem_cons_of_mem _)⟩

/-- Some run from the start of a pool of `n` workers leads to the state. -/
def Reached (w : Callbacks p σ α β) (n : Nat) (s : State p σ α β) : Prop :=
  ∃ calls memory slots, Reachable (step w) (initial p n calls memory slots) s

theorem reached_run {actions : List (Action p σ α β)} (reached : Reached w n s) (executed : run (step w) s actions = some t) :
    Reached w n t := by
  obtain ⟨calls,memory,slots,before,earlier⟩ := reached
  exact ⟨calls,memory,slots,before ++ actions,run_append_iff.mpr ⟨s,earlier,executed⟩⟩

theorem reached_inv (fits : n ≤ p) (reached : Reached w n s) : Inv w s := by
  obtain ⟨calls,memory,slots,start⟩ := reached
  exact reachable_preserves (fun _ _ _ => inv_step) (inv_initial fits calls memory slots) start

theorem reached_gate (reached : Reached w n s) : ∃ calls steps, run Gate.step (Gate.initial p n calls) steps = some s.gate := by
  obtain ⟨calls,memory,slots,actions,executed⟩ := reached
  obtain ⟨steps,gates,-⟩ := gate_run executed
  exact ⟨calls,steps,gates⟩

theorem reached_workers (reached : Reached w n s) : s.gate.nWorkers = n := by
  obtain ⟨calls,steps,gates⟩ := reached_gate reached
  exact Gate.nWorkers_run gates

theorem reached_woven (fits : n ≤ p) (reached : Reached w n s) : ∃ schedule, (∀ i ∈ schedule, i.val < n) ∧
    run (advance w.step) ⟨s.given,s.slots⟩ schedule = some ⟨s.memory,s.reached⟩ := by
  obtain ⟨schedule,inside,woven⟩ := (reached_inv fits reached).woven
  exact ⟨schedule,fun i member => reached_workers reached ▸ inside i member,woven⟩

theorem quiescent_still (quiescent : s.gate.quiescent) (i : Fin p) : step w s (.work i) = none :=
  if_neg (quiescent i)

section Returned
variable {last : Option Gate.Return} (fits : n ≤ p) (reached : Reached w n s)
include fits reached

/-- Between two calls no callback is at work. -/
theorem resting_still (back : s.gate.main = .idle last) (i : Fin p) : step w s (.work i) = none :=
  quiescent_still (Gate.quiescent_of_quiet (reached_inv fits reached).fault.1 (by rw [back]; rfl)) i

theorem begun_ended (back : s.gate.main = .idle last) (i : Fin p) : s.Begun i ↔ s.Ended i := by
  rw [State.Begun,State.Ended,resting_logs (reached_inv fits reached).fault.1 (by rw [back]; rfl)]

/-- The callbacks that have begun have returned by then. -/
theorem begun_returned (back : s.gate.main = .idle last) {i : Fin p} (begun : s.Begun i) : w.returned (s.reached i) = true := by
  rw [reached_begun begun]
  exact (reached_inv fits reached).ended i ((begun_ended fits reached back i).mp begun)

/-- A dispatch that returns 0 has begun all callbacks. -/
theorem done_begun (back : s.gate.main = .idle (some .done)) {i : Fin p} (inside : i.val < n) : s.Begun i :=
  (begun_ended fits reached back i).mpr ((reached_inv fits reached).done back i (reached_workers reached ▸ inside))

/-- Once a dispatch has returned -1 or the pool was poisoned, no callback does anything. -/
theorem faulty_still {r : Gate.Return} (back : s.gate.main = .idle (some r)) (faulty : r.faulty = true)
    {more : List (Action p σ α β)} (later : run (step w) s more = some t) (i : Fin p) : step w t (.work i) = none := by
  have fault := (reached_inv fits reached).fault
  have gone := (fault.2.returned r back faulty).2
  obtain ⟨further,after,-⟩ := gate_run later
  exact quiescent_still (Gate.doomed_neverAgain fault (.inl (Gate.dead_of_gone fault.1.stop gone)) further _ after).1 i

end Returned

/-- What a dispatch is to its owner, for any callbacks, any failing operations and any
    interleaving. At every moment the memory is what an interleaving of the callbacks makes
    of it as the owner gave it, each callback from its slot on and begun once at most.
    Between two calls no callback is at work, and those that have begun have returned. When
    a dispatch returns 0, the callbacks of all workers have begun. When it returns -1, or
    the pool was poisoned, no callback does anything ever again. -/
theorem dispatch_refines {calls : List Call} {memory : α → β} {slots : Fin p → σ} {actions : List (Action p σ α β)} (fits : n ≤ p)
    (executed : run (step w) (initial p n calls memory slots) actions = some s) :
    (∃ schedule, (∀ i ∈ schedule, i.val < n) ∧
      run (advance w.step) ⟨s.given,s.slots⟩ schedule = some ⟨s.memory,s.reached⟩) ∧
    (∀ last, s.gate.main = .idle last → (∀ i, step w s (.work i) = none) ∧ ∀ i, s.Begun i → w.returned (s.reached i) = true) ∧
    (s.gate.main = .idle (some .done) → ∀ i, i.val < n → s.Begun i) ∧
    (∀ r, s.gate.main = .idle (some r) → r.faulty = true →
      ∀ more t, run (step w) s more = some t → ∀ i, step w t (.work i) = none) := by
  have reached : Reached w n s := ⟨calls,memory,slots,actions,executed⟩
  refine ⟨reached_woven fits reached,fun last back => ⟨resting_still fits reached back,fun i => begun_returned fits reached back⟩,
    fun back i => done_begun fits reached back,fun r back faulty more t later => faulty_still fits reached back faulty later⟩

/-! ## One dispatch -/

/-- The owner makes no call. -/
def Action.inside : Action p σ α β → Bool
  | .call _ _ => false
  | _ => true

/-- `up_worker_pool_dispatch` of a started pool, from what its threads do `before` the call to
    its return; whether it returned 0. There is nothing where it has not returned. -/
def dispatchBy (w : Callbacks p σ α β) (s : State p σ α β) (before : List (Action p σ α β)) (memory : α → β) (slots : Fin p → σ)
    (after : List (Action p σ α β)) : Option (Bool × State p σ α β) :=
  if before.all Action.inside && after.all Action.inside then
    (run (step w) s (before ++ .call memory slots :: after)).bind fun t =>
      match t.gate.main with
      | .idle (some .done) => some (true,t)
      | .idle (some (.failed _ _)) => some (false,t)
      | _ => none
  else none

/-- What the owner has given is as it was. -/
theorem inside_given {actions : List (Action p σ α β)} (within : actions.all Action.inside = true)
    (executed : run (step w) s actions = some t) : t.given = s.given ∧ t.slots = s.slots := by
  have each : ∀ r a u, Action.inside a = true → (r.given = s.given ∧ r.slots = s.slots) → step w r a = some u →
      u.given = s.given ∧ u.slots = s.slots := by
    intro r a u beside same stepped
    cases a with
    | call memory slots => exact absurd beside (by simp [Action.inside])
    | gate a =>
      obtain ⟨-,g,-,-,rfl⟩ := gate_iff.mp stepped
      exact same
    | work i =>
      obtain ⟨-,c,m,-,rfl⟩ := work_iff.mp stepped
      exact same
  exact run_preserves each (fun a member => List.all_eq_true.mp within a member) ⟨rfl,rfl⟩ executed

/-- A dispatch that has returned: the callbacks were woven on the memory as it was given,
    each has returned or never begun, and all have begun where it returned 0. -/
structure Dispatched (w : Callbacks p σ α β) (n : Nat) (memory : α → β) (slots : Fin p → σ) (complete : Bool) (t : State p σ α β) :
    Prop where
  reached : Reached w n t
  back : ∃ r, t.gate.main = .idle (some r) ∧ (complete = false → r.faulty = true)
  woven : ∃ schedule, (∀ i ∈ schedule, i.val < n) ∧ run (advance w.step) ⟨memory,slots⟩ schedule = some ⟨t.memory,t.reached⟩
  returned : ∀ i, t.Begun i → w.returned (t.reached i) = true
  all : complete = true → ∀ i, i.val < n → t.Begun i

theorem dispatchBy_spec {before after : List (Action p σ α β)} {memory : α → β} {slots : Fin p → σ} {complete : Bool} (fits : n ≤ p)
    (reached : Reached w n s) (executed : dispatchBy w s before memory slots after = some (complete,t)) :
    Dispatched w n memory slots complete t := by
  rw [dispatchBy,Option.ite_none_right_eq_some,Bool.and_eq_true] at executed
  obtain ⟨⟨-,within⟩,executed⟩ := executed
  obtain ⟨u,whole,ends⟩ := Option.bind_eq_some_iff.mp executed
  obtain ⟨r,back,faulty,same,all⟩ : ∃ r, t.gate.main = .idle (some r) ∧ (complete = false → r.faulty = true) ∧ u = t ∧
      (complete = true → r = .done) := by
    split at ends
    · cases ends
      exact ⟨_,‹_›,by simp,rfl,fun _ => rfl⟩
    · cases ends
      exact ⟨_,‹_›,fun _ => rfl,rfl,by simp⟩
    · cases ends
  subst same
  have there : Reached w n u := reached_run reached whole
  obtain ⟨v,-,rest⟩ := run_append_iff.mp whole
  obtain ⟨v',called,tail⟩ := run_cons_iff.mp rest
  obtain ⟨-,g,-,rfl⟩ := call_iff.mp called
  obtain ⟨given,loaded⟩ := inside_given within tail
  have woven := reached_woven fits there
  rw [given,loaded] at woven
  exact ⟨there,⟨r,back,faulty⟩,woven,fun i => begun_returned fits there back,
    fun whole i => done_begun fits there (all whole ▸ back)⟩

/-- Callbacks that store a number into the cell of their slot. -/
def storing : Callbacks 2 Bool (Fin 2) Nat where
  step i ceased m := if ceased then none else some (true,Function.update m i (i.val + 1))
  returned ceased := ceased

/-- A dispatch of two callbacks, the second one of which is at work first. -/
def storingRun : List (Action 2 Bool (Fin 2) Nat) :=
  [.gate (.worker 0 .ok),.gate (.worker 1 .ok),.call (fun _ => 0) fun _ => false] ++ List.replicate 11 (.gate (.main .ok)) ++
    List.replicate 6 (.gate (.worker 0 .ok)) ++ List.replicate 6 (.gate (.worker 1 .ok)) ++ [.work 1,.work 0] ++
    List.replicate 2 (.gate (.worker 0 .ok)) ++ List.replicate 5 (.gate (.worker 1 .ok)) ++ List.replicate 6 (.gate (.main .ok))

theorem dispatch_refines_storing : ∃ s schedule, run (step storing) (initial 2 2 [.dispatch] (fun _ => 9) fun _ => true) storingRun = some s ∧
    s.gate.main = .idle (some .done) ∧
    run (advance storing.step) ⟨fun _ => 0,fun _ => false⟩ schedule = some ⟨s.memory,s.reached⟩ ∧ ∀ i, s.reached i = true := by
  obtain ⟨s,executed⟩ := Option.isSome_iff_exists.mp (by decide +kernel :
    (run (step storing) (initial 2 2 [.dispatch] (fun _ => 9) fun _ => true) storingRun).isSome = true)
  have back : s.gate.main = .idle (some .done) := run_value (fun s => s.gate.main) executed (by decide +kernel)
  have given : s.given = fun _ => 0 := run_value State.given executed (by decide +kernel)
  have slots : s.slots = fun _ => false := run_value State.slots executed (by decide +kernel)
  obtain ⟨⟨schedule,-,woven⟩,still,all,-⟩ := dispatch_refines (by decide) executed
  rw [given,slots] at woven
  exact ⟨s,schedule,executed,back,woven,fun i => (still _ back).2 i (all back i i.isLt)⟩

/-! ## Progress -/

section Progress
variable (live : ∀ i c m, w.returned c = false → ∃ c' m', w.step i c m = some (c',m'))
include live

/-- A worker whose thread can go on goes on, or its callback does. -/
theorem worker_onward {i : Fin p} {g : Gate.State p} (moved : Gate.step s.gate (.worker i .ok) = some g) :
    step w s (.gate (.worker i .ok)) ≠ none ∨ step w s (.work i) ≠ none := by
  by_cases working : (s.gate.workers i).pc = .run ∧ w.returned (s.cursor i) = false
  · obtain ⟨c,m,stepped⟩ := live i (s.cursor i) s.memory working.2
    exact .inr (by rw [work_iff.mpr ⟨working.1,c,m,stepped,rfl⟩]; simp)
  · have leaves : leavable w s g := by
      intro j running
      by_cases own : j = i
      · subst own
        exact .inr (by simpa [running] using working)
      · exact .inl (by rw [(Gate.workerStep_moves moved).moved.others j own]; exact running)
    exact .inl (by rw [gate_iff.mpr ⟨by simp,g,moved,leaves,rfl⟩]; simp)

omit live in
/-- Where the dispatching thread can go on, it does, or its owner makes the next call. -/
theorem main_onward {g : Gate.State p} (moved : Gate.step s.gate (.main .ok) = some g) :
    step w s (.gate (.main .ok)) ≠ none ∨ ∀ memory slots, step w s (.call memory slots) ≠ none := by
  cases at_rest : resting s.gate.main with
  | true => exact .inr fun memory slots => by rw [call_iff.mpr ⟨at_rest,g,moved,rfl⟩]; simp
  | false =>
    have leaves : leavable w s g := fun j running =>
      .inl (((Gate.mainStep_moves moved).moved.workers j).at_iff (by simp) |>.mpr running)
    exact .inl (by rw [gate_iff.mpr ⟨fun _ _ => at_rest,g,moved,leaves,rfl⟩]; simp)

/-- Without a fault no thread waits for ever, as long as the callbacks do not: until the
    owner has stopped the pool and all threads are gone, the owner can make its next call,
    or an operation of the gate or of a callback can be performed. -/
theorem dispatch_progresses {k : Nat} {memory : α → β} {slots : Fin p → σ} {actions : List (Action p σ α β)} (fits : n ≤ p)
    (unfailing : ∀ a, .gate a ∈ actions → a.fault = false)
    (executed : run (step w) (initial p n (Gate.script true k) memory slots) actions = some s) :
    Gate.AllDone s.gate ∨ (∀ memory slots, step w s (.call memory slots) ≠ none) ∨
      (∃ a, a.fault = false ∧ step w s (.gate a) ≠ none) ∨ ∃ i, step w s (.work i) ≠ none := by
  obtain ⟨steps,gates,allowed⟩ := gate_run executed
  have sound : ∀ a ∈ steps, a.fault = false := by
    intro a member
    rcases allowed a member with rfl | taken
    · rfl
    · exact unfailing a taken
  have clean := Gate.cleanInv_run fits sound gates
  by_cases mainStuck : Gate.mainStep s.gate .ok = none
  · by_cases stuck : ∀ i, Gate.workerStep s.gate i .ok = none
    · exact .inl (Gate.allDone_of_stuck clean mainStuck stuck)
    · obtain ⟨i,moves⟩ := not_forall.mp stuck
      obtain ⟨g,moved⟩ := Option.ne_none_iff_exists'.mp moves
      rcases worker_onward live moved with goes | works
      · exact .inr (.inr (.inl ⟨_,rfl,goes⟩))
      · exact .inr (.inr (.inr ⟨i,works⟩))
  · obtain ⟨g,moved⟩ := Option.ne_none_iff_exists'.mp mainStuck
    rcases main_onward moved with goes | calls
    · exact .inr (.inr (.inl ⟨_,rfl,goes⟩))
    · exact .inr (.inl calls)

end Progress

/-- Both callbacks of the first dispatch are inside `ops->run`. -/
theorem dispatch_progresses_storing : ∃ s, run (step storing) (initial 2 2 (Gate.script true 1) (fun _ => 9) fun _ => true)
    (storingRun.take 26) = some s ∧ s.gate.main = .asleep false ∧
    (Gate.AllDone s.gate ∨ (∀ memory slots, step storing s (.call memory slots) ≠ none) ∨
      (∃ a, a.fault = false ∧ step storing s (.gate a) ≠ none) ∨ ∃ i, step storing s (.work i) ≠ none) := by
  obtain ⟨s,executed⟩ := Option.isSome_iff_exists.mp (by decide +kernel :
    (run (step storing) (initial 2 2 (Gate.script true 1) (fun _ => 9) fun _ => true) (storingRun.take 26)).isSome = true)
  have asleep : s.gate.main = .asleep false := run_value (fun s => s.gate.main) executed (by decide +kernel)
  have live : ∀ (i : Fin 2) (ceased : Bool) (m : Fin 2 → Nat), storing.returned ceased = false →
      ∃ c' m', storing.step i ceased m = some (c',m') := by
    rintro i (_ | _) m ended
    · exact ⟨_,_,rfl⟩
    · cases ended
  refine ⟨s,executed,asleep,dispatch_progresses live (by decide) (fun a member => ?_) executed⟩
  have fine : ∀ a ∈ storingRun.take 26, ∀ b, a = .gate b → b.fault = false := by
    simp [storingRun,Gate.Action.fault]
  exact fine _ member a rfl

end AutoUpscale.PoolWork
