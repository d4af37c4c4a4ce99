import AutoUpscale.GateRounds

/-!
What a fault leaves behind. A pool that is stopped for a dispatch that never
armed its gate, or for its owner, runs nothing more (`Doomed`), and a worker that
came to its end without a failure of its own took the last generation first
(`FateInv`). From these follows what the owner of the borrowed pictures relies
on once a dispatch or a poisoning has returned (`fault_quiescence`).
-/
namespace AutoUpscale.Gate
open AutoUpscale.Runs (run)
variable {p : Nat} {s t : State p}

/-! ## The recovery in progress -/

/-- On whose behalf the pool is being stopped. -/
def MainPc.why : MainPc → Option Recovery
  | .cast (.exit why) | .unlock (.exit why) _ | .castFailed (.exit why) | .mark why | .exitLock why
  | .exitLockFailed why | .exitSet why | .exitFailed why | .cancel why _ | .join why _ _ _ | .stopped why _ _
  | .await why _ _ => some why
  | _ => none

/-- The thread is inside `up_worker_pool_dispatch`, before any recovery. -/
def MainPc.dispatching : MainPc → Bool
  | .lock | .arm | .bump | .cast .dispatch | .unlock .dispatch _ | .castFailed .dispatch | .preFailed
  | .deadline | .doneLock | .loadFailed | .loadPending | .timedwait | .asleep _ | .timedOut | .doneUnlock _
  | .finalPending | .finalFailed => true
  | _ => false

/-- The recovery belongs to a dispatch. -/
def Recovery.dispatched : Recovery → Bool
  | .unarmed | .armed => true
  | .poison | .stop => false

/-- A dispatch, or its recovery while its exit request has not failed and no
    worker was cancelled. -/
def MainPc.spared : MainPc → Bool
  | .cancel _ _ => false
  | .join why exitOk _ _ | .stopped why exitOk _ | .await why exitOk _ => exitOk && why.dispatched
  | .idle (some (.failed _ exitOk)) => exitOk
  | .idle _ => false
  | .mark why | .exitLock why | .exitLockFailed why | .exitSet why | .exitFailed why | .cast (.exit why)
  | .unlock (.exit why) _ | .castFailed (.exit why) => why.dispatched
  | _ => true

/-- The owner may take its pictures back for good. -/
def Return.faulty : Return → Bool
  | .failed _ _ | .poisoned => true
  | .done | .stopped _ => false

@[simp] theorem signal_why (pc : MainPc) : pc.signal.why = pc.why := by cases pc <;> rfl
@[simp] theorem signal_dispatching (pc : MainPc) : pc.signal.dispatching = pc.dispatching := by cases pc <;> rfl
@[simp] theorem signal_spared (pc : MainPc) : pc.signal.spared = pc.spared := by cases pc <;> rfl

/-- What a step of the main thread does to the flags of the pool. -/
structure MainFlags (s t : State p) : Prop where
  broken : s.broken = true → t.broken = true
  exit : s.exitRequested = true → t.exitRequested = true
  marked : ∀ why, s.main = .mark why → t.broken = true
  cancelling : ∀ why k, t.main = .cancel why k → t.broken = true ∨ ∃ l, s.main = .cancel why l
  cancelled : (∀ i, (t.workers i).cancelled = (s.workers i).cancelled) ∨ ∃ why k, s.main = .cancel why k
  asked : ∀ i, (s.workers i).cancelled = true → (t.workers i).cancelled = true
  healthy : t.healthy = s.healthy ∨
    s.main.quiet = true ∧ t.exitRequested = s.exitRequested ∧ t.healthy = (!s.broken && !s.exitRequested)
  dispatching : t.main.dispatching = true → t.broken = s.broken ∧ t.exitRequested = s.exitRequested ∧
    (s.main.dispatching = true ∧ t.healthy = s.healthy ∨ t.healthy = (!s.broken && !s.exitRequested))
  spared : t.main.spared = true → (∀ i, (t.workers i).cancelled = (s.workers i).cancelled) ∧
    (s.main.spared = true ∧ t.healthy = s.healthy ∨ t.healthy = (!s.broken && !s.exitRequested))

theorem wake_cancelled (w : Worker) : w.wake.cancelled = w.cancelled := by unfold Worker.wake; split <;> rfl

@[simp] theorem returns_spared (why : Recovery) (exitOk bad : Bool) :
    (MainPc.idle (some (why.returns exitOk bad))).spared = (exitOk && why.dispatched) := by
  cases why <;> simp [Recovery.returns,MainPc.spared,Recovery.dispatched]

theorem joined_cancelled {i : Fin p} (s : State p) (j : Fin p) :
    (Function.update s.workers i { s.workers i with started := false } j).cancelled =
      (s.workers j).cancelled := by
  rcases eq_or_ne j i with rfl | other
  · simp
  · simp [other]

/-- A step of a recovery that asks for no exit and cancels no worker. -/
theorem mainFlags_same (broken : s.broken = true → t.broken = true) (exit : t.exitRequested = s.exitRequested)
    (healthy : t.healthy = s.healthy) (cancelled : ∀ i, (t.workers i).cancelled = (s.workers i).cancelled)
    (marked : ∀ why, s.main ≠ .mark why) (cancelling : ∀ why k, t.main ≠ .cancel why k)
    (outside : t.main.dispatching = false) (spared : t.main.spared = true → s.main.spared = true) :
    MainFlags s t where
  broken := broken
  exit := by rw [exit]; exact id
  marked why at_pc := absurd at_pc (marked why)
  cancelling why k at_pc := absurd at_pc (cancelling why k)
  cancelled := .inl cancelled
  asked i was := (cancelled i).trans was
  healthy := .inl healthy
  dispatching inside := by rw [outside] at inside; contradiction
  spared inside := ⟨cancelled,.inl ⟨spared inside,healthy⟩⟩

theorem MainMove.flags {outcome : Outcome} (move : MainMove s outcome t) : MainFlags s t := by
  cases move with
  | cancel => constructor <;>
      simp_all +contextual [MainPc.dispatching,MainPc.spared,State.set,Function.update_apply,apply_ite]
  | join inside pc =>
    exact mainFlags_same (fun was => was) rfl rfl (joined_cancelled s) (by simp [pc]) (by simp) (by simp [MainPc.dispatching])
      (by simp [pc,MainPc.spared])
  | stopped pc | awaited all pc =>
    exact mainFlags_same (fun was => was) rfl rfl (fun _ => rfl) (by simp [pc]) (by simp) (by simp [MainPc.dispatching])
      (by rw [returns_spared,pc]; exact id)
  | @cast caster | @castFails caster | @unlock caster | @unlockFailed caster | @castFailed caster =>
    cases caster <;> constructor <;>
      simp_all [MainPc.dispatching,MainPc.spared,wake_cancelled,Caster.sent,Caster.lost,Recovery.dispatched]
  | _ => constructor <;> simp_all [MainPc.dispatching,MainPc.spared,MainPc.quiet,Recovery.dispatched]

/-- How a step of the main thread enters, goes on with and leaves a recovery. -/
structure MainRecovery (s t : State p) : Prop where
  enters : ∀ why, t.main.why = some why → s.main.why = some why ∨ t.main = .mark why ∨ why = .stop
  goes : ∀ why, s.main.why = some why → t.main.why = some why ∨ why = .stop ∨
    ∃ exitOk, s.main = .stopped why exitOk false ∨ ∃ k, p ≤ k ∧ s.main = .await why exitOk k
  returns : ∀ r, t.main = .idle (some r) → r = .done ∨ ∃ why exitOk bad, r = why.returns exitOk bad ∧
    s.main.why = some why ∧ (∀ other, s.main ≠ .mark other) ∧
      (why = .stop ∧ bad = true ∨ s.main = .stopped why exitOk false ∨ ∃ k, p ≤ k ∧ s.main = .await why exitOk k)

theorem MainMove.recovery {outcome : Outcome} (move : MainMove s outcome t) : MainRecovery s t := by
  cases move with
  | @stopped why exitOk bad pc ends =>
    have ending : why = .stop ∧ bad = true ∨ s.main = .stopped why exitOk false := by
      cases bad
      · exact .inr pc
      · exact .inl ⟨ends.resolve_left nofun,rfl⟩
    refine ⟨by simp [MainPc.why],fun other same => ?_,fun r back => ?_⟩
    · simp only [pc,MainPc.why,Option.some.injEq] at same
      cases same
      exact .inr (ending.imp And.left fun at_pc => ⟨exitOk,.inl at_pc⟩)
    · cases back
      exact .inr ⟨why,exitOk,bad,rfl,by simp [MainPc.why,pc],by simp [pc],ending.imp_right .inl⟩
  | @awaited why exitOk k all pc =>
    have ending : ∃ k, p ≤ k ∧ s.main = .await why exitOk k := ⟨k,all,pc⟩
    refine ⟨by simp [MainPc.why],fun other same => ?_,fun r back => ?_⟩
    · simp only [pc,MainPc.why,Option.some.injEq] at same
      cases same
      exact .inr (.inr ⟨exitOk,.inr ending⟩)
    · cases back
      exact .inr ⟨why,exitOk,true,rfl,by simp [MainPc.why,pc],by simp [pc],.inr (.inr ending)⟩
  | @cast caster | @castFails caster | @unlock caster | @unlockFailed caster | @castFailed caster =>
    cases caster <;> constructor <;> simp_all [MainPc.why,Caster.sent,Caster.lost]
  | _ => constructor <;> simp_all [MainPc.why]

theorem why_quiet {pc : MainPc} {why : Recovery} (stopping : pc.why = some why) :
    pc.quiet = decide (why ≠ .armed) := by
  cases pc with
  | cast caster | unlock caster _ | castFailed caster => cases caster <;> simp_all [MainPc.why,MainPc.quiet]
  | _ => simp_all [MainPc.why,MainPc.quiet]

/-! ## Nothing more to run -/

/-- No worker can run again: all are gone, or the pool is being stopped while
    nothing is armed. -/
def Doomed (s : State p) : Prop :=
  (∀ i, (s.workers i).pc.live = false) ∨ s.main.why = some .unarmed ∨ s.main.why = some .poison

theorem doomed_idle (inv : GateInv s) (doomed : Doomed s) (i : Fin p) : (s.workers i).pc.owes = false := by
  cases owes : (s.workers i).pc.owes
  · rfl
  · exfalso
    have living := owes_live owes
    have loud (quiet : s.main.quiet = true) : False := by
      rw [(inv.rounds.quiet quiet i living).2] at owes
      contradiction
    rcases doomed with dead | unarmed | poisoned
    · rw [dead i] at living; contradiction
    · exact loud (why_quiet unarmed)
    · exact loud (why_quiet poisoned)

theorem doomed_step {a : Action p} (inv : GateInv s) (doomed : Doomed s) (moved : step s a = some t) :
    Doomed t ∧ ∀ i, (t.workers i).ran = (s.workers i).ran := by
  have idle := doomed_idle inv doomed
  rcases step_cases moved with ⟨outcome,stepped⟩ | ⟨i,stepped,rule,lives⟩ | woken
  · have kept := stepped.moved.workers
    have recovery := stepped.recovery
    refine ⟨?_,fun j => (kept j).same.ran⟩
    have goesOn (why : Recovery) (stopping : s.main.why = some why) (owned : why ≠ .stop) :
        t.main.why = some why ∨ ∀ j, (t.workers j).pc.live = false := by
      rcases recovery.goes why stopping with goes | stops | ⟨exitOk,ending⟩
      · exact .inl goes
      · exact absurd stops owned
      · have dead := settled_of_reaped inv.stop (stopInv_reaped inv.stop ending)
        exact .inr (fun j => by rw [(kept j).live]; exact dead j)
    rcases doomed with dead | unarmed | poisoned
    · exact .inl (fun j => by rw [(kept j).live]; exact dead j)
    · rcases goesOn .unarmed unarmed (by simp) with goes | dead
      · exact .inr (.inl goes)
      · exact .inl dead
    · rcases goesOn .poison poisoned (by simp) with goes | dead
      · exact .inr (.inr goes)
      · exact .inl dead
  · have why : t.main.why = s.main.why := by rcases stepped.main with same | same <;> simp [same]
    constructor
    · rw [Doomed,why]
      rcases doomed with dead | stopping
      · refine .inl (fun j => ?_)
        rcases eq_or_ne j i with rfl | other
        · by_contra living
          have alive := lives.revive (by simpa using living)
          rw [dead j] at alive
          contradiction
        · rw [stepped.others j other]; exact dead j
      · exact .inr stopping
    · intro j
      rcases eq_or_ne j i with rfl | other
      · cases rule with
        | inner same _ _ | count _ same _ _ => exact same.ran
        | take before worker pending | leave before worker pending => rw [worker]
        | enter before worker pending =>
          have none := idle j
          rw [before] at none
          contradiction
      · rw [stepped.others j other]
  · refine ⟨?_,fun j => (woken.workers j).same.ran⟩
    have why : t.main.why = s.main.why := by rcases woken.main with same | same <;> simp [same]
    rw [Doomed,why]
    rcases doomed with dead | stopping
    · exact .inl (fun j => by rw [(woken.workers j).live]; exact dead j)
    · exact .inr stopping

/-! ## The last generation of a worker -/

/-- What a worker has seen where it leaves the gate, and what the flags say of a
    dispatch that found the pool usable. -/
structure FateInv (s : State p) : Prop where
  decides : ∀ i, (s.workers i).pc.decides = true → s.generation = (s.workers i).seenGen → s.exitRequested = true
  cancelling : ∀ why k, s.main = .cancel why k → s.broken = true
  asked : s.broken = false → ∀ i, (s.workers i).cancelled = false
  usable : s.main.dispatching = true → s.healthy = true → s.exitRequested = false ∧ s.broken = false
  spared : s.main.spared = true → s.healthy = true → ∀ i, (s.workers i).cancelled = false
  fate : ∀ i, i.val < s.nWorkers → (s.workers i).pc.live = false → (s.workers i).ownFailed = true ∨
    (s.workers i).cancelled = true ∨
      s.exitRequested = true ∧ (s.healthy = true → (s.workers i).seenRound = s.round)
  armed : s.main.quiet = false → 0 < s.round
  broken : ∀ why, s.main.why = some why → why ≠ .stop → (∀ other, s.main ≠ .mark other) → s.broken = true
  returned : ∀ r, s.main = .idle (some r) → r.faulty = true →
    s.broken = true ∧ ∀ i : Fin p, i.val < s.nWorkers → (s.workers i).pc.gone = true
  last : ∀ exitOk, s.main = .idle (some (.failed true exitOk)) → 0 < s.round

theorem fateInv_initial (n : Nat) (calls : List Call) : FateInv (initial p n calls) := by
  constructor
  · intro i decides
    by_cases inside : i.val < n <;> simp [initial,freshWorker,inside,WorkerPc.decides] at decides
  · simp [initial]
  · simp [initial,freshWorker]
  · simp [initial,MainPc.dispatching]
  · simp [initial,freshWorker]
  · intro i inside
    have here : i.val < n := inside
    simp [initial,freshWorker,here,WorkerPc.live]
  · simp [initial,MainPc.quiet]
  · simp [initial,MainPc.why]
  · simp [initial]
  · simp [initial]

/-- A worker that cannot run any more sees no further generation. -/
theorem seen_of_dead {i : Fin p} (rule : WorkerRule s t i) (dead : (s.workers i).pc.live = false) :
    (t.workers i).seenRound = (s.workers i).seenRound := by
  cases rule with
  | inner same _ _ | count _ same _ _ => exact same.seenRound
  | take before | enter before | leave before =>
    rw [before] at dead
    contradiction

/-- A worker that takes no new generation has seen the last one. -/
theorem seen_of_take {i : Fin p} (inv : RoundInv s) (rule : WorkerRule s t i) (before : (s.workers i).pc = .take)
    (known : s.generation = (s.workers i).seenGen) : (t.workers i).seenRound = s.round := by
  have current : (s.workers i).seenRound = s.round := by
    rw [inv.generation,inv.seen i] at known
    exact (generation_eq_iff (inv.bound i) (inv.near i (by rw [before]; rfl))).mp known
  cases rule with
  | inner same _ _ | count _ same _ _ => rw [same.seenRound]; exact current
  | take _ worker _ | enter _ worker _ | leave _ worker _ => rw [worker]; try exact current

theorem fateInv_worker {i : Fin p} (inv : GateInv s) (fate : FateInv s) (moved : Moved s t i)
    (rule : WorkerRule s t i) (lives : Lives s t i) : FateInv t := by
  have main (pc : MainPc) (steady : ∀ woken, pc ≠ .asleep woken) (at_pc : t.main = pc) : s.main = pc :=
    signalled_main steady moved.main at_pc
  have dispatching : t.main.dispatching = s.main.dispatching := by
    rcases moved.main with same | same <;> simp [same]
  have spared : t.main.spared = s.main.spared := by rcases moved.main with same | same <;> simp [same]
  have why : t.main.why = s.main.why := by rcases moved.main with same | same <;> simp [same]
  have quiet : t.main.quiet = s.main.quiet := by rcases moved.main with same | same <;> simp [same]
  have cancelled : ∀ j, (t.workers j).cancelled = (s.workers j).cancelled := by
    intro j
    rcases eq_or_ne j i with rfl | other
    · exact moved.cancelled
    · rw [moved.others j other]
  have stillGone (j : Fin p) (gone : (s.workers j).pc.gone = true) : (t.workers j).pc.gone = true := by
    rcases eq_or_ne j i with rfl | other
    · exact lives.gone gone
    · rw [moved.others j other]; exact gone
  constructor
  · intro j decides
    rw [moved.generation,moved.exitRequested]
    rcases eq_or_ne j i with rfl | other
    · obtain ⟨same,before⟩ := lives.decides decides
      rw [same]
      exact before.elim (fate.decides j) id
    · rw [moved.others j other] at decides ⊢
      exact fate.decides j decides
  · intro why k at_cancel
    rw [moved.broken]
    exact fate.cancelling why k (main _ (by simp) at_cancel)
  · intro whole j
    rw [cancelled j]
    exact fate.asked (by rw [← moved.broken]; exact whole) j
  · rw [dispatching,moved.healthy,moved.exitRequested,moved.broken]; exact fate.usable
  · intro inside healthy j
    rw [cancelled j]
    exact fate.spared (by rw [← spared]; exact inside) (by rw [← moved.healthy]; exact healthy) j
  · intro j inside dead
    rw [cancelled j,moved.exitRequested,moved.healthy,moved.round]
    rw [moved.nWorkers] at inside
    rcases eq_or_ne j i with rfl | other
    · cases before : (s.workers j).pc.live
      · rcases fate.fate j inside before with failed | asked | ⟨exit,seen⟩
        · exact .inl (moved.ownFailed failed)
        · exact .inr (.inl asked)
        · exact .inr (.inr ⟨exit,fun healthy => by rw [seen_of_dead rule before]; exact seen healthy⟩)
      · rcases lives.dies before dead with failed | asked | ⟨take,known⟩
        · exact .inl failed
        · exact .inr (.inl asked)
        · exact .inr (.inr ⟨fate.decides j (by rw [take]; rfl) known,
            fun _ => seen_of_take inv.rounds rule take known⟩)
    · rw [moved.others j other] at dead ⊢
      exact fate.fate j inside dead
  · rw [quiet,moved.round]; exact fate.armed
  · intro other stopping owned unmarked
    rw [moved.broken]
    refine fate.broken other (by rw [← why]; exact stopping) owned (fun mark at_mark => ?_)
    apply unmarked mark
    rcases moved.main with same | same <;> simp [same,at_mark,MainPc.signal]
  · intro r back faulty
    obtain ⟨broken,gone⟩ := fate.returned r (main _ (by simp) back) faulty
    exact ⟨by rw [moved.broken]; exact broken,
      fun j inside => stillGone j (gone j (by rw [← moved.nWorkers]; exact inside))⟩
  · intro exitOk back
    rw [moved.round]
    exact fate.last exitOk (main _ (by simp) back)

/-- Only the bump of a dispatch begins a round. -/
theorem rule_round (rule : MainRule s t) :
    (s.main = .bump ∧ t.round = s.round + 1) ∨ (t.generation = s.generation ∧ t.round = s.round) := by
  cases rule with
  | bump before _ _ round => exact .inl ⟨before,round⟩
  | inner _ _ _ generation round | arm _ _ generation round | done _ _ generation round | failed _ _ _ generation round =>
    exact .inr ⟨generation,round⟩

/-- A worker at the gate holds the lock, so that no generation begins meanwhile. -/
theorem decides_main {outcome : Outcome} (inv : GateInv s) (fate : FateInv s) (stepped : MainMove s outcome t) (i : Fin p)
    (decides : (t.workers i).pc.decides = true) (known : t.generation = (t.workers i).seenGen) : t.exitRequested = true := by
  have kept := stepped.moved.workers
  have at_gate : (s.workers i).pc.decides = true := by
    rw [← (kept i).class WorkerPc.decides (fun _ => rfl)]; exact decides
  rw [(kept i).same.seenGen] at known
  rcases rule_round stepped.rule with ⟨before,_⟩ | ⟨generation,_⟩
  · have holding : s.holdsLock (.worker i) = true := by
      show (s.workers i).pc.holdsLock = true
      cases pc : (s.workers i).pc <;> simp_all [WorkerPc.decides,WorkerPc.holdsLock]
    have owns : s.holdsLock .main = true := by simp [State.holdsLock,before,MainPc.holdsLock]
    have both := Mutex.owned_unique inv.locks.lock owns holding
    contradiction
  · rw [generation] at known
    exact stepped.flags.exit (fate.decides i at_gate known)

/-- A worker that has left keeps the reason for which it left. -/
theorem left_main {outcome : Outcome} (fate : FateInv s) (stepped : MainMove s outcome t) (i : Fin p)
    (inside : i.val < t.nWorkers) (dead : (t.workers i).pc.live = false) :
    (t.workers i).ownFailed = true ∨ (t.workers i).cancelled = true ∨
      t.exitRequested = true ∧ (t.healthy = true → (t.workers i).seenRound = t.round) := by
  have moved := stepped.moved
  have flags := stepped.flags
  have kept := moved.workers
  rw [(kept i).live] at dead
  rw [moved.nWorkers] at inside
  rcases fate.fate i inside dead with failed | asked | ⟨exit,seen⟩
  · exact .inl ((kept i).ownFailed.trans failed)
  · exact .inr (.inl (flags.asked i asked))
  refine .inr (.inr ⟨flags.exit exit,fun healthy => ?_⟩)
  rw [(kept i).same.seenRound]
  rcases flags.healthy with same | ⟨_,_,fresh⟩
  · rw [same] at healthy
    rcases rule_round stepped.rule with ⟨before,_⟩ | ⟨_,round⟩
    · have usable := (fate.usable (by rw [before]; rfl) healthy).1
      rw [exit] at usable
      contradiction
    · rw [round]; exact seen healthy
  · rw [fresh,exit] at healthy
    simp at healthy

/-- Where the owner may take its pictures back for good, the workers are gone. -/
theorem returned_main {outcome : Outcome} (inv : GateInv s) (fate : FateInv s) (stepped : MainMove s outcome t) {r : Return}
    (back : t.main = .idle (some r)) (faulty : r.faulty = true) :
    t.broken = true ∧ ∀ i : Fin p, i.val < t.nWorkers → (t.workers i).pc.gone = true := by
  have moved := stepped.moved
  rcases stepped.recovery.returns r back with rfl | ⟨why,exitOk,bad,rfl,stopping,unmarked,ending⟩
  · contradiction
  have owned : why ≠ .stop := by
    rintro rfl
    contradiction
  refine ⟨stepped.flags.broken (fate.broken why stopping owned unmarked),fun i inside => ?_⟩
  rw [(moved.workers i).gone]
  exact gone_of_reaped inv.stop (stopInv_reaped inv.stop (ending.resolve_left fun stops => owned stops.1)) i
    (by rw [← moved.nWorkers]; exact inside)

theorem last_main {outcome : Outcome} (fate : FateInv s) (stepped : MainMove s outcome t) {exitOk : Bool}
    (back : t.main = .idle (some (.failed true exitOk))) : 0 < t.round := by
  rcases stepped.recovery.returns _ back with done | ⟨why,_,bad,same,stopping,_⟩
  · contradiction
  have armed : why = .armed := by
    cases why <;> simp_all [Recovery.returns]
  have before := fate.armed (by rw [why_quiet stopping,armed]; rfl)
  rcases rule_round stepped.rule with ⟨_,round⟩ | ⟨_,round⟩
  · omega
  · omega

theorem fateInv_main {outcome : Outcome} (inv : GateInv s) (fate : FateInv s)
    (stepped : MainMove s outcome t) : FateInv t := by
  have flags := stepped.flags
  have recovery := stepped.recovery
  have rule := stepped.rule
  have whole (unbroken : t.broken = false) : s.broken = false := by
    by_contra was
    rw [flags.broken (by simpa using was)] at unbroken
    contradiction
  constructor
  case decides => exact decides_main inv fate stepped
  case fate => exact left_main fate stepped
  case returned => exact fun r back faulty => returned_main inv fate stepped back faulty
  case last => exact fun exitOk back => last_main fate stepped back
  case cancelling =>
    intro why k at_cancel
    rcases flags.cancelling why k at_cancel with broken | ⟨l,before⟩
    · exact broken
    · exact flags.broken (fate.cancelling why l before)
  case asked =>
    intro unbroken i
    have before := whole unbroken
    rcases flags.cancelled with same | ⟨why,k,at_cancel⟩
    · rw [same i]; exact fate.asked before i
    · rw [fate.cancelling why k at_cancel] at before
      contradiction
  case usable =>
    intro inside healthy
    obtain ⟨broken,exit,⟨before,same⟩ | fresh⟩ := flags.dispatching inside
    · rw [exit,broken]
      exact fate.usable before (by rw [← same]; exact healthy)
    · rw [fresh] at healthy
      rw [exit,broken]
      simpa [and_comm] using healthy
  case spared =>
    intro inside healthy i
    obtain ⟨cancelled,⟨before,same⟩ | fresh⟩ := flags.spared inside
    · rw [cancelled i]
      exact fate.spared before (by rw [← same]; exact healthy) i
    · rw [cancelled i]
      refine fate.asked ?_ i
      rw [fresh] at healthy
      have both : s.broken = false ∧ s.exitRequested = false := by simpa using healthy
      exact both.1
  case armed =>
    intro loud
    cases rule with
    | inner quiet _ _ _ round => rw [round]; exact fate.armed (by rw [← quiet]; exact loud)
    | bump _ _ _ round => omega
    | arm _ after | done _ after | failed _ _ after => rw [after] at loud; contradiction
  case broken =>
    intro why stopping owned unmarked
    rcases recovery.enters why stopping with before | mark | stops
    · by_cases at_mark : ∃ other, s.main = .mark other
      · obtain ⟨other,at_mark⟩ := at_mark
        exact flags.marked other at_mark
      · exact flags.broken (fate.broken why before owned (by simpa using at_mark))
    · exact absurd mark (unmarked why)
    · exact absurd stops owned

theorem fateInv_woken (fate : FateInv s) (woken : Woken s t) : FateInv t := by
  have main (pc : MainPc) (steady : ∀ woken, pc ≠ .asleep woken) (at_pc : t.main = pc) : s.main = pc :=
    signalled_main steady woken.main at_pc
  have dispatching : t.main.dispatching = s.main.dispatching := by
    rcases woken.main with same | same <;> simp [same]
  have spared : t.main.spared = s.main.spared := by rcases woken.main with same | same <;> simp [same]
  have why : t.main.why = s.main.why := by rcases woken.main with same | same <;> simp [same]
  have quiet : t.main.quiet = s.main.quiet := by rcases woken.main with same | same <;> simp [same]
  have kept := woken.workers
  constructor
  · intro i
    rw [(kept i).class WorkerPc.decides (fun _ => rfl),(kept i).same.seenGen,woken.generation,woken.exitRequested]
    exact fate.decides i
  · intro other k at_cancel
    rw [woken.broken]
    exact fate.cancelling other k (main _ (by simp) at_cancel)
  · intro whole i
    rw [(woken.threads i).2]
    exact fate.asked (by rw [← woken.broken]; exact whole) i
  · rw [dispatching,woken.healthy,woken.exitRequested,woken.broken]; exact fate.usable
  · intro inside healthy i
    rw [(woken.threads i).2]
    exact fate.spared (by rw [← spared]; exact inside) (by rw [← woken.healthy]; exact healthy) i
  · intro i inside dead
    rw [(kept i).ownFailed,(woken.threads i).2,woken.exitRequested,woken.healthy,(kept i).same.seenRound,woken.round]
    exact fate.fate i (by rw [← woken.nWorkers]; exact inside) (by rw [← (kept i).live]; exact dead)
  · rw [quiet,woken.round]; exact fate.armed
  · intro other stopping owned unmarked
    rw [woken.broken]
    refine fate.broken other (by rw [← why]; exact stopping) owned (fun mark at_mark => ?_)
    apply unmarked mark
    rcases woken.main with same | same <;> simp [same,at_mark,MainPc.signal]
  · intro r back faulty
    obtain ⟨broken,gone⟩ := fate.returned r (main _ (by simp) back) faulty
    exact ⟨by rw [woken.broken]; exact broken,
      fun i inside => by rw [(kept i).gone]; exact gone i (by rw [← woken.nWorkers]; exact inside)⟩
  · intro exitOk back
    rw [woken.round]
    exact fate.last exitOk (main _ (by simp) back)

/-- The invariants of the gate with the fate of its workers. -/
def FaultInv (s : State p) : Prop := GateInv s ∧ FateInv s

theorem faultInv_step {a : Action p} (inv : FaultInv s) (moved : step s a = some t) : FaultInv t := by
  refine ⟨gateInv_step inv.1 moved,?_⟩
  rcases step_cases moved with ⟨outcome,stepped⟩ | ⟨i,stepped,rule,lives⟩ | woken
  · exact fateInv_main inv.1 inv.2 stepped
  · exact fateInv_worker inv.1 inv.2 stepped rule lives
  · exact fateInv_woken inv.2 woken

theorem faultInv_run {n : Nat} {calls : List Call} {actions : List (Action p)} (fits : n ≤ p)
    (executed : run step (initial p n calls) actions = some s) : FaultInv s :=
  Runs.reachable_preserves (fun _ _ _ inv moved => faultInv_step inv moved)
    ⟨gateInv_initial fits calls,fateInv_initial n calls⟩ ⟨actions,executed⟩

theorem nWorkers_step {a : Action p} (moved : step s a = some t) : t.nWorkers = s.nWorkers := by
  rcases step_cases moved with ⟨outcome,stepped⟩ | ⟨i,stepped,_⟩ | woken
  · exact stepped.moved.nWorkers
  · exact stepped.nWorkers
  · exact woken.nWorkers

theorem nWorkers_run {n : Nat} {calls : List Call} {actions : List (Action p)}
    (executed : run step (initial p n calls) actions = some s) : s.nWorkers = n :=
  Runs.reachable_preserves (P := fun s => s.nWorkers = n)
    (fun _ _ _ same moved => (nWorkers_step moved).trans same) rfl ⟨actions,executed⟩

/-- A doomed pool stays so over every run, and no worker enters `ops->run`. -/
theorem doomed_run {actions : List (Action p)} (inv : FaultInv s) (doomed : Doomed s)
    (executed : run step s actions = some t) : (FaultInv t ∧ Doomed t) ∧
      ∀ i, (t.workers i).ran = (s.workers i).ran :=
  Runs.run_relates (P := fun s => FaultInv s ∧ Doomed s)
    (R := fun s t => ∀ i, (t.workers i).ran = (s.workers i).ran) (fun _ _ => rfl)
    (fun _ _ _ first second i => (second i).trans (first i))
    (fun _ _ _ both moved =>
      have next := doomed_step both.1.1 both.2 moved
      ⟨⟨faultInv_step both.1 moved,next.1⟩,next.2⟩)
    ⟨inv,doomed⟩ executed

theorem broken_step {a : Action p} (moved : step s a = some t) (broken : s.broken = true) : t.broken = true := by
  rcases step_cases moved with ⟨outcome,stepped⟩ | ⟨i,stepped,_⟩ | woken
  · exact stepped.flags.broken broken
  · rw [stepped.broken]; exact broken
  · rw [woken.broken]; exact broken

/-! ## What the owner can rely on -/

/-- No worker is inside `ops->run`. -/
def State.quiescent (s : State p) : Prop := ∀ i, (s.workers i).pc ≠ .run

/-- Whatever happens from here on, no worker is inside `ops->run` or enters it. -/
def NeverAgain (s : State p) : Prop :=
  ∀ actions t, run step s actions = some t → t.quiescent ∧ ∀ i, (t.workers i).ran = (s.workers i).ran

theorem quiescent_of_idle (idle : ∀ i, (s.workers i).pc.owes = false) : s.quiescent := by
  intro i running
  have none := idle i
  rw [running] at none
  contradiction

theorem doomed_neverAgain (inv : FaultInv s) (doomed : Doomed s) : NeverAgain s := by
  intro actions t executed
  obtain ⟨⟨later,still⟩,same⟩ := doomed_run inv doomed executed
  exact ⟨quiescent_of_idle (doomed_idle later.1 still),same⟩

/-- The pool is marked broken, or its owner is about to mark it. -/
def Marked (s : State p) : Prop := s.broken = true ∨ s.main = .mark .poison

theorem marked_step {a : Action p} (marked : Marked s) (moved : step s a = some t) : Marked t := by
  rcases marked with broken | at_mark
  · exact .inl (broken_step moved broken)
  · rcases step_cases moved with ⟨outcome,stepped⟩ | ⟨i,stepped,_⟩ | woken
    · exact .inl (stepped.flags.marked .poison at_mark)
    · right
      rcases stepped.main with same | same <;> simp [same,at_mark,MainPc.signal]
    · right
      rcases woken.main with same | same <;> simp [same,at_mark,MainPc.signal]

theorem marked_run {actions : List (Action p)} (marked : Marked s) (executed : run step s actions = some t) :
    Marked t :=
  Runs.reachable_preserves (fun _ _ _ inv moved => marked_step inv moved) marked ⟨actions,executed⟩

theorem quiescent_of_quiet (inv : GateInv s) (quiet : s.main.quiet = true) : s.quiescent := by
  intro i running
  have none := (inv.rounds.quiet quiet i (by rw [running]; rfl)).2
  rw [running] at none
  contradiction

/-- A worker that is gone, was not cancelled and had no failure of its own has
    run the last generation exactly once. -/
theorem ran_last {i : Fin p} (inv : FaultInv s) (inside : i.val < s.nWorkers)
    (dead : (s.workers i).pc.live = false) (own : (s.workers i).ownFailed = false)
    (spared : (s.workers i).cancelled = false) (healthy : s.healthy = true) (positive : 0 < s.round) :
    (s.workers i).ran.count s.round = 1 ∧ (s.workers i).completed.count s.round = 1 := by
  have seen : (s.workers i).seenRound = s.round := by
    rcases inv.2.fate i inside dead with failed | asked | ⟨_,seen⟩
    · rw [own] at failed; contradiction
    · rw [spared] at asked; contradiction
    · exact seen healthy
  have idle : (s.workers i).pc.owes = false := by
    by_contra owes
    rw [owes_live (by simpa using owes)] at dead
    contradiction
  obtain ⟨ran,completed⟩ := (logInv_idle idle).mp (inv.1.logs i)
  rw [ran,completed,seen]
  exact ⟨count_downTo positive (Nat.le_refl _),count_downTo positive (Nat.le_refl _)⟩

/-- Quiescence after a fault, for any failing operations and any interleaving of
    the owner's calls with the workers. When a call has returned, no worker is
    inside `ops->run`. When a dispatch returned -1 or `up_worker_pool_poison` was
    called, the pool is broken and no worker enters `ops->run` ever again. A
    dispatch whose gate lock failed runs no callback. Where the generation was
    armed on a usable pool and the exit request succeeded, every worker without
    a failure of its own ran that generation exactly once and is gone. -/
theorem fault_quiescence {n : Nat} {calls : List Call} {actions : List (Action p)} (fits : n ≤ p)
    (executed : run step (initial p n calls) actions = some s) :
    (∀ last, s.main = .idle last → s.quiescent) ∧
    (∀ r, s.main = .idle (some r) → r.faulty = true →
      NeverAgain s ∧ ∀ more t, run step s more = some t → t.broken = true) ∧
    (s.main = .mark .poison →
      NeverAgain s ∧ ∀ more t, run step s more = some t → t.broken = true ∨ t.main = .mark .poison) ∧
    (∀ next, s.main = .lock → step s (.main .fail) = some next →
      NeverAgain next ∧ ∀ i, (next.workers i).ran = (s.workers i).ran) ∧
    (s.main = .idle (some (.failed true true)) → s.healthy = true →
      ∀ i, i.val < n → (s.workers i).ownFailed = false → (s.workers i).pc.gone = true ∧
        (s.workers i).ran.count s.round = 1 ∧ (s.workers i).completed.count s.round = 1) := by
  have inv := faultInv_run fits executed
  refine ⟨?_,?_,?_,?_,?_⟩
  · intro last back
    exact quiescent_of_quiet inv.1 (by rw [back]; rfl)
  · intro r back faulty
    obtain ⟨broken,gone⟩ := inv.2.returned r back faulty
    refine ⟨doomed_neverAgain inv (.inl (dead_of_gone inv.1.stop gone)),fun more t later => ?_⟩
    exact Runs.reachable_preserves (fun _ _ _ was moved => broken_step moved was) broken ⟨more,later⟩
  · intro called
    refine ⟨doomed_neverAgain inv (.inr (.inr (by rw [called]; rfl))),fun more t later => ?_⟩
    exact marked_run (.inr called) later
  · intro next locking failed
    have after : next = { s with main := .mark .unarmed } := by
      cases mainStep_moves failed with
      | lockFails => rfl
      | _ => simp_all
    refine ⟨doomed_neverAgain (faultInv_step inv failed) (.inr (.inl (by rw [after]; rfl))),fun i => ?_⟩
    rw [after]
  · intro back healthy i inside own
    rw [← nWorkers_run executed] at inside
    have gone := (inv.2.returned _ back rfl).2 i inside
    have spared := inv.2.spared (by rw [back]; rfl) healthy i
    exact ⟨gone,ran_last inv inside (gone_not_live gone) own spared healthy (inv.2.last true back)⟩

/-- Two workers and a dispatch that cannot lock the completion lock. -/
def failedDispatch (first last : Fin p) : List (Action p) :=
  List.replicate 8 (.main .ok) ++ [.main .fail] ++ List.replicate 5 (.main .ok) ++
    List.replicate 17 (.worker first .ok) ++ List.replicate 20 (.worker last .ok) ++
    List.replicate 4 (.main .ok)

theorem fault_quiescence_failed : ∃ s, run step (initial 2 2 [.dispatch]) (failedDispatch 0 1) = some s ∧
    s.quiescent ∧ (s.workers 0).ran.count s.round = 1 ∧ (s.workers 1).ran.count s.round = 1 := by
  obtain ⟨s,executed⟩ := Option.isSome_iff_exists.mp
    (by decide +kernel : (run step (initial 2 2 [.dispatch]) (failedDispatch 0 1)).isSome = true)
  have back : s.main = .idle (some (.failed true true)) :=
    Runs.run_value State.main executed (by decide +kernel)
  have healthy : s.healthy = true := Runs.run_value State.healthy executed (by decide +kernel)
  have own (i : Fin 2) : (s.workers i).ownFailed = false := by
    refine Runs.run_value (fun s => (s.workers i).ownFailed) executed ?_
    revert i
    decide +kernel
  obtain ⟨quiet,_,_,_,ran⟩ := fault_quiescence (by decide) executed
  exact ⟨s,executed,quiet _ back,(ran back healthy 0 (by decide) (own 0)).2.1,
    (ran back healthy 1 (by decide) (own 1)).2.1⟩

end AutoUpscale.Gate
