import AutoUpscale.GateFaults

/-!
Runs of the gate in which no operation fails. The owner makes some dispatches
and may stop the pool after them. No thread then leaves the path without faults
(`CleanInv`), so every dispatch returns 0 after each worker ran it once
(`dispatch_exactly_once`), and no wake-up is lost and no state is stuck
(`no_lost_wakeup`).
-/
namespace AutoUpscale.Gate
open AutoUpscale.Runs (run)
variable {p : Nat} {s t : State p}

/-! ## The path without faults -/

/-- The calls of an owner that dispatches some times, and then may stop the pool. -/
def script (stops : Bool) : Nat → List Call
  | 0 => if stops then [.stop] else []
  | k + 1 => .dispatch :: script stops k

/-- A worker gets here only where none of its operations failed. -/
def WorkerPc.clean : WorkerPc → Bool
  | .absent | .start | .lock | .enable | .test | .wait | .blocked _ | .take | .run | .workerDone | .publish
  | .leaving | .terminated => true
  | .disable waited => waited
  | .unlock result => result ≠ .failed
  | .notifyLock back | .notifySignal back => back = .finished
  | .notifyUnlock back signalled => back = .finished ∧ signalled
  | .report _ | .signalFailed _ | .doneFailed | .cancelUnlock => false

/-- The main thread gets here only where nothing failed and the owner did not
    poison the pool. -/
def MainPc.clean : MainPc → Bool
  | .idle none | .idle (some .done) => true
  | .idle (some (.stopped bad)) => !bad
  | .idle _ => false
  | .lock | .arm | .bump | .preFailed | .deadline | .doneLock | .loadFailed | .loadPending | .timedwait
  | .asleep _ | .finalPending | .finalFailed => true
  | .cast caster => caster = .dispatch ∨ caster = .exit .stop
  | .unlock caster sent => (caster = .dispatch ∨ caster = .exit .stop) ∧ sent
  | .doneUnlock complete => complete
  | .exitLock why | .exitSet why => why = .stop
  | .join why exitOk _ bad | .stopped why exitOk bad => why = .stop ∧ exitOk ∧ bad = false
  | .castFailed _ | .timedOut | .mark _ | .exitLockFailed _ | .exitFailed _ | .cancel _ _
  | .await _ _ _ => false

/-- The exit request is published. -/
def MainPc.exiting : MainPc → Bool
  | .cast (.exit _) | .unlock (.exit _) _ | .join _ _ _ _ | .stopped _ _ _ | .idle (some (.stopped _)) => true
  | _ => false

/-- The owner stops the pool, or has stopped it. -/
def MainPc.stopping : MainPc → Bool
  | .exitLock _ | .exitSet _ => true
  | pc => pc.exiting

/-- The dispatch in progress has not published its generation. -/
def MainPc.unarmed : MainPc → Bool
  | .lock | .arm | .bump => true
  | _ => false

@[simp] theorem signal_clean (pc : MainPc) : pc.signal.clean = pc.clean := by cases pc <;> rfl
@[simp] theorem signal_exiting (pc : MainPc) : pc.signal.exiting = pc.exiting := by cases pc <;> rfl
@[simp] theorem signal_stopping (pc : MainPc) : pc.signal.stopping = pc.stopping := by cases pc <;> rfl
@[simp] theorem signal_unarmed (pc : MainPc) : pc.signal.unarmed = pc.unarmed := by cases pc <;> rfl

/-! ## What a step without a fault does -/

/-- A worker stays on the path without faults. -/
structure CleanWorker (s t : State p) (i : Fin p) : Prop where
  clean : (t.workers i).pc.clean = true
  syncFailed : t.syncFailed = false
  ownFailed : (t.workers i).ownFailed = (s.workers i).ownFailed
  waits : (t.workers i).pc = .wait → t.generation = (t.workers i).seenGen ∧ t.exitRequested = false
  blocks : (t.workers i).pc = .blocked false → (s.workers i).pc = .wait ∧
    (t.workers i).seenGen = (s.workers i).seenGen
  notifies : (s.workers i).pc = .notifyLock .finished → (t.workers i).pc = .notifySignal .finished
  signals : (s.workers i).pc = .notifySignal .finished → t.main = s.main.signal
  counts : t.pending = s.pending ∨
    t.pending = s.pending - 1 ∧ (s.pending = 1 → (t.workers i).pc = .notifyLock .finished)

theorem WorkerMove.clean {i : Fin p} (move : WorkerMove s i (some .ok) t) (clean : (s.workers i).pc.clean = true)
    (synced : s.syncFailed = false) : CleanWorker s t i := by
  cases move with
  | take =>
    by_cases same : s.generation = (s.workers i).seenGen <;> constructor <;> simp_all [State.set,WorkerPc.clean]
  | _ =>
    (try cases ‹Notify›) <;> constructor <;> simp_all [State.set,State.goto,Notify.notified,WorkerPc.clean]

/-- The main thread stays on the path without faults. -/
structure CleanMain (s t : State p) : Prop where
  clean : t.main.clean = true
  syncFailed : t.syncFailed = false
  broken : t.broken = false
  exits : t.exitRequested = t.main.exiting
  flags : t.generation = s.generation ∧ t.exitRequested = s.exitRequested ∨
    s.main.holdsLock = true ∧ ∃ caster, t.main = .cast caster
  casts : ∀ caster, s.main = .cast caster → ∀ i, (t.workers i).pc ≠ .blocked false
  sleeps : t.main = .asleep false → s.main = .timedwait ∧ t.pending = s.pending ∧ t.workers = s.workers
  loads : t.main = .timedwait → t.pending ≠ 0

theorem wake_blocked (w : Worker) : w.wake.pc ≠ .blocked false := by
  unfold Worker.wake
  split
  · simp
  · rename_i awake
    exact awake false

/-- How many of the `k` dispatches of the script are left. -/
structure ScriptInv (stops : Bool) (k : Nat) (s : State p) : Prop where
  before : s.main.stopping = false → ∃ m, s.calls = script stops m ∧ s.round + m + s.main.unarmed.toNat = k
  after : s.main.stopping = true → stops = true ∧ s.calls = [] ∧ s.round = k

/-- The owner's next call is the next one of the script. -/
theorem script_next {stops : Bool} {k : Nat} {last : Option Return} {call : Call} {rest : List Call}
    (at_idle : s.main = .idle last) (inv : ScriptInv stops k s) (calls : s.calls = call :: rest) :
    s.main.exiting = false ∧ ((call = .dispatch ∧ ∃ m, rest = script stops m ∧ s.round + m + 1 = k) ∨
      call = .stop ∧ rest = [] ∧ stops = true ∧ s.round = k) := by
  cases stopping : s.main.stopping with
  | true =>
    rw [(inv.after stopping).2.1] at calls
    cases calls
  | false =>
    obtain ⟨m,same,count⟩ := inv.before stopping
    have waiting : s.main.exiting = false := by simpa [at_idle,MainPc.stopping] using stopping
    refine ⟨waiting,?_⟩
    rw [same] at calls
    simp only [at_idle,MainPc.unarmed,Bool.toNat_false,Nat.add_zero] at count
    cases m with
    | zero =>
      cases stops <;> cases calls
      exact .inr ⟨rfl,rfl,rfl,count⟩
    | succ m =>
      cases calls
      exact .inl ⟨rfl,m,rfl,count⟩

theorem MainMove.clean {stops : Bool} {k : Nat} (move : MainMove s .ok t) (clean : s.main.clean = true)
    (synced : s.syncFailed = false) (whole : s.broken = false) (exits : s.exitRequested = s.main.exiting)
    (final : s.main.finished = true → s.pending = 0) (inv : ScriptInv stops k s) : CleanMain s t := by
  cases move with
  | dispatch pc calls | stop pc calls =>
    have quiet : s.exitRequested = false := exits.trans (script_next pc inv calls).1
    constructor <;> simp [quiet,MainPc.clean,MainPc.exiting,synced,whole,pc]
  | poison pc calls => obtain ⟨_,⟨other,_⟩ | ⟨other,_⟩⟩ := script_next pc inv calls <;> cases other
  | @cast caster | @unlock caster =>
    cases caster <;> constructor <;> simp_all [MainPc.clean,MainPc.exiting,wake_blocked,Caster.sent]
  | _ =>
    constructor <;> simp_all [State.set,MainPc.clean,MainPc.exiting,MainPc.finished,MainPc.holdsLock,Recovery.returns]

theorem scriptInv_same {stops : Bool} {k : Nat} (inv : ScriptInv stops k s)
    (stopping : t.main.stopping = s.main.stopping) (unarmed : t.main.unarmed = s.main.unarmed)
    (calls : t.calls = s.calls) (round : t.round = s.round) : ScriptInv stops k t := by
  constructor
  · rw [stopping,unarmed,calls,round]; exact inv.before
  · rw [stopping,calls,round]; exact inv.after

theorem MainMove.script {stops : Bool} {k : Nat} (move : MainMove s .ok t) (clean : s.main.clean = true)
    (synced : s.syncFailed = false) (final : s.main.finished = true → s.pending = 0)
    (inv : ScriptInv stops k s) : ScriptInv stops k t := by
  cases move with
  | dispatch pc calls =>
    obtain ⟨_,⟨_,m,rest,count⟩ | ⟨other,_⟩⟩ := script_next pc inv calls
    · refine ⟨fun _ => ⟨m,rest,?_⟩,by simp [MainPc.stopping,MainPc.exiting]⟩
      simp only [MainPc.unarmed,Bool.toNat_true]
      omega
    · cases other
  | poison pc calls => obtain ⟨_,⟨other,_⟩ | ⟨other,_⟩⟩ := script_next pc inv calls <;> cases other
  | stop pc calls =>
    obtain ⟨_,⟨other,_⟩ | ⟨_,rest,stops,count⟩⟩ := script_next pc inv calls
    · cases other
    · exact ⟨by simp [MainPc.stopping],fun _ => ⟨stops,rest,count⟩⟩
  | bump pc =>
    obtain ⟨m,calls,count⟩ := inv.before (by simp [pc,MainPc.stopping,MainPc.exiting])
    refine ⟨fun _ => ⟨m,calls,?_⟩,by simp [MainPc.stopping,MainPc.exiting]⟩
    simp only [pc,MainPc.unarmed,Bool.toNat_true,Bool.toNat_false] at count ⊢
    omega
  | @cast caster pc | @unlock caster pc =>
    cases caster <;> exact scriptInv_same inv (by simp [pc,MainPc.stopping,MainPc.exiting,Caster.sent])
      (by simp [pc,MainPc.unarmed,Caster.sent]) rfl rfl
  | _ =>
    refine scriptInv_same inv ?_ ?_ rfl rfl <;>
      simp_all [MainPc.clean,MainPc.stopping,MainPc.exiting,MainPc.unarmed,MainPc.finished,Recovery.returns]

/-! ## The invariant -/

/-- A worker that found no pending count is about to signal it. -/
def Notifying (s : State p) : Prop :=
  ∃ i, (s.workers i).pc = .notifyLock .finished ∨ (s.workers i).pc = .notifySignal .finished

/-- What holds in a run without faults. -/
structure CleanInv (stops : Bool) (k : Nat) (s : State p) : Prop where
  fault : FaultInv s
  script : ScriptInv stops k s
  main : s.main.clean = true
  workers : ∀ i, (s.workers i).pc.clean = true
  synced : s.syncFailed = false
  whole : s.broken = false
  own : ∀ i, (s.workers i).ownFailed = false
  exits : s.exitRequested = s.main.exiting
  waits : ∀ i, (s.workers i).pc = .wait → s.generation = (s.workers i).seenGen ∧ s.exitRequested = false
  blocks : ∀ i, (s.workers i).pc = .blocked false →
    (s.generation = (s.workers i).seenGen ∧ s.exitRequested = false) ∨ ∃ caster, s.main = .cast caster
  sleeps : s.main = .timedwait ∨ s.main = .asleep false → s.pending = 0 → Notifying s
  reaped : s.main = .idle (some (.stopped false)) → ∀ i, (s.workers i).started = false

theorem cleanInv_initial {n : Nat} (fits : n ≤ p) (stops : Bool) (k : Nat) :
    CleanInv stops k (initial p n (script stops k)) where
  fault := ⟨gateInv_initial fits _,fateInv_initial n _⟩
  script := ⟨fun _ => ⟨k,rfl,by simp [initial,MainPc.unarmed]⟩,by simp [initial,MainPc.stopping,MainPc.exiting]⟩
  main := rfl
  workers i := by by_cases inside : i.val < n <;> simp [initial,freshWorker,inside,WorkerPc.clean]
  synced := rfl
  whole := rfl
  own _ := rfl
  exits := rfl
  waits i := by by_cases inside : i.val < n <;> simp [initial,freshWorker,inside]
  blocks i := by by_cases inside : i.val < n <;> simp [initial,freshWorker,inside]
  sleeps := by simp [initial]
  reaped := by simp [initial]

theorem cleanInv_main {stops : Bool} {k : Nat} (inv : CleanInv stops k s) (move : MainMove s .ok t)
    (fault : FaultInv t) : CleanInv stops k t := by
  have final := inv.fault.1.rounds.final
  have step := move.clean inv.main inv.synced inv.whole inv.exits final inv.script
  have kept := move.moved.workers
  refine ⟨fault,move.script inv.main inv.synced final inv.script,step.clean,fun i => ?_,step.syncFailed,
    step.broken,fun i => (kept i).ownFailed.trans (inv.own i),step.exits,fun i waiting => ?_,fun i blocked => ?_,
    fun asleep none => ?_,fun back i => ?_⟩
  · rw [(kept i).class WorkerPc.clean (fun _ => rfl)]; exact inv.workers i
  · rw [(kept i).at_iff (by simp)] at waiting
    rw [(kept i).same.seenGen]
    rcases step.flags with ⟨generation,exit⟩ | ⟨holding,_⟩
    · rw [generation,exit]; exact inv.waits i waiting
    · have mine : s.holdsLock (.worker i) = true := by simp [State.holdsLock,waiting,WorkerPc.holdsLock]
      have owns : s.holdsLock .main = true := holding
      have both := Mutex.owned_unique inv.fault.1.locks.lock owns mine
      contradiction
  · have before := (kept i).blocked blocked
    rw [(kept i).same.seenGen]
    rcases step.flags with ⟨generation,exit⟩ | ⟨_,casting⟩
    · rw [generation,exit]
      rcases inv.blocks i before with known | ⟨caster,at_cast⟩
      · exact .inl known
      · exact absurd blocked (step.casts caster at_cast i)
    · exact .inr casting
  · rcases asleep with waiting | asleep
    · exact absurd none (step.loads waiting)
    · obtain ⟨waiting,pending,workers⟩ := step.sleeps asleep
      rw [pending] at none
      rw [Notifying,workers]
      exact inv.sleeps (.inl waiting) none
  · have unstarted : (s.workers i).started = false := by
      rcases move.recovery.returns _ back with done | ⟨why,exitOk,bad,same,_,_,ending⟩
      · contradiction
      · obtain ⟨rfl,rfl⟩ : why = .stop ∧ bad = false := by
          cases why <;> simp_all [Recovery.returns]
        rcases ending with ⟨_,bad⟩ | stopped | ⟨l,_,waiting⟩
        · contradiction
        · exact inv.fault.1.stop.stopped _ _ stopped i
        · have clean := inv.main
          simp [waiting,MainPc.clean] at clean
    rcases move.moved.started i with same | ⟨_,joined⟩
    · rw [same]; exact unstarted
    · exact joined

theorem cleanInv_worker {stops : Bool} {k : Nat} {i : Fin p} (inv : CleanInv stops k s)
    (move : WorkerMove s i (some .ok) t) (fault : FaultInv t) : CleanInv stops k t := by
  have moved := move.moved
  have step := move.clean (inv.workers i) inv.synced
  have main {α : Type} (f : MainPc → α) (signal : ∀ pc : MainPc, f pc.signal = f pc) : f t.main = f s.main := by
    rcases moved.main with same | same
    · rw [same]
    · rw [same,signal]
  refine ⟨fault,scriptInv_same inv.script (main _ signal_stopping) (main _ signal_unarmed) moved.calls moved.round,
    (main _ signal_clean).trans inv.main,fun j => ?_,step.syncFailed,moved.broken.trans inv.whole,fun j => ?_,
    ?_,fun j waiting => ?_,fun j blocked => ?_,fun asleep none => ?_,fun back j => ?_⟩
  · rcases eq_or_ne j i with rfl | other
    · exact step.clean
    · rw [moved.others j other]; exact inv.workers j
  · rcases eq_or_ne j i with rfl | other
    · rw [step.ownFailed]; exact inv.own j
    · rw [moved.others j other]; exact inv.own j
  · rw [moved.exitRequested,main _ signal_exiting]; exact inv.exits
  · rcases eq_or_ne j i with rfl | other
    · exact step.waits waiting
    · rw [moved.others j other] at waiting ⊢
      rw [moved.generation,moved.exitRequested]
      exact inv.waits j waiting
  · rcases eq_or_ne j i with rfl | other
    · obtain ⟨waited,seen⟩ := step.blocks blocked
      rw [moved.generation,moved.exitRequested,seen]
      exact .inl (inv.waits j waited)
    · rw [moved.others j other] at blocked ⊢
      rw [moved.generation,moved.exitRequested]
      rcases inv.blocks j blocked with known | ⟨caster,at_cast⟩
      · exact .inl known
      · refine .inr ⟨caster,?_⟩
        rcases moved.main with same | same <;> simp [same,at_cast,MainPc.signal]
  · have before : s.main = .timedwait ∨ s.main = .asleep false := by
      rcases moved.main with same | same
      · rw [← same]; exact asleep
      · rw [same] at asleep
        cases pc : s.main <;> simp_all [MainPc.signal]
    rcases step.counts with same | ⟨counted,last⟩
    · obtain ⟨j,notifying⟩ := inv.sleeps before (same.symm.trans none)
      rcases eq_or_ne j i with rfl | other
      · rcases notifying with locking | signalling
        · exact ⟨j,.inr (step.notifies locking)⟩
        · have signalled := step.signals signalling
          rcases before with waiting | sleeping
          · have holding : s.holdsDone (.worker j) = true := by
              simp [State.holdsDone,signalling,WorkerPc.holdsDone]
            have mine : s.holdsDone .main = true := by simp [State.holdsDone,waiting,MainPc.holdsDone]
            have both := Mutex.owned_unique inv.fault.1.locks.done mine holding
            contradiction
          · rw [signalled,sleeping] at asleep
            simp [MainPc.signal] at asleep
      · exact ⟨j,by rw [moved.others j other]; exact notifying⟩
    · exact ⟨i,.inl (last (by omega))⟩
  · have idle := inv.reaped (signalled_main (by simp) moved.main back) j
    rcases eq_or_ne j i with rfl | other
    · rw [moved.started]; exact idle
    · rw [moved.others j other]; exact idle

theorem cleanInv_woken {stops : Bool} {k : Nat} (inv : CleanInv stops k s) (woken : Woken s t)
    (fault : FaultInv t) : CleanInv stops k t := by
  have main {α : Type} (f : MainPc → α) (signal : ∀ pc : MainPc, f pc.signal = f pc) : f t.main = f s.main := by
    rcases woken.main with same | same
    · rw [same]
    · rw [same,signal]
  have kept := woken.workers
  refine ⟨fault,scriptInv_same inv.script (main _ signal_stopping) (main _ signal_unarmed) woken.calls woken.round,
    (main _ signal_clean).trans inv.main,fun i => ?_,woken.syncFailed.trans inv.synced,
    woken.broken.trans inv.whole,fun i => (kept i).ownFailed.trans (inv.own i),?_,fun i waiting => ?_,
    fun i blocked => ?_,fun asleep none => ?_,
    fun back i => (woken.threads i).1.trans (inv.reaped (signalled_main (by simp) woken.main back) i)⟩
  · rw [(kept i).class WorkerPc.clean (fun _ => rfl)]; exact inv.workers i
  · rw [woken.exitRequested,main _ signal_exiting]; exact inv.exits
  · rw [(kept i).at_iff (by simp)] at waiting
    rw [(kept i).same.seenGen,woken.generation,woken.exitRequested]
    exact inv.waits i waiting
  · have before := (kept i).blocked blocked
    rw [(kept i).same.seenGen,woken.generation,woken.exitRequested]
    rcases inv.blocks i before with known | ⟨caster,at_cast⟩
    · exact .inl known
    · refine .inr ⟨caster,?_⟩
      rcases woken.main with same | same <;> simp [same,at_cast,MainPc.signal]
  · have before : s.main = .timedwait ∨ s.main = .asleep false := by
      rcases woken.main with same | same
      · rw [← same]; exact asleep
      · rw [same] at asleep
        cases pc : s.main <;> simp_all [MainPc.signal]
    obtain ⟨i,notifying⟩ := inv.sleeps before (woken.pending.symm.trans none)
    refine ⟨i,?_⟩
    rw [(kept i).at_iff (by simp),(kept i).at_iff (by simp)]
    exact notifying

theorem cleanInv_step {stops : Bool} {k : Nat} {a : Action p} (unfailing : a.fault = false)
    (inv : CleanInv stops k s) (moved : step s a = some t) : CleanInv stops k t := by
  have fault := faultInv_step inv.fault moved
  cases a with
  | main outcome =>
    obtain rfl : outcome = .ok := by simpa [Action.fault] using unfailing
    exact cleanInv_main inv (mainStep_moves moved) fault
  | worker i outcome =>
    obtain rfl : outcome = .ok := by simpa [Action.fault] using unfailing
    exact cleanInv_worker inv (workerStep_moves moved) fault
  | wake i => exact cleanInv_woken inv (wake_woken moved) fault
  | wakeMain => exact cleanInv_woken inv (wakeMain_woken moved) fault
  | cancelled i =>
    have unasked := inv.fault.2.asked inv.whole i
    cases cancelledStep_moves moved <;> simp_all

theorem cleanInv_run {n : Nat} {stops : Bool} {k : Nat} {actions : List (Action p)} (fits : n ≤ p)
    (unfailing : ∀ a ∈ actions, a.fault = false)
    (executed : run step (initial p n (script stops k)) actions = some s) : CleanInv stops k s :=
  Runs.run_preserves (fun _ _ _ allowed inv moved => cleanInv_step allowed inv moved) unfailing
    (cleanInv_initial fits stops k) executed

/-! ## Every dispatch runs every worker once -/

/-- While the exit is not requested, every worker can still run. -/
theorem clean_live {stops : Bool} {k : Nat} (inv : CleanInv stops k s) (running : s.main.exiting = false)
    {i : Fin p} (inside : i.val < s.nWorkers) : (s.workers i).pc.live = true := by
  by_contra dead
  rcases inv.fault.2.fate i inside (by simpa using dead) with failed | asked | ⟨exit,_⟩
  · rw [inv.own i] at failed; contradiction
  · rw [inv.fault.2.asked inv.whole i] at asked; contradiction
  · rw [inv.exits,running] at exit; contradiction

theorem exiting_of_stops {k : Nat} (inv : CleanInv false k s) : s.main.exiting = false := by
  by_contra exiting
  have stopping : s.main.stopping = true := by
    cases pc : s.main <;> simp_all [MainPc.stopping]
  simpa using (inv.script.after stopping).1

/-- Each of the `n` workers has run and finished the first `r` dispatches, each
    of them once, and is not inside `ops->run`. -/
def AllRan (s : State p) (n r : Nat) : Prop :=
  ∀ i, i.val < n → (s.workers i).pc ≠ .run ∧ (s.workers i).ran = downTo r ∧ (s.workers i).completed = downTo r

/-- How many of the `k` dispatches the owner has called. -/
def State.called (s : State p) (k : Nat) : Nat := k - s.calls.length

theorem length_script (k : Nat) : (script false k).length = k := by
  induction k with
  | zero => rfl
  | succ k ih => simp [script,ih]

/-- Workers that can still run and have finished the last generation ran all of
    them once. -/
theorem allRan_of_settled {n : Nat} (logs : ∀ i, LogInv (s.workers i))
    (settled : ∀ i : Fin p, i.val < n → (s.workers i).seenRound = s.round ∧ (s.workers i).pc.owes = false) :
    AllRan s n s.round := by
  intro i inside
  obtain ⟨seen,idle⟩ := settled i inside
  obtain ⟨ran,completed⟩ := (logInv_idle idle).mp (logs i)
  refine ⟨fun running => ?_,by rw [ran,seen],by rw [completed,seen]⟩
  rw [running] at idle
  contradiction

theorem round_called {k : Nat} (inv : CleanInv false k s) :
    s.round = s.called k - s.main.unarmed.toNat := by
  have running : s.main.stopping = false := by
    by_contra stopping
    simpa using (inv.script.after (by simpa using stopping)).1
  obtain ⟨m,calls,count⟩ := inv.script.before running
  have left : s.calls.length = m := by rw [calls,length_script]
  simp only [State.called,left]
  omega

/-- Where a worker stands between the last dispatch and the one before it. -/
theorem ran_near {i : Fin p} (inv : GateInv s) (living : (s.workers i).pc.live = true) :
    ∃ m, m ≤ s.round ∧ s.round ≤ m + 1 ∧ (s.workers i).ran = downTo m ∧
      ((s.workers i).completed = downTo m ∨
        (s.workers i).pc = .run ∧ (s.workers i).completed = downTo (m - 1)) := by
  have bound := inv.rounds.bound i
  have near := inv.rounds.near i living
  have ran := (inv.logs i).ran
  have completed := (inv.logs i).completed
  by_cases taken : (s.workers i).pc = .unlock .run
  · have current := inv.rounds.owes i (by rw [taken]; rfl)
    simp only [Worker.entered,Worker.left,taken,true_or,if_true] at ran completed
    exact ⟨(s.workers i).seenRound - 1,by omega,by omega,ran,.inl completed⟩
  · simp only [Worker.entered,taken,if_false] at ran
    refine ⟨(s.workers i).seenRound,bound,near,ran,?_⟩
    by_cases running : (s.workers i).pc = .run
    · simp only [Worker.left,running,or_true,if_true] at completed
      exact .inr ⟨running,completed⟩
    · simp only [Worker.left,taken,running,or_self,if_false] at completed
      exact .inl completed

/-- Exactly-once dispatch without faults, for any number of workers and of
    successive dispatches and any interleaving. Every dispatch returns 0, and
    when it does each worker has run and finished each dispatch so far once. No
    callback is running between a return and the next generation. A dispatch
    leaves its completion wait only when every worker finished its generation,
    and at any moment a worker is at most one dispatch behind. -/
theorem dispatch_exactly_once {n k : Nat} {actions : List (Action p)} (fits : n ≤ p)
    (unfailing : ∀ a ∈ actions, a.fault = false)
    (executed : run step (initial p n (script false k)) actions = some s) :
    (∀ last, s.main = .idle last → (last = none ∨ last = some .done) ∧ AllRan s n (s.called k)) ∧
    (s.main.unarmed = true → AllRan s n (s.called k - 1)) ∧
    (s.main.finished = true → AllRan s n (s.called k)) ∧
    (∀ i, i.val < n → ∃ m, m ≤ s.round ∧ s.round ≤ m + 1 ∧ (s.workers i).ran = downTo m ∧
      ((s.workers i).completed = downTo m ∨
        (s.workers i).pc = .run ∧ (s.workers i).completed = downTo (m - 1))) := by
  have inv := cleanInv_run fits unfailing executed
  have nWorkers := nWorkers_run executed
  have living : ∀ i : Fin p, i.val < n → (s.workers i).pc.live = true :=
    fun i inside => clean_live inv (exiting_of_stops inv) (by rw [nWorkers]; exact inside)
  have round := round_called inv
  have between (quiet : s.main.quiet = true) : AllRan s n s.round :=
    allRan_of_settled inv.fault.1.logs (fun i inside => inv.fault.1.rounds.quiet quiet i (living i inside))
  refine ⟨fun last back => ⟨?_,?_⟩,fun unarmed => ?_,fun finished => ?_,fun i inside => ?_⟩
  · have clean := inv.main
    have exiting := exiting_of_stops inv
    rw [back] at clean exiting
    rcases last with _ | _ | _ | _ | _ <;> simp_all [MainPc.clean,MainPc.exiting]
  · have all := between (by rw [back]; rfl)
    rw [round,back] at all
    exact all
  · have quiet : s.main.quiet = true := by cases pc : s.main <;> simp_all [MainPc.unarmed,MainPc.quiet]
    have all := between quiet
    rw [round,unarmed] at all
    exact all
  · have armed : s.main.unarmed = false := by cases pc : s.main <;> simp_all [MainPc.unarmed,MainPc.finished]
    have elsewhere : s.main ≠ .bump := by
      intro at_bump
      simp [at_bump,MainPc.finished] at finished
    have all := allRan_of_settled inv.fault.1.logs (fun i inside =>
      settled_of_none inv.fault.1.rounds inv.fault.1.stop elsewhere (inv.fault.1.rounds.final finished) i
        (living i inside))
    rw [round,armed] at all
    exact all
  · exact ran_near inv.fault.1 (living i inside)

/-- A dispatch of two workers, up to where the last finisher has counted itself
    off while the main thread sleeps. -/
def oneRound (first last : Fin p) : List (Action p) :=
  List.replicate 12 (.main .ok) ++ List.replicate 8 (.worker first .ok) ++ List.replicate 8 (.worker last .ok)

/-- Two dispatches, each until it has returned. -/
def twoDispatches (first last : Fin p) : List (Action p) :=
  let dispatch := oneRound first last ++ List.replicate 3 (.worker last .ok) ++ List.replicate 6 (.main .ok)
  [.worker first .ok,.worker last .ok] ++ dispatch ++ dispatch

theorem dispatch_exactly_once_twice :
    ∃ s, run step (initial 2 2 (script false 2)) (twoDispatches 1 0) = some s ∧
      s.main = .idle (some .done) ∧ AllRan s 2 2 := by
  obtain ⟨s,executed⟩ := Option.isSome_iff_exists.mp
    (by decide +kernel : (run step (initial 2 2 (script false 2)) (twoDispatches 1 0)).isSome = true)
  have back : s.main = .idle (some .done) := Runs.run_value State.main executed (by decide +kernel)
  have called : s.called 2 = 2 := Runs.run_value (fun s => s.called 2) executed (by decide +kernel)
  have all := ((dispatch_exactly_once (by decide) (by decide) executed).1 _ back).2
  rw [called] at all
  exact ⟨s,executed,back,all⟩

/-! ## No lost wake-up and no deadlock -/

/-- The owner has made all its calls and every thread has ended. -/
def AllDone (s : State p) : Prop :=
  (∃ last, s.main = .idle last) ∧ s.calls = [] ∧
    ∀ i, (s.workers i).pc = .absent ∨ (s.workers i).pc = .terminated

/-- Where a worker cannot go on by itself. -/
theorem worker_stuck {i : Fin p} (clean : (s.workers i).pc.clean = true) (stuck : workerStep s i .ok = none) :
    ((s.workers i).pc = .absent ∨ (s.workers i).pc = .terminated ∨ (s.workers i).pc = .blocked false) ∨
      s.lock ≠ none ∨ s.doneLock ≠ none ∧ (s.workers i).pc = .notifyLock .finished := by
  unfold workerStep at stuck
  cases pc : (s.workers i).pc with
  | blocked woken => cases woken <;> simp_all
  | _ =>
    simp only [pc] at stuck
    all_goals (try split at stuck) <;> simp_all [WorkerPc.clean]

/-- Where the main thread cannot go on by itself. -/
theorem main_stuck (clean : s.main.clean = true) (stuck : mainStep s .ok = none) :
    (∃ last, s.main = .idle last) ∧ s.calls = [] ∨ s.lock ≠ none ∨ s.doneLock ≠ none ∧ s.main.holdsDone = false ∨
      s.main = .asleep false ∨
      ∃ (i : Fin p) (why : Recovery) (exitOk bad : Bool), s.main = .join why exitOk i bad ∧
        (s.workers i).started = true ∧ (s.workers i).pc ≠ .terminated := by
  unfold mainStep at stuck
  cases pc : s.main with
  | idle last =>
    left
    simp only [pc,callStep] at stuck
    split at stuck <;> simp_all
  | cancel | await => simp [pc,MainPc.clean] at clean
  | join why exitOk k bad =>
    simp only [pc,joinStep] at stuck
    split at stuck <;> (try split at stuck) <;> (try split at stuck) <;> simp at stuck
    · exact .inr (.inr (.inr (.inr ⟨⟨k,‹_›⟩,why,exitOk,bad,rfl,‹_›,‹_›⟩)))
    · cases running : (s.workers ⟨k,‹_›⟩).started <;> simp_all
  | _ =>
    simp only [pc,State.takeDone] at stuck
    all_goals (try split at stuck) <;> (try split at stuck) <;> simp_all [MainPc.holdsDone,MainPc.clean]

/-- A worker that holds a lock goes on to give it back. -/
theorem worker_holding {i : Fin p} (clean : (s.workers i).pc.clean = true)
    (holds : (s.workers i).pc.holdsLock = true ∨ (s.workers i).pc.holdsDone = true) :
    workerStep s i .ok ≠ none := by
  intro stuck
  unfold workerStep at stuck
  cases pc : (s.workers i).pc with
  | test =>
    simp only [pc] at stuck
    split at stuck <;> contradiction
  | unlock result => cases result <;> simp [pc] at stuck
  | _ => simp_all [WorkerPc.clean,WorkerPc.holdsLock,WorkerPc.holdsDone]

theorem main_holding (clean : s.main.clean = true)
    (holds : s.main.holdsLock = true ∨ s.main.holdsDone = true) : mainStep s .ok ≠ none := by
  intro stuck
  unfold mainStep at stuck
  cases pc : s.main <;> simp_all [MainPc.clean,MainPc.holdsLock,MainPc.holdsDone]

/-- Where no thread can go on by itself, both locks are free. -/
theorem stuck_free {stops : Bool} {k : Nat} (inv : CleanInv stops k s) (mainStuck : mainStep s .ok = none)
    (stuck : ∀ i, workerStep s i .ok = none) : s.lock = none ∧ s.doneLock = none := by
  have locks := inv.fault.1.locks
  constructor
  · cases owner : s.lock with
    | none => rfl
    | some who =>
      exfalso
      have holds := (locks.lock who).mp owner
      cases who with
      | main => exact main_holding inv.main (.inl holds) mainStuck
      | worker i => exact worker_holding (inv.workers i) (.inl holds) (stuck i)
  · cases owner : s.doneLock with
    | none => rfl
    | some who =>
      exfalso
      have holds := (locks.done who).mp owner
      cases who with
      | main => exact main_holding inv.main (.inr holds) mainStuck
      | worker i => exact worker_holding (inv.workers i) (.inr holds) (stuck i)

/-- Without faults no thread holds both locks. -/
theorem one_lock {stops : Bool} {k : Nat} (inv : CleanInv stops k s) (who : Tid p) :
    ¬ (s.lock = some who ∧ s.doneLock = some who) := by
  rintro ⟨gate,done⟩
  have locks := inv.fault.1.locks
  have gateHeld := (locks.lock who).mp gate
  have doneHeld := (locks.done who).mp done
  cases who with
  | main =>
    simp only [State.holdsLock,State.holdsDone] at gateHeld doneHeld
    cases pc : s.main <;> simp_all [MainPc.holdsLock,MainPc.holdsDone]
  | worker i =>
    have clean := inv.workers i
    simp only [State.holdsLock,State.holdsDone] at gateHeld doneHeld
    cases pc : (s.workers i).pc <;> simp_all [WorkerPc.holdsLock,WorkerPc.holdsDone,WorkerPc.clean]

/-- A worker that has not taken the last generation is not blocked for good. -/
theorem blocked_known {stops : Bool} {k : Nat} {i : Fin p} (inv : CleanInv stops k s)
    (blocked : (s.workers i).pc = .blocked false) (uncast : ∀ caster, s.main ≠ .cast caster) :
    (s.workers i).seenRound = s.round ∧ s.exitRequested = false := by
  rcases inv.blocks i blocked with ⟨known,exit⟩ | ⟨caster,at_cast⟩
  · rw [inv.fault.1.rounds.generation,inv.fault.1.rounds.seen i] at known
    have near := inv.fault.1.rounds.near i (by rw [blocked]; rfl)
    exact ⟨(generation_eq_iff (inv.fault.1.rounds.bound i) near).mp known,exit⟩
  · exact absurd at_cast (uncast caster)

/-- Where no thread can go on by itself, the work is done. -/
theorem allDone_of_stuck {k : Nat} (inv : CleanInv true k s) (mainStuck : mainStep s .ok = none)
    (stuck : ∀ i, workerStep s i .ok = none) : AllDone s := by
  obtain ⟨free,doneFree⟩ := stuck_free inv mainStuck stuck
  have stop := inv.fault.1.stop
  have still (i : Fin p) : (s.workers i).pc = .absent ∨ (s.workers i).pc = .terminated ∨
      (s.workers i).pc = .blocked false := by
    rcases worker_stuck (inv.workers i) (stuck i) with still | locked | ⟨locked,_⟩
    · exact still
    · exact absurd free locked
    · exact absurd doneFree locked
  rcases main_stuck inv.main mainStuck with ⟨⟨last,back⟩,calls⟩ | locked | ⟨locked,_⟩ | asleep |
      ⟨i,why,exitOk,bad,joining,started,running⟩
  · -- The calls are used up, so the stop has returned and has joined every worker.
    refine ⟨⟨last,back⟩,calls,fun i => ?_⟩
    have stopping : s.main.stopping = true := by
      by_contra before
      obtain ⟨m,left,_⟩ := inv.script.before (by simpa using before)
      rw [calls] at left
      cases m <;> simp [script] at left
    have clean := inv.main
    rw [back] at stopping clean
    have stopped : last = some (.stopped false) := by
      rcases last with _ | _ | _ | _ | bad <;> simp_all [MainPc.stopping,MainPc.exiting,MainPc.clean]
    have idle := inv.reaped (by rw [back,stopped]) i
    rcases Nat.lt_or_ge i.val s.nWorkers with inside | outside
    · exact .inr (stop.reaped i inside idle)
    · exact .inl ((stop.present i).mpr outside)
  · exact absurd free locked
  · exact absurd doneFree locked
  · -- Main sleeps: a finisher is about to signal, or some worker still owes the generation.
    exfalso
    have uncast : ∀ caster, s.main ≠ .cast caster := by simp [asleep]
    by_cases none : s.pending = 0
    · obtain ⟨i,notifying⟩ := inv.sleeps (.inr asleep) none
      rcases still i with at_pc | at_pc | at_pc <;> simp [at_pc] at notifying
    · have count := inv.fault.1.rounds.pending (by simp [asleep])
      obtain ⟨i,member⟩ : (owing s).Nonempty := by
        rw [← Finset.card_ne_zero]
        omega
      obtain ⟨inside,owes⟩ : Owing s i := by simpa [owing] using member
      have living := clean_live inv (by rw [asleep]; rfl) inside
      rcases still i with absent | terminated | blocked
      · simp [absent,WorkerPc.live] at living
      · simp [terminated,WorkerPc.live] at living
      · have known := (blocked_known inv blocked uncast).1
        rcases owes with owes | unseen
        · simp [blocked,WorkerPc.owes] at owes
        · omega
  · -- Main joins a worker: it saw the exit request, so it does not wait for good.
    exfalso
    have exit : s.exitRequested = true := by rw [inv.exits,joining]; rfl
    rcases still i with absent | terminated | blocked
    · rw [stop.absent i ((stop.present i).mp absent)] at started
      contradiction
    · exact running terminated
    · rw [(blocked_known inv blocked (by simp [joining])).2] at exit
      contradiction

/-- No wake-up is lost and no state is stuck in a run without faults, for any
    number of workers, any number of dispatches before the stop and any
    interleaving. If the main thread sleeps with nothing pending, it is woken
    already or the last finisher has yet to signal. If a worker sleeps with a new
    generation or an exit request published, it is woken already or the lock's
    holder has yet to broadcast. No thread holds both locks, so they are never
    taken in opposite orders. Until all is done, some thread can go on without a
    timeout or a spurious wake-up. -/
theorem no_lost_wakeup {n k : Nat} {actions : List (Action p)} (fits : n ≤ p)
    (unfailing : ∀ a ∈ actions, a.fault = false)
    (executed : run step (initial p n (script true k)) actions = some s) :
    (∀ woken, s.main = .asleep woken → s.pending = 0 → woken = true ∨ Notifying s) ∧
    (∀ i woken, (s.workers i).pc = .blocked woken →
      s.generation ≠ (s.workers i).seenGen ∨ s.exitRequested = true →
        woken = true ∨ s.lock = some .main ∧ ∃ caster, s.main = .cast caster) ∧
    (∀ who, ¬ (s.lock = some who ∧ s.doneLock = some who)) ∧
    (AllDone s ∨ step s (.main .ok) ≠ none ∨ ∃ i, step s (.worker i .ok) ≠ none) := by
  have inv := cleanInv_run fits unfailing executed
  refine ⟨fun woken asleep none => ?_,fun i woken blocked news => ?_,one_lock inv,?_⟩
  · cases woken
    · exact .inr (inv.sleeps (.inr asleep) none)
    · exact .inl rfl
  · cases woken
    · rcases inv.blocks i blocked with ⟨known,exit⟩ | ⟨caster,at_cast⟩
      · rcases news with unseen | asked
        · exact absurd known unseen
        · rw [exit] at asked; contradiction
      · exact .inr ⟨(inv.fault.1.locks.lock .main).mpr (by simp [State.holdsLock,at_cast,MainPc.holdsLock]),
          caster,at_cast⟩
    · exact .inl rfl
  · by_cases mainStuck : mainStep s .ok = none
    · by_cases stuck : ∀ i, workerStep s i .ok = none
      · exact .inl (allDone_of_stuck inv mainStuck stuck)
      · exact .inr (.inr (by simpa [step] using stuck))
    · exact .inr (.inl mainStuck)

theorem no_lost_wakeup_late : ∃ s, run step (initial 2 2 (script true 1))
    ([.worker 0 .ok,.worker 1 .ok] ++ oneRound 1 0) = some s ∧ s.main = .asleep false ∧ Notifying s := by
  obtain ⟨s,executed⟩ := Option.isSome_iff_exists.mp (by decide +kernel :
    (run step (initial 2 2 (script true 1)) ([.worker 0 .ok,.worker 1 .ok] ++ oneRound 1 0)).isSome = true)
  have asleep : s.main = .asleep false := Runs.run_value State.main executed (by decide +kernel)
  have none : s.pending = 0 := Runs.run_value State.pending executed (by decide +kernel)
  rcases (no_lost_wakeup (by decide) (by decide) executed).1 false asleep none with woken | notifying
  · contradiction
  · exact ⟨s,executed,asleep,notifying⟩

end AutoUpscale.Gate
