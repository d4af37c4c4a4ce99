import AutoUpscale.Gate

/-!
The branches of the steps of the gate, taken apart once: `WorkerMove` and `MainMove` have
a constructor for every branch that goes on, with the program point, the guard and the
next state. What holds of every step is proved by cases of these.
-/
namespace AutoUpscale.Gate
variable {p : Nat} {s t : State p}

/-! ## The workers -/

/-- What worker `i` does, by the outcome of its operation, or without one where it is
    cancelled: the branches of `workerStep` and `cancelledStep` that go on. -/
inductive WorkerMove (s : State p) (i : Fin p) : Option Outcome → State p → Prop
  | start (pc : (s.workers i).pc = .start) : WorkerMove s i (some .ok) (s.goto i .lock)
  | startFails (pc : (s.workers i).pc = .start) : WorkerMove s i (some .fail) (s.fault i (.report .unlocked))
  | lock (pc : (s.workers i).pc = .lock) (free : s.lock = none) :
      WorkerMove s i (some .ok) { s.goto i .enable with lock := some (.worker i) }
  | lockFails (pc : (s.workers i).pc = .lock) : WorkerMove s i (some .fail) (s.fault i (.report .unlocked))
  | enable (pc : (s.workers i).pc = .enable) : WorkerMove s i (some .ok) (s.goto i .test)
  | enableFails (pc : (s.workers i).pc = .enable) : WorkerMove s i (some .fail) (s.fault i (.disable false))
  | rest (pc : (s.workers i).pc = .test) (same : s.generation = (s.workers i).seenGen) (open_ : s.exitRequested = false) :
      WorkerMove s i (some .ok) (s.goto i .wait)
  | go (pc : (s.workers i).pc = .test) (news : ¬ (s.generation = (s.workers i).seenGen ∧ s.exitRequested = false)) :
      WorkerMove s i (some .ok) (s.goto i (.disable true))
  | wait (pc : (s.workers i).pc = .wait) : WorkerMove s i (some .ok) { s.goto i (.blocked false) with lock := none }
  | waitFails (pc : (s.workers i).pc = .wait) : WorkerMove s i (some .fail) (s.fault i (.disable false))
  | awake (pc : (s.workers i).pc = .blocked true) (free : s.lock = none) :
      WorkerMove s i (some .ok) { s.goto i .test with lock := some (.worker i) }
  | blockedFails {woken : Bool} (pc : (s.workers i).pc = .blocked woken) (free : s.lock = none) :
      WorkerMove s i (some .fail) { s.fault i (.disable false) with lock := some (.worker i) }
  | disable (pc : (s.workers i).pc = .disable true) : WorkerMove s i (some .ok) (s.goto i .take)
  | disableFailed (pc : (s.workers i).pc = .disable false) : WorkerMove s i (some .ok) (s.goto i (.report .locked))
  | disableFails {waited : Bool} (pc : (s.workers i).pc = .disable waited) :
      WorkerMove s i (some .fail) (s.fault i (.report .locked))
  | take (pc : (s.workers i).pc = .take) : WorkerMove s i (some .ok) (s.set i { s.workers i with
      pc := .unlock (if s.generation = (s.workers i).seenGen then .exit else .run)
      seenGen := s.generation
      seenRound := s.round })
  | enter (pc : (s.workers i).pc = .unlock .run) : WorkerMove s i (some .ok)
      { s.set i { s.workers i with pc := .run, ran := s.round :: (s.workers i).ran } with lock := none }
  | unlock {result : Go} (pc : (s.workers i).pc = .unlock result) (ends : result ≠ .run) :
      WorkerMove s i (some .ok) { s.goto i .publish with lock := none }
  | run (pc : (s.workers i).pc = .run) : WorkerMove s i (some .ok)
      (s.set i { s.workers i with pc := .workerDone, completed := s.round :: (s.workers i).completed })
  | workerDone (pc : (s.workers i).pc = .workerDone) (more : s.pending ≠ 1) :
      WorkerMove s i (some .ok) { s.goto i .lock with pending := s.pending - 1 }
  | lastDone (pc : (s.workers i).pc = .workerDone) (last : s.pending = 1) :
      WorkerMove s i (some .ok) { s.goto i (.notifyLock .finished) with pending := s.pending - 1 }
  | report {back : Notify} (pc : (s.workers i).pc = .report back) :
      WorkerMove s i (some .ok) { s.goto i (.notifyLock back) with syncFailed := true }
  | notifyLock {back : Notify} (pc : (s.workers i).pc = .notifyLock back) (free : s.doneLock = none) :
      WorkerMove s i (some .ok) { s.goto i (.notifySignal back) with doneLock := some (.worker i) }
  | notifyLockFails {back : Notify} (pc : (s.workers i).pc = .notifyLock back) :
      WorkerMove s i (some .fail) (s.goto i back.failed)
  | notifySignal {back : Notify} (pc : (s.workers i).pc = .notifySignal back) :
      WorkerMove s i (some .ok) { s.goto i (.notifyUnlock back true) with main := s.main.signal }
  | notifySignalFails {back : Notify} (pc : (s.workers i).pc = .notifySignal back) :
      WorkerMove s i (some .fail) (s.goto i (.signalFailed back))
  | signalFailed {back : Notify} (pc : (s.workers i).pc = .signalFailed back) :
      WorkerMove s i (some .ok) { s.goto i (.notifyUnlock back false) with syncFailed := true }
  | notifyUnlock {back : Notify} (pc : (s.workers i).pc = .notifyUnlock back true) :
      WorkerMove s i (some .ok) { s.goto i back.notified with doneLock := none }
  | notifyUnlockFailed {back : Notify} (pc : (s.workers i).pc = .notifyUnlock back false) :
      WorkerMove s i (some .ok) { s.goto i back.failed with doneLock := none }
  | doneFailed (pc : (s.workers i).pc = .doneFailed) :
      WorkerMove s i (some .ok) { s.goto i .lock with syncFailed := true }
  | cancelUnlock (pc : (s.workers i).pc = .cancelUnlock) :
      WorkerMove s i (some .ok) { s.goto i .publish with lock := none }
  | publish (pc : (s.workers i).pc = .publish) :
      WorkerMove s i (some .ok) (s.set i { s.workers i with pc := .leaving, exited := true })
  | leaving (pc : (s.workers i).pc = .leaving) : WorkerMove s i (some .ok) (s.goto i .terminated)
  | cancelled (pc : (s.workers i).pc = .wait) (asked : (s.workers i).cancelled = true) :
      WorkerMove s i none (s.goto i .cancelUnlock)
  | cancelledBlocked {woken : Bool} (pc : (s.workers i).pc = .blocked woken) (asked : (s.workers i).cancelled = true)
      (free : s.lock = none) : WorkerMove s i none { s.goto i .cancelUnlock with lock := some (.worker i) }

theorem workerStep_moves {i : Fin p} {outcome : Outcome} (moved : workerStep s i outcome = some t) :
    WorkerMove s i (some outcome) t := by
  unfold workerStep at moved
  cases pc : (s.workers i).pc with
  | absent | terminated => cases outcome <;> simp [pc] at moved
  | start =>
    cases outcome <;> simp only [pc] at moved <;> cases moved
    · exact .start pc
    · exact .startFails pc
  | lock =>
    cases outcome <;> simp only [pc] at moved
    · split at moved <;> cases moved
      exact .lock pc ‹_›
    · cases moved
      exact .lockFails pc
    · cases moved
  | enable =>
    cases outcome <;> simp only [pc] at moved <;> cases moved
    · exact .enable pc
    · exact .enableFails pc
  | test =>
    cases outcome <;> simp only [pc] at moved
    · split at moved <;> cases moved
      · rename_i idle
        exact .rest pc idle.1 idle.2
      · exact .go pc ‹_›
    · cases moved
    · cases moved
  | wait =>
    cases outcome <;> simp only [pc] at moved <;> cases moved
    · exact .wait pc
    · exact .waitFails pc
  | blocked woken =>
    cases outcome <;> simp only [pc] at moved
    · split at moved <;> cases moved
      rename_i ready
      obtain ⟨rfl,free⟩ := ready
      exact .awake pc free
    · split at moved <;> cases moved
      exact .blockedFails pc ‹_›
    · cases moved
  | disable waited =>
    cases outcome <;> simp only [pc] at moved <;> cases moved
    · cases waited
      · exact .disableFailed pc
      · exact .disable pc
    · exact .disableFails pc
  | take =>
    cases outcome <;> simp only [pc] at moved <;> cases moved
    exact .take pc
  | unlock result =>
    cases outcome <;> cases result <;> simp only [pc] at moved <;> cases moved
    · exact .enter pc
    · exact .unlock pc (by decide)
    · exact .unlock pc (by decide)
  | run =>
    cases outcome <;> simp only [pc] at moved <;> cases moved
    exact .run pc
  | workerDone =>
    cases outcome <;> simp only [pc] at moved
    · split at moved <;> cases moved
      · exact .lastDone pc ‹_›
      · exact .workerDone pc ‹_›
    · cases moved
    · cases moved
  | report back =>
    cases outcome <;> simp only [pc] at moved <;> cases moved
    exact .report pc
  | notifyLock back =>
    cases outcome <;> simp only [pc] at moved
    · split at moved <;> cases moved
      exact .notifyLock pc ‹_›
    · cases moved
      exact .notifyLockFails pc
    · cases moved
  | notifySignal back =>
    cases outcome <;> simp only [pc] at moved <;> cases moved
    · exact .notifySignal pc
    · exact .notifySignalFails pc
  | signalFailed back =>
    cases outcome <;> simp only [pc] at moved <;> cases moved
    exact .signalFailed pc
  | notifyUnlock back signalled =>
    cases outcome <;> simp only [pc] at moved <;> cases moved
    cases signalled
    · exact .notifyUnlockFailed pc
    · exact .notifyUnlock pc
  | doneFailed =>
    cases outcome <;> simp only [pc] at moved <;> cases moved
    exact .doneFailed pc
  | cancelUnlock =>
    cases outcome <;> simp only [pc] at moved <;> cases moved
    exact .cancelUnlock pc
  | publish =>
    cases outcome <;> simp only [pc] at moved <;> cases moved
    exact .publish pc
  | leaving =>
    cases outcome <;> simp only [pc] at moved <;> cases moved
    exact .leaving pc

theorem cancelledStep_moves {i : Fin p} (moved : cancelledStep s i = some t) : WorkerMove s i none t := by
  unfold cancelledStep at moved
  cases pc : (s.workers i).pc with
  | wait =>
    simp only [pc] at moved
    split at moved <;> cases moved
    exact .cancelled pc ‹_›
  | blocked woken =>
    simp only [pc] at moved
    split at moved <;> cases moved
    rename_i ready
    exact .cancelledBlocked pc ready.1 ready.2
  | _ => simp [pc] at moved

/-! ## The dispatching thread -/

/-- What the dispatching thread does, by the outcome of its operation: the branches of
    `mainStep` that go on, with the rounds of its loops. -/
inductive MainMove (s : State p) : Outcome → State p → Prop
  | dispatch {last : Option Return} {rest : List Call} (pc : s.main = .idle last) (calls : s.calls = .dispatch :: rest) :
      MainMove s .ok { s with main := .lock, calls := rest, healthy := !s.broken && !s.exitRequested }
  | poison {last : Option Return} {rest : List Call} (pc : s.main = .idle last) (calls : s.calls = .poison :: rest) :
      MainMove s .ok { s with main := .mark .poison, calls := rest }
  | stop {last : Option Return} {rest : List Call} (pc : s.main = .idle last) (calls : s.calls = .stop :: rest) :
      MainMove s .ok { s with main := .exitLock .stop, calls := rest }
  | lock (pc : s.main = .lock) (free : s.lock = none) : MainMove s .ok { s with main := .arm, lock := some .main }
  | lockFails (pc : s.main = .lock) : MainMove s .fail { s with main := .mark .unarmed }
  | arm (pc : s.main = .arm) : MainMove s .ok { s with main := .bump, pending := s.nWorkers }
  | bump (pc : s.main = .bump) : MainMove s .ok
      { s with main := .cast .dispatch, generation := s.generation + 1, round := s.round + 1 }
  | cast {caster : Caster} (pc : s.main = .cast caster) : MainMove s .ok
      { s with main := .unlock caster true, workers := fun i => (s.workers i).wake }
  | castFails {caster : Caster} (pc : s.main = .cast caster) : MainMove s .fail { s with main := .unlock caster false }
  | unlock {caster : Caster} (pc : s.main = .unlock caster true) : MainMove s .ok
      { s with main := caster.sent, lock := none }
  | unlockFailed {caster : Caster} (pc : s.main = .unlock caster false) : MainMove s .ok
      { s with main := .castFailed caster, lock := none }
  | castFailed {caster : Caster} (pc : s.main = .castFailed caster) : MainMove s .ok
      { s with main := caster.lost, syncFailed := true }
  | preFailed (pc : s.main = .preFailed) (failed : s.syncFailed = true) : MainMove s .ok { s with main := .mark .armed }
  | preSynced (pc : s.main = .preFailed) (synced : s.syncFailed = false) : MainMove s .ok { s with main := .deadline }
  | deadline (pc : s.main = .deadline) : MainMove s .ok { s with main := .doneLock }
  | deadlineFails (pc : s.main = .deadline) : MainMove s .fail { s with main := .mark .armed }
  | doneLock (pc : s.main = .doneLock) (free : s.doneLock = none) : MainMove s .ok
      { s with main := .loadFailed, doneLock := some .main }
  | doneLockFails (pc : s.main = .doneLock) : MainMove s .fail { s with main := .mark .armed }
  | loadFailed (pc : s.main = .loadFailed) (failed : s.syncFailed = true) : MainMove s .ok
      { s with main := .doneUnlock false }
  | loadSynced (pc : s.main = .loadFailed) (synced : s.syncFailed = false) : MainMove s .ok { s with main := .loadPending }
  | loadPending (pc : s.main = .loadPending) (more : s.pending ≠ 0) : MainMove s .ok { s with main := .timedwait }
  | loadNone (pc : s.main = .loadPending) (none : s.pending = 0) : MainMove s .ok { s with main := .doneUnlock true }
  | timedwait (pc : s.main = .timedwait) : MainMove s .ok { s with main := .asleep false, doneLock := none }
  | timedwaitFails (pc : s.main = .timedwait) : MainMove s .fail { s with main := .doneUnlock false }
  | awake (pc : s.main = .asleep true) (free : s.doneLock = none) : MainMove s .ok
      { s with main := .loadFailed, doneLock := some .main }
  | asleepFails {woken : Bool} (pc : s.main = .asleep woken) (free : s.doneLock = none) : MainMove s .fail
      { s with main := .doneUnlock false, doneLock := some .main }
  | timeout {woken : Bool} (pc : s.main = .asleep woken) (free : s.doneLock = none) : MainMove s .timeout
      { s with main := .timedOut, doneLock := some .main }
  | timedOut (pc : s.main = .timedOut) : MainMove s .ok { s with main := .doneUnlock (s.pending = 0) }
  | doneUnlock (pc : s.main = .doneUnlock true) : MainMove s .ok { s with main := .finalPending, doneLock := none }
  | doneUnlockFailed (pc : s.main = .doneUnlock false) : MainMove s .ok { s with main := .mark .armed, doneLock := none }
  | finalPending (pc : s.main = .finalPending) (more : s.pending ≠ 0) : MainMove s .ok { s with main := .mark .armed }
  | finalNone (pc : s.main = .finalPending) (none : s.pending = 0) : MainMove s .ok { s with main := .finalFailed }
  | done (pc : s.main = .finalFailed) (synced : s.syncFailed = false) : MainMove s .ok { s with main := .idle (some .done) }
  | finalFailed (pc : s.main = .finalFailed) (failed : s.syncFailed = true) : MainMove s .ok { s with main := .mark .armed }
  | mark {why : Recovery} (pc : s.main = .mark why) : MainMove s .ok { s with main := .exitLock why, broken := true }
  | exitLock {why : Recovery} (pc : s.main = .exitLock why) (free : s.lock = none) : MainMove s .ok
      { s with main := .exitSet why, lock := some .main }
  | exitLockFails {why : Recovery} (pc : s.main = .exitLock why) : MainMove s .fail { s with main := .exitLockFailed why }
  | exitLockFailed {why : Recovery} (pc : s.main = .exitLockFailed why) : MainMove s .ok
      { s with main := .exitFailed why, syncFailed := true }
  | exitSet {why : Recovery} (pc : s.main = .exitSet why) : MainMove s .ok
      { s with main := .cast (.exit why), exitRequested := true }
  | exitFailed {why : Recovery} (pc : s.main = .exitFailed why) : MainMove s .ok
      { s with main := .cancel why 0, broken := true }
  | cancel {why : Recovery} {k : Nat} (inside : k < p) (pc : s.main = .cancel why k)
      (started : (s.workers ⟨k,inside⟩).started = true) : MainMove s .ok
      { s.set ⟨k,inside⟩ { s.workers ⟨k,inside⟩ with cancelled := true } with main := .cancel why (k + 1) }
  | cancelSkips {why : Recovery} {k : Nat} (inside : k < p) (pc : s.main = .cancel why k)
      (unstarted : (s.workers ⟨k,inside⟩).started = false) : MainMove s .ok { s with main := .cancel why (k + 1) }
  | cancelFails {why : Recovery} {k : Nat} (inside : k < p) (pc : s.main = .cancel why k)
      (started : (s.workers ⟨k,inside⟩).started = true) : MainMove s .fail
      { s with main := .cancel why (k + 1), broken := true }
  | cancelled {why : Recovery} {k : Nat} (all : p ≤ k) (pc : s.main = .cancel why k) : MainMove s .ok
      { s with main := .join why false 0 false }
  | join {why : Recovery} {exitOk bad : Bool} {k : Nat} (inside : k < p) (pc : s.main = .join why exitOk k bad)
      (started : (s.workers ⟨k,inside⟩).started = true) (ended : (s.workers ⟨k,inside⟩).pc = .terminated) : MainMove s .ok
      { s.set ⟨k,inside⟩ { s.workers ⟨k,inside⟩ with started := false } with main := .join why exitOk (k + 1) bad }
  | joinSkips {why : Recovery} {exitOk bad : Bool} {k : Nat} (inside : k < p) (pc : s.main = .join why exitOk k bad)
      (unstarted : (s.workers ⟨k,inside⟩).started = false) : MainMove s .ok { s with main := .join why exitOk (k + 1) bad }
  | joinFails {why : Recovery} {exitOk bad : Bool} {k : Nat} (inside : k < p) (pc : s.main = .join why exitOk k bad)
      (started : (s.workers ⟨k,inside⟩).started = true) : MainMove s .fail
      { s with main := .join why exitOk (k + 1) true, broken := true }
  | joined {why : Recovery} {exitOk bad : Bool} {k : Nat} (all : p ≤ k) (pc : s.main = .join why exitOk k bad) :
      MainMove s .ok { s with main := .stopped why exitOk bad }
  | owned {why : Recovery} {exitOk : Bool} (pc : s.main = .stopped why exitOk true) (other : why ≠ .stop) :
      MainMove s .ok { s with main := .await why exitOk 0 }
  | stopped {why : Recovery} {exitOk bad : Bool} (pc : s.main = .stopped why exitOk bad) (ends : bad = false ∨ why = .stop) :
      MainMove s .ok { s with main := .idle (some (why.returns exitOk bad)) }
  | await {why : Recovery} {exitOk : Bool} {k : Nat} (inside : k < p) (pc : s.main = .await why exitOk k)
      (ended : (s.workers ⟨k,inside⟩).started = false ∨ (s.workers ⟨k,inside⟩).exited = true) : MainMove s .ok
      { s with main := .await why exitOk (k + 1) }
  | awaited {why : Recovery} {exitOk : Bool} {k : Nat} (all : p ≤ k) (pc : s.main = .await why exitOk k) :
      MainMove s .ok { s with main := .idle (some (why.returns exitOk true)) }

theorem callStep_moves {last : Option Return} (pc : s.main = .idle last) (called : callStep s = some t) :
    MainMove s .ok t := by
  unfold callStep at called
  split at called <;> cases called
  · exact .dispatch pc ‹_›
  · exact .poison pc ‹_›
  · exact .stop pc ‹_›

theorem cancelStep_moves {why : Recovery} {k : Nat} {outcome : Outcome} (pc : s.main = .cancel why k)
    (moved : cancelStep s why k outcome = some t) : MainMove s outcome t := by
  unfold cancelStep at moved
  split at moved
  · rename_i inside
    simp only at moved
    split at moved <;> cases moved
    · exact .cancelSkips inside pc ‹_›
    · exact .cancel inside pc ‹_›
    · exact .cancelFails inside pc ‹_›
  · split at moved <;> cases moved
    exact .cancelled (by omega) pc

theorem joinStep_moves {why : Recovery} {exitOk bad : Bool} {k : Nat} {outcome : Outcome} (pc : s.main = .join why exitOk k bad)
    (moved : joinStep s why exitOk k bad outcome = some t) : MainMove s outcome t := by
  unfold joinStep at moved
  split at moved
  · rename_i inside
    simp only at moved
    split at moved
    · cases moved
      exact .joinSkips inside pc ‹_›
    · split at moved <;> cases moved
      exact .join inside pc ‹_› ‹_›
    · cases moved
      exact .joinFails inside pc ‹_›
    · cases moved
  · split at moved <;> cases moved
    exact .joined (by omega) pc

theorem awaitStep_moves {why : Recovery} {exitOk : Bool} {k : Nat} (pc : s.main = .await why exitOk k)
    (moved : awaitStep s why exitOk k = some t) : MainMove s .ok t := by
  unfold awaitStep at moved
  split at moved
  · rename_i inside
    simp only at moved
    split at moved <;> cases moved
    rename_i ended
    refine .await inside pc ?_
    by_cases started : (s.workers ⟨k,inside⟩).started = true
    · exact .inr (Bool.eq_true_of_not_eq_false fun running => ended ⟨started,running⟩)
    · exact .inl (Bool.eq_false_of_not_eq_true started)
  · cases moved
    exact .awaited (by omega) pc

theorem takeDone_free {pc : MainPc} (taken : s.takeDone pc = some t) :
    s.doneLock = none ∧ t = { s with main := pc, doneLock := some .main } := by
  unfold State.takeDone at taken
  split at taken <;> cases taken
  exact ⟨‹_›,rfl⟩

theorem mainStep_moves {outcome : Outcome} (moved : mainStep s outcome = some t) : MainMove s outcome t := by
  unfold mainStep at moved
  cases pc : s.main with
  | idle last =>
    cases outcome <;> simp only [pc] at moved
    · exact callStep_moves pc moved
    · cases moved
    · cases moved
  | lock =>
    cases outcome <;> simp only [pc] at moved
    · split at moved <;> cases moved
      exact .lock pc ‹_›
    · cases moved
      exact .lockFails pc
    · cases moved
  | arm =>
    cases outcome <;> simp only [pc] at moved <;> cases moved
    exact .arm pc
  | bump =>
    cases outcome <;> simp only [pc] at moved <;> cases moved
    exact .bump pc
  | cast caster =>
    cases outcome <;> simp only [pc] at moved <;> cases moved
    · exact .cast pc
    · exact .castFails pc
  | unlock caster sent =>
    cases outcome <;> cases sent <;> simp only [pc] at moved <;> cases moved
    · exact .unlockFailed pc
    · exact .unlock pc
  | castFailed caster =>
    cases outcome <;> simp only [pc] at moved <;> cases moved
    exact .castFailed pc
  | preFailed =>
    cases outcome <;> simp only [pc] at moved <;> cases moved
    by_cases failed : s.syncFailed = true
    · rw [if_pos failed]
      exact .preFailed pc failed
    · rw [if_neg failed]
      exact .preSynced pc (Bool.eq_false_of_not_eq_true failed)
  | deadline =>
    cases outcome <;> simp only [pc] at moved <;> cases moved
    · exact .deadline pc
    · exact .deadlineFails pc
  | doneLock =>
    cases outcome <;> simp only [pc] at moved
    · obtain ⟨free,rfl⟩ := takeDone_free moved
      exact .doneLock pc free
    · cases moved
      exact .doneLockFails pc
    · cases moved
  | loadFailed =>
    cases outcome <;> simp only [pc] at moved <;> cases moved
    by_cases failed : s.syncFailed = true
    · rw [if_pos failed]
      exact .loadFailed pc failed
    · rw [if_neg failed]
      exact .loadSynced pc (Bool.eq_false_of_not_eq_true failed)
  | loadPending =>
    cases outcome <;> simp only [pc] at moved <;> cases moved
    by_cases none : s.pending = 0
    · rw [if_pos none]
      exact .loadNone pc none
    · rw [if_neg none]
      exact .loadPending pc none
  | timedwait =>
    cases outcome <;> simp only [pc] at moved <;> cases moved
    · exact .timedwait pc
    · exact .timedwaitFails pc
  | asleep woken =>
    cases outcome <;> simp only [pc] at moved
    · split at moved
      · obtain ⟨free,rfl⟩ := takeDone_free moved
        rename_i awake
        exact .awake (by rw [pc,awake]) free
      · cases moved
    · obtain ⟨free,rfl⟩ := takeDone_free moved
      exact .asleepFails pc free
    · obtain ⟨free,rfl⟩ := takeDone_free moved
      exact .timeout pc free
  | timedOut =>
    cases outcome <;> simp only [pc] at moved <;> cases moved
    exact .timedOut pc
  | doneUnlock complete =>
    cases outcome <;> simp only [pc] at moved <;> cases moved
    cases complete
    · exact .doneUnlockFailed pc
    · exact .doneUnlock pc
  | finalPending =>
    cases outcome <;> simp only [pc] at moved <;> cases moved
    by_cases none : s.pending = 0
    · rw [if_pos none]
      exact .finalNone pc none
    · rw [if_neg none]
      exact .finalPending pc none
  | finalFailed =>
    cases outcome <;> simp only [pc] at moved <;> cases moved
    by_cases failed : s.syncFailed = true
    · rw [if_pos failed]
      exact .finalFailed pc failed
    · rw [if_neg failed]
      exact .done pc (Bool.eq_false_of_not_eq_true failed)
  | mark why =>
    cases outcome <;> simp only [pc] at moved <;> cases moved
    exact .mark pc
  | exitLock why =>
    cases outcome <;> simp only [pc] at moved
    · split at moved <;> cases moved
      exact .exitLock pc ‹_›
    · cases moved
      exact .exitLockFails pc
    · cases moved
  | exitLockFailed why =>
    cases outcome <;> simp only [pc] at moved <;> cases moved
    exact .exitLockFailed pc
  | exitSet why =>
    cases outcome <;> simp only [pc] at moved <;> cases moved
    exact .exitSet pc
  | exitFailed why =>
    cases outcome <;> simp only [pc] at moved <;> cases moved
    exact .exitFailed pc
  | cancel why k => exact cancelStep_moves pc (by simpa only [pc] using moved)
  | join why exitOk k bad => exact joinStep_moves pc (by simpa only [pc] using moved)
  | stopped why exitOk bad =>
    cases outcome <;> simp only [pc] at moved <;> cases moved
    by_cases owned : bad = true ∧ why ≠ .stop
    · obtain ⟨rfl,other⟩ := owned
      rw [if_pos ⟨rfl,other⟩]
      exact .owned pc other
    · rw [if_neg owned]
      refine .stopped pc ?_
      cases bad
      · exact .inl rfl
      · exact .inr (by simpa using owned)
  | await why exitOk k =>
    cases outcome <;> simp only [pc] at moved
    · exact awaitStep_moves pc moved
    · cases moved
    · cases moved

end AutoUpscale.Gate
