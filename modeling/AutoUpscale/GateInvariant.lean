import AutoUpscale.GateSteps

/-!
What holds of the threads in every state of the gate, whatever operations failed
on the way: who owns the two locks (`LockInv`) and which workers a stop has
reaped (`StopInv`).
-/
namespace AutoUpscale.Gate
open AutoUpscale.Mutex
variable {p : Nat} {s t : State p}

/-! ## Locks -/

def State.holdsLock (s : State p) : Tid p → Bool
  | .main => s.main.holdsLock
  | .worker i => (s.workers i).pc.holdsLock

def State.holdsDone (s : State p) : Tid p → Bool
  | .main => s.main.holdsDone
  | .worker i => (s.workers i).pc.holdsDone

/-- Each lock is owned by the one thread that is between its lock and unlock. -/
structure LockInv (s : State p) : Prop where
  lock : Owned s.lock s.holdsLock
  done : Owned s.doneLock s.holdsDone

theorem lockInv_initial (n : Nat) (calls : List Call) : LockInv (initial p n calls) := by
  constructor <;> refine owned_free ?_ <;> rintro (_ | i)
  · rfl
  · simp only [State.holdsLock,initial,freshWorker]; split <;> rfl
  · rfl
  · simp only [State.holdsDone,initial,freshWorker]; split <;> rfl

theorem moved_main_holds {i : Fin p} (moved : Moved s t i) :
    t.main.holdsLock = s.main.holdsLock ∧ t.main.holdsDone = s.main.holdsDone := by
  rcases moved.main with same | signalled
  · rw [same]; exact ⟨rfl,rfl⟩
  · rw [signalled]; simp

theorem lockInv_worker {i : Fin p} (inv : LockInv s) (moved : Moved s t i) : LockInv t := by
  obtain ⟨mainLock,mainDone⟩ := moved_main_holds moved
  constructor
  · refine owned_change inv.lock ?_ moved.lock
    rintro (_ | j) different
    · exact mainLock
    · simp only [State.holdsLock,moved.others j (fun same => different (congrArg _ same))]
  · refine owned_change inv.done ?_ moved.done
    rintro (_ | j) different
    · exact mainDone
    · simp only [State.holdsDone,moved.others j (fun same => different (congrArg _ same))]

theorem lockInv_main (inv : LockInv s) (moved : MainMoved s t) : LockInv t := by
  constructor
  · refine owned_change inv.lock ?_ moved.lock
    rintro (_ | j) different
    · exact absurd rfl different
    · exact (moved.workers j).holdsLock
  · refine owned_change inv.done ?_ moved.done
    rintro (_ | j) different
    · exact absurd rfl different
    · exact (moved.workers j).holdsDone

theorem lockInv_woken (inv : LockInv s) (woken : Woken s t) : LockInv t := by
  have holdsLock : t.holdsLock = s.holdsLock := by
    funext who
    cases who with
    | main => rcases woken.main with same | same <;> simp [State.holdsLock,same]
    | worker i => exact (woken.workers i).holdsLock
  have holdsDone : t.holdsDone = s.holdsDone := by
    funext who
    cases who with
    | main => rcases woken.main with same | same <;> simp [State.holdsDone,same]
    | worker i => exact (woken.workers i).holdsDone
  exact ⟨by rw [woken.lock,holdsLock]; exact inv.lock,by rw [woken.done,holdsDone]; exact inv.done⟩

theorem lockInv_step {a : Action p} (inv : LockInv s) (moved : step s a = some t) : LockInv t := by
  rcases step_cases moved with ⟨outcome,stepped⟩ | ⟨i,stepped,_⟩ | woken
  · exact lockInv_main inv stepped.moved
  · exact lockInv_worker inv stepped
  · exact lockInv_woken inv woken

/-! ## Reaped workers -/

/-- What the join loop and the loop that waits for exits have established. -/
structure StopInv (s : State p) : Prop where
  present : ∀ i, (s.workers i).pc = .absent ↔ s.nWorkers ≤ i.val
  absent : ∀ i, s.nWorkers ≤ i.val → (s.workers i).started = false
  reaped : ∀ i, i.val < s.nWorkers → (s.workers i).started = false → (s.workers i).pc = .terminated
  exited : ∀ i, (s.workers i).exited = (s.workers i).pc.gone
  joining : ∀ why exitOk k, s.main = .join why exitOk k false →
    ∀ i : Fin p, i.val < k → (s.workers i).started = false
  stopped : ∀ why exitOk, s.main = .stopped why exitOk false → ∀ i, (s.workers i).started = false
  awaiting : ∀ why exitOk k, s.main = .await why exitOk k →
    ∀ i : Fin p, i.val < k → (s.workers i).started = false ∨ (s.workers i).exited = true

theorem stopInv_initial (n : Nat) (calls : List Call) : StopInv (initial p n calls) := by
  constructor
  · intro i
    by_cases inside : i.val < n <;> simp [initial,freshWorker,inside]
    · omega
  · intro i outside
    simpa [initial,freshWorker] using outside
  · intro i inside idle
    simp [initial,freshWorker] at inside idle
    omega
  · intro i
    by_cases inside : i.val < n <;> simp [initial,freshWorker,inside,WorkerPc.gone]
  all_goals simp [initial]

/-- The signal of the completion condition only matters to a sleeping thread. -/
theorem signalled_main {pc : MainPc} (steady : ∀ woken, pc ≠ .asleep woken)
    (main : t.main = s.main ∨ t.main = s.main.signal) (at_pc : t.main = pc) : s.main = pc := by
  rcases main with same | signalled
  · rw [← same]; exact at_pc
  · rw [at_pc] at signalled
    cases before : s.main <;> simp_all [MainPc.signal]

theorem stopInv_worker {i : Fin p} (inv : StopInv s) (moved : Moved s t i) (lives : Lives s t i) : StopInv t := by
  have started : ∀ j, (t.workers j).started = (s.workers j).started := by
    intro j
    rcases eq_or_ne j i with rfl | other
    · exact moved.started
    · rw [moved.others j other]
  have inside : i.val < s.nWorkers := by
    have present := (inv.present i).not.mp lives.present.1
    omega
  have exited : ∀ j, (t.workers j).exited = (t.workers j).pc.gone := by
    intro j
    rcases eq_or_ne j i with rfl | other
    · exact lives.exited (inv.exited j)
    · rw [moved.others j other]; exact inv.exited j
  constructor
  · intro j
    rw [moved.nWorkers]
    rcases eq_or_ne j i with rfl | other
    · simp only [lives.present.2,false_iff]; omega
    · rw [moved.others j other]; exact inv.present j
  · intro j outside
    rw [started j]
    exact inv.absent j (by rw [← moved.nWorkers]; exact outside)
  · intro j within reaped
    rw [started j] at reaped
    have terminated := inv.reaped j (by rw [← moved.nWorkers]; exact within) reaped
    rcases eq_or_ne j i with rfl | other
    · exact absurd terminated lives.terminated
    · rw [moved.others j other]; exact terminated
  · exact exited
  · intro why exitOk k at_join j before
    rw [started j]
    exact inv.joining why exitOk k (signalled_main (by simp) moved.main at_join) j before
  · intro why exitOk at_stopped j
    rw [started j]
    exact inv.stopped why exitOk (signalled_main (by simp) moved.main at_stopped) j
  · intro why exitOk k at_await j before
    rw [started j,exited j]
    rcases inv.awaiting why exitOk k (signalled_main (by simp) moved.main at_await) j before with reaped | gone
    · exact .inl reaped
    · right
      rw [inv.exited j] at gone
      rcases eq_or_ne j i with rfl | other
      · exact lives.gone gone
      · rw [moved.others j other]; exact gone

theorem stopInv_woken (inv : StopInv s) (woken : Woken s t) : StopInv t := by
  have started : ∀ j, (t.workers j).started = (s.workers j).started := fun j => (woken.threads j).1
  constructor
  · intro j
    rw [woken.nWorkers,(woken.workers j).at_iff (by simp)]
    exact inv.present j
  · intro j outside
    rw [started j]
    exact inv.absent j (by rw [← woken.nWorkers]; exact outside)
  · intro j within reaped
    rw [(woken.workers j).at_iff (by simp)]
    exact inv.reaped j (by rw [← woken.nWorkers]; exact within) (by rw [← started j]; exact reaped)
  · intro j
    rw [(woken.workers j).exited,(woken.workers j).gone]
    exact inv.exited j
  · intro why exitOk k at_join j before
    rw [started j]
    exact inv.joining why exitOk k (signalled_main (by simp) woken.main at_join) j before
  · intro why exitOk at_stopped j
    rw [started j]
    exact inv.stopped why exitOk (signalled_main (by simp) woken.main at_stopped) j
  · intro why exitOk k at_await j before
    rw [started j,(woken.workers j).exited]
    exact inv.awaiting why exitOk k (signalled_main (by simp) woken.main at_await) j before

/-- How far the loops of a stop got: the worker a round passed is not started
    any more, or its exit is published. -/
structure Reaping (s t : State p) : Prop where
  joining : ∀ why exitOk k, t.main = .join why exitOk k false → k = 0 ∨
    ∃ inside : k - 1 < p, s.main = .join why exitOk (k - 1) false ∧ k = k - 1 + 1 ∧
      (t.workers ⟨k - 1,inside⟩).started = false
  stopped : ∀ why exitOk, t.main = .stopped why exitOk false →
    ∃ k, p ≤ k ∧ s.main = .join why exitOk k false ∧ t.workers = s.workers
  awaiting : ∀ why exitOk k, t.main = .await why exitOk k → k = 0 ∨
    ∃ inside : k - 1 < p, s.main = .await why exitOk (k - 1) ∧ k = k - 1 + 1 ∧
      ((t.workers ⟨k - 1,inside⟩).started = false ∨ (t.workers ⟨k - 1,inside⟩).exited = true)

theorem MainMove.reaping {outcome : Outcome} (move : MainMove s outcome t) : Reaping s t := by
  cases move with
  | join | joinSkips | await => constructor <;> simp_all
  | @unlock caster | @castFailed caster =>
    cases caster <;> constructor <;> intros <;> simp_all [Caster.sent,Caster.lost]
  | _ => constructor <;> intros <;> simp_all

theorem stopInv_main (inv : StopInv s) (moved : MainMoved s t) (reaping : Reaping s t) : StopInv t := by
  have unstarted : ∀ i, (s.workers i).started = false → (t.workers i).started = false := by
    intro i idle
    rcases moved.started i with same | ⟨_,joined⟩
    · rw [same]; exact idle
    · exact joined
  constructor
  · intro i
    rw [moved.nWorkers,(moved.workers i).at_iff (by simp)]
    exact inv.present i
  · intro i outside
    exact unstarted i (inv.absent i (by rw [← moved.nWorkers]; exact outside))
  · intro i inside idle
    rw [(moved.workers i).at_iff (by simp)]
    rcases moved.started i with same | ⟨terminated,_⟩
    · exact inv.reaped i (by rw [← moved.nWorkers]; exact inside) (by rw [← same]; exact idle)
    · exact terminated
  · intro i
    rw [(moved.workers i).exited,(moved.workers i).gone]
    exact inv.exited i
  · intro why exitOk k at_join i before
    rcases reaping.joining why exitOk k at_join with zero | ⟨inside,at_previous,succ,joined⟩
    · omega
    · rcases Nat.lt_or_ge i.val (k - 1) with earlier | last
      · exact unstarted i (inv.joining why exitOk (k - 1) at_previous i earlier)
      · have same : i = ⟨k - 1,inside⟩ := Fin.ext (by simp only; omega)
        rw [same]; exact joined
  · intro why exitOk at_stopped i
    obtain ⟨k,all,at_join,same⟩ := reaping.stopped why exitOk at_stopped
    rw [same]
    exact inv.joining why exitOk k at_join i (by omega)
  · intro why exitOk k at_await i before
    rcases reaping.awaiting why exitOk k at_await with zero | ⟨inside,at_previous,succ,reaped⟩
    · omega
    · rcases Nat.lt_or_ge i.val (k - 1) with earlier | last
      · rcases inv.awaiting why exitOk (k - 1) at_previous i earlier with idle | gone
        · exact .inl (unstarted i idle)
        · exact .inr (by rw [(moved.workers i).exited]; exact gone)
      · have same : i = ⟨k - 1,inside⟩ := Fin.ext (by simp only; omega)
        rw [same]; exact reaped

end AutoUpscale.Gate
