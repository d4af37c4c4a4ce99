import AutoUpscale.GateInvariant
import Mathlib.Data.Finset.Card
import Mathlib.Data.Fintype.Fin

/-!
How the pending count and the generations of the workers stand to the generation
of the gate (`RoundInv`), in every state and whatever operations failed on the
way. This carries the barrier: between two dispatches every worker that can
still run has seen every generation and owes nothing, and the pending count is
the number of workers that owe one. With it, a worker has run each dispatch it
has seen exactly once (`LogInv`).
-/
namespace AutoUpscale.Gate
variable {p : Nat} {s t : State p}

/-! ## Generations and the pending count -/

/-- The worker has not counted itself off for the current generation. -/
def Owing (s : State p) (i : Fin p) : Prop :=
  i.val < s.nWorkers ∧ ((s.workers i).pc.owes = true ∨ (s.workers i).seenRound < s.round)

instance (s : State p) : DecidablePred (Owing s) := fun i =>
  inferInstanceAs (Decidable (i.val < s.nWorkers ∧ ((s.workers i).pc.owes = true ∨ (s.workers i).seenRound < s.round)))

def owing (s : State p) : Finset (Fin p) := Finset.univ.filter (Owing s)

/-- How the workers and the pending count stand to the current generation. -/
structure RoundInv (s : State p) : Prop where
  workers : s.nWorkers ≤ p
  generation : s.generation = UInt64.ofNat s.round
  seen : ∀ i, (s.workers i).seenGen = UInt64.ofNat (s.workers i).seenRound
  bound : ∀ i, (s.workers i).seenRound ≤ s.round
  near : ∀ i, (s.workers i).pc.live = true → s.round ≤ (s.workers i).seenRound + 1
  owes : ∀ i, (s.workers i).pc.owes = true → (s.workers i).seenRound = s.round
  quiet : s.main.quiet = true → ∀ i, (s.workers i).pc.live = true →
    (s.workers i).seenRound = s.round ∧ (s.workers i).pc.owes = false
  armed : s.main = .bump → s.pending = s.nWorkers
  pending : s.main ≠ .bump → s.pending = (owing s).card
  final : s.main.finished = true → s.pending = 0

theorem roundInv_initial {n : Nat} (fits : n ≤ p) (calls : List Call) : RoundInv (initial p n calls) := by
  constructor
  · exact fits
  · rfl
  · intro i; rfl
  · intro i; exact Nat.le_refl 0
  · intro i _; exact Nat.zero_le _
  · intro i _; rfl
  · intro _ i _
    refine ⟨rfl,?_⟩
    simp only [initial,freshWorker]; split <;> rfl
  · simp [initial]
  · intro _
    have nobody : owing (initial p n calls) = ∅ := by
      apply Finset.filter_eq_empty_iff.mpr
      intro i _ owing
      by_cases inside : i.val < n <;> simp [Owing,initial,freshWorker,inside,WorkerPc.owes] at owing
    rw [nobody]
    rfl
  · simp [initial]

/-- A generation and the one before it differ, also where the counter wraps. -/
theorem generation_eq_iff {seen round : Nat} (bound : seen ≤ round) (near : round ≤ seen + 1) :
    UInt64.ofNat round = UInt64.ofNat seen ↔ seen = round := by
  constructor
  · intro same
    have values : round % 2 ^ 64 = seen % 2 ^ 64 := by
      simpa using congrArg UInt64.toNat same
    omega
  · intro same
    rw [same]

/-- A step that changes nothing of what the workers have seen and owe. -/
theorem roundInv_inner (inv : RoundInv s) (seenGen : ∀ i, (t.workers i).seenGen = (s.workers i).seenGen)
    (seenRound : ∀ i, (t.workers i).seenRound = (s.workers i).seenRound)
    (owes : ∀ i, (t.workers i).pc.owes = (s.workers i).pc.owes)
    (live : ∀ i, (t.workers i).pc.live = true → (s.workers i).pc.live = true)
    (nWorkers : t.nWorkers = s.nWorkers) (generation : t.generation = s.generation) (round : t.round = s.round)
    (pending : t.pending = s.pending) (bump : t.main = .bump ↔ s.main = .bump)
    (settled : t.main.quiet = true → ∀ i, (s.workers i).pc.live = true →
      (s.workers i).seenRound = s.round ∧ (s.workers i).pc.owes = false)
    (final : t.main.finished = true → t.pending = 0) : RoundInv t := by
  have sameOwing : owing t = owing s := by
    ext i
    simp [owing,Owing,nWorkers,owes i,seenRound i,round]
  constructor
  · rw [nWorkers]; exact inv.workers
  · rw [generation,round]; exact inv.generation
  · intro i; rw [seenGen i,seenRound i]; exact inv.seen i
  · intro i; rw [seenRound i,round]; exact inv.bound i
  · intro i alive; rw [round,seenRound i]; exact inv.near i (live i alive)
  · intro i owed; rw [seenRound i,round]; exact inv.owes i (by rw [← owes i]; exact owed)
  · intro still i alive
    rw [seenRound i,round,owes i]
    exact settled still i (live i alive)
  · intro at_bump; rw [pending,nWorkers]; exact inv.armed (bump.mp at_bump)
  · intro elsewhere; rw [pending,sameOwing]; exact inv.pending (fun at_bump => elsewhere (bump.mpr at_bump))
  · exact final

theorem owing_of_owes (present : ∀ i, (s.workers i).pc = .absent ↔ s.nWorkers ≤ i.val) {i : Fin p}
    (owes : (s.workers i).pc.owes = true) : i ∈ owing s := by
  have there : (s.workers i).pc ≠ .absent := by
    intro absent
    simp [absent,WorkerPc.owes] at owes
  have inside := (present i).not.mp there
  simp only [owing,Finset.mem_filter,Finset.mem_univ,true_and,Owing]
  exact ⟨by omega,.inl owes⟩

theorem worker_main {i : Fin p} (moved : Moved s t i) :
    t.main.quiet = s.main.quiet ∧ (t.main = .bump ↔ s.main = .bump) ∧
      t.main.finished = s.main.finished := by
  refine ⟨?_,⟨fun at_pc => signalled_main (by simp) moved.main at_pc,fun at_pc => ?_⟩,?_⟩
  · rcases moved.main with same | same <;> simp [same]
  · rcases moved.main with same | same <;> simp [same,at_pc,MainPc.signal]
  · rcases moved.main with same | same <;> simp [same]

/-- The worker takes the current generation: it owes it if it is new to it. -/
theorem roundInv_take {i : Fin p} (inv : RoundInv s) (moved : Moved s t i) (before : (s.workers i).pc = .take)
    (worker : t.workers i = { s.workers i with
      pc := .unlock (if s.generation = (s.workers i).seenGen then .exit else .run)
      seenGen := s.generation
      seenRound := s.round })
    (pending : t.pending = s.pending) : RoundInv t := by
  obtain ⟨quiet,bump,final⟩ := worker_main moved
  have alive : (s.workers i).pc.live = true := by rw [before]; rfl
  have known : s.generation = (s.workers i).seenGen ↔ (s.workers i).seenRound = s.round := by
    rw [inv.generation,inv.seen i]
    exact generation_eq_iff (inv.bound i) (inv.near i alive)
  have owesNow : (t.workers i).pc.owes = decide ((s.workers i).seenRound ≠ s.round) := by
    rw [worker]
    by_cases same : (s.workers i).seenRound = s.round <;> simp [known,same,WorkerPc.owes]
  have sameOwing : owing t = owing s := by
    ext j
    simp only [owing,Finset.mem_filter,Finset.mem_univ,true_and,Owing,moved.nWorkers,moved.round]
    rcases eq_or_ne j i with rfl | other
    · have idle : (s.workers j).pc.owes = false := by rw [before]; rfl
      have bound := inv.bound j
      rw [owesNow,worker,idle]
      simp only [decide_eq_true_eq,Nat.lt_irrefl,or_false,Bool.false_eq_true,false_or]
      omega
    · rw [moved.others j other]
  constructor
  · rw [moved.nWorkers]; exact inv.workers
  · rw [moved.generation,moved.round]; exact inv.generation
  · intro j
    rcases eq_or_ne j i with rfl | other
    · rw [worker]; exact inv.generation
    · rw [moved.others j other]; exact inv.seen j
  · intro j
    rcases eq_or_ne j i with rfl | other
    · rw [worker,moved.round]
    · rw [moved.others j other,moved.round]; exact inv.bound j
  · intro j living
    rcases eq_or_ne j i with rfl | other
    · rw [worker,moved.round]; exact Nat.le_succ _
    · rw [moved.others j other,moved.round]
      exact inv.near j (by rw [← moved.others j other]; exact living)
  · intro j owed
    rcases eq_or_ne j i with rfl | other
    · rw [worker,moved.round]
    · rw [moved.others j other,moved.round]
      exact inv.owes j (by rw [← moved.others j other]; exact owed)
  · intro still j living
    have wasStill : s.main.quiet = true := by rw [← quiet]; exact still
    rcases eq_or_ne j i with rfl | other
    · refine ⟨by rw [worker,moved.round],?_⟩
      rw [owesNow]
      simp [(inv.quiet wasStill j alive).1]
    · rw [moved.others j other,moved.round]
      exact inv.quiet wasStill j (by rw [← moved.others j other]; exact living)
  · intro at_bump; rw [pending,moved.nWorkers]; exact inv.armed (bump.mp at_bump)
  · intro elsewhere; rw [pending,sameOwing]; exact inv.pending (fun at_bump => elsewhere (bump.mpr at_bump))
  · intro at_final; rw [pending]; exact inv.final (by rw [← final]; exact at_final)

/-- The worker counts itself off: it was one of those the count stands for. -/
theorem roundInv_count {i : Fin p} (inv : RoundInv s) (stop : StopInv s) (moved : Moved s t i)
    (lives : Lives s t i) (before : (s.workers i).pc = .workerDone)
    (same : SameHistory (s.workers i) (t.workers i)) (after : (t.workers i).pc.owes = false)
    (pending : t.pending = s.pending - 1) : RoundInv t := by
  obtain ⟨quiet,bump,final⟩ := worker_main moved
  have owed : (s.workers i).pc.owes = true := by rw [before]; rfl
  have current := inv.owes i owed
  have loud : s.main.quiet = false := by
    by_contra still
    have idle := (inv.quiet (by simpa using still) i (owes_live owed)).2
    rw [owed] at idle
    contradiction
  have elsewhere : s.main ≠ .bump := by
    intro at_bump
    simp [at_bump,MainPc.quiet] at loud
  have counted : i ∈ owing s := owing_of_owes stop.present owed
  have fewer : owing t = (owing s).erase i := by
    ext j
    simp only [owing,Finset.mem_erase,Finset.mem_filter,Finset.mem_univ,true_and,Owing,moved.nWorkers,
      moved.round]
    rcases eq_or_ne j i with rfl | other
    · simp [after,same.seenRound,current]
    · rw [moved.others j other]
      simp [other]
  have positive : 0 < (owing s).card := Finset.card_pos.mpr ⟨i,counted⟩
  constructor
  · rw [moved.nWorkers]; exact inv.workers
  · rw [moved.generation,moved.round]; exact inv.generation
  · intro j
    rcases eq_or_ne j i with rfl | other
    · rw [same.seenGen,same.seenRound]; exact inv.seen j
    · rw [moved.others j other]; exact inv.seen j
  · intro j
    rcases eq_or_ne j i with rfl | other
    · rw [same.seenRound,moved.round]; exact inv.bound j
    · rw [moved.others j other,moved.round]; exact inv.bound j
  · intro j living
    rcases eq_or_ne j i with rfl | other
    · rw [same.seenRound,moved.round]; exact inv.near j (lives.revive living)
    · rw [moved.others j other,moved.round]
      exact inv.near j (by rw [← moved.others j other]; exact living)
  · intro j owes
    rcases eq_or_ne j i with rfl | other
    · rw [after] at owes; contradiction
    · rw [moved.others j other,moved.round]
      exact inv.owes j (by rw [← moved.others j other]; exact owes)
  · intro still
    rw [quiet,loud] at still
    contradiction
  · intro at_bump
    exact absurd (bump.mp at_bump) elsewhere
  · intro _
    rw [pending,fewer,Finset.card_erase_of_mem counted,inv.pending elsewhere]
    omega
  · intro at_final
    have none := inv.final (by rw [← final]; exact at_final)
    rw [inv.pending elsewhere] at none
    omega

theorem roundInv_worker {i : Fin p} (inv : RoundInv s) (stop : StopInv s) (moved : Moved s t i)
    (lives : Lives s t i) (rule : WorkerRule s t i) : RoundInv t := by
  obtain ⟨quiet,bump,final⟩ := worker_main moved
  have live : ∀ j, (t.workers j).pc.live = true → (s.workers j).pc.live = true := by
    intro j alive
    rcases eq_or_ne j i with rfl | other
    · exact lives.revive alive
    · rw [← moved.others j other]; exact alive
  have away {α : Type} (field : Worker → α) (same : field (t.workers i) = field (s.workers i)) :
      ∀ j, field (t.workers j) = field (s.workers j) := by
    intro j
    rcases eq_or_ne j i with rfl | other
    · exact same
    · rw [moved.others j other]
  have settled : t.main.quiet = true → ∀ j, (s.workers j).pc.live = true →
      (s.workers j).seenRound = s.round ∧ (s.workers j).pc.owes = false :=
    fun still => inv.quiet (by rw [← quiet]; exact still)
  have counted (pending : t.pending = s.pending) : t.main.finished = true → t.pending = 0 := by
    intro finished
    rw [pending]
    exact inv.final (by rw [← final]; exact finished)
  cases rule with
  | inner same idle pending =>
    exact roundInv_inner inv (away Worker.seenGen same.seenGen) (away Worker.seenRound same.seenRound)
      (away (fun w => w.pc.owes) (idle.2.trans idle.1.symm)) live moved.nWorkers moved.generation moved.round
      pending bump settled (counted pending)
  | enter before worker pending | leave before worker pending =>
    exact roundInv_inner inv (away Worker.seenGen (by rw [worker])) (away Worker.seenRound (by rw [worker]))
      (away (fun w => w.pc.owes) (by rw [worker,before]; rfl)) live moved.nWorkers moved.generation moved.round
      pending bump settled (counted pending)
  | take before worker pending => exact roundInv_take inv moved before worker pending
  | count before same after pending => exact roundInv_count inv stop moved lives before same after pending

/-- The main thread publishes a new generation: every worker owes it. -/
theorem roundInv_bump (inv : RoundInv s) (kept : ∀ i, Kept (s.workers i) (t.workers i))
    (nWorkers : t.nWorkers = s.nWorkers) (before : s.main = .bump) (after : t.main = .cast .dispatch)
    (generation : t.generation = s.generation + 1) (round : t.round = s.round + 1)
    (pending : t.pending = s.pending) : RoundInv t := by
  have settled := inv.quiet (by rw [before]; rfl)
  have everyone : owing t = Finset.univ.filter (fun i : Fin p => i.val < s.nWorkers) := by
    ext i
    have bound := inv.bound i
    simp only [owing,Finset.mem_filter,Finset.mem_univ,true_and,Owing,nWorkers,(kept i).same.seenRound,round]
    exact and_iff_left (.inr (by omega))
  constructor
  · rw [nWorkers]; exact inv.workers
  · rw [generation,round,inv.generation]
    simp
  · intro i; rw [(kept i).same.seenGen,(kept i).same.seenRound]; exact inv.seen i
  · intro i; rw [(kept i).same.seenRound,round]; exact Nat.le_succ_of_le (inv.bound i)
  · intro i living
    rw [(kept i).live] at living
    rw [(kept i).same.seenRound,round,(settled i living).1]
  · intro i owes
    rw [(kept i).owes] at owes
    rw [(settled i (owes_live owes)).2] at owes
    contradiction
  · intro still; simp [after,MainPc.quiet] at still
  · intro at_bump; simp [after] at at_bump
  · intro _
    rw [pending,inv.armed before,everyone,Fin.card_filter_val_lt,Nat.min_eq_right inv.workers]
  · intro finished; simp [after,MainPc.finished] at finished

/-- Once no worker is pending, every worker has taken and finished the generation. -/
theorem settled_of_none (inv : RoundInv s) (stop : StopInv s) (elsewhere : s.main ≠ .bump)
    (none : s.pending = 0) (i : Fin p) (living : (s.workers i).pc.live = true) :
    (s.workers i).seenRound = s.round ∧ (s.workers i).pc.owes = false := by
  have nobody : owing s = ∅ := by
    have count := inv.pending elsewhere
    rw [none] at count
    exact Finset.card_eq_zero.mp (by exact_mod_cast count.symm)
  have notOwing : ¬ Owing s i := by
    intro owed
    have member : i ∈ owing s := by simp [owing,owed]
    simp [nobody] at member
  have inside : i.val < s.nWorkers := by
    by_contra outside
    have absent := (stop.present i).mpr (Nat.le_of_not_lt outside)
    simp [absent,WorkerPc.live] at living
  simp only [Owing,inside,true_and,not_or,Nat.not_lt,Bool.not_eq_true] at notOwing
  exact ⟨Nat.le_antisymm (inv.bound i) notOwing.2,notOwing.1⟩

/-- Where a stop has reaped every worker, or seen its exit, all are gone. -/
theorem gone_of_reaped (stop : StopInv s)
    (reaped : ∀ i, (s.workers i).started = false ∨ (s.workers i).exited = true) (i : Fin p)
    (inside : i.val < s.nWorkers) : (s.workers i).pc.gone = true := by
  rcases reaped i with idle | gone
  · rw [stop.reaped i inside idle]; rfl
  · rw [← stop.exited i]; exact gone

theorem dead_of_gone (stop : StopInv s) (gone : ∀ i : Fin p, i.val < s.nWorkers → (s.workers i).pc.gone = true)
    (i : Fin p) : (s.workers i).pc.live = false := by
  rcases Nat.lt_or_ge i.val s.nWorkers with inside | outside
  · exact gone_not_live (gone i inside)
  · rw [(stop.present i).mpr outside]; rfl

theorem settled_of_reaped (stop : StopInv s)
    (reaped : ∀ i, (s.workers i).started = false ∨ (s.workers i).exited = true) (i : Fin p) :
    (s.workers i).pc.live = false :=
  dead_of_gone stop (gone_of_reaped stop reaped) i

theorem stopInv_reaped (stop : StopInv s) {why : Recovery} {exitOk : Bool}
    (ending : s.main = .stopped why exitOk false ∨ ∃ k, p ≤ k ∧ s.main = .await why exitOk k) (i : Fin p) :
    (s.workers i).started = false ∨ (s.workers i).exited = true := by
  rcases ending with stopped | ⟨k,all,waited⟩
  · exact .inl (stop.stopped why exitOk stopped i)
  · exact stop.awaiting why exitOk k waited i (Nat.lt_of_lt_of_le i.isLt all)

/-- A wait that ends well has seen a pending count of 0. -/
theorem MainMove.final {outcome : Outcome} (move : MainMove s outcome t) (finished : t.main.finished = true) :
    s.main.finished = true ∧ t.pending = s.pending ∨ t.pending = 0 := by
  cases move with
  | @unlock caster | @castFailed caster => cases caster <;> simp [Caster.sent,Caster.lost,MainPc.finished] at finished
  | _ => simp_all [MainPc.finished]

theorem roundInv_main {outcome : Outcome} (inv : RoundInv s) (stop : StopInv s)
    (move : MainMove s outcome t) : RoundInv t := by
  obtain ⟨kept,_,nWorkers,_,_⟩ := move.moved
  have final (pending : t.pending = s.pending) : t.main.finished = true → t.pending = 0 := by
    intro finished
    rcases move.final finished with ⟨before,same⟩ | none
    · rw [same]; exact inv.final before
    · exact none
  have inner (bump : t.main = .bump ↔ s.main = .bump) (generation : t.generation = s.generation)
      (round : t.round = s.round) (pending : t.pending = s.pending)
      (settled : t.main.quiet = true → ∀ i, (s.workers i).pc.live = true →
        (s.workers i).seenRound = s.round ∧ (s.workers i).pc.owes = false) : RoundInv t :=
    roundInv_inner inv (fun i => (kept i).same.seenGen) (fun i => (kept i).same.seenRound)
      (fun i => (kept i).owes) (fun i => by rw [(kept i).live]; exact id) nWorkers generation round pending bump
      settled (final pending)
  cases move.rule with
  | inner quiet before after generation round pending =>
    exact inner (iff_of_false after before) generation round pending
      (fun still => inv.quiet (by rw [← quiet]; exact still))
  | arm before after generation round pending =>
    have settled := inv.quiet (by rw [before]; rfl)
    constructor
    · rw [nWorkers]; exact inv.workers
    · rw [generation,round]; exact inv.generation
    · intro i; rw [(kept i).same.seenGen,(kept i).same.seenRound]; exact inv.seen i
    · intro i; rw [(kept i).same.seenRound,round]; exact inv.bound i
    · intro i living
      rw [(kept i).same.seenRound,round]
      exact inv.near i (by rw [← (kept i).live]; exact living)
    · intro i owes
      rw [(kept i).same.seenRound,round]
      exact inv.owes i (by rw [← (kept i).owes]; exact owes)
    · intro _ i living
      rw [(kept i).same.seenRound,round,(kept i).owes]
      exact settled i (by rw [← (kept i).live]; exact living)
    · intro _; rw [pending,nWorkers]
    · intro elsewhere; exact absurd after elsewhere
    · intro finished; simp [after,MainPc.finished] at finished
  | bump before after generation round pending =>
    exact roundInv_bump inv kept nWorkers before after generation round pending
  | done before after generation round pending =>
    have none : s.pending = 0 := inv.final (by rw [before]; rfl)
    exact inner (iff_of_false (by simp [after]) (by simp [before])) generation round pending
      (fun _ => settled_of_none inv stop (by simp [before]) none)
  | failed exitOk before after generation round pending =>
    have dead := settled_of_reaped stop (stopInv_reaped stop before)
    have elsewhere : s.main ≠ .bump := by
      rcases before with at_pc | ⟨k,_,at_pc⟩ <;> simp [at_pc]
    exact inner (iff_of_false (by simp [after]) elsewhere) generation round pending
      (fun _ i living => absurd living (by simp [dead i]))

theorem roundInv_woken (inv : RoundInv s) (woken : Woken s t) : RoundInv t := by
  have quiet : t.main.quiet = s.main.quiet := by rcases woken.main with same | same <;> simp [same]
  have finished : t.main.finished = s.main.finished := by rcases woken.main with same | same <;> simp [same]
  refine roundInv_inner inv (fun i => (woken.workers i).same.seenGen) (fun i => (woken.workers i).same.seenRound)
    (fun i => (woken.workers i).owes) (fun i => by rw [(woken.workers i).live]; exact id) woken.nWorkers
    woken.generation woken.round woken.pending
    ⟨fun at_pc => signalled_main (by simp) woken.main at_pc,fun at_pc => ?_⟩
    (fun still => inv.quiet (by rw [← quiet]; exact still)) (fun ended => ?_)
  · rcases woken.main with same | same <;> simp [same,at_pc,MainPc.signal]
  · rw [woken.pending]
    exact inv.final (by rw [← finished]; exact ended)

/-! ## The history of a worker -/

/-- The numbers of the first `n` dispatches, newest first. -/
def downTo : Nat → List Nat
  | 0 => []
  | n + 1 => (n + 1) :: downTo n

theorem downTo_pred {n : Nat} (positive : 0 < n) : n :: downTo (n - 1) = downTo n := by
  obtain ⟨m,rfl⟩ := Nat.exists_eq_succ_of_ne_zero (Nat.ne_of_gt positive)
  rfl

theorem mem_downTo {n k : Nat} : k ∈ downTo n ↔ 0 < k ∧ k ≤ n := by
  induction n with
  | zero => simp [downTo]; omega
  | succ n ih => simp only [downTo,List.mem_cons,ih]; omega

theorem count_downTo {n k : Nat} (positive : 0 < k) (bound : k ≤ n) : (downTo n).count k = 1 := by
  induction n with
  | zero => omega
  | succ n ih =>
    rcases Nat.lt_or_ge n k with last | earlier
    · have same : k = n + 1 := by omega
      have fresh : k ∉ downTo n := by rw [mem_downTo]; omega
      rw [downTo,List.count_cons,List.count_eq_zero.mpr fresh]
      simp [same]
    · rw [downTo,List.count_cons,ih earlier]
      simp; omega

/-- The dispatches whose `ops->run` the worker has entered. -/
def Worker.entered (w : Worker) : Nat :=
  if w.pc = .unlock .run then w.seenRound - 1 else w.seenRound

/-- The dispatches whose `ops->run` the worker has left. -/
def Worker.left (w : Worker) : Nat :=
  if w.pc = .unlock .run ∨ w.pc = .run then w.seenRound - 1 else w.seenRound

/-- The worker ran every dispatch it has seen once, in order. -/
structure LogInv (w : Worker) : Prop where
  taken : w.pc = .unlock .run ∨ w.pc = .run → 0 < w.seenRound
  ran : w.ran = downTo w.entered
  completed : w.completed = downTo w.left

theorem logInv_initial (spawned : Bool) : LogInv (freshWorker spawned) := by
  cases spawned <;> constructor <;> simp [freshWorker,Worker.entered,Worker.left,downTo]

/-- Outside `ops->run` and the step before it, the logs hold what was seen. -/
theorem logInv_idle {w : Worker} (idle : w.pc.owes = false) :
    LogInv w ↔ w.ran = downTo w.seenRound ∧ w.completed = downTo w.seenRound := by
  have outside : w.pc ≠ .unlock .run ∧ w.pc ≠ .run := by
    constructor <;> intro at_pc <;> simp [at_pc,WorkerPc.owes] at idle
  constructor
  · intro inv
    have ran := inv.ran
    have completed := inv.completed
    simp only [Worker.entered,Worker.left,outside.1,outside.2,or_self,if_false] at ran completed
    exact ⟨ran,completed⟩
  · rintro ⟨ran,completed⟩
    constructor
    · simp [outside.1,outside.2]
    · simp [Worker.entered,outside.1,ran]
    · simp [Worker.left,outside.1,outside.2,completed]

theorem logInv_same {w v : Worker} (inv : LogInv w) (same : SameHistory w v)
    (taken : v.pc = .unlock .run ↔ w.pc = .unlock .run) (running : v.pc = .run ↔ w.pc = .run) : LogInv v := by
  constructor
  · rw [taken,running,same.seenRound]; exact inv.taken
  · rw [same.ran,inv.ran]
    simp only [Worker.entered,taken,same.seenRound]
  · rw [same.completed,inv.completed]
    simp only [Worker.left,taken,running,same.seenRound]

theorem logInv_kept {w v : Worker} (inv : LogInv w) (kept : Kept w v) : LogInv v :=
  logInv_same inv kept.same (kept.at_iff (by simp)) (kept.at_iff (by simp))

theorem logInv_worker {i : Fin p} (inv : RoundInv s) (log : LogInv (s.workers i)) (rule : WorkerRule s t i) :
    LogInv (t.workers i) := by
  cases rule with
  | inner same idle pending =>
    obtain ⟨ran,completed⟩ := (logInv_idle idle.1).mp log
    refine (logInv_idle idle.2).mpr ⟨?_,?_⟩
    · rw [same.ran,same.seenRound]; exact ran
    · rw [same.completed,same.seenRound]; exact completed
  | take before worker pending =>
    obtain ⟨ran,completed⟩ := (logInv_idle (by rw [before]; rfl)).mp log
    have bound := inv.bound i
    have near := inv.near i (by rw [before]; rfl)
    have known : s.generation = (s.workers i).seenGen ↔ (s.workers i).seenRound = s.round := by
      rw [inv.generation,inv.seen i]
      exact generation_eq_iff bound near
    by_cases seen : (s.workers i).seenRound = s.round
    · refine (logInv_idle (by rw [worker]; simp [known,seen,WorkerPc.owes])).mpr ⟨?_,?_⟩
      · rw [worker]; simpa [← seen] using ran
      · rw [worker]; simpa [← seen] using completed
    · have next : (s.workers i).seenRound = s.round - 1 := by omega
      have fresh : s.generation ≠ (s.workers i).seenGen := known.not.mpr seen
      rw [worker]
      constructor
      · intro _; simp only; omega
      · simpa [fresh,Worker.entered,ran] using congrArg downTo next
      · simpa [fresh,Worker.left,completed] using congrArg downTo next
  | enter before worker pending =>
    have seen := inv.owes i (by rw [before]; rfl)
    have positive := log.taken (.inl before)
    have ran := log.ran
    have completed := log.completed
    simp only [Worker.entered,Worker.left,before,true_or,if_true,seen] at ran completed
    rw [worker]
    constructor
    · intro _; exact positive
    · simp [Worker.entered,seen,ran,downTo_pred (by omega : 0 < s.round)]
    · simp [Worker.left,seen,completed]
  | leave before worker pending =>
    have seen := inv.owes i (by rw [before]; rfl)
    have positive := log.taken (.inr before)
    have ran := log.ran
    have completed := log.completed
    simp [Worker.entered,Worker.left,before,seen] at ran completed
    rw [worker]
    constructor
    · simp
    · simp [Worker.entered,seen,ran]
    · simp [Worker.left,seen,completed,downTo_pred (by omega : 0 < s.round)]
  | count before same after pending =>
    have idle : (s.workers i).pc ≠ .unlock .run ∧ (s.workers i).pc ≠ .run := by simp [before]
    have outside : (t.workers i).pc ≠ .unlock .run ∧ (t.workers i).pc ≠ .run := by
      constructor <;> intro at_pc <;> simp [at_pc,WorkerPc.owes] at after
    exact logInv_same log same (iff_of_false outside.1 idle.1) (iff_of_false outside.2 idle.2)

/-! ## Every run -/

/-- What holds in every state of the gate, whatever failed on the way. -/
structure GateInv (s : State p) : Prop where
  locks : LockInv s
  stop : StopInv s
  rounds : RoundInv s
  logs : ∀ i, LogInv (s.workers i)

theorem gateInv_initial {n : Nat} (fits : n ≤ p) (calls : List Call) : GateInv (initial p n calls) :=
  ⟨lockInv_initial n calls,stopInv_initial n calls,roundInv_initial fits calls,fun i => logInv_initial (i < n)⟩

theorem gateInv_step {a : Action p} (inv : GateInv s) (moved : step s a = some t) : GateInv t := by
  have locks := lockInv_step inv.locks moved
  rcases step_cases moved with ⟨outcome,stepped⟩ | ⟨i,stepped,rule,lives⟩ | woken
  · have main := stepped.moved
    exact ⟨locks,stopInv_main inv.stop main stepped.reaping,roundInv_main inv.rounds inv.stop stepped,
      fun i => logInv_kept (inv.logs i) (main.workers i)⟩
  · refine ⟨locks,stopInv_worker inv.stop stepped lives,roundInv_worker inv.rounds inv.stop stepped lives rule,
      fun j => ?_⟩
    rcases eq_or_ne j i with rfl | other
    · exact logInv_worker inv.rounds (inv.logs j) rule
    · rw [stepped.others j other]; exact inv.logs j
  · exact ⟨locks,stopInv_woken inv.stop woken,roundInv_woken inv.rounds woken,
      fun i => logInv_kept (inv.logs i) (woken.workers i)⟩

end AutoUpscale.Gate
