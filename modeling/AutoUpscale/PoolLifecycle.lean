import AutoUpscale.PoolStart

/-!
What every sequence of calls keeps of a worker pool, whatever fails: `PoolInv` ties
what the trace says of slots and threads to the fields of the pool.
-/
namespace AutoUpscale.WorkerPool
open AutoUpscale.Runs (run)
variable {ops : Ops} {p q : Pool}

/-- What every sequence of calls keeps. -/
structure PoolInv (ops : Ops) (p : Pool) : Prop where
  slots : Slots ops p
  untouched : p.lazyDone = false → p.lazyFailed = false → p.destroyed = false → Untouched p
  either : ¬ (p.lazyDone = true ∧ p.lazyFailed = true)
  up : p.lazyDone = true → p.destroyed = false → Up ops p
  gone : p.destroyed = true → p.nWorkers = 0

theorem poolInv_configured (nPref : Int) : PoolInv ops (configured nPref) := by
  have nobody : (fun _ : Nat => False) = (· < 0) := by
    funext j
    simp
  refine ⟨⟨?_,by simp [Recorded,configured],by simp [configured]⟩,fun _ _ _ => ⟨rfl,rfl,rfl,rfl⟩,
    by simp [configured],by simp [configured],by simp [configured]⟩
  have empty : Life ops [] (fun _ => false) (fun _ => False) := life_nil
  rw [nobody] at empty
  exact empty

/-- A stop changes nothing of a pool that was never started. -/
theorem stop_untouched (untouched : Untouched p) (o : StopOutcome) : stop p o = (p,true) := by
  simp [stop,untouched.threads]

theorem stopped_inv (inv : PoolInv ops p) (stopped : Stopped p q) (fresh : Untouched p → Untouched q) :
    PoolInv ops q := by
  have config := stopped.config
  refine ⟨stopped.slots inv.slots,?_,?_,?_,?_⟩
  · rw [config.lazyDone,config.lazyFailed,config.destroyed]
    exact fun done failed live => fresh (inv.untouched done failed live)
  · rw [config.lazyDone,config.lazyFailed]; exact inv.either
  · rw [config.lazyDone,config.destroyed]
    exact fun done live => stopped.up (inv.up done live)
  · rw [config.destroyed,stopped.same]; exact inv.gone

theorem poolInv_stop (inv : PoolInv ops p) (o : StopOutcome) : PoolInv ops (stop p o).1 :=
  stopped_inv inv (stop_stopped p o).1 (fun untouched => by rw [stop_untouched untouched o]; exact untouched)

theorem poolInv_poison (inv : PoolInv ops p) (o : StopOutcome) : PoolInv ops (poison p o) := by
  refine stopped_inv inv (poison_stopped p o).1 (fun untouched => ?_)
  have marked : Untouched { p with broken := true } := ⟨untouched.1,untouched.2,untouched.3,untouched.4⟩
  rw [poison,stop_untouched marked o]
  exact marked

theorem poolInv_ensureStarted (inv : PoolInv ops p) (live : p.destroyed = false) (o : StartOutcome) :
    PoolInv ops (ensureStarted ops p o).1 := by
  unfold ensureStarted
  split
  · exact inv
  · rename_i done
    split
    · exact inv
    · rename_i failed
      obtain ⟨slots,config,up⟩ :=
        start_spec ops (inv.untouched (by simpa using done) (by simpa using failed) live) o
      generalize start ops p o = out at slots config up ⊢
      obtain ⟨q,ok⟩ := out
      dsimp only at slots config up ⊢
      have alive : q.destroyed = false := config.destroyed.trans live
      cases ok with
      | true =>
        exact ⟨⟨slots.1,slots.2,slots.3⟩,by simp,by simpa [config.lazyFailed] using failed,
          fun _ _ => ⟨(up rfl).1,(up rfl).2,(up rfl).3⟩,by simp [alive]⟩
      | false =>
        exact ⟨⟨slots.1,slots.2,slots.3⟩,by simp,by simpa [config.lazyDone] using done,
          by simp [config.lazyDone,done],by simp [alive]⟩

theorem ensureStarted_config (inv : PoolInv ops p) (live : p.destroyed = false) (o : StartOutcome) :
    (ensureStarted ops p o).1.nPref = p.nPref ∧ (ensureStarted ops p o).1.destroyed = p.destroyed := by
  unfold ensureStarted
  split
  · exact ⟨rfl,rfl⟩
  · rename_i done
    split
    · exact ⟨rfl,rfl⟩
    · rename_i failed
      obtain ⟨_,config,_⟩ := start_spec ops (inv.untouched (by simpa using done) (by simpa using failed) live) o
      generalize start ops p o = out at config ⊢
      obtain ⟨q,ok⟩ := out
      cases ok <;> exact ⟨config.nPref,config.destroyed⟩

/-- The first start of a pool settles whether it is done or failed. -/
theorem ensureStarted_settles (ops : Ops) (untouched : Untouched p) (done : p.lazyDone = false) (failed : p.lazyFailed = false)
    (o : StartOutcome) :
    (ensureStarted ops p o).1.lazyDone = (ensureStarted ops p o).2 ∧
    (ensureStarted ops p o).1.lazyFailed = !(ensureStarted ops p o).2 := by
  obtain ⟨_,config,_⟩ := start_spec ops untouched o
  simp only [ensureStarted,done,failed,Bool.false_eq_true,if_false]
  split_ifs
  · exact ⟨rfl,config.lazyFailed.trans failed⟩
  · exact ⟨config.lazyDone.trans done,rfl⟩

theorem ensureStarted_done {o : StartOutcome} (started : (ensureStarted ops p o).2 = true) :
    (ensureStarted ops p o).1.lazyDone = true := by
  unfold ensureStarted at started ⊢
  by_cases done : p.lazyDone = true
  · rw [if_pos done]
    exact done
  · rw [if_neg done] at started ⊢
    by_cases failed : p.lazyFailed = true
    · rw [if_pos failed] at started
      exact absurd started Bool.noConfusion
    · rw [if_neg failed] at started ⊢
      dsimp only at started ⊢
      by_cases ok : (start ops p o).2 = true
      · rw [if_pos ok]
      · rw [if_neg ok] at started
        exact absurd started Bool.noConfusion

theorem ensureStarted_failed {o : StartOutcome} (failing : (ensureStarted ops p o).2 = false) :
    (ensureStarted ops p o).1.lazyFailed = true := by
  unfold ensureStarted at failing ⊢
  split
  · rename_i done
    simp [done] at failing
  · rename_i undone
    split
    · assumption
    · rename_i whole
      simp only [undone,whole,Bool.false_eq_true,if_false] at failing
      dsimp only
      split
      · rename_i started
        simp [started] at failing
      · rfl

/-- A destroy that returns -1 only stopped the pool; one that returns 0 released
    every live slot. -/
theorem destroy_spec (inv : PoolInv ops p) (o : StopOutcome) :
    PoolInv ops (destroy ops p o).1 ∧ SameSetup p.trace (destroy ops p o).1.trace ∧
      (destroy ops p o).1.lazyDone = p.lazyDone ∧ (destroy ops p o).1.lazyFailed = p.lazyFailed ∧
      ((destroy ops p o).2 = false → Stopped p (destroy ops p o).1) := by
  have stopped := (stop_stopped p o).1
  have joined := stop_joined inv.slots.recorded o
  have after := poolInv_stop inv o
  unfold destroy
  generalize stop p o = out at stopped joined after ⊢
  obtain ⟨q,reaped⟩ := out
  dsimp only at stopped joined after ⊢
  cases reaped with
  | false =>
    exact ⟨after,stopped.sameSetup,stopped.config.lazyDone,stopped.config.lazyFailed,fun _ => stopped⟩
  | true =>
    obtain ⟨same,slots,setup⟩ := releaseSlots_spec after.slots (joined rfl)
    simp only [Bool.true_eq_false,if_false]
    have done : (releaseSlots ops q q.nWorkers).lazyDone = q.lazyDone := by rw [same]
    have failed : (releaseSlots ops q q.nWorkers).lazyFailed = q.lazyFailed := by rw [same]
    have idle : ∀ i, (releaseSlots ops q q.nWorkers).started i = false := by
      intro i
      rw [same]
      exact joined rfl i
    refine ⟨⟨⟨slots.life,fun i running => ?_,slots.prepares⟩,by simp,?_,by simp,fun _ => rfl⟩,
      sameSetup_trans stopped.sameSetup setup,done.trans stopped.config.lazyDone,
      failed.trans stopped.config.lazyFailed,by simp⟩
    · have before : (releaseSlots ops q q.nWorkers).started i = true := running
      rw [idle i] at before
      contradiction
    · show ¬ ((releaseSlots ops q q.nWorkers).lazyDone = true ∧ (releaseSlots ops q q.nWorkers).lazyFailed = true)
      rw [done,failed]
      exact after.either

theorem poolInv_step {c : Call} (inv : PoolInv ops p) (moved : step ops p c = some q) : PoolInv ops q := by
  unfold step call at moved
  split at moved
  · contradiction
  · rename_i live
    have live : p.destroyed = false := by simpa using live
    cases c with
    | ensureStarted o =>
      cases moved
      exact poolInv_ensureStarted inv live o
    | dispatch complete o =>
      dsimp only at moved
      split at moved <;> cases moved
      unfold dispatch
      split
      · exact inv
      · split
        · exact inv
        · exact poolInv_poison inv o
    | poison o =>
      cases moved
      exact poolInv_poison inv o
    | stop o =>
      cases moved
      exact poolInv_stop inv o
    | destroy o =>
      cases moved
      exact (destroy_spec inv o).1

/-- A failed start stays failed, and nothing is prepared again. -/
theorem failed_step {c : Call} (inv : PoolInv ops p) (failed : p.lazyFailed = true)
    (moved : step ops p c = some q) :
    q.lazyFailed = true ∧ q.trace.countP Event.isPrepare = p.trace.countP Event.isPrepare := by
  have undone : p.lazyDone = false := by
    by_contra done
    exact inv.either ⟨by simpa using done,failed⟩
  unfold step call at moved
  split at moved
  · contradiction
  · rename_i live
    cases c with
    | ensureStarted o =>
      cases moved
      simp [ensureStarted,undone,failed]
    | dispatch complete o =>
      dsimp only at moved
      rw [undone] at moved
      contradiction
    | poison o =>
      cases moved
      have stopped := (poison_stopped p o).1
      exact ⟨stopped.config.lazyFailed.trans failed,stopped.sameSetup.1⟩
    | stop o =>
      cases moved
      have stopped := (stop_stopped p o).1
      exact ⟨stopped.config.lazyFailed.trans failed,stopped.sameSetup.1⟩
    | destroy o =>
      cases moved
      obtain ⟨_,setup,_,same,_⟩ := destroy_spec inv o
      exact ⟨same.trans failed,setup.1⟩

theorem poolInv_run {nPref : Int} {calls : List Call}
    (executed : run (step ops) (configured nPref) calls = some p) : PoolInv ops p :=
  Runs.reachable_preserves (fun _ _ _ inv moved => poolInv_step inv moved) (poolInv_configured nPref)
    ⟨calls,executed⟩

/-- Over any run from a failed start, every start fails and nothing is prepared. -/
theorem failed_run {calls : List Call} (inv : PoolInv ops p) (failed : p.lazyFailed = true)
    (executed : run (step ops) p calls = some q) :
    q.lazyFailed = true ∧ q.trace.countP Event.isPrepare = p.trace.countP Event.isPrepare ∧
      ∀ o, ensureStarted ops q o = (q,false) := by
  have each : ∀ s c t, (PoolInv ops s ∧ s.lazyFailed = true ∧
        s.trace.countP Event.isPrepare = p.trace.countP Event.isPrepare) → step ops s c = some t →
      PoolInv ops t ∧ t.lazyFailed = true ∧
        t.trace.countP Event.isPrepare = p.trace.countP Event.isPrepare := by
    rintro s c t ⟨before,was,count⟩ moved
    obtain ⟨still,same⟩ := failed_step before was moved
    exact ⟨poolInv_step before moved,still,same.trans count⟩
  obtain ⟨later,still,same⟩ := Runs.reachable_preserves each ⟨inv,failed,rfl⟩ ⟨calls,executed⟩
  refine ⟨still,same,fun o => ?_⟩
  have undone : q.lazyDone = false := by
    by_contra done
    exact later.either ⟨by simpa using done,still⟩
  simp [ensureStarted,undone,still]

/-- The lifecycle of a worker pool over every sequence of calls, up to the first
    destroy that returns 0, and every pattern of failures. No slot is released
    twice or without having been constructed, and once the pool is destroyed
    every constructed slot was released. No slot is released under a thread. A
    failed start is sticky. A started pool has between 1 and its requested number
    of workers, and was finalized once with that number. A destroy that returns
    -1 releases nothing and keeps what the pool owns. -/
theorem pool_lifecycle {nPref : Int} {calls : List Call}
    (executed : run (step ops) (configured nPref) calls = some p) :
    (∀ i, releases p.trace i ≤ constructs p.trace i ∧ constructs p.trace i ≤ 1) ∧
    (∀ i, .construct i false ∈ p.trace → releases p.trace i = 0) ∧
    (ops.release = true → p.destroyed = true → ∀ i, releases p.trace i = constructs p.trace i) ∧
    SafeReleases p.trace ∧
    (∀ o, (ensureStarted ops p o).2 = false → p.destroyed = false → ∀ more q,
      run (step ops) (ensureStarted ops p o).1 more = some q →
        q.trace.countP Event.isPrepare = (ensureStarted ops p o).1.trace.countP Event.isPrepare ∧
          ∀ o, ensureStarted ops q o = (q,false)) ∧
    p.trace.countP Event.isPrepare ≤ 1 ∧
    ¬ (p.lazyDone = true ∧ p.lazyFailed = true) ∧
    (p.lazyDone = true → p.destroyed = false → Up ops p) ∧
    (∀ o, p.destroyed = false → (destroy ops p o).2 = false → (destroy ops p o).1.destroyed = false ∧
      (destroy ops p o).1.nWorkers = p.nWorkers ∧ (destroy ops p o).1.workers = p.workers ∧
        (destroy ops p o).1.threads = p.threads ∧
          ∀ i, releases (destroy ops p o).1.trace i = releases p.trace i) := by
  have inv := poolInv_run executed
  have life := inv.slots.life
  have count (i : Nat) : releases p.trace i ≤ constructs p.trace i ∧ constructs p.trace i ≤ 1 := by
    by_cases alive : i < p.nWorkers
    · have held := life.alive i alive
      omega
    · have gone := life.dead i alive
      omega
  refine ⟨count,fun i rejected => ?_,fun hook destroyed i => ?_,life.safe,fun o failing live more q later => ?_,
    inv.slots.prepares,inv.either,inv.up,fun o live kept => ?_⟩
  · have never := life.rejected i rejected
    have few := (count i).1
    omega
  · exact (life.dead i (by rw [inv.gone destroyed]; exact Nat.not_lt_zero i)).2.2 hook
  · exact (failed_run (poolInv_ensureStarted inv live o) (ensureStarted_failed failing) later).2
  · have stopped := (destroy_spec inv o).2.2.2.2 kept
    refine ⟨stopped.config.destroyed.trans live,?_,?_,?_,fun i => stopped.released i⟩
    · rw [stopped.same]
    · rw [stopped.same]
    · rw [stopped.same]

/-- The last of three threads is not created, a dispatch fails, and slot 1 is
    not joined before the second destroy. -/
def stubbornThread : List Call :=
  let fine : StopOutcome := ⟨true,fun _ => true,fun _ => true⟩
  let stuck : StopOutcome := ⟨false,fun _ => true,fun i => i ≠ 1⟩
  [.ensureStarted ⟨true,true,true,true,fun _ => true,fun i => i ≠ 2,fine⟩,.dispatch false stuck,.destroy stuck,
    .destroy fine]

theorem pool_lifecycle_stubborn : ∃ p, run (step ⟨true,true,true,false⟩) (configured 3) stubbornThread = some p ∧
    p.destroyed = true ∧ (∀ i, releases p.trace i = constructs p.trace i) ∧ SafeReleases p.trace := by
  obtain ⟨p,executed⟩ := Option.isSome_iff_exists.mp
    (by decide : (run (step ⟨true,true,true,false⟩) (configured 3) stubbornThread).isSome = true)
  have destroyed : p.destroyed = true := Runs.run_value Pool.destroyed executed (by decide)
  obtain ⟨_,_,balanced,safe,_⟩ := pool_lifecycle executed
  exact ⟨p,executed,destroyed,balanced rfl destroyed,safe⟩

end AutoUpscale.WorkerPool
