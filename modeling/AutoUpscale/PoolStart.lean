import AutoUpscale.PoolTrace

/-!
Starting a worker pool and releasing its slots. What each part of a start leaves is
stated once, down to the pool that a start hands to its owner (`Up`) or retires.
-/
namespace AutoUpscale.WorkerPool
variable {ops : Ops} {p q : Pool} {live : Nat → Prop} {trace : List Event} {started : Nat → Bool}

/-! ## Releasing -/

/-- The calls of `ops->prepare`. -/
def Event.isPrepare : Event → Bool
  | .prepare _ => true
  | _ => false

/-- The calls of `ops->finalize`, with their counts. -/
def finalized (trace : List Event) : List Nat :=
  trace.filterMap fun
    | .finalize n => some n
    | _ => none

/-- Nothing of `prepare` or `finalize` is among the new events. -/
def SameSetup (trace later : List Event) : Prop :=
  later.countP Event.isPrepare = trace.countP Event.isPrepare ∧ finalized later = finalized trace

theorem sameSetup_cons {e : Event} (prepare : e.isPrepare = false) (finalize : ∀ n, e ≠ .finalize n) :
    SameSetup trace (e :: trace) := by
  refine ⟨by simp [prepare],?_⟩
  cases e <;> simp_all [finalized]

theorem sameSetup_trans {first second third : List Event} (one : SameSetup first second)
    (two : SameSetup second third) : SameSetup first third :=
  ⟨two.1.trans one.1,two.2.trans one.2⟩

theorem stops_sameSetup {new : List Event} (stops : ∀ e ∈ new, e.stops = true) :
    SameSetup trace (new ++ trace) := by
  induction new with
  | nil => exact ⟨rfl,rfl⟩
  | cons e new ih =>
    refine sameSetup_trans (ih fun d member => stops d (List.mem_cons_of_mem e member)) ?_
    have ending := stops e List.mem_cons_self
    refine sameSetup_cons ?_ ?_
    · cases e <;> simp_all [Event.stops,Event.isPrepare]
    · rintro n rfl; contradiction

theorem Stopped.sameSetup (stopped : Stopped p q) : SameSetup p.trace q.trace := by
  obtain ⟨new,newer,stops⟩ := stopped.trace
  rw [newer]
  exact stops_sameSetup stops

theorem Stopped.released (stopped : Stopped p q) (i : Nat) : releases q.trace i = releases p.trace i := by
  obtain ⟨new,newer,stops⟩ := stopped.trace
  have none : .release i ∉ new := by
    intro member
    have ending := stops _ member
    contradiction
  rw [releases,newer,List.count_append,List.count_eq_zero.mpr none,Nat.zero_add,releases]

/-- Releasing the live slots of a pool without threads leaves none. -/
theorem releaseFrom_spec (left i : Nat) (p : Pool) (joined : ∀ j, p.started j = false)
    (life : Life ops p.trace p.started (fun j => i ≤ j ∧ j < i + left)) :
    releaseFrom ops p left i = { p with trace := (releaseFrom ops p left i).trace } ∧
      Life ops (releaseFrom ops p left i).trace p.started (fun _ => False) ∧
      SameSetup p.trace (releaseFrom ops p left i).trace := by
  induction left generalizing p i with
  | zero =>
    refine ⟨rfl,?_,rfl,rfl⟩
    have nobody : (fun j => i ≤ j ∧ j < i + 0) = (fun _ => False) := by
      funext j
      simp only [eq_iff_iff,iff_false]
      omega
    rw [← nobody]
    exact life
  | succ left ih =>
    have next : (fun j => (i ≤ j ∧ j < i + (left + 1)) ∧ j ≠ i) = (fun j => i + 1 ≤ j ∧ j < i + 1 + left) := by
      funext j
      simp only [eq_iff_iff]
      omega
    rw [releaseFrom,releaseHook]
    split
    · have released := life_release life (i := i) ⟨Nat.le_refl i,by omega⟩ (joined i) (.inl joined)
      rw [next] at released
      obtain ⟨same,dead,setup⟩ := ih (i + 1) (p.emit (.release i)) joined released
      exact ⟨same,dead,sameSetup_trans (sameSetup_cons rfl (by simp)) setup⟩
    · rename_i unset
      have dropped := life_drop (i := i) life (by simpa using unset) (joined i)
      rw [next] at dropped
      exact ih (i + 1) p joined dropped

/-! ## Starting -/

/-- Nothing happened to the slots from `k` on. -/
def Fresh (trace : List Event) (k : Nat) : Prop :=
  ∀ i, k ≤ i → constructs trace i = 0 ∧ .construct i false ∉ trace ∧ releases trace i = 0 ∧
    .create i true ∉ trace ∧ .join i true ∉ trace

theorem fresh_cons {e : Event} {k : Nat} (fresh : Fresh trace k)
    (away : ∀ i, k + 1 ≤ i → (∀ ok, e ≠ .construct i ok) ∧ e ≠ .release i ∧ e ≠ .create i true ∧ e ≠ .join i true) :
    Fresh (e :: trace) (k + 1) := by
  intro i later
  obtain ⟨construct,release,create,join⟩ := away i later
  obtain ⟨built,rejected,released,created,joined⟩ := fresh i (by omega)
  refine ⟨?_,?_,?_,?_,?_⟩
  · rw [constructs,List.count_cons_of_ne (construct true)]; exact built
  · simp [rejected,(construct false).symm]
  · rw [releases,List.count_cons_of_ne release]; exact released
  · simp [created,create.symm]
  · simp [joined,join.symm]

/-- What the construction of slots leaves of a pool. -/
structure Constructed (p q : Pool) : Prop where
  same : q = { p with started := q.started, trace := q.trace }
  setup : SameSetup p.trace q.trace
  inlined : p.inlineRun = true → q.started = p.started

/-- Slot `i`, with the slots before it live and nothing done to those after it. -/
theorem constructOne_spec (o : StartOutcome) (i : Nat) (p : Pool) (fresh : Fresh p.trace i)
    (life : Life ops p.trace p.started (· < i)) :
    Constructed p (constructOne ops p o i).1 ∧
      Life ops (constructOne ops p o i).1.trace (constructOne ops p o i).1.started
        (· < if (constructOne ops p o i).2 then i + 1 else i) ∧
      Fresh (constructOne ops p o i).1.trace (i + 1) := by
  obtain ⟨built,rejected,released,created,joined⟩ := fresh i (Nat.le_refl i)
  have own : p.started i = false := by
    by_contra running
    have early := life.owners i (by simpa using running)
    omega
  have next : (fun j => j < i ∨ j = i) = (· < i + 1) := by
    funext j
    simp only [eq_iff_iff]
    omega
  have back : (fun j => j < i + 1 ∧ j ≠ i) = (· < i) := by
    funext j
    simp only [eq_iff_iff]
    omega
  have constructed := life_construct life built rejected released
  rw [next] at constructed
  unfold constructOne
  split
  · exact ⟨⟨rfl,sameSetup_cons rfl (by simp),fun _ => rfl⟩,life_reject life built,
      fresh_cons fresh (fun j later => by simp; omega)⟩
  · have fresh' : Fresh (Event.construct i true :: p.trace) (i + 1) :=
      fresh_cons fresh (fun j later => by simp; omega)
    have setup : SameSetup p.trace (Event.construct i true :: p.trace) := sameSetup_cons rfl (by simp)
    dsimp only [Pool.emit]
    split
    · exact ⟨⟨rfl,setup,fun _ => rfl⟩,constructed,fresh'⟩
    · rename_i threaded
      have apart : Fresh (Event.create i (o.create i) :: .construct i true :: p.trace) (i + 1) := by
        intro j later
        obtain ⟨c,r,l,k,u⟩ := fresh' j later
        refine ⟨?_,by simpa using r,?_,?_,by simpa using u⟩
        · rw [constructs,List.count_cons_of_ne (by simp)]; exact c
        · rw [releases,List.count_cons_of_ne (by simp)]; exact l
        · simp only [List.mem_cons,k,or_false,Event.create.injEq]; omega
      cases thread : o.create i with
      | true =>
        rw [thread] at apart
        simp only [spawn,thread,if_true,Pool.emit]
        refine ⟨⟨rfl,sameSetup_trans setup (sameSetup_cons rfl (by simp)),
          fun inlined => absurd inlined threaded⟩,?_,apart⟩
        exact life_create constructed (Nat.lt_succ_self i) (by simpa using joined)
      | false =>
        rw [thread] at apart
        have failed : Life ops (Event.create i false :: .construct i true :: p.trace) p.started (· < i + 1) :=
          life_other constructed (by simp) (by simp) (by simp) (by simp)
        simp only [spawn,thread,Bool.false_eq_true,if_false,Pool.emit,releaseHook]
        split
        · refine ⟨⟨rfl,sameSetup_trans setup (sameSetup_trans (sameSetup_cons rfl (by simp))
            (sameSetup_cons rfl (by simp))),fun _ => rfl⟩,?_,?_⟩
          · have unwound := life_release failed (i := i) (Nat.lt_succ_self i) own (.inr rfl)
            rw [back] at unwound
            exact unwound
          · intro j later
            obtain ⟨c,r,l,k,u⟩ := apart j later
            refine ⟨?_,by simpa using r,?_,by simpa using k,by simpa using u⟩
            · rw [constructs,List.count_cons_of_ne (by simp)]; exact c
            · rw [releases,List.count_cons_of_ne (by simp; omega)]; exact l
        · rename_i unset
          refine ⟨⟨rfl,sameSetup_trans setup (sameSetup_cons rfl (by simp)),fun _ => rfl⟩,?_,apart⟩
          have dropped := life_drop failed (i := i) (by simpa using unset) own
          rw [back] at dropped
          exact dropped

theorem constructFrom_spec (ops : Ops) (o : StartOutcome) (left i : Nat) (p : Pool) (fresh : Fresh p.trace i)
    (life : Life ops p.trace p.started (· < i)) :
    Constructed p (constructFrom ops p o left i).1 ∧
      Life ops (constructFrom ops p o left i).1.trace (constructFrom ops p o left i).1.started
        (· < (constructFrom ops p o left i).2) ∧
      (constructFrom ops p o left i).2 ≤ i + left := by
  induction left generalizing p i with
  | zero => exact ⟨⟨rfl,⟨rfl,rfl⟩,fun _ => rfl⟩,life,Nat.le_refl _⟩
  | succ left ih =>
    obtain ⟨one,alive,later⟩ := constructOne_spec o i p fresh life
    rw [constructFrom]
    cases built : (constructOne ops p o i).2 with
    | true =>
      rw [built,if_pos rfl] at alive
      obtain ⟨rest,living,bound⟩ := ih (i + 1) (constructOne ops p o i).1 later alive
      simp only [built,if_true]
      refine ⟨⟨?_,sameSetup_trans one.setup rest.setup,fun inlined => ?_⟩,living,by omega⟩
      · rw [rest.same,one.same]
      · rw [rest.inlined (by rw [one.same]; exact inlined),one.inlined inlined]
    | false =>
      rw [built] at alive
      simp only [built,Bool.false_eq_true,if_false]
      exact ⟨one,alive,by omega⟩

/-- Every started thread has a record. -/
def Recorded (p : Pool) : Prop := ∀ i, p.started i = true → p.threads = true ∧ i < p.nPref.toNat

/-- The fields that neither a stop nor the construction of slots changes. -/
structure SameConfig (p q : Pool) : Prop where
  nPref : q.nPref = p.nPref
  lazyDone : q.lazyDone = p.lazyDone
  lazyFailed : q.lazyFailed = p.lazyFailed
  destroyed : q.destroyed = p.destroyed

theorem Stopped.config (stopped : Stopped p q) : SameConfig p q := by
  constructor <;> rw [stopped.same]

theorem Stopped.recorded (stopped : Stopped p q) (recorded : Recorded p) : Recorded q := by
  intro i running
  obtain ⟨threads,inside⟩ := recorded i (stopped.fewer i running)
  rw [stopped.same]
  exact ⟨threads,inside⟩

theorem stop_joined (recorded : Recorded p) (o : StopOutcome) (joined : (stop p o).2 = true) (i : Nat) :
    (stop p o).1.started i = false := by
  obtain ⟨stopped,all⟩ := stop_stopped p o
  by_contra running
  obtain ⟨threads,inside⟩ := recorded i (stopped.fewer i (by simpa using running))
  rw [all joined threads i inside] at running
  contradiction

/-- Before its first start a pool has done nothing. -/
structure Untouched (p : Pool) : Prop where
  trace : p.trace = []
  started : p.started = fun _ => false
  threads : p.threads = false
  nWorkers : p.nWorkers = 0

/-- What the setup of a pool leaves, and what it grants where it succeeds. -/
structure SetUp (ops : Ops) (p q : Pool) (ok : Bool) : Prop where
  config : SameConfig p q
  started : q.started = fun _ => false
  nWorkers : q.nWorkers = 0
  trace : q.trace = [] ∨ ∃ prepared, q.trace = [.prepare prepared]
  bounds : ok = true → 1 ≤ q.nPref ∧ q.nPref ≤ threadsMax
  inlined : ok = true → q.inlineRun = decide (q.nPref = 1)
  threads : ok = true → q.inlineRun = false → q.threads = true

theorem alloc_spec (started : p.started = fun _ => false) (o : StartOutcome) :
    SameConfig p (alloc p o).1 ∧ (alloc p o).1.started = (fun _ => false) ∧
      (alloc p o).1.nWorkers = p.nWorkers ∧ (alloc p o).1.trace = p.trace ∧
      ((alloc p o).2 = true → (alloc p o).1.nPref ≠ 1 → (alloc p o).1.threads = true) := by
  unfold alloc
  split
  · exact ⟨⟨rfl,rfl,rfl,rfl⟩,started,rfl,rfl,by simp⟩
  · dsimp only
    split
    · rename_i one
      exact ⟨⟨rfl,rfl,rfl,rfl⟩,started,rfl,rfl,fun _ several => absurd one several⟩
    · split
      · exact ⟨⟨rfl,rfl,rfl,rfl⟩,started,rfl,rfl,by simp⟩
      · exact ⟨⟨rfl,rfl,rfl,rfl⟩,rfl,rfl,rfl,fun _ _ => rfl⟩

theorem setup_spec (ops : Ops) (untouched : Untouched p) (o : StartOutcome) :
    SetUp ops p (setup ops p o).1 (setup ops p o).2 := by
  unfold setup
  split
  · exact ⟨⟨rfl,rfl,rfl,rfl⟩,untouched.started,untouched.nWorkers,.inl untouched.trace,by simp,by simp,by simp⟩
  · rename_i bounds
    have inside : 1 ≤ p.nPref ∧ p.nPref ≤ threadsMax := by omega
    have trace (prepared : Pool) (same : prepared = if ops.prepare then p.emit (.prepare o.prepare) else p) :
        prepared.trace = [] ∨ ∃ ok, prepared.trace = [.prepare ok] := by
      rw [same]
      split
      · exact .inr ⟨o.prepare,by simp [Pool.emit,untouched.trace]⟩
      · exact .inl untouched.trace
    have config : SameConfig p (if ops.prepare then p.emit (.prepare o.prepare) else p) := by
      split <;> exact ⟨rfl,rfl,rfl,rfl⟩
    have started : (if ops.prepare then p.emit (.prepare o.prepare) else p).started = fun _ => false := by
      split <;> exact untouched.started
    have nWorkers : (if ops.prepare then p.emit (.prepare o.prepare) else p).nWorkers = 0 := by
      split <;> exact untouched.nWorkers
    generalize prepared : (if ops.prepare then p.emit (.prepare o.prepare) else p) = r at config started nWorkers
    have trace := trace r prepared.symm
    rw [← config.nPref] at inside
    split
    · exact ⟨config,started,nWorkers,trace,by simp,by simp,by simp⟩
    · have allocation := alloc_spec started o
      dsimp only
      generalize alloc r o = out at allocation ⊢
      obtain ⟨a,allocated⟩ := out
      obtain ⟨same,fresh,none,kept,threads⟩ := allocation
      dsimp only at same fresh none kept threads ⊢
      have config : SameConfig p a := ⟨same.nPref.trans config.nPref,same.lazyDone.trans config.lazyDone,
        same.lazyFailed.trans config.lazyFailed,same.destroyed.trans config.destroyed⟩
      rw [← same.nPref] at inside
      rw [← kept] at trace
      have none := none.trans nWorkers
      cases allocated with
      | false => exact ⟨config,fresh,none,trace,by simp,by simp,by simp⟩
      | true =>
        simp only [Bool.true_eq_false,if_false]
        split
        · rename_i one
          exact ⟨⟨config.1,config.2,config.3,config.4⟩,fresh,none,trace,fun _ => inside,fun _ => rfl,
            fun _ several => absurd several (by simpa using one)⟩
        · rename_i several
          split
          · exact ⟨⟨config.1,config.2,config.3,config.4⟩,fresh,none,trace,by simp,by simp,by simp⟩
          · exact ⟨⟨config.1,config.2,config.3,config.4⟩,fresh,none,trace,fun _ => inside,fun _ => rfl,
              fun _ _ => threads rfl (by simpa using several)⟩

/-- What a pool keeps between two calls of its owner, for its live slots. -/
structure Slots (ops : Ops) (p : Pool) : Prop where
  life : Life ops p.trace p.started (· < p.nWorkers)
  recorded : Recorded p
  prepares : p.trace.countP Event.isPrepare ≤ 1

theorem Stopped.slots (stopped : Stopped p q) (slots : Slots ops p) : Slots ops q := by
  refine ⟨?_,stopped.recorded slots.recorded,?_⟩
  · have nWorkers : q.nWorkers = p.nWorkers := by rw [stopped.same]
    rw [nWorkers]
    exact stopped.life ops _ slots.life
  · rw [stopped.sameSetup.1]
    exact slots.prepares

/-- Once no thread is left, releasing the live slots leaves none. -/
theorem releaseSlots_spec (slots : Slots ops p) (joined : ∀ i, p.started i = false) :
    releaseSlots ops p p.nWorkers = { p with trace := (releaseSlots ops p p.nWorkers).trace } ∧
      Slots ops { releaseSlots ops p p.nWorkers with nWorkers := 0 } ∧
      SameSetup p.trace (releaseSlots ops p p.nWorkers).trace := by
  have all : (fun j => 0 ≤ j ∧ j < 0 + p.nWorkers) = (· < p.nWorkers) := by
    funext j
    simp
  have nobody : (fun _ : Nat => False) = (· < 0) := by
    funext j
    simp
  obtain ⟨same,life,setup⟩ := releaseFrom_spec p.nWorkers 0 p joined (by rw [all]; exact slots.life)
  have started : (releaseSlots ops p p.nWorkers).started = p.started := by rw [releaseSlots,same]
  refine ⟨same,⟨?_,?_,?_⟩,setup⟩
  · rw [nobody] at life
    show Life ops (releaseSlots ops p p.nWorkers).trace (releaseSlots ops p p.nWorkers).started (· < 0)
    rw [started]
    exact life
  · intro i running
    have before : (releaseSlots ops p p.nWorkers).started i = true := running
    rw [started,joined i] at before
    contradiction
  · exact setup.1.trans_le slots.prepares

theorem retireFailedStart_spec (o : StartOutcome) (built : Nat) (slots : Slots ops { p with nWorkers := built }) :
    Slots ops (retireFailedStart ops p o built) ∧ SameConfig p (retireFailedStart ops p o built) := by
  have stopped := (stop_stopped { p with nWorkers := built } o.stop).1
  have joined := stop_joined slots.recorded o.stop
  have after := stopped.slots slots
  have count : (stop { p with nWorkers := built } o.stop).1.nWorkers = built := by rw [stopped.same]
  have config : SameConfig p (stop { p with nWorkers := built } o.stop).1 :=
    ⟨stopped.config.1,stopped.config.2,stopped.config.3,stopped.config.4⟩
  unfold retireFailedStart
  generalize stop { p with nWorkers := built } o.stop = out at after count config joined ⊢
  obtain ⟨q,reaped⟩ := out
  dsimp only at after count config joined ⊢
  cases reaped with
  | false => exact ⟨after,config⟩
  | true =>
    obtain ⟨same,released,_⟩ := releaseSlots_spec after (joined rfl)
    rw [count] at same released
    refine ⟨released,?_⟩
    simp only [Bool.true_eq_false,if_false]
    rw [same]
    exact ⟨config.1,config.2,config.3,config.4⟩

/-- What a successful start has brought up. -/
structure Up (ops : Ops) (p : Pool) : Prop where
  count : 1 ≤ p.nWorkers ∧ (p.nWorkers : Int) ≤ p.nPref ∧ p.nPref ≤ threadsMax
  all : ops.allOrNothing = true → (p.nWorkers : Int) = p.nPref
  finalized : ops.finalize = true → finalized p.trace = [p.nWorkers]

theorem Stopped.up (stopped : Stopped p q) (up : Up ops p) : Up ops q := by
  have nWorkers : q.nWorkers = p.nWorkers := by rw [stopped.same]
  obtain ⟨count,all,finalized⟩ := up
  rw [← nWorkers,← stopped.config.nPref] at count all
  exact ⟨count,all,fun set => by rw [stopped.sameSetup.2,nWorkers]; exact finalized set⟩

/-- After its setup a pool has neither slots nor threads. -/
theorem SetUp.bare {ok : Bool} (setup : SetUp ops p q ok) :
    Life ops q.trace q.started (· < 0) ∧ Fresh q.trace 0 ∧ q.trace.countP Event.isPrepare ≤ 1 ∧
      finalized q.trace = [] := by
  have nobody : (fun _ : Nat => False) = (· < 0) := by
    funext j
    simp
  have empty : Life ops [] (fun _ => false) (· < 0) := by
    rw [← nobody]
    exact life_nil
  rw [setup.started]
  rcases setup.trace with trace | ⟨prepared,trace⟩
  · rw [trace]
    refine ⟨empty,?_,by simp,rfl⟩
    intro i _
    simp [constructs,releases]
  · rw [trace]
    refine ⟨life_other empty (by simp) (by simp) (by simp) (by simp),?_,by simp [Event.isPrepare],rfl⟩
    intro i _
    simp [constructs,releases]

/-- The slots that came up after the setup of a pool. -/
theorem constructAll_spec (setup : SetUp ops p q true) (o : StartOutcome) :
    Slots ops { (constructAll ops q o).1 with nWorkers := (constructAll ops q o).2 } ∧
      SameConfig p (constructAll ops q o).1 ∧ (constructAll ops q o).1.inlineRun = q.inlineRun ∧
      ((constructAll ops q o).2 : Int) ≤ q.nPref ∧ finalized (constructAll ops q o).1.trace = [] := by
  obtain ⟨bare,fresh,prepares,unfinished⟩ := setup.bare
  obtain ⟨low,high⟩ := setup.bounds rfl
  have inlined := setup.inlined rfl
  obtain ⟨constructed,life,bound⟩ :=
    constructFrom_spec ops o (if q.inlineRun then 1 else q.nPref.toNat) 0 q fresh bare
  have limit : (constructAll ops q o).2 ≤ q.nPref.toNat := by
    refine Nat.le_trans bound ?_
    split <;> omega
  have config : SameConfig p (constructAll ops q o).1 := by
    have same := constructed.same
    refine ⟨?_,?_,?_,?_⟩ <;> rw [constructAll,same]
    · exact setup.config.1
    · exact setup.config.2
    · exact setup.config.3
    · exact setup.config.4
  refine ⟨⟨life,?_,?_⟩,config,?_,by omega,constructed.setup.2.trans unfinished⟩
  · intro i running
    have running : (constructAll ops q o).1.started i = true := running
    have early := life.owners i running
    cases single : q.inlineRun with
    | true =>
      have idle := constructed.inlined single
      rw [constructAll,idle,setup.started] at running
      contradiction
    | false =>
      refine ⟨?_,?_⟩
      · show (constructAll ops q o).1.threads = true
        rw [constructAll,constructed.same]
        exact setup.threads rfl single
      · show i < (constructAll ops q o).1.nPref.toNat
        rw [config.nPref,← setup.config.nPref]
        exact Nat.lt_of_lt_of_le early limit
  · exact constructed.setup.1.trans_le prepares
  · rw [constructAll,constructed.same]

theorem buildOk_spec {built : Nat} (usable : buildOk ops p built = true) :
    1 ≤ built ∧ (ops.allOrNothing = true → (if p.inlineRun then 1 else p.nPref) ≤ (built : Int)) := by
  dsimp only [buildOk] at usable
  by_cases none : built = 0
  · simp [none] at usable
  · rw [if_neg none] at usable
    exact ⟨by omega,fun all => by simpa only [all,Bool.not_true,Bool.false_or,decide_eq_true_eq] using usable⟩

theorem start_spec (ops : Ops) (untouched : Untouched p) (o : StartOutcome) :
    Slots ops (start ops p o).1 ∧ SameConfig p (start ops p o).1 ∧
      ((start ops p o).2 = true → Up ops (start ops p o).1) := by
  have prepared := setup_spec ops untouched o
  unfold start
  generalize setup ops p o = out at prepared ⊢
  obtain ⟨q,ready⟩ := out
  dsimp only at prepared ⊢
  cases ready with
  | false =>
    obtain ⟨bare,_,prepares,_⟩ := prepared.bare
    refine ⟨⟨?_,?_,prepares⟩,prepared.config,by simp⟩
    · simp only [if_true]
      rw [prepared.nWorkers]
      exact bare
    · intro i running
      have running : q.started i = true := running
      rw [prepared.started] at running
      contradiction
  | true =>
    obtain ⟨slots,config,single,bound,unfinished⟩ := constructAll_spec prepared o
    have inlined := prepared.inlined rfl
    obtain ⟨low,high⟩ := prepared.bounds rfl
    simp only [Bool.true_eq_false,if_false]
    generalize constructAll ops q o = out at slots config single bound unfinished ⊢
    obtain ⟨r,built⟩ := out
    dsimp only at slots config single bound unfinished ⊢
    have prefs : r.nPref = q.nPref := config.nPref.trans prepared.config.nPref.symm
    cases usable : buildOk ops r built with
    | false =>
      obtain ⟨retired,same⟩ := retireFailedStart_spec o built slots
      refine ⟨retired,⟨same.1.trans config.1,same.2.trans config.2,same.3.trans config.3,same.4.trans config.4⟩,
        by simp⟩
    | true =>
      obtain ⟨some,all⟩ := buildOk_spec usable
      have every (strict : ops.allOrNothing = true) : (built : Int) = r.nPref := by
        have enough := all strict
        rw [single,inlined] at enough
        by_cases one : q.nPref = 1
        · simp only [one,decide_true,if_true] at enough
          omega
        · simp only [one,decide_false,Bool.false_eq_true,if_false] at enough
          omega
      simp only [Bool.true_eq_false,if_false]
      have count : 1 ≤ built ∧ (built : Int) ≤ r.nPref ∧ r.nPref ≤ threadsMax := by omega
      split
      · refine ⟨⟨?_,slots.recorded,?_⟩,⟨config.1,config.2,config.3,config.4⟩,fun _ => ⟨count,every,fun _ => ?_⟩⟩
        · exact life_other slots.life (by simp) (by simp) (by simp) (by simp)
        · simpa [Pool.emit,Event.isPrepare] using slots.prepares
        · simpa [Pool.emit,finalized] using unfinished
      · rename_i unset
        exact ⟨slots,⟨config.1,config.2,config.3,config.4⟩,fun _ => ⟨count,every,fun set => absurd set unset⟩⟩

end AutoUpscale.WorkerPool
