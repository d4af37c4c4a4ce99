import AutoUpscale.AdaptiveOwnership
import AutoUpscale.TunerSearch
import AutoUpscale.UsmApply

/-!
The pools behind the numbers of the adaptive choice. In `UsmAdaptive` the answers of
the pools are arguments; here they are those of the pools of `usm_pool.c`, which are
created for the count that the tuner wants and applied to a frame. Every pool has
the number of workers that it was created for (`Manned`), so a pool all of whose
workers came up never ends exploration by its count (`spawned_count`).
-/
namespace AutoUpscale.AdaptiveFleet
open AutoUpscale.Runs (Reachable reachable_preserves)
open AutoUpscale.Tuner (Double observe_cases)
open AutoUpscale.UsmAdaptive
open AutoUpscale.UsmPool (Bytes Args Pool Status resolveThreads)
universe u
set_option linter.unusedSectionVars false
variable {R : Type u} [Double R]

/-- The adaptive choice, and the pool of every number. -/
structure Fleet (R : Type u) where
  world : World R
  pools : Nat → Option Pool

/-- What one `up_usm_adaptive_apply` is given and what the environment does: whether
    a pool can be allocated, what happens in the selected pool and then in the best
    one, and the clock before and after. -/
structure Serving where
  memory : Bytes
  args : Args
  allocated : Bool
  selected : UsmPool.Outcome
  recovered : UsmPool.Outcome
  start : Option Timespec
  finish : Option Timespec

/-- `up_usm_pool_create` as `up_usm_adaptive_select` calls it. -/
def trialPool (a : Adaptive R) (allocated : Bool) : Option Pool :=
  if allocated then UsmPool.create a.tuner.current a.width a.height a.stripeRows else none

/-- The first assignment of `up_usm_adaptive_apply`. -/
def unretained (f : Fleet R) : Fleet R :=
  { f with world := { f.world with adaptive := { f.world.adaptive with retained := false } } }

/-- The choice of a pool: the number of the one that is selected, with the pool itself
    where it is a new one. -/
def chooseFrom (f : Fleet R) (allocated : Bool) : Fleet R × Option Nat :=
  let made := trialPool f.world.adaptive allocated
  let (w,selected) := choose f.world made.isSome
  (⟨w,if w.next = f.world.next then f.pools else Function.update f.pools f.world.next made⟩,selected)

/-- `up_usm_pool_apply` of a pool: the status, how many threads it then has, and the
    pools. It refuses NULL. -/
def applyPool (pools : Nat → Option Pool) (s : Serving) (o : UsmPool.Outcome) :
    Option Nat → Option (Status × Int × (Nat → Option Pool))
  | none => some (.failedUnchanged,0,pools)
  | some number =>
    (pools number).bind fun p => (UsmPool.apply p s.memory s.args o).map fun r =>
      (r.status,r.pool.nThreads,Function.update pools number (some r.pool))

/-- `up_usm_adaptive_apply` with its pools. -/
def serve (f : Fleet R) (s : Serving) : Option (Fleet R) :=
  let (g,selected) := chooseFrom (unretained f) s.allocated
  (applyPool g.pools s s.selected selected).bind fun (status,threads,pools) =>
    let failed := status = .failedUnchanged ∧ selected ≠ g.world.best
    (if failed then applyPool pools s s.recovered g.world.best else some (status,threads,pools)).map
      fun (again,_,pools) =>
        let made := (trialPool f.world.adaptive s.allocated).isSome
        ⟨(apply f.world ⟨made,status,again,threads,s.start,s.finish⟩).1,pools⟩

inductive Call
  | begin (clock : Option Timespec)
  | serve (s : Serving)
  | stop

/-- One call of the owner. -/
def step (f : Fleet R) : Call → Option (Fleet R)
  | .begin clock => some { f with world := begin f.world clock }
  | .serve s => serve f s
  | .stop => some { f with world := stop f.world }

/-- The choice beside the base pool, which has number 0. -/
def launched (w : World R) (p : Pool) : Fleet R := ⟨w,fun number => if number = 0 then some p else none⟩

/-! ## The size of a pool -/

/-- A pool that was created for `count` workers. -/
structure Sized (p : Pool) (count : Int) : Prop where
  inv : ∃ width height, UsmPool.Inv width height p
  preferred : p.pool.nPref = count

/-- All workers that the pool was created for came up. -/
def Spawned (p : Pool) : Prop := p.pool.lazyDone = true ∧ (p.pool.nWorkers : Int) = p.pool.nPref

variable {p : Pool} {count : Int} {m : Bytes} {a : Args} {o : UsmPool.Outcome} {r : UsmPool.Applied}

theorem create_sized {nThreads width height stripeMinRows : Int}
    (created : UsmPool.create nThreads width height stripeMinRows = some p) :
    Sized p (resolveThreads nThreads height stripeMinRows) := by
  refine ⟨⟨_,_,(UsmPool.create_inv created).1⟩,?_⟩
  rw [UsmPool.create] at created
  split at created
  · cases created
  · cases created
    rfl

theorem ensureStarted_preferred {width height : Nat} (inv : UsmPool.Inv width height p) (o : WorkerPool.StartOutcome) :
    (UsmPool.ensureStarted p o).1.pool.nPref = p.pool.nPref := by
  rw [UsmPool.ensureStarted_pool]
  exact (WorkerPool.ensureStarted_config inv.lifecycle inv.live _).1

/-- A call leaves the number of workers that the pool is for. -/
theorem apply_sized (sized : Sized p count) (applied : UsmPool.apply p m a o = some r) : Sized r.pool count := by
  obtain ⟨⟨width,height,inv⟩,rfl⟩ := sized
  refine ⟨⟨width,height,UsmPool.apply_inv inv applied⟩,?_⟩
  cases UsmPool.apply_cases applied with
  | refused => rfl
  | identity => rfl
  | unstarted => exact ensureStarted_preferred inv o.start
  | dispatch _ _ _ dispatched =>
    obtain ⟨_,pool,_⟩ := UsmPool.applyDispatch_spec dispatched
    rw [pool]
    exact (WorkerPool.dispatch_stopped _ _ _).1.config.nPref.trans (ensureStarted_preferred inv o.start)

/-- The effective threads of a pool whose workers all came up are those it is for. -/
theorem sized_threads (sized : Sized p count) (spawned : Spawned p) : (p.nThreads : Int) = count := by
  obtain ⟨_,_,inv⟩ := sized.inv
  rw [(inv.ready spawned.1).1,spawned.2,sized.preferred]

/-! ## The counts of the pools -/

/-- Every candidate is a count that the pool would not reduce. -/
def Agrees (a : Adaptive R) : Prop :=
  ∀ count, 1 ≤ count → count ≤ a.tuner.limit → resolveThreads count a.height a.stripeRows = count

/-- The best pool and the trial pool are there, with the counts that the choice knows. -/
structure Manned (f : Fleet R) : Prop where
  inv : Inv f.world
  agrees : Agrees f.world.adaptive
  best : ∀ number, f.world.best = some number → ∃ p, f.pools number = some p ∧ Sized p f.world.adaptive.tuner.best
  trial : ∀ number, f.world.adaptive.trial = some number →
    ∃ p, f.pools number = some p ∧ Sized p f.world.adaptive.trialCount

variable {w v : World R} {f g : Fleet R} {s : Serving} {selected : Option Nat}

/-- No pool is new: those that are left have the counts that they had, and the best one
    may have been replaced by the trial pool. -/
structure Kept (w v : World R) : Prop where
  limit : v.adaptive.tuner.limit = w.adaptive.tuner.limit
  height : v.adaptive.height = w.adaptive.height
  stripeRows : v.adaptive.stripeRows = w.adaptive.stripeRows
  hands : v.best = w.best ∧ v.adaptive.tuner.best = w.adaptive.tuner.best ∧
      (v.adaptive.trial = none ∨ v.adaptive.trial = w.adaptive.trial ∧ v.adaptive.trialCount = w.adaptive.trialCount) ∨
    v.best = w.adaptive.trial ∧ v.adaptive.tuner.best = w.adaptive.trialCount ∧ v.adaptive.trial = none

theorem kept_refl (w : World R) : Kept w w := ⟨rfl,rfl,rfl,.inl ⟨rfl,rfl,.inr ⟨rfl,rfl⟩⟩⟩

/-- Without its trial a world still has its best pool. -/
theorem kept_clearTrial (kept : Kept w v) : Kept w (clearTrial v) := by
  obtain ⟨limit,height,stripeRows,hands⟩ := kept
  obtain ⟨best,_,adaptive⟩ := clearTrial_fields v
  constructor
  · rw [adaptive]
    exact limit
  · rw [adaptive]
    exact height
  · rw [adaptive]
    exact stripeRows
  · rw [adaptive,best]
    obtain ⟨same,tuner,_⟩ | ⟨trial,tuner,_⟩ := hands
    · exact .inl ⟨same,tuner,.inl rfl⟩
    · exact .inr ⟨trial,tuner,rfl⟩

theorem kept_stop (kept : Kept w v) : Kept w (stop v) := by
  obtain ⟨limit,height,stripeRows,hands⟩ := kept_clearTrial kept
  exact ⟨limit,height,stripeRows,hands⟩

theorem manned_kept {pools : Nat → Option Pool} (manned : Manned ⟨w,pools⟩) (kept : Kept w v) (inv : Inv v) :
    Manned ⟨v,pools⟩ := by
  refine ⟨inv,fun count low high => ?_,fun number found => ?_,fun number running => ?_⟩
  · rw [kept.height,kept.stripeRows]
    exact manned.agrees count low (kept.limit ▸ high)
  · obtain ⟨best,tuner,_⟩ | ⟨best,tuner,_⟩ := kept.hands
    · rw [tuner]
      exact manned.best number (best.symm.trans found)
    · rw [tuner]
      exact manned.trial number (best.symm.trans found)
  · obtain ⟨_,_,absent | ⟨trial,same⟩⟩ | ⟨_,_,absent⟩ := kept.hands
    · exact absurd (absent.symm.trans running) nofun
    · rw [same]
      exact manned.trial number (trial.symm.trans running)
    · exact absurd (absent.symm.trans running) nofun

/-- A call of a pool leaves all pools as large as they were. -/
theorem manned_apply {status : Status} {threads : Int} {pools : Nat → Option Pool} {o : UsmPool.Outcome} (manned : Manned f)
    (applied : applyPool f.pools s o selected = some (status,threads,pools)) : Manned ⟨f.world,pools⟩ := by
  cases selected with
  | none =>
    cases applied
    exact manned
  | some number =>
    obtain ⟨p,found,answered⟩ := Option.bind_eq_some_iff.mp applied
    obtain ⟨r,called,same⟩ := Option.map_eq_some_iff.mp answered
    cases same
    have keeps (other : Nat) (count : Int) (known : ∃ q, f.pools other = some q ∧ Sized q count) :
        ∃ q, Function.update f.pools number (some r.pool) other = some q ∧ Sized q count := by
      obtain ⟨q,known,sized⟩ := known
      by_cases own : other = number
      · rw [own] at known ⊢
        cases found.symm.trans known
        exact ⟨r.pool,Function.update_self ..,apply_sized sized called⟩
      · exact ⟨q,by rw [Function.update_of_ne own]; exact known,sized⟩
    exact ⟨manned.inv,manned.agrees,fun other found => keeps other _ (manned.best other found),
      fun other running => keeps other _ (manned.trial other running)⟩

/-! ## Selecting a pool -/

/-- What `choose` does: no pool is new, or the trial pool is, for the count that the
    tuner wants. -/
inductive Choice (w : World R) (created : Bool) : World R → Option Nat → Prop
  | known (v : World R) (selected : Option Nat) (same : v.next = w.next) (kept : Kept w v)
      (which : selected = v.best ∨ selected = v.adaptive.trial ∧ v.adaptive.trialCount = v.adaptive.tuner.current) :
      Choice w created v selected
  | fresh (v : World R) (made : created = true) (next : v.next = w.next + 1) (best : v.best = w.best)
      (adaptive : v.adaptive = { w.adaptive with trial := some w.next, trialCount := w.adaptive.tuner.current }) :
      Choice w created v (some w.next)

theorem startTrial_choice (w : World R) (created : Bool) :
    Choice w created (startTrial (clearTrial w) created).1 (startTrial (clearTrial w) created).2 := by
  obtain ⟨best,next,adaptive⟩ := clearTrial_fields w
  have kept := kept_clearTrial (kept_refl w)
  generalize clearTrial w = cleared at best next adaptive kept
  cases created with
  | false =>
    have absent : cleared.adaptive.trial = none := by rw [adaptive]
    have same : { cleared with adaptive := { cleared.adaptive with trial := none } } = cleared := by rw [← absent]
    have value : startTrial cleared false =
        (stop { cleared with adaptive := { cleared.adaptive with trial := none } },cleared.best) := rfl
    rw [value,same]
    exact .known _ _ ((clearTrial_fields cleared).2.1.trans next) (kept_stop kept) (.inl (stop_best cleared).symm)
  | true =>
    have value : startTrial cleared true =
        ({ cleared with
            next := cleared.next + 1, trace := .create cleared.next :: cleared.trace,
            adaptive := { cleared.adaptive with trial := some cleared.next, trialCount := cleared.adaptive.tuner.current } },
          some cleared.next) := rfl
    rw [value,next,adaptive]
    exact .fresh _ rfl rfl best rfl

theorem choose_choice (w : World R) (created : Bool) : Choice w created (choose w created).1 (choose w created).2 := by
  rw [choose]
  by_cases off : w.adaptive.enabled = true
  · rw [if_pos off,select]
    by_cases resting : w.adaptive.tuner.current = w.adaptive.tuner.best
    · rw [if_pos resting]
      exact .known w w.best rfl (kept_refl w) (.inl rfl)
    rw [if_neg resting]
    by_cases running : w.adaptive.trialCount = w.adaptive.tuner.current
    · rw [if_pos running]
      exact .known w w.adaptive.trial rfl (kept_refl w) (.inr ⟨rfl,running⟩)
    · rw [if_neg running]
      exact startTrial_choice w created
  · rw [if_neg off]
    exact .known w w.best rfl (kept_refl w) (.inl rfl)

theorem choice_count {created : Bool} (choice : Choice w created v selected) (other : selected ≠ v.best) :
    v.adaptive.trialCount = v.adaptive.tuner.current := by
  cases choice with
  | known selected same kept which => exact (which.resolve_left other).2
  | fresh created next best adaptive => rw [adaptive]

theorem trialPool_sized {a : Adaptive R} {allocated : Bool} (agrees : Agrees a) (low : 1 ≤ a.tuner.current)
    (high : a.tuner.current ≤ a.tuner.limit) (made : trialPool a allocated = some p) : Sized p a.tuner.current := by
  rw [trialPool] at made
  split at made
  · have sized := create_sized made
    rwa [agrees _ low high] at sized
  · cases made

/-- A new trial pool is for a candidate of the tuner. -/
theorem manned_fresh {pools : Nat → Option Pool} {allocated : Bool} (manned : Manned ⟨w,pools⟩) (inv : Inv v)
    (made : trialPool w.adaptive allocated = some p) (best : v.best = w.best)
    (adaptive : v.adaptive = { w.adaptive with trial := some w.next, trialCount := w.adaptive.tuner.current }) :
    Sized p w.adaptive.tuner.current ∧ Manned ⟨v,Function.update pools w.next (some p)⟩ := by
  obtain ⟨_,count,phase⟩ := inv.present (by rw [adaptive]; exact nofun)
  obtain ⟨cursor,low,_⟩ := inv.tuner.candidate phase
  obtain ⟨_,high⟩ := inv.tuner.cursor
  rw [adaptive] at count cursor low high
  dsimp only at count cursor low high
  have within : 1 ≤ w.adaptive.tuner.current ∧ w.adaptive.tuner.current ≤ w.adaptive.tuner.limit := by omega
  have sized := trialPool_sized manned.agrees within.1 within.2 made
  refine ⟨sized,inv,?_,fun number found => ?_,fun number running => ?_⟩
  · rw [adaptive]
    exact manned.agrees
  · obtain ⟨known,owner,ledger⟩ := manned.inv.owned
    have found : w.best = some number := best.symm.trans found
    have older : number ≠ w.next := by
      cases owner.symm.trans found
      exact (ledger.known number List.mem_cons_self).ne
    show ∃ q, Function.update pools w.next (some p) number = some q ∧ Sized q v.adaptive.tuner.best
    rw [Function.update_of_ne older,adaptive]
    exact manned.best number found
  · rw [adaptive] at running ⊢
    cases running
    exact ⟨p,Function.update_self ..,sized⟩

theorem unretained_manned (manned : Manned f) : Manned (unretained f) := by
  have same : SamePools f.world (unretained f).world := ⟨rfl,rfl,rfl,rfl,rfl,rfl,rfl,rfl⟩
  exact ⟨same.inv manned.inv,manned.agrees,manned.best,manned.trial⟩

/-- The pools of a frame. The one that is selected has the count that the tuner wants. -/
theorem chooseFrom_manned (manned : Manned f) (allocated : Bool) : Manned (chooseFrom f allocated).1 ∧
    ((chooseFrom f allocated).1.world.adaptive.enabled = true → ∀ number p, (chooseFrom f allocated).2 = some number →
      (chooseFrom f allocated).1.pools number = some p → Sized p (chooseFrom f allocated).1.world.adaptive.tuner.current) := by
  simp only [chooseFrom]
  generalize madeIs : trialPool f.world.adaptive allocated = made
  obtain ⟨inv,_,_,chosen⟩ := choose_selected manned.inv made.isSome
  have choice := choose_choice f.world made.isSome
  generalize (choose f.world made.isSome).1 = v at inv chosen choice
  generalize (choose f.world made.isSome).2 = selected at chosen choice
  cases choice with
  | known selected same kept which =>
    rw [if_pos same]
    have after : Manned ⟨v,f.pools⟩ := manned_kept manned kept inv
    refine ⟨after,fun enabled number p served found => ?_⟩
    rw [served] at which chosen
    obtain best | ⟨running,count⟩ := which
    · obtain ⟨_,resting⟩ | ⟨other,_⟩ := chosen
      · rw [inv.tuner.resting (resting enabled)]
        obtain ⟨q,known,sized⟩ := after.best number best.symm
        cases known.symm.trans found
        exact sized
      · exact absurd best other
    · rw [← count]
      obtain ⟨q,known,sized⟩ := after.trial number running.symm
      cases known.symm.trans found
      exact sized
  | fresh created next best adaptive =>
    rw [if_neg (by omega)]
    obtain ⟨q,rfl⟩ := Option.isSome_iff_exists.mp created
    obtain ⟨sized,after⟩ : _ ∧ Manned ⟨v,Function.update f.pools f.world.next (some q)⟩ :=
      manned_fresh manned inv madeIs best adaptive
    refine ⟨after,fun _ number p served found => ?_⟩
    cases served
    rw [Function.update_self] at found
    cases found
    rw [adaptive]
    exact sized

/-! ## The end of a call -/

theorem promote_fields (w : World R) : (promote w).best = w.adaptive.trial ∧
    (promote w).adaptive = { w.adaptive with trial := none, trialCount := 0 } := by
  simp only [promote]
  cases w.best with
  | none => exact ⟨rfl,rfl⟩
  | some pool => exact ⟨rfl,rfl⟩

/-- Where the best count changes, it becomes that of the trial pool, which takes over. -/
theorem accept_kept (inv : Inv w) (enabled : w.adaptive.enabled = true) (elapsed : R) : Kept w (accept w elapsed) := by
  have limit : (observed w elapsed).adaptive.tuner.limit = w.adaptive.tuner.limit := Tuner.observe_limit _ _
  simp only [accept]
  by_cases same : (observed w elapsed).adaptive.tuner.best = w.adaptive.tuner.best
  · have kept : Kept w (observed w elapsed) := ⟨limit,rfl,rfl,.inl ⟨rfl,same,.inr ⟨rfl,rfl⟩⟩⟩
    rw [if_pos same]
    split_ifs
    · exact kept_clearTrial kept
    · exact kept
  rw [if_neg same]
  have count : (observed w elapsed).adaptive.tuner.best = w.adaptive.trialCount := by
    obtain ⟨_,still | moved⟩ := observe_cases inv.tuner elapsed
    · exact absurd still.best same
    cases moved with
    | watch phase best => exact absurd best same
    | settle base phase best => exact absurd best same
    | explore base phase best => exact absurd best same
    | tried trial phase best => exact absurd best same
    | decide confirming phase best current cursor =>
      obtain ⟨_,candidate,_⟩ := inv.present (inv.confirming enabled confirming)
      rw [candidate]
      exact best.resolve_left same
    | search settled phase best => exact absurd best same
  obtain ⟨best,adaptive⟩ := promote_fields (observed w elapsed)
  refine ⟨?_,?_,?_,.inr ⟨best,?_,?_⟩⟩
  · rw [adaptive]
    exact limit
  · rw [adaptive]
    rfl
  · rw [adaptive]
    rfl
  · rw [adaptive]
    exact count
  · rw [adaptive]

theorem measure_kept (inv : Inv w) (enabled : w.adaptive.enabled = true) (o : Outcome) (selected : Option Nat)
    (start : Option Timespec) : Kept w (measure w o selected start) := by
  rw [UsmAdaptive.measure]
  by_cases fewer : effectiveThreads o.threads selected ≠ w.adaptive.tuner.current
  · rw [if_pos fewer]
    exact kept_stop (kept_refl w)
  rw [if_neg fewer]
  cases start.bind (fun start => elapsed (R := R) start o.finish) with
  | none => exact kept_stop (kept_refl w)
  | some time => exact accept_kept inv enabled time

theorem poolApply_adaptive (w : World R) (status : Status) (pool : Option Nat) :
    (poolApply w status pool).1.best = w.best ∧ (poolApply w status pool).1.adaptive = w.adaptive := by
  cases pool <;> exact ⟨rfl,rfl⟩

/-- The events of an apply are not what is kept. -/
theorem kept_around {x y : World R} (kept : Kept x y) (bestBefore : x.best = w.best) (before : x.adaptive = w.adaptive)
    (bestAfter : v.best = y.best) (after : v.adaptive = y.adaptive) : Kept w v := by
  obtain ⟨limit,height,stripeRows,hands⟩ := kept
  rw [bestBefore,before,← bestAfter,← after] at hands
  rw [before,← after] at limit height stripeRows
  exact ⟨limit,height,stripeRows,hands⟩

theorem recover_kept (w : World R) (status again : Status) : Kept w (recover w status again).1 := by
  have ended := kept_stop (kept_refl w)
  simp only [recover]
  split_ifs
  · exact ⟨ended.limit,ended.height,ended.stripeRows,ended.hands⟩
  · obtain ⟨best,adaptive⟩ := poolApply_adaptive (stop w) again (stop w).best
    exact kept_around ended rfl rfl best adaptive

theorem applySelected_kept (inv : Inv w) (o : Outcome) (selected : Option Nat) (start : Option Timespec) :
    Kept w (applySelected w o selected start).1 := by
  obtain ⟨best,adaptive⟩ := poolApply_adaptive w o.selected selected
  have whole : Inv (poolApply w o.selected selected).1 := by
    cases selected with
    | none => exact inv
    | some pool => exact poolApply_inv inv
  simp only [applySelected]
  split_ifs with failed ended
  · exact kept_around (recover_kept _ _ o.recovered) best adaptive rfl rfl
  · exact kept_around (kept_refl w) rfl rfl best adaptive
  · have enabled : (poolApply w o.selected selected).1.adaptive.enabled = true := by
      by_contra off
      exact ended (.inr (Bool.eq_false_iff.mpr off))
    exact kept_around (measure_kept whole enabled o selected start) best adaptive rfl rfl

theorem timing_kept (w : World R) (clock : Option Timespec) : Kept w (timing w clock).1 := by
  simp only [timing,takeStart]
  split_ifs
  all_goals exact ⟨rfl,rfl,rfl,.inl ⟨rfl,rfl,.inr ⟨rfl,rfl⟩⟩⟩

/-! ## Runs -/

theorem serve_manned (manned : Manned f) (served : serve f s = some g) : Manned g := by
  obtain ⟨chosen,_⟩ := chooseFrom_manned (unretained_manned manned) s.allocated
  simp only [serve] at served
  obtain ⟨⟨status,threads,pools⟩,first,served⟩ := Option.bind_eq_some_iff.mp served
  obtain ⟨⟨again,_,others⟩,second,rfl⟩ := Option.map_eq_some_iff.mp served
  have applied := manned_apply chosen first
  have all : Manned ⟨(chooseFrom (unretained f) s.allocated).1.world,others⟩ := by
    split_ifs at second
    · exact manned_apply (f := ⟨_,pools⟩) applied second
    · cases second
      exact applied
  have timed := manned_kept all (timing_kept _ s.start) ((timing_same _ s.start).inv all.inv)
  exact manned_kept timed (applySelected_kept timed.inv _ _ _) (apply_framed manned.inv _).1

theorem step_manned {call : Call} (manned : Manned f) (stepped : step f call = some g) : Manned g := by
  cases call with
  | begin clock =>
    cases stepped
    refine manned_kept manned ?_ ((begin_same f.world clock).inv manned.inv)
    simp only [begin]
    split_ifs
    · exact kept_refl _
    · cases clock <;> exact ⟨rfl,rfl,rfl,.inl ⟨rfl,rfl,.inr ⟨rfl,rfl⟩⟩⟩
  | serve s => exact serve_manned manned stepped
  | stop =>
    cases stepped
    exact manned_kept manned (kept_stop (kept_refl _)) (stop_inv manned.inv)

theorem reachable_manned (manned : Manned f) (reached : Reachable step f g) : Manned g :=
  reachable_preserves (fun _ _ _ => step_manned) manned reached

/-- A frame of a fleet that explores: in `g` the pool for it is chosen, which is `p`. -/
structure Chosen (f : Fleet R) (s : Serving) (g : Fleet R) (number : Nat) (p : Pool) : Prop where
  choice : chooseFrom (unretained f) s.allocated = (g,some number)
  found : g.pools number = some p
  enabled : g.world.adaptive.enabled = true

variable {number : Nat}

theorem Chosen.chooses (chosen : Chosen f s g number p) :
    choose (unretained f).world (trialPool f.world.adaptive s.allocated).isSome = (g.world,some number) := by
  have world := congrArg (fun out => out.1.world) chosen.choice
  have which := congrArg Prod.snd chosen.choice
  exact Prod.ext world which

/-- The pool of a frame, if all its workers have come up, has the threads that the tuner
    counts on. -/
theorem spawned_count (manned : Manned f) (chosen : Chosen f s g number p)
    (applied : UsmPool.apply p m a o = some r) (spawned : Spawned r.pool) :
    (r.pool.nThreads : Int) = g.world.adaptive.tuner.current := by
  have count := (chooseFrom_manned (unretained_manned manned) s.allocated).2
  rw [chosen.choice] at count
  exact sized_threads (apply_sized (count chosen.enabled number p rfl chosen.found) applied) spawned

/-- A trial pool that is chosen is for the candidate. -/
theorem trial_candidate (manned : Manned f) (chosen : Chosen f s g number p) (other : some number ≠ g.world.best) :
    g.world.adaptive.tuner.current = g.world.adaptive.tuner.candidate := by
  have choice := choose_choice (unretained f).world (trialPool f.world.adaptive s.allocated).isSome
  have selected := choose_selected (unretained_manned manned).inv (trialPool f.world.adaptive s.allocated).isSome
  rw [chosen.chooses] at choice selected
  obtain ⟨same,_⟩ | ⟨_,_,running,_⟩ := selected.chosen
  · exact absurd same other
  · obtain ⟨_,count,_⟩ := selected.inv.present (by rw [← running]; exact nofun)
    rw [← count,choice_count choice other]

theorem measure_counted {answers : Outcome} (count : answers.threads = w.adaptive.tuner.current) (start : Option Timespec) :
    UsmAdaptive.measure w answers (some number) start =
      match start.bind (fun start => elapsed start answers.finish) with
      | none => stop w
      | some time => accept w time := by
  have known : ¬ effectiveThreads answers.threads (some number) ≠ w.adaptive.tuner.current := not_not.mpr count
  rw [UsmAdaptive.measure]
  exact if_neg known

/-- The world in which the time of a frame that pool `number` has sharpened is taken. -/
def sharpened (w : World R) (clock : Option Timespec) (number : Nat) : World R :=
  (poolApply (timing w clock).1 .ok (some number)).1

theorem apply_measured {answers : Outcome}
    (chosen : choose { w with adaptive := { w.adaptive with retained := false } } answers.create = (v,some number))
    (enabled : v.adaptive.enabled = true) (ok : answers.selected = .ok) : (apply w answers).1 =
      UsmAdaptive.measure (sharpened v answers.start number) answers (some number) (timing v answers.start).2 := by
  have same := timing_same v answers.start
  simp only [UsmAdaptive.apply,chosen,applySelected,ok]
  rw [if_neg fun bad => bad.1 rfl,if_neg]
  · rfl
  · rintro (bad | off)
    · exact bad rfl
    · exact absurd (off.symm.trans (same.enabled.trans enabled)) (by decide)

/-- A frame that a pool has sharpened all of whose workers came up: only the clock can
    end exploration. -/
theorem serve_spawned (manned : Manned f) (chosen : Chosen f s g number p)
    (applied : UsmPool.apply p s.memory s.args s.selected = some r) (spawned : Spawned r.pool) (ok : r.status = .ok) :
    (serve f s).map Fleet.world =
      some (match (timing g.world s.start).2.bind (fun start => elapsed start s.finish) with
        | none => stop (sharpened g.world s.start number)
        | some time => accept (sharpened g.world s.start number) time) := by
  have count := spawned_count manned chosen applied spawned
  have same := timing_same g.world s.start
  have answered : applyPool g.pools s s.selected (some number) =
      some (Status.ok,(r.pool.nThreads : Int),Function.update g.pools number (some r.pool)) := by
    simp only [applyPool,chosen.found,Option.bind_some,applied,Option.map_some,ok]
  have first : ¬ (UsmPool.Status.ok = .failedUnchanged ∧ some number ≠ g.world.best) :=
    fun bad => absurd bad.1 (by decide)
  simp only [serve]
  rw [chosen.choice]
  simp only
  rw [answered,Option.bind_some]
  simp only
  rw [if_neg first,Option.map_some,Option.map_some]
  have measured : (apply f.world
      ⟨(trialPool f.world.adaptive s.allocated).isSome,.ok,.ok,r.pool.nThreads,s.start,s.finish⟩).1 = _ :=
    apply_measured chosen.chooses chosen.enabled rfl
  rw [measured,measure_counted]
  rw [count,← same.tuner]
  rfl

end AutoUpscale.AdaptiveFleet
