import AutoUpscale.AdaptiveFleet
import AutoUpscale.FilterOpen

/-!
The candidates of the tuner beside the counts of the pools. `thread_policy.h` and
`usm_adaptive.h` bound the candidates, `usm_pool.c` reduces the count of a pool, each
in its own way; where the adaptive choice is initialised, they agree
(`adaptive_candidates`).
-/
namespace AutoUpscale.AdaptiveCandidates
open AutoUpscale.AdaptiveFleet (Agrees Chosen Manned Serving Spawned launched serve sharpened unretained)
open AutoUpscale.Filter
open AutoUpscale.Runs (Reachable)
open AutoUpscale.Tuner (Double)
open AutoUpscale.UpscaleLogic (Dims)
open AutoUpscale.UsmAdaptive (World timing elapsed)
open AutoUpscale.UsmPool (resolveThreads)
universe u
set_option linter.unusedSectionVars false
variable {R : Type u} [Double R]

/-! ## The bounds -/

/-- The rows of a stripe at least, where a setting that is not positive stands for 8. -/
def stripeRows (stripeMinRows : Int) : Int := if stripeMinRows > 0 then stripeMinRows else 8

theorem resolveThreads_eq (nThreads height stripeMinRows : Int) : resolveThreads nThreads height stripeMinRows =
    min (min nThreads threadsMax) (max 1 (height.tdiv (stripeRows stripeMinRows))) := by
  have rows : (if stripeMinRows ≤ 0 then UsmPool.defaultStripeMinRows else stripeMinRows) = stripeRows stripeMinRows := by
    simp only [stripeRows,UsmPool.defaultStripeMinRows]
    split_ifs <;> omega
  simp only [resolveThreads,rows,WorkerPool.threadsMax,threadsMax]
  split_ifs <;> omega

/-- An explicit count is reduced to the cores. -/
theorem threadsDecide_explicit {count : Int} (positive : 1 ≤ count) (few : count ≤ threadsMax) (cores : Int) :
    threadsDecide count cores = min count (max 1 cores) := by
  simp only [threadsMax] at few
  simp only [threadsDecide,threadsAuto,threadsMax]
  split_ifs <;> omega

/-- The automatic count for sharpening does not exceed the one that bounds the candidates. -/
theorem usmThreadsDecide_auto (cores width height : Int) : 1 ≤ usmThreadsDecide threadsAuto cores width height ∧
    usmThreadsDecide threadsAuto cores width height ≤ threadsDecide threadsMax cores := by
  have most : threadsDecide threadsMax cores = min 64 (max 1 cores) :=
    threadsDecide_explicit (by decide) (by decide) cores
  have tier (count : Int) (low : 1 ≤ count) (high : count ≤ 16) :
      1 ≤ threadsDecide count cores ∧ threadsDecide count cores ≤ threadsDecide threadsMax cores := by
    have few : count ≤ threadsMax := high.trans (by decide)
    rw [most,threadsDecide_explicit low few]
    omega
  rw [usmThreadsDecide,if_neg (by decide)]
  by_cases empty : width ≤ 0 ∨ height ≤ 0
  · rw [if_pos empty,most]
    omega
  · rw [if_neg empty]
    refine tier _ ?_ ?_
    · split_ifs <;> decide
    · split_ifs <;> decide

/-- What `up_worker_tuner_init` makes of its counts. -/
theorem init_counts (initial limit : Int) :
    (Tuner.init initial limit : Tuner.State R).limit = min threadsMax (max 1 limit) ∧
    (Tuner.init initial limit : Tuner.State R).best = min (min threadsMax (max 1 limit)) (max 1 initial) := by
  have top : (if (if limit < 1 then 1 else limit) > Tuner.threadsMax then Tuner.threadsMax
      else if limit < 1 then 1 else limit) = min threadsMax (max 1 limit) := by
    simp only [Tuner.threadsMax,threadsMax]
    split_ifs <;> omega
  refine ⟨top,?_⟩
  simp only [Tuner.init,top]
  split_ifs <;> omega

/-- The tuner beside a base pool of `initial` workers. -/
theorem init_tuner (initial limit width height stripeMinRows : Int) :
    (UsmAdaptive.init (R := R) initial limit width height stripeMinRows).adaptive.tuner =
      Tuner.init initial (min limit (height.tdiv (stripeRows stripeMinRows))) := by
  have bounded : (if limit > height.tdiv (stripeRows stripeMinRows) then height.tdiv (stripeRows stripeMinRows) else limit) =
      min limit (height.tdiv (stripeRows stripeMinRows)) := by
    split_ifs <;> omega
  rw [← bounded]
  rfl

/-- No candidate is reduced by the height. -/
theorem init_agrees (initial limit width height stripeMinRows : Int) :
    Agrees (UsmAdaptive.init (R := R) initial limit width height stripeMinRows).adaptive := by
  intro count low high
  show resolveThreads count height stripeMinRows = count
  rw [init_tuner,(init_counts _ _).1] at high
  rw [resolveThreads_eq]
  omega

theorem init_current (initial limit width height stripeMinRows : Int) :
    (UsmAdaptive.init (R := R) initial limit width height stripeMinRows).adaptive.tuner.current =
      (UsmAdaptive.init (R := R) initial limit width height stripeMinRows).adaptive.tuner.best := rfl

/-- The base pool runs the count that the tuner starts from. -/
theorem init_base {initial limit : Int} (positive : 1 ≤ initial) (within : initial ≤ limit) (few : limit ≤ threadsMax)
    (width height stripeMinRows : Int) : resolveThreads initial height stripeMinRows =
      (UsmAdaptive.init (R := R) initial limit width height stripeMinRows).adaptive.tuner.best := by
  rw [init_tuner,(init_counts _ _).2,resolveThreads_eq]
  omega

/-- A new pool has the threads that its count is reduced to. -/
theorem create_threads {nThreads width height stripeMinRows : Int} {p : UsmPool.Pool}
    (created : UsmPool.create nThreads width height stripeMinRows = some p) :
    (p.nThreads : Int) = resolveThreads nThreads height stripeMinRows := by
  rw [UsmPool.create] at created
  split at created
  · cases created
  · rename_i possible
    cases created
    have positive : 0 ≤ resolveThreads nThreads height stripeMinRows := by
      rw [resolveThreads_eq,threadsMax]
      omega
    exact Int.toNat_of_nonneg positive

/-! ## What agrees -/

/-- How the adaptive choice `w` and the base pool `p` that `InitUsmPool` leaves agree with
    the count that a pool reduces itself to, at once and in every run. -/
structure Agreement (options : Tunable → Int) (target : Dims) (cores : Int) (w : World R) (p : UsmPool.Pool) : Prop where
  auto : threadsPref options = threadsAuto
  created : UsmPool.create (usmThreadsDecide (threadsPref options) cores target.width target.height) target.width
    target.height (inheritIntSat options .usmStripeMinRows) = some p
  base : (p.nThreads : Int) = w.adaptive.tuner.current ∧ w.adaptive.tuner.current = w.adaptive.tuner.best
  candidates : ∀ count, 1 ≤ count → count ≤ w.adaptive.tuner.limit →
    resolveThreads count target.height (inheritIntSat options .usmStripeMinRows) = count
  spawned : ∀ f, Reachable AdaptiveFleet.step (launched w p) f → ∀ s g number q r, Chosen f s g number q →
    UsmPool.apply q s.memory s.args s.selected = some r → Spawned r.pool →
      (r.pool.nThreads : Int) = g.world.adaptive.tuner.current ∧
      (some number ≠ g.world.best → (r.pool.nThreads : Int) = g.world.adaptive.tuner.candidate) ∧
      (r.status = .ok → (serve f s).map AdaptiveFleet.Fleet.world =
        some (match (timing g.world s.start).2.bind (fun start => elapsed start s.finish) with
          | none => UsmAdaptive.stop (sharpened g.world s.start number)
          | some time => UsmAdaptive.accept (sharpened g.world s.start number) time))

variable {options : Tunable → Int} {chroma : Nat} {target : Dims} {cores usmPct : Int} {allocated : Bool} {p : UsmPool.Pool}

/-- Adaptation is asked for, with an automatic number of threads, and there is a base pool. -/
structure Adapts (options : Tunable → Int) (chroma : Nat) (target : Dims) (cores usmPct : Int) (allocated : Bool) : Prop where
  asked : inheritIntSat options .adaptiveUsm ≠ 0
  auto : threadsPref options = threadsAuto
  amount : 0 < usmPct
  luma : Chroma.chromaHasYPlane chroma = true
  allocated : allocated = true
  created : (UsmPool.create (usmThreadsDecide threadsAuto cores target.width target.height) target.width target.height
    (inheritIntSat options .usmStripeMinRows)).isSome = true

/-- What `InitUsmPool` leaves where it initialises the adaptive choice. -/
theorem initUsmPool_adapts (adapts : Adapts options chroma target cores usmPct allocated) : ∃ p,
    UsmPool.create (usmThreadsDecide threadsAuto cores target.width target.height) target.width target.height
      (inheritIntSat options .usmStripeMinRows) = some p ∧
    (initUsmPool (R := R) options chroma target cores usmPct allocated).2.1 =
      UsmAdaptive.init (usmThreadsDecide threadsAuto cores target.width target.height) (threadsDecide threadsMax cores)
        target.width target.height (inheritIntSat options .usmStripeMinRows) := by
  obtain ⟨asked,auto,amount,luma,rfl,possible⟩ := adapts
  obtain ⟨p,created⟩ := Option.isSome_iff_exists.mp possible
  have sharpens : ¬ (usmPct ≤ 0 ∨ Chroma.chromaHasYPlane chroma = false) := by
    rintro (none | absent)
    · exact absurd amount (not_lt.mpr none)
    · exact Bool.noConfusion (absent.symm.trans luma)
  refine ⟨p,created,?_⟩
  simp only [initUsmPool]
  rw [if_neg sharpens,auto,created]
  show initAdaptiveUsm _ options _ cores target _ = _
  rw [initAdaptiveUsm,if_neg asked,if_neg (not_not.mpr auto)]
  rfl

/-- Where it does not, the tuner is as `calloc` has left it. -/
theorem initUsmPool_limit : (initUsmPool (R := R) options chroma target cores usmPct allocated).2.1.adaptive.tuner.limit ≠ 0 ↔
    Adapts options chroma target cores usmPct allocated := by
  refine ⟨fun initialised => ?_,fun adapts => ?_⟩
  · simp only [initUsmPool] at initialised
    by_cases off : usmPct ≤ 0 ∨ Chroma.chromaHasYPlane chroma = false
    · rw [if_pos off] at initialised
      exact absurd rfl initialised
    rw [if_neg off] at initialised
    obtain ⟨amount,luma⟩ := not_or.mp off
    cases created : UsmPool.create (usmThreadsDecide (threadsPref options) cores target.width target.height) target.width
        target.height (inheritIntSat options .usmStripeMinRows) with
    | none =>
      rw [created] at initialised
      exact absurd rfl initialised
    | some p =>
      rw [created] at initialised
      cases allocated with
      | false => exact absurd rfl initialised
      | true =>
        change (initAdaptiveUsm _ options _ cores target _).adaptive.tuner.limit ≠ 0 at initialised
        rw [initAdaptiveUsm] at initialised
        by_cases unasked : inheritIntSat options .adaptiveUsm = 0
        · rw [if_pos unasked] at initialised
          exact absurd rfl initialised
        by_cases explicit : threadsPref options ≠ threadsAuto
        · rw [if_neg unasked,if_pos explicit] at initialised
          exact absurd rfl initialised
        have auto : threadsPref options = threadsAuto := not_not.mp explicit
        rw [auto] at created
        exact ⟨unasked,auto,not_le.mp amount,Bool.eq_true_of_not_eq_false luma,rfl,by rw [created]; rfl⟩
  · obtain ⟨_,_,usm⟩ := initUsmPool_adapts (R := R) adapts
    rw [usm,init_tuner,(init_counts _ _).1,threadsMax]
    omega

/-- The choice and its base pool just after the start. -/
theorem init_agreement {w : World R} (auto : threadsPref options = threadsAuto)
    (created : UsmPool.create (usmThreadsDecide threadsAuto cores target.width target.height) target.width target.height
      (inheritIntSat options .usmStripeMinRows) = some p)
    (initialised : w = UsmAdaptive.init (usmThreadsDecide threadsAuto cores target.width target.height)
      (threadsDecide threadsMax cores) target.width target.height (inheritIntSat options .usmStripeMinRows)) :
    Agreement options target cores w p := by
  obtain ⟨positive,within⟩ := usmThreadsDecide_auto cores target.width target.height
  have few : threadsDecide threadsMax cores ≤ threadsMax := by
    rw [threadsDecide_explicit (by decide) (by decide)]
    omega
  have best := init_base (R := R) positive within few target.width target.height (inheritIntSat options .usmStripeMinRows)
  have agrees := init_agrees (R := R) (usmThreadsDecide threadsAuto cores target.width target.height)
    (threadsDecide threadsMax cores) target.width target.height (inheritIntSat options .usmStripeMinRows)
  have sized := AdaptiveFleet.create_sized created
  rw [best] at sized
  have manned : Manned (launched w p) := by
    rw [initialised]
    refine ⟨UsmAdaptive.init_inv _ _ _ _ _,agrees,fun number found => ?_,nofun⟩
    cases found
    exact ⟨p,rfl,sized⟩
  refine ⟨auto,by rw [auto]; exact created,⟨?_,?_⟩,?_,fun f reached s g number q r chosen applied spawned => ⟨?_,?_,?_⟩⟩
  · rw [create_threads created,best,initialised]
    exact (init_current _ _ _ _ _).symm
  · rw [initialised]
    exact init_current _ _ _ _ _
  · rw [initialised]
    exact agrees
  · exact AdaptiveFleet.spawned_count (AdaptiveFleet.reachable_manned manned reached) chosen applied spawned
  · intro other
    rw [AdaptiveFleet.spawned_count (AdaptiveFleet.reachable_manned manned reached) chosen applied spawned]
    exact AdaptiveFleet.trial_candidate (AdaptiveFleet.reachable_manned manned reached) chosen other
  · exact AdaptiveFleet.serve_spawned (AdaptiveFleet.reachable_manned manned reached) chosen applied spawned

/-- The target of an opening. -/
structure Wired (r : Opening R) (target : Dims) : Prop where
  width : (r.filter.fmtOut.width.toNat : Int) = target.width
  height : (r.filter.fmtOut.height.toNat : Int) = target.height

/-- The choice of a filter that was opened is what `InitUsmPool` has left. -/
theorem open_usm {f : FilterT R} {o : OpenOutcome} {r : Opening R} {sys : FilterSys R}
    (opened : upAutoupscaleOpen f options o = some r) (success : r.status = .success) (own : r.filter.sys = .own sys) :
    ∃ target, Wired r target ∧ sys.sys.usm =
      (initUsmPool options f.fmtIn.chroma.toNat target o.cores (openConfig options).usm o.poolAllocated).2.1 := by
  obtain ⟨src,target,be,planned,_,rfl⟩ := upAutoupscaleOpen_success opened success
  obtain ⟨⟨lowW,highW⟩,lowH,highH⟩ := planUpscale_range planned
  obtain ⟨_,trace,complete⟩ := openWith_success success
  rw [complete] at own ⊢
  cases own
  exact ⟨target,⟨ofInt_toNat lowW highW,ofInt_toNat lowH highH⟩,rfl⟩

theorem initUsmPool_agreement (adapts : Adapts options chroma target cores usmPct allocated) :
    ∃ p, Agreement options target cores (initUsmPool (R := R) options chroma target cores usmPct allocated).2.1 p := by
  obtain ⟨p,created,usm⟩ := initUsmPool_adapts (R := R) adapts
  exact ⟨p,init_agreement adapts.auto created usm⟩

/-- The adaptive choice is initialised where the setting is automatic, adaptation is asked
    for and there is a base pool. Then, for any cores, target and rows of a stripe, the base
    pool runs the count that the tuner starts from, every candidate is a count that the pool
    keeps, and in every run a pool all of whose workers came up has the count that the tuner
    wants, so that it is never stopped for its count. This is what every opening that
    succeeds leaves. -/
theorem adaptive_candidates (options : Tunable → Int) :
    (∀ chroma target cores usmPct allocated,
      ((initUsmPool (R := R) options chroma target cores usmPct allocated).2.1.adaptive.tuner.limit ≠ 0 ↔
        Adapts options chroma target cores usmPct allocated) ∧
      (Adapts options chroma target cores usmPct allocated →
        ∃ p, Agreement options target cores (initUsmPool (R := R) options chroma target cores usmPct allocated).2.1 p)) ∧
    ∀ (f : FilterT R) o r sys, upAutoupscaleOpen f options o = some r → r.status = .success → r.filter.sys = .own sys →
      sys.sys.usm.adaptive.tuner.limit ≠ 0 → ∃ target p, Wired r target ∧ Agreement options target o.cores sys.sys.usm p := by
  refine ⟨fun _ _ _ _ _ => ⟨initUsmPool_limit,initUsmPool_agreement⟩,fun f o r sys opened success own initialised => ?_⟩
  obtain ⟨target,wired,usm⟩ := open_usm opened success own
  rw [usm] at initialised ⊢
  obtain ⟨p,agreement⟩ := initUsmPool_agreement (R := R) (initUsmPool_limit.mp initialised)
  exact ⟨target,p,wired,agreement⟩

/-- Adaptive sharpening, with stripes of a row. -/
def adaptive : Tunable → Int
  | .adaptiveUsm => 1
  | .usmStripeMinRows => 1
  | _ => 0

/-- What `InitUsmPool` leaves for a target of two by two pixels. -/
def small : World ℚ := (initUsmPool adaptive (Chroma.fourcc 'I' '4' '2' '0') ⟨2,2⟩ 16 100 true).2.1

/-- A first frame whose workers all come up. -/
def firstFrame : Serving :=
  let call := UsmPool.smallCall 256 (fun n => (List.finRange n).flatMap fun i => [i,i,i,i]) true
  ⟨fun a => call.planes a.offset,call.args,true,call.outcome,call.outcome,some ⟨0,0⟩,some ⟨1,0⟩⟩

/-- The eight workers of the policy are reduced to two, the tuner starts from them, and
    they are the count of the first frame. -/
theorem adaptive_candidates_small : ∃ p r, Agreement adaptive ⟨2,2⟩ 16 small p ∧ small.adaptive.tuner.limit = 2 ∧
    UsmPool.apply p firstFrame.memory firstFrame.args firstFrame.selected = some r ∧ r.status = .ok ∧
    (r.pool.nThreads : Int) = small.adaptive.tuner.current := by
  have adapts : Adapts adaptive (Chroma.fourcc 'I' '4' '2' '0') ⟨2,2⟩ 16 100 true :=
    ⟨by decide,by decide,by decide,by decide,rfl,by decide⟩
  obtain ⟨p,agreement⟩ := ((adaptive_candidates (R := ℚ) adaptive).1 _ _ _ _ _).2 adapts
  have created : UsmPool.create (usmThreadsDecide (threadsPref adaptive) 16 2 2) 2 2 (inheritIntSat adaptive .usmStripeMinRows) =
      some UsmPool.smallPool := rfl
  cases created.symm.trans agreement.created
  obtain ⟨r,applied⟩ := Option.isSome_iff_exists.mp (by decide +kernel :
    (UsmPool.apply UsmPool.smallPool firstFrame.memory firstFrame.args firstFrame.selected).isSome = true)
  have shown : (UsmPool.apply UsmPool.smallPool firstFrame.memory firstFrame.args firstFrame.selected).map
      (fun r => (r.status,r.pool.pool.lazyDone,r.pool.pool.nWorkers,r.pool.pool.nPref)) = some (.ok,true,2,2) := by decide +kernel
  rw [applied] at shown
  obtain ⟨ok,done,workers,preferred⟩ : r.status = .ok ∧ r.pool.pool.lazyDone = true ∧ r.pool.pool.nWorkers = 2 ∧
    r.pool.pool.nPref = 2 := by simpa using shown
  have chosen : Chosen (launched small UsmPool.smallPool) firstFrame
      (unretained (launched small UsmPool.smallPool)) 0 UsmPool.smallPool := ⟨rfl,rfl,rfl⟩
  obtain ⟨count,_⟩ := agreement.spawned _ ⟨[],rfl⟩ firstFrame _ 0 _ r chosen applied ⟨done,by rw [workers,preferred]; rfl⟩
  exact ⟨_,r,agreement,by decide,applied,ok,count⟩

end AutoUpscale.AdaptiveCandidates
