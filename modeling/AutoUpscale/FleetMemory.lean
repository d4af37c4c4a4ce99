import AutoUpscale.AdaptiveFleet
import AutoUpscale.FilterPools

/-!
The pools of the adaptive choice with the memory they sharpen. A pool is made for planes of
one size, and the choice makes none for another one (`Tailored`). So whichever pool ends up
with a frame, where `up_usm_adaptive_apply` answers OK a pool for this size has sharpened
it, and where it answers that it has failed without a change nothing has (`serve_leaves`).
-/
namespace AutoUpscale.AdaptiveFleet
open AutoUpscale.Rows AutoUpscale.Usm
open AutoUpscale.Tuner (Double)
open AutoUpscale.UsmAdaptive
open AutoUpscale.UsmPool (Bytes Args Pool Status SameOrApart promised)
universe u
set_option linter.unusedSectionVars false
variable {R : Type u} [Double R]

/-! ## The memory of a frame -/

/-- `up_usm_pool_apply` of a pool as in `applyPool`, with the memory that it leaves. -/
def applyLeaving (pools : Nat → Option Pool) (s : Serving) (o : UsmPool.Outcome) :
    Option Nat → Option (Status × Int × (Nat → Option Pool) × Bytes)
  | none => some (.failedUnchanged,0,pools,s.memory)
  | some number =>
    (pools number).bind fun p => (UsmPool.apply p s.memory s.args o).map fun r =>
      (r.status,r.pool.nThreads,Function.update pools number (some r.pool),r.memory)

/-- What the pools of a frame have answered, and what they leave. -/
structure Left where
  answers : UsmAdaptive.Outcome
  pools : Nat → Option Pool
  memory : Bytes

/-- `up_usm_adaptive_apply` as in `serve`, with the memory that its pools leave. -/
def serveLeaving (f : Fleet R) (s : Serving) : Option Left :=
  let (g,selected) := chooseFrom (unretained f) s.allocated
  (applyLeaving g.pools s s.selected selected).bind fun (status,threads,pools,memory) =>
    let failed := status = .failedUnchanged ∧ selected ≠ g.world.best
    (if failed then applyLeaving pools s s.recovered g.world.best else some (status,threads,pools,memory)).map
      fun (again,_,pools,memory) =>
        ⟨⟨(trialPool f.world.adaptive s.allocated).isSome,status,again,threads,s.start,s.finish⟩,pools,memory⟩

theorem applyPool_leaving (pools : Nat → Option Pool) (s : Serving) (o : UsmPool.Outcome) (selected : Option Nat) :
    applyPool pools s o selected = (applyLeaving pools s o selected).map fun (status,threads,pools,_) => (status,threads,pools) := by
  cases selected with
  | none => rfl
  | some number => simp only [applyPool,applyLeaving,Option.map_bind,Option.map_map,Function.comp_def]

/-- The fleet is served as it is without the memory. -/
theorem serve_leaving (f : Fleet R) (s : Serving) :
    serve f s = (serveLeaving f s).map fun l => ⟨(apply f.world l.answers).1,l.pools⟩ := by
  simp only [serve,serveLeaving,applyPool_leaving]
  generalize chooseFrom (unretained f) s.allocated = chosen
  cases first : applyLeaving chosen.1.pools s s.selected chosen.2 with
  | none => rfl
  | some out =>
    simp only [Option.map_some,Option.bind_some]
    split_ifs
    · simp only [Option.map_map,Function.comp_def]
    · rfl

/-! ## The size of the planes -/

/-- The adaptive choice, where it is on, is for planes of this size. -/
def Sizing (width height : Int) (w : World R) : Prop :=
  w.adaptive.enabled = true → w.adaptive.width = width ∧ w.adaptive.height = height

/-- A choice that is on was on before, for the same planes. -/
structure SizeKept (w v : World R) : Prop where
  width : v.adaptive.width = w.adaptive.width
  height : v.adaptive.height = w.adaptive.height
  enabled : v.adaptive.enabled = true → w.adaptive.enabled = true

variable {w v x : World R} {width height : Int}

theorem SizeKept.refl (w : World R) : SizeKept w w := ⟨rfl,rfl,id⟩

theorem SizeKept.trans (first : SizeKept w v) (second : SizeKept v x) : SizeKept w x :=
  ⟨second.width.trans first.width,second.height.trans first.height,first.enabled ∘ second.enabled⟩

theorem SizeKept.sizing (kept : SizeKept w v) (sizing : Sizing width height w) : Sizing width height v := by
  intro enabled
  obtain ⟨wide,tall⟩ := sizing (kept.enabled enabled)
  exact ⟨kept.width.trans wide,kept.height.trans tall⟩

theorem clearTrial_size (w : World R) : SizeKept w (clearTrial w) := by
  obtain ⟨-,-,adaptive⟩ := clearTrial_fields w
  refine ⟨?_,?_,?_⟩ <;> rw [adaptive]
  exact id

theorem stop_size (w : World R) : SizeKept w (stop w) := by
  obtain ⟨width,height,-⟩ := clearTrial_size w
  exact ⟨width,height,fun on => absurd ((stop_stopped w).enabled.symm.trans on) (by decide)⟩

theorem poolDestroy_size (w : World R) (pool : Option Nat) : SizeKept w (poolDestroy w pool) := by
  cases pool <;> exact ⟨rfl,rfl,id⟩

theorem poolApply_size (w : World R) (status : Status) (pool : Option Nat) : SizeKept w (poolApply w status pool).1 := by
  cases pool <;> exact ⟨rfl,rfl,id⟩

theorem choose_size (w : World R) (created : Bool) : SizeKept w (choose w created).1 := by
  rw [choose]
  split_ifs
  · rw [select]
    split_ifs
    · exact .refl w
    · exact .refl w
    · cases created with
      | false => exact (clearTrial_size w).trans (stop_size { clearTrial w with adaptive := { (clearTrial w).adaptive with trial := none } })
      | true =>
        obtain ⟨width,height,enabled⟩ := clearTrial_size w
        exact ⟨width,height,enabled⟩
  · exact .refl w

theorem timing_size (w : World R) (clock : Option Timespec) : SizeKept w (timing w clock).1 := by
  simp only [timing,takeStart]
  split_ifs <;> exact ⟨rfl,rfl,id⟩

theorem accept_size (w : World R) (elapsed : R) : SizeKept w (accept w elapsed) := by
  have seen : SizeKept w (observed w elapsed) := ⟨rfl,rfl,id⟩
  simp only [accept]
  split_ifs
  · exact seen.trans (clearTrial_size _)
  · exact seen
  · obtain ⟨width,height,enabled⟩ := seen.trans (poolDestroy_size (observed w elapsed) (observed w elapsed).best)
    exact ⟨width,height,enabled⟩

theorem measure_size (w : World R) (o : UsmAdaptive.Outcome) (selected : Option Nat) (start : Option Timespec) :
    SizeKept w (measure w o selected start) := by
  rw [UsmAdaptive.measure]
  split_ifs
  · exact stop_size w
  · split
    · exact stop_size w
    · exact accept_size w _

theorem recover_size (w : World R) (status again : Status) : SizeKept w (recover w status again).1 := by
  obtain ⟨width,height,enabled⟩ := stop_size w
  simp only [recover]
  split_ifs
  · exact ⟨width,height,enabled⟩
  · exact SizeKept.trans ⟨width,height,enabled⟩ (poolApply_size _ _ _)

theorem apply_size (w : World R) (o : UsmAdaptive.Outcome) : SizeKept w (apply w o).1 := by
  have plain : SizeKept w { w with adaptive := { w.adaptive with retained := false } } := ⟨rfl,rfl,id⟩
  have timed := (plain.trans (choose_size _ o.create)).trans (timing_size _ o.start)
  have applied := timed.trans (poolApply_size _ o.selected (choose { w with adaptive := { w.adaptive with retained := false } } o.create).2)
  simp only [apply,applySelected]
  split_ifs
  · exact applied.trans (recover_size _ _ _)
  · exact applied
  · exact applied.trans (measure_size _ _ _ _)

theorem begin_size (w : World R) (clock : Option Timespec) : SizeKept w (begin w clock) := by
  simp only [begin]
  split_ifs
  · exact .refl w
  · cases clock <;> exact ⟨rfl,rfl,id⟩

theorem disabled_size (w : World R) : SizeKept w (Filter.disabled w) := by
  obtain ⟨width,height,enabled⟩ := (stop_size w).trans (poolDestroy_size (stop w) (stop w).best)
  exact ⟨width,height,enabled⟩

/-! ## A frame -/

/-- Every pool is for planes of this size. -/
def Tailored (width height : Int) (pools : Nat → Option Pool) : Prop :=
  ∀ number p, pools number = some p → UsmPool.Inv width.toNat height.toNat p

variable {f : Fleet R} {s : Serving} {l : Left} {pools : Nat → Option Pool} {o : UsmPool.Outcome} {selected : Option Nat}

theorem tailored_update {p : Pool} {number : Nat} (tailored : Tailored width height pools)
    (inv : UsmPool.Inv width.toNat height.toNat p) : Tailored width height (Function.update pools number (some p)) := by
  intro other q found
  by_cases own : other = number
  · rw [own,Function.update_self] at found
    obtain rfl := Option.some.inj found
    exact inv
  · rw [Function.update_of_ne own] at found
    exact tailored other q found

theorem create_tailored {nThreads stripeMinRows : Int} {p : Pool} (created : UsmPool.create nThreads width height stripeMinRows = some p) :
    UsmPool.Inv width.toNat height.toNat p := by
  obtain ⟨inv,-⟩ := UsmPool.create_inv created
  have size : p.width = width.toNat ∧ p.height = height.toNat := by
    rw [UsmPool.create] at created
    split_ifs at created
    cases created
    exact ⟨rfl,rfl⟩
  rwa [size.1,size.2] at inv

/-- A trial pool is only made while the choice is on. -/
theorem choose_next (off : w.adaptive.enabled = false) (created : Bool) : (choose w created).1.next = w.next := by
  rw [choose,if_neg (by simp [off])]

theorem chooseFrom_tailored (sizing : Sizing width height f.world) (tailored : Tailored width height f.pools) (allocated : Bool) :
    Tailored width height (chooseFrom f allocated).1.pools := by
  simp only [chooseFrom]
  generalize made : trialPool f.world.adaptive allocated = trial
  split_ifs with same
  · exact tailored
  · have enabled : f.world.adaptive.enabled = true := by
      by_contra off
      exact same (choose_next (by simpa using off) _)
    obtain ⟨wide,tall⟩ := sizing enabled
    intro number p found
    by_cases own : number = f.world.next
    · rw [own,Function.update_self] at found
      rw [found,trialPool] at made
      split_ifs at made
      rw [wide,tall] at made
      exact create_tailored made
    · rw [Function.update_of_ne own] at found
      exact tailored number p found

/-- What a pool's apply leaves of the memory. -/
theorem applyLeaving_spec {status : Status} {threads : Int} {pools' : Nat → Option Pool} {memory : Bytes} (tailored : Tailored width height pools)
    (applied : applyLeaving pools s o selected = some (status,threads,pools',memory)) : Tailored width height pools' ∧
      (selected = none → status = .failedUnchanged) ∧ (status = .failedUnchanged → memory = s.memory) ∧
      (status = .ok → ∃ p r, UsmPool.Inv width.toNat height.toNat p ∧ UsmPool.apply p s.memory s.args o = some r ∧ r.status = .ok ∧
        memory = r.memory) := by
  cases selected with
  | none =>
    cases applied
    exact ⟨tailored,fun _ => rfl,fun _ => rfl,fun odd => Status.noConfusion odd⟩
  | some number =>
    obtain ⟨p,found,answered⟩ := Option.bind_eq_some_iff.mp applied
    obtain ⟨r,called,same⟩ := Option.map_eq_some_iff.mp answered
    cases same
    have inv := tailored number p found
    exact ⟨tailored_update tailored (UsmPool.apply_inv inv called),fun odd => absurd odd (Option.some_ne_none _),
      UsmPool.apply_failed_unchanged called,fun ok => ⟨p,r,inv,called,ok,rfl⟩⟩

theorem poolApply_answer {status : Status} {pool : Option Nat} (absent : pool = none → status = .failedUnchanged) :
    (poolApply w status pool).2 = status := by
  cases pool with
  | none => exact (absent rfl).symm
  | some number => rfl

/-- The answer of `up_usm_adaptive_apply` is that of the selected pool or, where another one
    than the best has failed without a change, that of the best. -/
theorem apply_answer (w : World R) (o : UsmAdaptive.Outcome) :
    (apply w o).2 =
      let (v,selected) := choose { w with adaptive := { w.adaptive with retained := false } } o.create
      let status := (poolApply v o.selected selected).2
      if status ≠ .ok ∧ selected ≠ v.best then
        if status = .outputUncertain then status else (poolApply v o.recovered v.best).2
      else status := by
  have answer : ∀ (u v : World R) (status : Status) (pool : Option Nat), (poolApply u status pool).2 = (poolApply v status pool).2 := by
    intro u v status pool
    cases pool <;> rfl
  simp only [apply,applySelected]
  generalize choose { w with adaptive := { w.adaptive with retained := false } } o.create = chosen
  obtain ⟨v,selected⟩ := chosen
  dsimp only
  have best : (poolApply (timing v o.start).1 o.selected selected).1.best = v.best :=
    (poolApply_adaptive _ _ _).1.trans (timing_same v o.start).best
  rw [answer (timing v o.start).1 v,best]
  split_ifs with _ uncertain
  · simp only [recover,if_pos uncertain]
  · simp only [recover,if_neg uncertain,stop_best,best]
    exact answer _ _ _ _
  · rfl
  · rfl

/-- However the pools serve a frame, which they do as without its memory: they stay as they
    are made, an answer that nothing has changed is true, and OK is the answer of one of
    them. -/
theorem serve_leaves (sizing : Sizing width height f.world) (tailored : Tailored width height f.pools)
    (served : serveLeaving f s = some l) : serve f s = some ⟨(apply f.world l.answers).1,l.pools⟩ ∧ Tailored width height l.pools ∧
      ((apply f.world l.answers).2 = .failedUnchanged → l.memory = s.memory) ∧
      ((apply f.world l.answers).2 = .ok → ∃ p o r, UsmPool.Inv width.toNat height.toNat p ∧
        UsmPool.apply p s.memory s.args o = some r ∧ r.status = .ok ∧ l.memory = r.memory) := by
  refine ⟨by rw [serve_leaving,served,Option.map_some],?_⟩
  have chosen := chooseFrom_tailored (f := unretained f) sizing tailored s.allocated
  have answer := apply_answer f.world l.answers
  simp only [serveLeaving] at served
  obtain ⟨⟨status,threads,pools,memory⟩,first,served⟩ := Option.bind_eq_some_iff.mp served
  obtain ⟨⟨again,threads',pools',memory'⟩,second,rfl⟩ := Option.map_eq_some_iff.mp served
  have same : choose { f.world with adaptive := { f.world.adaptive with retained := false } }
      (trialPool f.world.adaptive s.allocated).isSome = ((chooseFrom (unretained f) s.allocated).1.world,
      (chooseFrom (unretained f) s.allocated).2) := rfl
  simp only [same] at answer
  generalize chooseFrom (unretained f) s.allocated = chosenFrom at first second chosen answer
  obtain ⟨g,selected⟩ := chosenFrom
  dsimp only at first second chosen answer
  obtain ⟨after,absent,failed,succeeded⟩ := applyLeaving_spec chosen first
  rw [poolApply_answer absent] at answer
  by_cases retried : status = .failedUnchanged ∧ selected ≠ g.world.best
  · rw [if_pos retried] at second
    obtain ⟨after',absent',failed',succeeded'⟩ := applyLeaving_spec after second
    rw [if_pos ⟨by simp [retried.1],retried.2⟩,if_neg (by simp [retried.1]),poolApply_answer absent'] at answer
    rw [answer]
    refine ⟨after',failed',fun ok => ?_⟩
    obtain ⟨p,r,inv,called⟩ := succeeded' ok
    exact ⟨p,s.recovered,r,inv,called⟩
  · rw [if_neg retried] at second
    obtain ⟨rfl,rfl,rfl,rfl⟩ : status = again ∧ threads = threads' ∧ pools = pools' ∧ memory = memory' := by simpa using second
    have kept : (apply f.world ⟨(trialPool f.world.adaptive s.allocated).isSome,status,status,threads,s.start,s.finish⟩).2 = status := by
      rw [answer]
      split_ifs with other uncertain
      · rfl
      · cases status with
        | ok => exact absurd rfl other.1
        | outputUncertain => exact absurd rfl uncertain
        | failedUnchanged => exact absurd ⟨rfl,other.2⟩ retried
      · rfl
    rw [kept]
    refine ⟨after,failed,fun ok => ?_⟩
    obtain ⟨p,r,inv,called⟩ := succeeded ok
    exact ⟨p,s.selected,r,inv,called⟩

end AutoUpscale.AdaptiveFleet
