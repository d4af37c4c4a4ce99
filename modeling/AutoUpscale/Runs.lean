import Mathlib.Tactic.Common

/-!
Runs of a transition function. A step is a function from a state and an action
to the next state, or to nothing where the action is not enabled; a run performs
a list of actions in turn. What every step preserves, a run preserves
(`run_preserves`), and what relates the two ends of every step relates the two
ends of a run (`run_relates`).
-/
namespace AutoUpscale.Runs
universe u v
variable {State : Type u} {Action : Type v}

/-- The state that a list of actions leads to, when each is enabled in turn. -/
def run (step : State → Action → Option State) (s : State) : List Action → Option State
  | [] => some s
  | a :: rest => (step s a).bind (fun next => run step next rest)

variable {step : State → Action → Option State}

@[simp] theorem run_nil (s : State) : run step s [] = some s := rfl

theorem run_cons_iff {s t : State} {a : Action} {rest : List Action} :
    run step s (a :: rest) = some t ↔ ∃ next, step s a = some next ∧ run step next rest = some t := by
  simp [run,Option.bind_eq_some_iff]

theorem run_append_iff {s t : State} {first second : List Action} :
    run step s (first ++ second) = some t ↔
      ∃ middle, run step s first = some middle ∧ run step middle second = some t := by
  induction first generalizing s with
  | nil => simp
  | cons a rest ih =>
    rw [List.cons_append,run_cons_iff]
    constructor
    · rintro ⟨next,first,tail⟩
      obtain ⟨middle,left,right⟩ := ih.mp tail
      exact ⟨middle,run_cons_iff.mpr ⟨next,first,left⟩,right⟩
    · rintro ⟨middle,left,right⟩
      obtain ⟨next,first,tail⟩ := run_cons_iff.mp left
      exact ⟨next,first,ih.mpr ⟨middle,tail,right⟩⟩

/-- What a computed run says of its end. -/
theorem run_value {α : Type*} {s t : State} {actions : List Action} {x : α} (f : State → α)
    (executed : run step s actions = some t) (value : (run step s actions).map f = some x) : f t = x := by
  rw [executed] at value
  exact Option.some.inj value

/-- An invariant of every step among the allowed actions holds at the end of a
    run of allowed actions. -/
theorem run_preserves {P : State → Prop} {Allowed : Action → Prop}
    (each : ∀ s a t, Allowed a → P s → step s a = some t → P t) {s t : State} {actions : List Action}
    (allowed : ∀ a ∈ actions, Allowed a) (start : P s) (executed : run step s actions = some t) : P t := by
  induction actions generalizing s with
  | nil =>
    cases executed
    exact start
  | cons a rest ih =>
    obtain ⟨next,first,tail⟩ := run_cons_iff.mp executed
    exact ih (fun b member => allowed b (List.mem_cons_of_mem a member))
      (each s a next (allowed a List.mem_cons_self) start first) tail

/-- A reflexive and transitive relation that every step respects where the
    invariant holds relates the two ends of a run. -/
theorem run_relates {P : State → Prop} {R : State → State → Prop} (refl : ∀ s, R s s)
    (trans : ∀ s t r, R s t → R t r → R s r)
    (each : ∀ s a t, P s → step s a = some t → P t ∧ R s t) {s t : State} {actions : List Action}
    (start : P s) (executed : run step s actions = some t) : P t ∧ R s t := by
  induction actions generalizing s with
  | nil =>
    cases executed
    exact ⟨start,refl _⟩
  | cons a rest ih =>
    obtain ⟨next,first,tail⟩ := run_cons_iff.mp executed
    obtain ⟨invariant,near⟩ := each s a next start first
    obtain ⟨done,far⟩ := ih invariant tail
    exact ⟨done,trans s next t near far⟩

/-- A state that some run from the start leads to. -/
def Reachable (step : State → Action → Option State) (start s : State) : Prop :=
  ∃ actions, run step start actions = some s

theorem reachable_preserves {P : State → Prop} (each : ∀ s a t, P s → step s a = some t → P t)
    {start t : State} (initial : P start) (reached : Reachable step start t) : P t := by
  obtain ⟨actions,executed⟩ := reached
  have always : ∀ a ∈ actions, (fun _ : Action => True) a := fun _ _ => trivial
  exact run_preserves (fun s a t _ => each s a t) always initial executed

end AutoUpscale.Runs
