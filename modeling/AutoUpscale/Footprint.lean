import AutoUpscale.Runs
import Mathlib.Data.Set.BooleanAlgebra
import Mathlib.Data.Set.Function
import Mathlib.Order.CompletePartialOrder
import Mathlib.Logic.Function.Basic
import Mathlib.Data.Fintype.BigOperators

/-!
Processes over one memory that keep to footprints. Each process steps on its own
local state and the shared memory. Where a process writes only the cells it
touches, an assertion about it depends only on the cells it views, and no process
touches what another one views, the steps of the others cannot break the
assertion: what each process keeps of itself, every interleaving keeps of all
(`run_keeps`). Where each step brings its process nearer to its end, any
interleaving can be carried on until all have ended (`run_completes`).
-/
namespace AutoUpscale.Footprint
open AutoUpscale.Runs (run run_cons_iff reachable_preserves)
universe u v w
variable {ι : Type u} {σ α : Type v} {β : Type w}

/-- A memory shared by processes, and the local state of each. -/
structure State (ι : Type u) (σ α : Type v) (β : Type w) where
  memory : α → β
  cursor : ι → σ

variable [DecidableEq ι]

/-- One step of process `i`, where it is not at its end. -/
def advance (step : ι → σ → (α → β) → Option (σ × (α → β))) (s : State ι σ α β) (i : ι) : Option (State ι σ α β) :=
  (step i (s.cursor i) s.memory).map fun (c,m) => ⟨m,Function.update s.cursor i c⟩

variable {step : ι → σ → (α → β) → Option (σ × (α → β))}

theorem advance_iff {s t : State ι σ α β} {i : ι} : advance step s i = some t ↔
    ∃ c m, step i (s.cursor i) s.memory = some (c,m) ∧ t = ⟨m,Function.update s.cursor i c⟩ := by
  simp only [advance,Option.map_eq_some_iff,Prod.exists]
  constructor
  · rintro ⟨c,m,stepped,rfl⟩
    exact ⟨c,m,stepped,rfl⟩
  · rintro ⟨c,m,stepped,rfl⟩
    exact ⟨c,m,stepped,rfl⟩

/-- The assertion `holds` about each process speaks of the cells in `view` and
    survives the process's own steps, which write only cells in `touch`. -/
structure Confined (step : ι → σ → (α → β) → Option (σ × (α → β))) (holds : ι → σ → (α → β) → Prop)
    (view touch : ι → Set α) : Prop where
  keeps : ∀ i c m c' m', holds i c m → step i c m = some (c',m') → holds i c' m'
  writes : ∀ i c m c' m', holds i c m → step i c m = some (c',m') → ∀ a, a ∉ touch i → m' a = m a
  reads : ∀ i c m m', (∀ a, a ∈ view i → m' a = m a) → holds i c m → holds i c m'
  apart : ∀ i j, i ≠ j → Disjoint (view i) (touch j)

variable {holds : ι → σ → (α → β) → Prop} {view touch : ι → Set α}

theorem step_keeps (confined : Confined step holds view touch) {s t : State ι σ α β} {i : ι}
    (all : ∀ j, holds j (s.cursor j) s.memory) (stepped : advance step s i = some t) :
    ∀ j, holds j (t.cursor j) t.memory := by
  obtain ⟨c,m,moved,rfl⟩ := advance_iff.mp stepped
  intro j
  by_cases own : j = i
  · subst own
    show holds j (Function.update s.cursor j c j) m
    rw [Function.update_self]
    exact confined.keeps j _ _ c m (all j) moved
  · show holds j (Function.update s.cursor i c j) m
    rw [Function.update_of_ne own]
    refine confined.reads j _ _ m (fun a seen => ?_) (all j)
    exact confined.writes i _ _ c m (all i) moved a fun touched =>
      Set.disjoint_left.mp (confined.apart j i own) seen touched

/-- Every interleaving keeps the assertions of all processes. -/
theorem run_keeps (confined : Confined step holds view touch) {s t : State ι σ α β} {schedule : List ι}
    (start : ∀ j, holds j (s.cursor j) s.memory) (executed : run (advance step) s schedule = some t) :
    ∀ j, holds j (t.cursor j) t.memory :=
  reachable_preserves (P := fun s => ∀ j, holds j (s.cursor j) s.memory) (fun _ _ _ => step_keeps confined) start
    ⟨schedule,executed⟩

/-- What no process touches stays. -/
theorem run_frame (confined : Confined step holds view touch) {s t : State ι σ α β} {schedule : List ι}
    (start : ∀ j, holds j (s.cursor j) s.memory) (executed : run (advance step) s schedule = some t) {a : α}
    (outside : ∀ j, a ∉ touch j) : t.memory a = s.memory a := by
  have kept : ∀ r i r', ((∀ j, holds j (r.cursor j) r.memory) ∧ r.memory a = s.memory a) → advance step r i = some r' →
      (∀ j, holds j (r'.cursor j) r'.memory) ∧ r'.memory a = s.memory a := by
    rintro r i r' ⟨all,same⟩ stepped
    refine ⟨step_keeps confined all stepped,?_⟩
    obtain ⟨c,m,moved,rfl⟩ := advance_iff.mp stepped
    exact (confined.writes i _ _ c m (all i) moved a (outside i)).trans same
  exact (reachable_preserves kept ⟨start,rfl⟩ ⟨schedule,executed⟩).2

/-! ## Embedding -/

section Embed
variable {κ : Type u} {τ : Type v} [DecidableEq κ] {inner : κ → τ → (α → β) → Option (τ × (α → β))} {f : κ → ι} {g : κ → τ → σ}

theorem step_embed (injective : Function.Injective f)
    (same : ∀ k c m, step (f k) (g k c) m = (inner k c m).map (Prod.map (g k) id)) {s t : State ι σ α β} {r : State κ τ α β} {k : κ}
    (memory : s.memory = r.memory) (cursor : ∀ k, s.cursor (f k) = g k (r.cursor k)) (stepped : advance step s (f k) = some t) :
    ∃ u, advance inner r k = some u ∧ t.memory = u.memory ∧ ∀ k, t.cursor (f k) = g k (u.cursor k) := by
  obtain ⟨c,m,moved,rfl⟩ := advance_iff.mp stepped
  rw [cursor,memory,same,Option.map_eq_some_iff] at moved
  obtain ⟨⟨c',m'⟩,inside,pair⟩ := moved
  obtain ⟨rfl,rfl⟩ := Prod.mk.inj pair
  refine ⟨⟨m',Function.update r.cursor k c'⟩,advance_iff.mpr ⟨c',m',inside,rfl⟩,rfl,fun j => ?_⟩
  by_cases own : j = k
  · subst own
    simp
  · simp [own,injective.ne own,cursor j]

/-- Where only some of the processes go on, and those as processes of another kind do, a run
    is one of these. -/
theorem run_embed (injective : Function.Injective f)
    (same : ∀ k c m, step (f k) (g k c) m = (inner k c m).map (Prod.map (g k) id)) {s t : State ι σ α β} {r : State κ τ α β}
    {schedule : List ι} (memory : s.memory = r.memory) (cursor : ∀ k, s.cursor (f k) = g k (r.cursor k))
    (only : ∀ i ∈ schedule, ∃ k, f k = i) (executed : run (advance step) s schedule = some t) :
    ∃ schedule u, run (advance inner) r schedule = some u ∧ t.memory = u.memory ∧ ∀ k, t.cursor (f k) = g k (u.cursor k) := by
  induction schedule generalizing s r with
  | nil =>
    cases executed
    exact ⟨[],r,rfl,memory,cursor⟩
  | cons i rest ih =>
    obtain ⟨next,first,tail⟩ := run_cons_iff.mp executed
    obtain ⟨k,rfl⟩ := only i List.mem_cons_self
    obtain ⟨u,moved,memory',cursor'⟩ := step_embed injective same memory cursor first
    obtain ⟨schedule,v,later,ends⟩ := ih memory' cursor' (fun j member => only j (List.mem_cons_of_mem _ member)) tail
    exact ⟨k :: schedule,v,run_cons_iff.mpr ⟨u,moved,later⟩,ends⟩

end Embed

/-! ## Completion -/

variable [Fintype ι] {left : ι → σ → Nat}

/-- What all processes have left to do together. -/
def remaining (left : ι → σ → Nat) (s : State ι σ α β) : Nat := ∑ i, left i (s.cursor i)

theorem remaining_step (nearer : ∀ i c m c' m', step i c m = some (c',m') → left i c' + 1 = left i c)
    {s t : State ι σ α β} {i : ι} (stepped : advance step s i = some t) : remaining left t + 1 = remaining left s := by
  obtain ⟨c,m,moved,rfl⟩ := advance_iff.mp stepped
  have others : ∑ j ∈ Finset.univ.erase i, left j (Function.update s.cursor i c j) =
      ∑ j ∈ Finset.univ.erase i, left j (s.cursor j) :=
    Finset.sum_congr rfl fun j member => by rw [Function.update_of_ne (Finset.ne_of_mem_erase member)]
  have own := nearer i _ _ c m moved
  have before := Finset.add_sum_erase Finset.univ (fun j => left j (s.cursor j)) (Finset.mem_univ i)
  have after := Finset.add_sum_erase Finset.univ (fun j => left j (Function.update s.cursor i c j)) (Finset.mem_univ i)
  rw [others,Function.update_self] at after
  show ∑ j, left j (Function.update s.cursor i c j) + 1 = ∑ j, left j (s.cursor j)
  omega

/-- From every state some interleaving leads to the end of all processes, if only
    a process at its end cannot step. -/
theorem run_completes (nearer : ∀ i c m c' m', step i c m = some (c',m') → left i c' + 1 = left i c)
    (live : ∀ i c m, left i c ≠ 0 → ∃ c' m', step i c m = some (c',m')) (s : State ι σ α β) :
    ∃ schedule t, run (advance step) s schedule = some t ∧ ∀ i, left i (t.cursor i) = 0 := by
  induction count : remaining left s generalizing s with
  | zero => exact ⟨[],s,rfl,fun i => (Finset.sum_eq_zero_iff.mp count) i (Finset.mem_univ i)⟩
  | succ k ih =>
    obtain ⟨i,_,busy⟩ : ∃ i ∈ Finset.univ, left i (s.cursor i) ≠ 0 := by
      by_contra idle
      push Not at idle
      have none : remaining left s = 0 := Finset.sum_eq_zero idle
      omega
    obtain ⟨c,m,moved⟩ := live i _ s.memory busy
    have first : advance step s i = some ⟨m,Function.update s.cursor i c⟩ := advance_iff.mpr ⟨c,m,moved,rfl⟩
    have fewer := remaining_step nearer first
    obtain ⟨schedule,t,tail,ended⟩ := ih ⟨m,Function.update s.cursor i c⟩ (by omega)
    exact ⟨i :: schedule,t,run_cons_iff.mpr ⟨_,first,tail⟩,ended⟩

end AutoUpscale.Footprint
