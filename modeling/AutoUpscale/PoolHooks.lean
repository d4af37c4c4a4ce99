import AutoUpscale.PoolLifecycle
import AutoUpscale.Story

/-!
The hooks of the owner of a pool, played over what the pool asks of it. `Rules` says what
each hook does to what the owner keeps for its slots. Then a start leaves the slots of the
workers that came up and no others (`start_played`), a destroy leaves none
(`destroy_played`), and a stop is no business of the owner's (`stopped_played`).
-/
namespace AutoUpscale.WorkerPool
open AutoUpscale.Story (Followed followed_cons followed_idle followed_newer followed_start newer play)
universe u
variable {σ : Type u}

/-- The events that a hook of the owner answers. -/
def Event.hooked : Event → Bool
  | .prepare _ | .construct _ _ | .release _ | .finalize _ => true
  | _ => false

theorem hooked_of_stops {e : Event} (stops : e.stops = true) : e.hooked = false := by
  cases e <;> simp_all [Event.stops,Event.hooked]

/-- What releasing a slot does to an owner that keeps something for each slot; the first
    argument of `Keeps` is the answer of `prepare`. -/
structure Releases (ops : Ops) (hook : Event → σ → Option σ) (Keeps : Option Bool → (Nat → Prop) → σ → Prop) : Prop where
  release_set : ops.release = true
  quiet : ∀ e s, e.hooked = false → hook e s = some s
  release : ∀ prepared live i s, Keeps prepared live s → live i →
    ∃ t, hook (.release i) s = some t ∧ Keeps prepared (fun j => live j ∧ j ≠ i) t

/-- What the hooks of a start do, which answer as in `o`. -/
structure Rules (ops : Ops) (hook : Event → σ → Option σ) (o : StartOutcome)
    (Keeps : Option Bool → (Nat → Prop) → σ → Prop) : Prop extends Releases ops hook Keeps where
  prepare_set : ops.prepare = true
  finalize_unset : ops.finalize = false
  prepare : ∀ s, Keeps none (fun _ => False) s →
    ∃ t, hook (.prepare o.prepare) s = some t ∧ Keeps (some o.prepare) (fun _ => False) t
  construct : ∀ prepared live i s, Keeps prepared live s → ¬ live i → ∃ t, hook (.construct i (o.construct i)) s = some t ∧
    Keeps prepared (fun j => live j ∨ (j = i ∧ o.construct i = true)) t

/-- The events since `base` have left an owner that keeps what it should. -/
def Played (hook : Event → σ → Option σ) (Keeps : Option Bool → (Nat → Prop) → σ → Prop) (s : σ) (base trace : List Event)
    (prepared : Option Bool) (live : Nat → Prop) : Prop :=
  ∃ t, Followed hook base s trace t ∧ Keeps prepared live t

variable {ops : Ops} {hook : Event → σ → Option σ} {o : StartOutcome} {Keeps : Option Bool → (Nat → Prop) → σ → Prop} {s : σ}
  {base trace : List Event} {prepared : Option Bool} {live : Nat → Prop} {p q : Pool}

theorem played_start (keeps : Keeps prepared live s) : Played hook Keeps s base base prepared live :=
  ⟨s,followed_start,keeps⟩

/-- The owner as the events since `base` have left it. -/
theorem played_newer (played : Played hook Keeps s base trace prepared live) :
    ∃ t, play hook s (newer base trace) = some t ∧ Keeps prepared live t := by
  obtain ⟨t,followed,keeps⟩ := played
  exact ⟨t,followed_newer followed,keeps⟩

theorem played_cons {e : Event} {prepared' : Option Bool} {live' : Nat → Prop}
    (played : Played hook Keeps s base trace prepared live)
    (answers : ∀ t, Keeps prepared live t → ∃ t', hook e t = some t' ∧ Keeps prepared' live' t') :
    Played hook Keeps s base (e :: trace) prepared' live' := by
  obtain ⟨t,followed,keeps⟩ := played
  obtain ⟨t',answer,keeps'⟩ := answers t keeps
  exact ⟨t',followed_cons followed answer,keeps'⟩

section Releasing
variable (rules : Releases ops hook Keeps)
include rules

theorem played_quiet {e : Event} (played : Played hook Keeps s base trace prepared live) (quiet : e.hooked = false) :
    Played hook Keeps s base (e :: trace) prepared live :=
  played_cons played fun t keeps => ⟨t,rules.quiet e t quiet,keeps⟩

/-- A stop asks nothing of the owner. -/
theorem stopped_followed (stopped : Stopped p q) {t : σ} (followed : Followed hook base s p.trace t) :
    Followed hook base s q.trace t := by
  obtain ⟨new,newest,stops⟩ := stopped.trace
  rw [newest]
  exact followed_idle followed fun e member s => rules.quiet e s (hooked_of_stops (stops e member))

theorem stopped_played (stopped : Stopped p q) (played : Played hook Keeps s base p.trace prepared live) :
    Played hook Keeps s base q.trace prepared live := by
  obtain ⟨t,followed,keeps⟩ := played
  exact ⟨t,stopped_followed rules stopped followed,keeps⟩

theorem releaseFrom_played (left i : Nat) (p : Pool)
    (played : Played hook Keeps s base p.trace prepared fun j => i ≤ j ∧ j < i + left) :
    Played hook Keeps s base (releaseFrom ops p left i).trace prepared fun _ => False := by
  induction left generalizing p i with
  | zero =>
    have nobody : (fun j => i ≤ j ∧ j < i + 0) = fun _ => False := by
      funext j
      simp only [eq_iff_iff,iff_false]
      omega
    rw [nobody] at played
    exact played
  | succ left ih =>
    have next : (fun j => (i ≤ j ∧ j < i + (left + 1)) ∧ j ≠ i) = fun j => i + 1 ≤ j ∧ j < i + 1 + left := by
      funext j
      simp only [eq_iff_iff]
      omega
    rw [releaseFrom,releaseHook,if_pos rules.release_set]
    refine ih (i + 1) (p.emit (.release i)) ?_
    rw [← next]
    exact played_cons played fun t keeps => rules.release prepared _ i t keeps ⟨Nat.le_refl i,by omega⟩

theorem releaseSlots_played (n : Nat) (p : Pool) (played : Played hook Keeps s base p.trace prepared (· < n)) :
    Played hook Keeps s base (releaseSlots ops p n).trace prepared (· < 0) := by
  have all : (· < n) = fun j => 0 ≤ j ∧ j < 0 + n := by
    funext j
    simp
  have nobody : (fun _ : Nat => False) = (· < 0) := by
    funext j
    simp
  rw [← nobody]
  rw [all] at played
  exact releaseFrom_played rules n 0 p played

/-- A destroy that returns 0 leaves no slot, another one changes nothing. -/
theorem destroy_played (outcome : StopOutcome) (keeps : Keeps prepared (· < p.nWorkers) s) :
    ∃ t, play hook s (newer p.trace (destroy ops p outcome).1.trace) = some t ∧
      ((destroy ops p outcome).2 = true → Keeps prepared (· < 0) t) ∧ ((destroy ops p outcome).2 = false → t = s) := by
  have stopped := (stop_stopped p outcome).1
  have stays := stopped_played rules stopped (played_start keeps)
  have same : play hook s (newer p.trace (stop p outcome).1.trace) = some s :=
    followed_newer (stopped_followed rules stopped followed_start)
  have workers : (stop p outcome).1.nWorkers = p.nWorkers := by rw [stopped.same]
  unfold destroy
  generalize stop p outcome = out at stays same workers ⊢
  obtain ⟨q,joined⟩ := out
  dsimp only at stays same workers ⊢
  cases joined with
  | false => exact ⟨s,same,fun ok => Bool.noConfusion ok,fun _ => rfl⟩
  | true =>
    simp only [Bool.true_eq_false,if_false]
    rw [workers]
    obtain ⟨t,run,after⟩ := played_newer (releaseSlots_played rules p.nWorkers q stays)
    exact ⟨t,run,fun _ => after,fun failed => absurd failed (by simp)⟩

end Releasing

section Ruled
variable (rules : Rules ops hook o Keeps)
include rules

/-- The construction of slot `i` after those before it. -/
theorem constructOne_played (i : Nat) (p : Pool) (played : Played hook Keeps s base p.trace prepared (· < i)) :
    Played hook Keeps s base (constructOne ops p o i).1.trace prepared
      (· < if (constructOne ops p o i).2 then i + 1 else i) := by
  have constructed := played_cons (e := .construct i (o.construct i)) played fun t keeps =>
    rules.construct prepared _ i t keeps (Nat.lt_irrefl i)
  unfold constructOne
  cases built : o.construct i with
  | false =>
    rw [built] at constructed
    rw [if_pos rfl]
    simpa [Pool.emit] using constructed
  | true =>
    have next : (fun j => j < i ∨ (j = i ∧ true = true)) = (· < i + 1) := by
      funext j
      simp only [eq_iff_iff,and_true]
      omega
    have back : (fun j => j < i + 1 ∧ j ≠ i) = (· < i) := by
      funext j
      simp only [eq_iff_iff]
      omega
    rw [built,next] at constructed
    rw [if_neg (by decide)]
    dsimp only [Pool.emit]
    split
    · exact constructed
    · have created := played_quiet (e := .create i (o.create i)) rules.toReleases constructed rfl
      cases thread : o.create i with
      | true =>
        rw [thread] at created
        simp only [spawn,thread,if_true,Pool.emit]
        exact created
      | false =>
        rw [thread] at created
        simp only [spawn,thread,Bool.false_eq_true,if_false,Pool.emit,releaseHook,if_pos rules.release_set]
        rw [← back]
        exact played_cons created fun t keeps => rules.release prepared _ i t keeps (Nat.lt_succ_self i)

theorem constructFrom_played (left i : Nat) (p : Pool) (played : Played hook Keeps s base p.trace prepared (· < i)) :
    Played hook Keeps s base (constructFrom ops p o left i).1.trace prepared (· < (constructFrom ops p o left i).2) := by
  induction left generalizing p i with
  | zero => exact played
  | succ left ih =>
    have one := constructOne_played rules i p played
    rw [constructFrom]
    cases built : (constructOne ops p o i).2 with
    | true =>
      rw [built,if_pos rfl] at one
      simp only [built,if_true]
      exact ih (i + 1) _ one
    | false =>
      rw [built] at one
      simp only [built,Bool.false_eq_true,if_false]
      exact one

/-- A setup that succeeds has prepared the owner. -/
theorem setup_played (started : p.started = fun _ => false) (keeps : Keeps none (fun _ => False) s) :
    ∃ prepared, Played hook Keeps s p.trace (setup ops p o).1.trace prepared (fun _ => False) ∧
      ((setup ops p o).2 = true → prepared = some true) := by
  have called : Played hook Keeps s p.trace (.prepare o.prepare :: p.trace) (some o.prepare) (fun _ => False) :=
    played_cons (played_start keeps) rules.prepare
  unfold setup
  split
  · exact ⟨none,played_start keeps,fun ok => Bool.noConfusion ok⟩
  · simp only [if_pos rules.prepare_set]
    cases answered : o.prepare with
    | false =>
      rw [if_pos ⟨rules.prepare_set,rfl⟩]
      rw [answered] at called
      exact ⟨_,called,fun ok => Bool.noConfusion ok⟩
    | true =>
      rw [if_neg (by simp)]
      rw [answered] at called
      have kept := (alloc_spec (p := p.emit (.prepare true)) started o).2.2.2.1
      generalize alloc (p.emit (.prepare true)) o = out at kept ⊢
      obtain ⟨a,allocated⟩ := out
      dsimp only [Pool.emit] at kept ⊢
      refine ⟨some true,?_,fun _ => rfl⟩
      split_ifs <;> (show Played hook Keeps s p.trace a.trace (some true) (fun _ => False); rw [kept]; exact called)

/-- A start leaves the slots of its workers, and where it succeeds the owner was
    prepared. -/
theorem start_played (untouched : Untouched p) (keeps : Keeps none (fun _ => False) s) :
    ∃ prepared, Played hook Keeps s p.trace (start ops p o).1.trace prepared (· < (start ops p o).1.nWorkers) ∧
      ((start ops p o).2 = true → prepared = some true) := by
  have nobody : (fun _ : Nat => False) = (· < 0) := by
    funext j
    simp
  have count := (setup_spec ops untouched o).nWorkers
  obtain ⟨prepared,played,ready⟩ := setup_played rules untouched.started keeps
  unfold start
  generalize setup ops p o = out at count played ready ⊢
  obtain ⟨q,ok⟩ := out
  dsimp only at count played ready ⊢
  rw [nobody] at played
  cases ok with
  | false =>
    simp only [if_true]
    rw [count]
    exact ⟨prepared,played,fun ok => Bool.noConfusion ok⟩
  | true =>
    have built := constructFrom_played rules (if q.inlineRun then 1 else q.nPref.toNat) 0 q played
    rw [← constructAll] at built
    simp only [Bool.true_eq_false,if_false]
    generalize constructAll ops q o = out at built ⊢
    obtain ⟨r,n⟩ := out
    dsimp only at built ⊢
    split
    · refine ⟨prepared,?_,fun ok => Bool.noConfusion ok⟩
      unfold retireFailedStart
      have stopped := (stop_stopped { r with nWorkers := n } o.stop).1
      have stays := stopped_played rules.toReleases stopped built
      have workers : (stop { r with nWorkers := n } o.stop).1.nWorkers = n := by rw [stopped.same]
      generalize stop { r with nWorkers := n } o.stop = out at stays workers ⊢
      obtain ⟨d,joined⟩ := out
      dsimp only at stays workers ⊢
      split
      · rw [workers]
        exact stays
      · exact releaseSlots_played rules.toReleases n d stays
    · simp only [rules.finalize_unset,Bool.false_eq_true,if_false]
      exact ⟨prepared,built,fun _ => ready rfl⟩

end Ruled

end AutoUpscale.WorkerPool
