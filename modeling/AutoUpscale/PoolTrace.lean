import AutoUpscale.WorkerPool

/-!
The trace of a worker pool. It says which slots are live and which threads are not
joined (`Life`); what a stop does to a pool and to its trace is stated once
(`Stopped`).
-/
namespace AutoUpscale.WorkerPool
variable {ops : Ops} {p q : Pool} {live : Nat → Prop} {trace : List Event} {started : Nat → Bool}

/-! ## Traces -/

/-- How often slot `i` was constructed. -/
def constructs (trace : List Event) (i : Nat) : Nat := trace.count (.construct i true)

/-- How often slot `i` was released. -/
def releases (trace : List Event) (i : Nat) : Nat := trace.count (.release i)

/-- The thread of slot `i` was created and has not been joined. -/
def Unjoined (trace : List Event) (i : Nat) : Prop := .create i true ∈ trace ∧ .join i true ∉ trace

/-- No slot is released while its own thread is unjoined, and but for the one
    whose own thread was not created none while any thread is. -/
def SafeReleases : List Event → Prop
  | [] => True
  | e :: past => SafeReleases past ∧ ∀ i, e = .release i →
      ¬ Unjoined past i ∧ ((∀ j, ¬ Unjoined past j) ∨ past.head? = some (.create i false))

/-- The live slots and the unjoined threads are what the trace says. -/
structure Life (ops : Ops) (trace : List Event) (started : Nat → Bool) (live : Nat → Prop) : Prop where
  alive : ∀ i, live i → constructs trace i = 1 ∧ releases trace i = 0
  dead : ∀ i, ¬ live i → constructs trace i ≤ 1 ∧ releases trace i ≤ constructs trace i ∧
    (ops.release = true → releases trace i = constructs trace i)
  rejected : ∀ i, .construct i false ∈ trace → constructs trace i = 0
  threads : ∀ i, started i = true ↔ Unjoined trace i
  owners : ∀ i, started i = true → live i
  safe : SafeReleases trace

theorem life_nil : Life ops [] (fun _ => false) (fun _ => False) := by
  constructor <;> simp [constructs,releases,Unjoined,SafeReleases]

/-- An event that concerns neither slots nor threads. -/
theorem life_other {e : Event} (life : Life ops trace started live) (construct : ∀ i ok, e ≠ .construct i ok)
    (release : ∀ i, e ≠ .release i) (create : ∀ i, e ≠ .create i true) (join : ∀ i, e ≠ .join i true) :
    Life ops (e :: trace) started live := by
  have constructed : ∀ i, constructs (e :: trace) i = constructs trace i :=
    fun i => List.count_cons_of_ne (construct i true)
  have released : ∀ i, releases (e :: trace) i = releases trace i := fun i => List.count_cons_of_ne (release i)
  constructor
  · intro i alive; rw [constructed,released]; exact life.alive i alive
  · intro i gone; rw [constructed,released]; exact life.dead i gone
  · intro i member
    rw [constructed]
    rcases List.mem_cons.mp member with same | member
    · exact absurd same.symm (construct i false)
    · exact life.rejected i member
  · intro i
    rw [life.threads i,Unjoined,Unjoined,List.mem_cons,List.mem_cons]
    simp [(create i).symm,(join i).symm]
  · exact life.owners
  · exact ⟨life.safe,fun i same => absurd same (release i)⟩

/-- Joining a thread takes it off the started ones. -/
theorem life_join {i : Nat} (life : Life ops trace started live) :
    Life ops (.join i true :: trace) (Function.update started i false) live := by
  have constructed : ∀ j, constructs (.join i true :: trace) j = constructs trace j :=
    fun j => List.count_cons_of_ne (by simp)
  have released : ∀ j, releases (.join i true :: trace) j = releases trace j :=
    fun j => List.count_cons_of_ne (by simp)
  constructor
  · intro j alive; rw [constructed,released]; exact life.alive j alive
  · intro j gone; rw [constructed,released]; exact life.dead j gone
  · intro j member
    rw [constructed]
    exact life.rejected j (by simpa using member)
  · intro j
    rcases eq_or_ne j i with rfl | other
    · simp [Unjoined]
    · rw [Function.update_of_ne other,life.threads j]
      simp [Unjoined,other]
  · intro j running
    rcases eq_or_ne j i with rfl | other
    · simp at running
    · rw [Function.update_of_ne other] at running
      exact life.owners j running
  · exact ⟨life.safe,by simp⟩

/-- The hook releases a live slot: while no thread is started, or the one whose
    own thread was just not created. -/
theorem life_release {i : Nat} (life : Life ops trace started live) (alive : live i) (own : started i = false)
    (allowed : (∀ j, started j = false) ∨ trace.head? = some (.create i false)) :
    Life ops (.release i :: trace) started (fun j => live j ∧ j ≠ i) := by
  have constructed : ∀ j, constructs (.release i :: trace) j = constructs trace j :=
    fun j => List.count_cons_of_ne (by simp)
  have others : ∀ j, j ≠ i → releases (.release i :: trace) j = releases trace j :=
    fun j other => List.count_cons_of_ne (by simpa using other.symm)
  have mine : releases (.release i :: trace) i = 1 := by
    rw [releases,List.count_cons_self,← releases,(life.alive i alive).2]
  have idle (j : Nat) (joined : started j = false) : ¬ Unjoined trace j := by
    intro unjoined
    have running := (life.threads j).mpr unjoined
    rw [joined] at running
    contradiction
  constructor
  · rintro j ⟨still,other⟩
    rw [constructed,others j other]
    exact life.alive j still
  · intro j gone
    rw [constructed]
    rcases eq_or_ne j i with rfl | other
    · rw [mine,(life.alive j alive).1]; simp
    · rw [others j other]
      exact life.dead j (fun still => gone ⟨still,other⟩)
  · intro j member
    rw [constructed]
    exact life.rejected j (by simpa using member)
  · intro j
    rw [life.threads j]
    simp [Unjoined]
  · intro j running
    refine ⟨life.owners j running,?_⟩
    rintro rfl
    rw [own] at running
    contradiction
  · refine ⟨life.safe,fun j same => ?_⟩
    obtain rfl : i = j := by simpa using same
    exact ⟨idle i own,allowed.imp_left fun joined k => idle k (joined k)⟩

/-- Without a hook a slot dies with no event. -/
theorem life_drop {i : Nat} (life : Life ops trace started live) (unset : ops.release = false)
    (own : started i = false) : Life ops trace started (fun j => live j ∧ j ≠ i) := by
  refine ⟨fun j alive => life.alive j alive.1,fun j gone => ?_,life.rejected,life.threads,
    fun j running => ⟨life.owners j running,?_⟩,life.safe⟩
  · by_cases still : live j
    · obtain ⟨built,kept⟩ := life.alive j still
      rw [built,kept,unset]; simp
    · exact life.dead j still
  · rintro rfl
    rw [own] at running
    contradiction

/-- A slot that was never attempted is constructed. -/
theorem life_construct {i : Nat} (life : Life ops trace started live) (built : constructs trace i = 0)
    (rejected : .construct i false ∉ trace) (released : releases trace i = 0) :
    Life ops (.construct i true :: trace) started (fun j => live j ∨ j = i) := by
  have others : ∀ j, j ≠ i → constructs (.construct i true :: trace) j = constructs trace j :=
    fun j other => List.count_cons_of_ne (by simpa using other.symm)
  have mine : constructs (.construct i true :: trace) i = 1 := by
    rw [constructs,List.count_cons_self,← constructs,built]
  have kept : ∀ j, releases (.construct i true :: trace) j = releases trace j :=
    fun j => List.count_cons_of_ne (by simp)
  constructor
  · intro j alive
    rw [kept]
    rcases eq_or_ne j i with rfl | other
    · exact ⟨mine,released⟩
    · rw [others j other]
      exact life.alive j (alive.resolve_right other)
  · intro j gone
    have other : j ≠ i := fun same => gone (.inr same)
    rw [kept,others j other]
    exact life.dead j (fun alive => gone (.inl alive))
  · intro j member
    have before : .construct j false ∈ trace := by simpa using member
    have other : j ≠ i := by
      rintro rfl
      exact rejected before
    rw [others j other]
    exact life.rejected j before
  · intro j
    rw [life.threads j]
    simp [Unjoined]
  · exact fun j running => .inl (life.owners j running)
  · exact ⟨life.safe,by simp⟩

/-- The owner rejects a slot that was never constructed. -/
theorem life_reject {i : Nat} (life : Life ops trace started live) (built : constructs trace i = 0) :
    Life ops (.construct i false :: trace) started live := by
  have constructed : ∀ j, constructs (.construct i false :: trace) j = constructs trace j :=
    fun j => List.count_cons_of_ne (by simp)
  have kept : ∀ j, releases (.construct i false :: trace) j = releases trace j :=
    fun j => List.count_cons_of_ne (by simp)
  constructor
  · intro j alive; rw [constructed,kept]; exact life.alive j alive
  · intro j gone; rw [constructed,kept]; exact life.dead j gone
  · intro j member
    rw [constructed]
    rcases eq_or_ne j i with rfl | other
    · exact built
    · exact life.rejected j (by simpa [other] using member)
  · intro j
    rw [life.threads j]
    simp [Unjoined]
  · exact life.owners
  · exact ⟨life.safe,by simp⟩

/-- The thread of a live slot is created. -/
theorem life_create {i : Nat} (life : Life ops trace started live) (alive : live i)
    (joined : .join i true ∉ trace) : Life ops (.create i true :: trace) (Function.update started i true) live := by
  have constructed : ∀ j, constructs (.create i true :: trace) j = constructs trace j :=
    fun j => List.count_cons_of_ne (by simp)
  have kept : ∀ j, releases (.create i true :: trace) j = releases trace j :=
    fun j => List.count_cons_of_ne (by simp)
  constructor
  · intro j still; rw [constructed,kept]; exact life.alive j still
  · intro j gone; rw [constructed,kept]; exact life.dead j gone
  · intro j member
    rw [constructed]
    exact life.rejected j (by simpa using member)
  · intro j
    rcases eq_or_ne j i with rfl | other
    · simp [Unjoined,joined]
    · rw [Function.update_of_ne other,life.threads j]
      simp [Unjoined,other]
  · intro j running
    rcases eq_or_ne j i with rfl | other
    · exact alive
    · rw [Function.update_of_ne other] at running
      exact life.owners j running
  · exact ⟨life.safe,by simp⟩

/-! ## Stopping -/

/-- An event of a stop. -/
def Event.stops : Event → Bool
  | .requestExit _ | .cancel _ _ | .join _ _ => true
  | _ => false

/-- What a stop leaves of a pool. -/
structure Stopped (p q : Pool) : Prop where
  same : q = { p with started := q.started, broken := q.broken, trace := q.trace }
  trace : ∃ new, q.trace = new ++ p.trace ∧ ∀ e ∈ new, e.stops = true
  life : ∀ ops live, Life ops p.trace p.started live → Life ops q.trace q.started live
  fewer : ∀ i, q.started i = true → p.started i = true
  sticky : p.broken = true → q.broken = true

theorem stopped_refl (p : Pool) : Stopped p p :=
  ⟨rfl,⟨[],rfl,by simp⟩,fun _ _ life => life,fun _ => id,id⟩

theorem stopped_trans {r : Pool} (first : Stopped p q) (second : Stopped q r) : Stopped p r := by
  obtain ⟨new,newer,stops⟩ := first.trace
  obtain ⟨later,latest,stopsLater⟩ := second.trace
  refine ⟨?_,⟨later ++ new,by rw [latest,newer,List.append_assoc],fun e member => ?_⟩,
    fun ops live life => second.life ops live (first.life ops live life),
    fun i running => first.fewer i (second.fewer i running),fun broken => second.sticky (first.sticky broken)⟩
  · rw [second.same,first.same]
  · rcases List.mem_append.mp member with late | early
    · exact stopsLater e late
    · exact stops e early

theorem stopped_broken (p : Pool) (broken : Bool) (worse : p.broken = true → broken = true) :
    Stopped p { p with broken := broken } :=
  ⟨rfl,⟨[],rfl,by simp⟩,fun _ _ life => life,fun _ => id,worse⟩

/-- A stop records a request, a cancellation or a failed join. -/
theorem stopped_emit {e : Event} (p : Pool) (stops : e.stops = true) (join : ∀ i, e ≠ .join i true) :
    Stopped p (p.emit e) := by
  refine ⟨rfl,⟨[e],rfl,by simpa using stops⟩,fun ops live life => ?_,fun _ => id,id⟩
  refine life_other life ?_ ?_ ?_ join
  · rintro i ok rfl; contradiction
  · rintro i rfl; contradiction
  · rintro i rfl; contradiction

theorem stopped_join (p : Pool) (i : Nat) :
    Stopped p { p.emit (.join i true) with started := Function.update p.started i false } := by
  refine ⟨rfl,⟨[.join i true],rfl,by simp [Event.stops]⟩,fun ops live life => life_join life,fun j running => ?_,id⟩
  rcases eq_or_ne j i with rfl | other
  · simp at running
  · simpa [other] using running

theorem cancelFrom_stopped (o : StopOutcome) (left i : Nat) (p : Pool) : Stopped p (cancelFrom p o left i) := by
  induction left generalizing p i with
  | zero => exact stopped_refl p
  | succ left ih =>
    rw [cancelFrom]
    split
    · exact ih (i + 1) p
    · have cancelled := stopped_emit p (e := .cancel i (o.cancel i)) rfl (by simp)
      exact stopped_trans (stopped_trans cancelled (stopped_broken _ _ (fun broken => by simpa using .inl broken))) (ih (i + 1) _)

/-- The join loop, and which threads it has joined where none failed. -/
theorem joinFrom_stopped (o : StopOutcome) (left i : Nat) (p : Pool) (result : Bool) :
    Stopped p (joinFrom p o left i result).1 ∧
      ((joinFrom p o left i result).2 = true → result = true ∧
        ∀ j, i ≤ j → j < i + left → (joinFrom p o left i result).1.started j = false) := by
  induction left generalizing p i result with
  | zero => exact ⟨stopped_refl p,fun ok => ⟨ok,fun j low high => by omega⟩⟩
  | succ left ih =>
    rw [joinFrom]
    split
    · rename_i idle
      obtain ⟨stopped,joined⟩ := ih (i + 1) p result
      refine ⟨stopped,fun ok => ⟨(joined ok).1,fun j low high => ?_⟩⟩
      rcases Nat.eq_or_lt_of_le low with rfl | later
      · by_contra running
        rw [stopped.fewer i (by simpa using running)] at idle
        contradiction
      · exact (joined ok).2 j later (by omega)
    · split
      · obtain ⟨stopped,joined⟩ := ih (i + 1) { p.emit (.join i false) with broken := true } false
        have failed := stopped_emit p (e := .join i false) rfl (by simp)
        refine ⟨stopped_trans (stopped_trans failed (stopped_broken _ _ (fun _ => rfl))) stopped,fun ok => ?_⟩
        exact absurd (joined ok).1 (by simp)
      · obtain ⟨stopped,joined⟩ :=
          ih (i + 1) { p.emit (.join i true) with started := Function.update p.started i false } result
        refine ⟨stopped_trans (stopped_join p i) stopped,fun ok => ⟨(joined ok).1,fun j low high => ?_⟩⟩
        rcases Nat.eq_or_lt_of_le low with rfl | later
        · by_contra running
          have before := stopped.fewer i (by simpa using running)
          simp at before
        · exact (joined ok).2 j later (by omega)

theorem requestExit_stopped (p : Pool) (o : StopOutcome) : Stopped p (requestExit p o).1 := by
  unfold requestExit
  split
  · exact stopped_refl p
  · exact stopped_emit p rfl (by simp)

/-- A stop that returns 0 has joined every thread of the pool. -/
theorem stop_stopped (p : Pool) (o : StopOutcome) : Stopped p (stop p o).1 ∧
    ((stop p o).2 = true → p.threads = true → ∀ j, j < p.nPref.toNat → (stop p o).1.started j = false) := by
  unfold stop
  split
  · rename_i none
    exact ⟨stopped_refl p,fun _ some => by rw [none] at some; contradiction⟩
  · have asked := requestExit_stopped p o
    have told : Stopped p (if (requestExit p o).2 then (requestExit p o).1
        else cancelFrom { (requestExit p o).1 with broken := true } o (requestExit p o).1.nPref.toNat 0) := by
      split
      · exact asked
      · exact stopped_trans (stopped_trans asked (stopped_broken _ _ (fun _ => rfl))) (cancelFrom_stopped o _ _ _)
    obtain ⟨joins,joined⟩ := joinFrom_stopped o p.nPref.toNat 0 _ true
    have same : (if (requestExit p o).2 then (requestExit p o).1
        else cancelFrom { (requestExit p o).1 with broken := true } o (requestExit p o).1.nPref.toNat 0).nPref =
          p.nPref := by rw [told.same]
    simp only [same]
    exact ⟨stopped_trans told joins,fun ok _ j inside => (joined ok).2 j (Nat.zero_le j) (by omega)⟩

/-- A poisoned pool is a stopped one that stays broken. -/
theorem poison_stopped (p : Pool) (o : StopOutcome) : Stopped p (poison p o) ∧ (poison p o).broken = true := by
  have stopped := (stop_stopped { p with broken := true } o).1
  exact ⟨stopped_trans (stopped_broken p true (fun _ => rfl)) stopped,stopped.sticky rfl⟩

/-- A dispatch stops a pool only where its barrier fails, and then breaks it. -/
theorem dispatch_stopped (p : Pool) (complete : Bool) (o : StopOutcome) : Stopped p (dispatch p complete o).1 ∧
    ((dispatch p complete o).2 = false → (dispatch p complete o).1.broken = true) := by
  unfold dispatch
  split
  · exact ⟨stopped_refl p,by simp⟩
  · split
    · exact ⟨stopped_refl p,by simp⟩
    · obtain ⟨stopped,broken⟩ := poison_stopped p o
      exact ⟨stopped,fun _ => broken⟩

end AutoUpscale.WorkerPool
