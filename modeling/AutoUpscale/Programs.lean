import AutoUpscale.Footprint

/-!
Programs of atomic actions on a shared memory. A program has ended, or it writes the
memory in one action and goes on with what it read of it; programs of several threads
interleave action by action. `Meets view touch post` says of a program that it writes
only the cells in `touch` and ends with `post`, whatever others write outside `view`.
It holds of a sequence when it holds of the parts (`meets_bind`, `meets_each`), what a
program does not touch stays (`meets_frame`), and threads whose views the others do not
touch all meet what each meets by itself, in every interleaving (`parallel_meets`).
-/
namespace AutoUpscale.Programs
open AutoUpscale.Footprint (State advance advance_iff Confined run_frame run_keeps)
open AutoUpscale.Runs (run run_cons_iff run_append_iff)
universe u
variable {ι β ρ τ : Type} {α : Type u}

inductive Program (α : Type u) (β ρ : Type)
  | done (value : ρ)
  | act (write : (α → β) → α → β) (rest : (α → β) → Program α β ρ)

namespace Program

def bind : Program α β ρ → (ρ → Program α β τ) → Program α β τ
  | .done v, k => k v
  | .act write rest, k => .act write fun m => (rest m).bind k

instance : Monad (Program α β) where
  pure := .done
  bind := bind

/-- The value of a cell. -/
def load (a : α) : Program α β β := .act id fun m => .done (m a)

/-- One cell is written. -/
def store [DecidableEq α] (a : α) (v : β) : Program α β Unit := .act (fun m => Function.update m a v) fun _ => .done ()

/-- `body` for each element in turn. -/
def each {γ : Type} (body : γ → Program α β Unit) : List γ → Program α β Unit
  | [] => .done ()
  | c :: rest => do
    body c
    each body rest

/-- A program by itself: its value and the memory it leaves. -/
def exec : Program α β ρ → (α → β) → ρ × (α → β)
  | .done v, m => (v,m)
  | .act write rest, m => (rest m).exec (write m)

theorem exec_bind (p : Program α β ρ) (k : ρ → Program α β τ) (m : α → β) :
    (p >>= k).exec m = (k (p.exec m).1).exec (p.exec m).2 := by
  induction p generalizing m with
  | done v => rfl
  | act write rest ih => exact ih m (write m)

end Program

/-! ## What a program meets -/

/-- The memories hold the same in the cells of a view. -/
def Agree (view : Set α) (m m' : α → β) : Prop := ∀ a, a ∈ view → m' a = m a

theorem agree_refl (view : Set α) (m : α → β) : Agree view m m := fun _ _ => rfl

theorem agree_trans {view : Set α} {m m' m'' : α → β} (first : Agree view m m') (second : Agree view m' m'') :
    Agree view m m'' := fun a seen => (second a seen).trans (first a seen)

theorem agree_mono {view wide : Set α} {m m' : α → β} (sub : view ⊆ wide) (agree : Agree wide m m') : Agree view m m' :=
  fun a seen => agree a (sub seen)

/-- From memory `m` on the program writes only cells in `touch` and ends with `post`, as
    long as others leave the cells of `view` alone. -/
def Meets (view touch : Set α) (post : ρ → (α → β) → Prop) : Program α β ρ → (α → β) → Prop
  | .done v, m => ∀ m', Agree view m m' → post v m'
  | .act write rest, m => ∀ m', Agree view m m' →
      (∀ a, a ∉ touch → write m' a = m' a) ∧ Meets view touch post (rest m') (write m')

variable {view view' touch touch' kept : Set α} {post post' : ρ → (α → β) → Prop} {p : Program α β ρ} {m m' : α → β}

theorem meets_agree (meets : Meets view touch post p m) (agree : Agree view m m') : Meets view touch post p m' := by
  cases p with
  | done v => exact fun m'' later => meets m'' (agree_trans agree later)
  | act write rest => exact fun m'' later => meets m'' (agree_trans agree later)

theorem meets_mono (meets : Meets view touch post p m) (views : view ⊆ view') (touches : touch ⊆ touch')
    (posts : ∀ v m, post v m → post' v m) : Meets view' touch' post' p m := by
  induction p generalizing m with
  | done v => exact fun m' agree => posts v m' (meets m' (agree_mono views agree))
  | act write rest ih =>
    intro m' agree
    obtain ⟨writes,later⟩ := meets m' (agree_mono views agree)
    exact ⟨fun a outside => writes a fun member => outside (touches member),ih m' later⟩

theorem meets_post (meets : Meets view touch post p m) (posts : ∀ v m, post v m → post' v m) : Meets view touch post' p m :=
  meets_mono meets (le_refl _) (le_refl _) posts

/-- What a program ends with still holds once others have gone on. -/
theorem meets_stable (meets : Meets view touch post p m) :
    Meets view touch (fun v m' => ∀ m'', Agree view m' m'' → post v m'') p m := by
  induction p generalizing m with
  | done v => exact fun m' agree m'' later => meets m'' (agree_trans agree later)
  | act write rest ih =>
    intro m' agree
    obtain ⟨writes,later⟩ := meets m' agree
    exact ⟨writes,ih m' later⟩

theorem meets_bind {k : ρ → Program α β τ} {last : τ → (α → β) → Prop} (first : Meets view touch post p m)
    (second : ∀ v m', post v m' → Meets view touch last (k v) m') : Meets view touch last (p >>= k) m := by
  induction p generalizing m with
  | done v => exact second v m (first m (agree_refl view m))
  | act write rest ih =>
    intro m' agree
    obtain ⟨writes,later⟩ := first m' agree
    exact ⟨writes,ih m' later⟩

/-- Cells that a program does not touch, and that others leave alone too, keep what they
    hold. -/
theorem meets_frame (meets : Meets view touch post p m) (apart : Disjoint kept touch) :
    Meets (view ∪ kept) touch (fun v m' => post v m' ∧ Agree kept m m') p m := by
  induction p generalizing m with
  | done v =>
    intro m' agree
    exact ⟨meets m' (agree_mono Set.subset_union_left agree),agree_mono Set.subset_union_right agree⟩
  | act write rest ih =>
    intro m' agree
    obtain ⟨writes,later⟩ := meets m' (agree_mono Set.subset_union_left agree)
    have before : Agree kept m m' := agree_mono Set.subset_union_right agree
    have own : Agree kept m' (write m') := fun a member => writes a (Set.disjoint_left.mp apart member)
    refine ⟨writes,meets_post (ih m' later) ?_⟩
    rintro v m'' ⟨ends,after⟩
    exact ⟨ends,agree_trans (agree_trans before own) after⟩

theorem meets_done {v : ρ} (holds : ∀ m', Agree view m m' → post v m') : Meets view touch post (pure v) m := holds

theorem meets_load {a : α} (seen : a ∈ view) {post : β → (α → β) → Prop} (holds : ∀ m', Agree view m m' → post (m a) m') :
    Meets view touch post (Program.load a) m := by
  intro m' agree
  refine ⟨fun _ _ => rfl,fun m'' later => ?_⟩
  rw [agree a seen]
  exact holds m'' (agree_trans agree later)

theorem meets_store [DecidableEq α] {a : α} {v : β} {post : Unit → (α → β) → Prop} (touched : a ∈ touch)
    (holds : ∀ m' m'', Agree view m m' → Agree view (Function.update m' a v) m'' → post () m'') :
    Meets view touch post (Program.store a v) m := by
  intro m' agree
  refine ⟨fun b outside => ?_,fun m'' later => holds m' m'' agree later⟩
  have other : b ≠ a := by
    rintro rfl
    exact outside touched
  exact Function.update_of_ne other v m'

/-- A program that nothing is asked of. -/
theorem meets_any (p : Program α β ρ) (m : α → β) : Meets ∅ Set.univ (fun _ _ => True) p m := by
  induction p generalizing m with
  | done v => exact fun _ _ => trivial
  | act write rest ih => exact fun m' _ => ⟨fun a outside => absurd (Set.mem_univ a) outside,ih m' (write m')⟩

/-! ## Repetition -/

section Each
variable {γ : Type} {body : γ → Program α β Unit}

/-- Bodies that keep out of each other's way all meet what each meets from the start. -/
theorem meets_each {views touches : γ → Set α} {posts : γ → (α → β) → Prop} {cs : List γ}
    (separate : cs.Pairwise fun c d => Disjoint (views c) (touches d) ∧ Disjoint (views d) (touches c))
    (each : ∀ c ∈ cs, Meets (views c) (touches c) (fun _ m' => posts c m') (body c) m)
    (seen : ∀ c ∈ cs, views c ⊆ view) (touched : ∀ c ∈ cs, touches c ⊆ touch) :
    Meets view touch (fun _ m' => ∀ c ∈ cs, posts c m') (Program.each body cs) m := by
  induction cs generalizing view touch m with
  | nil => exact fun m' _ c member => absurd member List.not_mem_nil
  | cons c rest ih =>
    obtain ⟨apart,later⟩ := List.pairwise_cons.mp separate
    -- The first body keeps what the others start from; they keep what it ended with.
    have first := meets_stable (each c List.mem_cons_self)
    have others : Disjoint (⋃ d ∈ rest, views d) (touches c) := by
      simp only [Set.disjoint_iUnion_left]
      exact fun d member => (apart d member).2
    have sub : views c ∪ ⋃ d ∈ rest, views d ⊆ view := by
      refine Set.union_subset (seen c List.mem_cons_self) ?_
      simp only [Set.iUnion_subset_iff]
      exact fun d member => seen d (List.mem_cons_of_mem c member)
    refine meets_bind (meets_mono (meets_frame first others) sub (touched c List.mem_cons_self) fun _ _ holds => holds) ?_
    rintro _ m' ⟨settled,same⟩
    have remaining : ∀ d ∈ rest, Meets (views d) (touches d) (fun _ m' => posts d m') (body d) m' := by
      intro d member
      refine meets_agree (each d (List.mem_cons_of_mem c member)) (agree_mono ?_ same)
      exact Set.subset_biUnion_of_mem (u := views) member
    have done : Disjoint (views c) (⋃ d ∈ rest, touches d) := by
      simp only [Set.disjoint_iUnion_right]
      exact fun d member => (apart d member).1
    have tail : Meets (⋃ d ∈ rest, views d) (⋃ d ∈ rest, touches d) (fun _ m' => ∀ d ∈ rest, posts d m')
        (Program.each body rest) m' := ih later remaining
      (fun d member => Set.subset_biUnion_of_mem (u := views) member)
      (fun d member => Set.subset_biUnion_of_mem (u := touches) member)
    have allTouched : ⋃ d ∈ rest, touches d ⊆ touch := by
      simp only [Set.iUnion_subset_iff]
      exact fun d member => touched d (List.mem_cons_of_mem c member)
    refine meets_mono (meets_frame tail done) ?_ allTouched ?_
    · rw [Set.union_comm]
      exact sub
    · rintro _ m'' ⟨all,kept⟩ d member
      rcases List.mem_cons.mp member with rfl | member
      · exact settled m'' kept
      · exact all d member

end Each

/-! ## Threads -/

section Threads
/-- One action of a thread, where it has not ended. -/
def step (_ : ι) (p : Program α β ρ) (m : α → β) : Option (Program α β ρ × (α → β)) :=
  match p with
  | .done _ => none
  | .act write rest => some (rest m,write m)

theorem step_iff {i : ι} {p q : Program α β ρ} {m m' : α → β} :
    step i p m = some (q,m') ↔ ∃ write rest, p = .act write rest ∧ q = rest m ∧ m' = write m := by
  cases p with
  | done v => simp [step]
  | act write rest =>
    simp only [step,Option.some.injEq,Prod.mk.injEq]
    constructor
    · rintro ⟨rfl,rfl⟩
      exact ⟨write,rest,rfl,rfl,rfl⟩
    · rintro ⟨_,_,same,rfl,rfl⟩
      cases same
      exact ⟨rfl,rfl⟩

variable {views touches : ι → Set α} {posts : ι → ρ → (α → β) → Prop}

theorem meets_confined (apart : ∀ i j, i ≠ j → Disjoint (views i) (touches j)) :
    Confined step (fun i p m => Meets (views i) (touches i) (posts i) p m) views touches := by
  refine ⟨fun i p m q m' meets stepped => ?_,fun i p m q m' meets stepped => ?_,fun i p m m' agree meets => ?_,apart⟩
  · obtain ⟨write,rest,rfl,rfl,rfl⟩ := step_iff.mp stepped
    exact (meets m (agree_refl _ m)).2
  · obtain ⟨write,rest,rfl,rfl,rfl⟩ := step_iff.mp stepped
    exact (meets m (agree_refl _ m)).1
  · exact meets_agree meets agree

variable [DecidableEq ι] {s t : State ι (Program α β ρ) α β} {schedule : List ι}

/-- In every interleaving each thread that has ended meets what it meets by itself, and
    what no thread touches stays. -/
theorem parallel_meets (apart : ∀ i j, i ≠ j → Disjoint (views i) (touches j))
    (start : ∀ i, Meets (views i) (touches i) (posts i) (s.cursor i) s.memory)
    (executed : run (advance step) s schedule = some t) :
    (∀ i v, t.cursor i = .done v → posts i v t.memory) ∧ ∀ a, (∀ i, a ∉ touches i) → t.memory a = s.memory a := by
  have confined : Confined step (fun i p m => Meets (views i) (touches i) (posts i) p m) views touches := meets_confined apart
  constructor
  · intro i v ended
    have meets := run_keeps confined start executed i
    rw [ended] at meets
    exact meets t.memory (agree_refl _ _)
  · exact fun a outside => run_frame confined start executed outside

/-- A thread alone can be carried on to its end. -/
theorem thread_completes (s : State ι (Program α β ρ) α β) (i : ι) : ∃ schedule t v, run (advance step) s schedule = some t ∧
    t.cursor i = .done v ∧ ∀ j, j ≠ i → t.cursor j = s.cursor j := by
  induction program : s.cursor i generalizing s with
  | done v => exact ⟨[],s,v,rfl,program,fun _ _ => rfl⟩
  | act write rest ih =>
    have first : advance step s i = some ⟨write s.memory,Function.update s.cursor i (rest s.memory)⟩ :=
      advance_iff.mpr ⟨_,_,by rw [program]; rfl,rfl⟩
    obtain ⟨schedule,t,v,tail,ended,others⟩ :=
      ih s.memory ⟨write s.memory,Function.update s.cursor i (rest s.memory)⟩ (Function.update_self ..)
    refine ⟨i :: schedule,t,v,run_cons_iff.mpr ⟨_,first,tail⟩,ended,fun j other => ?_⟩
    rw [others j other]
    exact Function.update_of_ne other ..

/-- From every state some interleaving leads to the end of all threads. -/
theorem threads_complete [Fintype ι] (s : State ι (Program α β ρ) α β) :
    ∃ schedule t, run (advance step) s schedule = some t ∧ ∀ i, ∃ v, t.cursor i = .done v := by
  have some_ : ∀ members : Finset ι, ∃ schedule t, run (advance step) s schedule = some t ∧
      ∀ i ∈ members, ∃ v, t.cursor i = .done v := by
    intro members
    induction members using Finset.induction_on with
    | empty => exact ⟨[],s,rfl,fun i member => absurd member (Finset.notMem_empty i)⟩
    | insert i members _ ih =>
      obtain ⟨schedule,t,executed,ended⟩ := ih
      obtain ⟨schedule',t',v,tail,last,others⟩ := thread_completes t i
      refine ⟨schedule ++ schedule',t',run_append_iff.mpr ⟨t,executed,tail⟩,fun j member => ?_⟩
      by_cases same : j = i
      · exact ⟨v,same ▸ last⟩
      · rw [others j same]
        exact ended j (Finset.mem_of_mem_insert_of_ne member same)
  obtain ⟨schedule,t,executed,ended⟩ := some_ Finset.univ
  exact ⟨schedule,t,executed,fun i => ended i (Finset.mem_univ i)⟩

end Threads

end AutoUpscale.Programs
