import Mathlib.Order.Lattice
import Mathlib.Logic.Function.Basic
import Mathlib.Tactic.Common

/-!
A heap of blocks. Only the null pointer and allocated blocks may be freed, so a
computation that has a result frees nothing twice. `Owned` says what the slots of a
structure hold of a heap: their blocks are distinct and new, and without them the heap
is as it was. Filling an empty slot keeps it (`owned_alloc`), freeing a slot keeps it
(`owned_free`), and once all slots are empty nothing is left behind (`owned_clear`).
What some of the slots own can be looked at by itself (`owned_part`) and put back
(`owned_whole`).
-/
namespace AutoUpscale.Blocks

/-- How many bytes each allocated block has. -/
structure Heap where
  size : Nat → Option Nat
  next : Nat
  fresh : ∀ b, next ≤ b → size b = none

/-- A heap without blocks. -/
def vacant : Heap := ⟨fun _ => none,0,fun _ _ => rfl⟩

/-- The heap with one more block. -/
def Heap.extend (h : Heap) (bytes : Nat) : Heap where
  size := Function.update h.size h.next (some bytes)
  next := h.next + 1
  fresh := by
    intro b later
    rw [Function.update_of_ne (by omega)]
    exact h.fresh b (by omega)

/-- The heap with one block less. -/
def Heap.remove (h : Heap) (b : Nat) : Heap where
  size := Function.update h.size b none
  next := h.next
  fresh := by
    intro c later
    by_cases same : c = b
    · rw [same,Function.update_self]
    · rw [Function.update_of_ne same]
      exact h.fresh c later

/-- `aligned_alloc`, which takes multiples of the alignment and may refuse. -/
def Heap.alignedAlloc (h : Heap) (alignment bytes : Nat) (granted : Bool) : Option (Option Nat × Heap) :=
  if alignment ∣ bytes then some (if granted then (some h.next,h.extend bytes) else (none,h)) else none

/-- `free`, which takes the null pointer and allocated blocks. -/
def Heap.free (h : Heap) : Option Nat → Option Heap
  | none => some h
  | some b => if h.size b = none then none else some (h.remove b)

theorem alignedAlloc_granted {h : Heap} {alignment bytes : Nat} (multiple : alignment ∣ bytes) :
    h.alignedAlloc alignment bytes true = some (some h.next,h.extend bytes) := if_pos multiple

theorem alignedAlloc_refused {h : Heap} {alignment bytes : Nat} (multiple : alignment ∣ bytes) :
    h.alignedAlloc alignment bytes false = some (none,h) := if_pos multiple

/-! ## What slots own -/

universe u
variable {ι : Type u}

/-- The slots hold distinct blocks of the sizes `bytes`; without them the heap is `base`. -/
structure Owned (base : Nat → Option Nat) (held : ι → Option Nat) (bytes : ι → Nat) (h : Heap) : Prop where
  distinct : ∀ i j b, held i = some b → held j = some b → i = j
  new : ∀ i b, held i = some b → base b = none
  live : ∀ i b, held i = some b → h.size b = some (bytes i)
  others : ∀ b, (∀ i, held i ≠ some b) → h.size b = base b

variable {base : Nat → Option Nat} {held : ι → Option Nat} {bytes : ι → Nat} {h : Heap}

theorem owned_start (empty : ∀ i, held i = none) : Owned h.size held bytes h := by
  have nothing : ∀ i b, held i ≠ some b := fun i b holds => by
    rw [empty i] at holds
    cases holds
  exact ⟨fun i _ b holds => absurd holds (nothing i b),fun i b holds => absurd holds (nothing i b),
    fun i b holds => absurd holds (nothing i b),fun _ _ => rfl⟩

/-- Once nothing is held the heap is as it was. -/
theorem owned_clear (owned : Owned base held bytes h) (empty : ∀ i, held i = none) : h.size = base := by
  funext b
  refine owned.others b fun i holds => ?_
  rw [empty i] at holds
  cases holds

/-- No slot holds the next block. -/
theorem owned_next (owned : Owned base held bytes h) (i : ι) : held i ≠ some h.next := by
  intro holds
  have live := owned.live i _ holds
  rw [h.fresh h.next (le_refl _)] at live
  cases live

variable [DecidableEq ι] {i : ι}

/-- What a family holds once a slot changed. -/
theorem update_holds {j : ι} {value : Option Nat} {b : Nat} (holds : Function.update held i value j = some b) :
    (j = i ∧ value = some b) ∨ (j ≠ i ∧ held j = some b) := by
  by_cases same : j = i
  · subst same
    rw [Function.update_self] at holds
    exact Or.inl ⟨rfl,holds⟩
  · rw [Function.update_of_ne same] at holds
    exact Or.inr ⟨same,holds⟩

theorem owned_alloc (owned : Owned base held bytes h) (empty : held i = none) :
    Owned base (Function.update held i (some h.next)) bytes (h.extend (bytes i)) := by
  have next := owned_next owned
  -- a slot of the new family is the one just filled or an old one with an older block
  have origin : ∀ j b, Function.update held i (some h.next) j = some b →
      (j = i ∧ h.next = b) ∨ (held j = some b ∧ b ≠ h.next) := by
    intro j b holds
    rcases update_holds holds with ⟨same,filled⟩ | ⟨_,old⟩
    · exact Or.inl ⟨same,Option.some.inj filled⟩
    · refine Or.inr ⟨old,?_⟩
      rintro rfl
      exact next j old
  refine ⟨fun j k b hj hk => ?_,fun j b holds => ?_,fun j b holds => ?_,fun b none => ?_⟩
  · rcases origin j b hj with ⟨rfl,rfl⟩ | ⟨old,older⟩
    · rcases origin k _ hk with ⟨rfl,_⟩ | ⟨_,older'⟩
      · rfl
      · exact absurd rfl older'
    · rcases origin k b hk with ⟨_,same⟩ | ⟨old',_⟩
      · exact absurd same.symm older
      · exact owned.distinct j k b old old'
  · rcases origin j b holds with ⟨_,rfl⟩ | ⟨old,_⟩
    · rw [← owned.others h.next next]
      exact h.fresh _ (le_refl _)
    · exact owned.new j b old
  · rcases origin j b holds with ⟨rfl,rfl⟩ | ⟨old,older⟩
    · exact Function.update_self ..
    · exact (Function.update_of_ne older ..).trans (owned.live j b old)
  · have other : b ≠ h.next := by
      rintro rfl
      exact none i (Function.update_self ..)
    refine (Function.update_of_ne other ..).trans (owned.others b fun j holds => ?_)
    have old : j ≠ i := by
      rintro rfl
      rw [empty] at holds
      cases holds
    exact none j ((Function.update_of_ne old ..).trans holds)

/-- What a slot holds may be freed. -/
theorem owned_free (owned : Owned base held bytes h) (i : ι) :
    ∃ h', h.free (held i) = some h' ∧ Owned base (Function.update held i none) bytes h' := by
  cases holds : held i with
  | none =>
    refine ⟨h,rfl,?_⟩
    rw [← holds,Function.update_eq_self]
    exact owned
  | some b =>
    have others : ∀ j c, Function.update held i none j = some c → held j = some c ∧ c ≠ b := by
      intro j c held'
      rcases update_holds held' with ⟨_,empty⟩ | ⟨different,old⟩
      · cases empty
      · refine ⟨old,?_⟩
        rintro rfl
        exact different (owned.distinct j i c old holds)
    have live : h.size b ≠ none := by
      rw [owned.live i b holds]
      exact Option.some_ne_none _
    refine ⟨h.remove b,if_neg live,fun j k c hj hk => ?_,fun j c hj => ?_,fun j c hj => ?_,fun c none => ?_⟩
    · exact owned.distinct j k c (others j c hj).1 (others k c hk).1
    · exact owned.new j c (others j c hj).1
    · exact (Function.update_of_ne (others j c hj).2 ..).trans (owned.live j c (others j c hj).1)
    · by_cases same : c = b
      · rw [same,owned.new i b holds]
        exact Function.update_self ..
      · refine (Function.update_of_ne same ..).trans (owned.others c fun j held' => ?_)
        have other : j ≠ i := by
          rintro rfl
          exact same (Option.some.inj (held'.symm.trans holds))
        exact none j ((Function.update_of_ne other ..).trans held')

/-! ## Parts of a structure -/

section Parts
universe v
variable {ι : Type u} {κ : Type v} {base : Nat → Option Nat} {held held' : ι → Option Nat} {bytes bytes' : ι → Nat} {h h' : Heap}
  {e : κ → ι} {part : κ → Option Nat} {partBytes : κ → Nat}

/-- Sizes matter only where something is held. -/
theorem owned_bytes (owned : Owned base held bytes h) (same : ∀ i, held i ≠ none → bytes' i = bytes i) :
    Owned base held bytes' h := by
  refine ⟨owned.distinct,owned.new,fun i b holds => ?_,owned.others⟩
  rw [same i (by rw [holds]; exact Option.some_ne_none b)]
  exact owned.live i b holds

open Classical in
/-- The heap without what some slots hold. -/
noncomputable def besides (held : κ → Option Nat) (h : Heap) (b : Nat) : Option Nat :=
  if ∃ k, held k = some b then none else h.size b

/-- What some of the slots own. -/
theorem owned_part (owned : Owned base held bytes h) (distinct : Function.Injective e) :
    Owned (besides (held ∘ e) h) (held ∘ e) (bytes ∘ e) h :=
  ⟨fun i j b hi hj => distinct (owned.distinct (e i) (e j) b hi hj),fun i _ holds => if_pos ⟨i,holds⟩,
    fun i b holds => owned.live (e i) b holds,fun _ free => (if_neg fun ⟨k,holds⟩ => free k holds).symm⟩

/-- Whatever happened to what some of the slots own, the others own what they did. -/
theorem owned_whole (owned : Owned base held bytes h) (inner : Owned (besides (held ∘ e) h) part partBytes h')
    (inside : ∀ k, held' (e k) = part k) (sized : ∀ k, bytes' (e k) = partBytes k)
    (outside : ∀ i, (∀ k, e k ≠ i) → held' i = held i ∧ bytes' i = bytes i) : Owned base held' bytes' h' := by
  have place : ∀ i, (∃ k, e k = i) ∨ ∀ k, e k ≠ i := fun i => by
    by_cases found : ∃ k, e k = i
    · exact Or.inl found
    · exact Or.inr fun k same => found ⟨k,same⟩
  -- the block of a slot outside is none of the part's
  have apart : ∀ i b, (∀ k, e k ≠ i) → held i = some b → besides (held ∘ e) h b = some (bytes i) ∧ ∀ k, part k ≠ some b := by
    intro i b away holds
    have kept : besides (held ∘ e) h b = some (bytes i) := by
      rw [besides,if_neg (fun ⟨k,other⟩ => away k (owned.distinct (e k) i b other holds))]
      exact owned.live i b holds
    refine ⟨kept,fun k other => ?_⟩
    rw [inner.new k b other] at kept
    cases kept
  refine ⟨fun i j b hi hj => ?_,fun i b holds => ?_,fun i b holds => ?_,fun b free => ?_⟩
  · rcases place i with ⟨k,rfl⟩ | awayI
    · rw [inside] at hi
      rcases place j with ⟨l,rfl⟩ | awayJ
      · rw [inside] at hj
        rw [inner.distinct k l b hi hj]
      · rw [(outside j awayJ).1] at hj
        exact absurd hi ((apart j b awayJ hj).2 k)
    · rw [(outside i awayI).1] at hi
      rcases place j with ⟨l,rfl⟩ | awayJ
      · rw [inside] at hj
        exact absurd hj ((apart i b awayI hi).2 l)
      · rw [(outside j awayJ).1] at hj
        exact owned.distinct i j b hi hj
  · rcases place i with ⟨k,rfl⟩ | away
    · rw [inside] at holds
      have fresh := inner.new k b holds
      by_cases before : ∃ k, (held ∘ e) k = some b
      · obtain ⟨l,other⟩ := before
        exact owned.new (e l) b other
      · rw [besides,if_neg before] at fresh
        rw [← owned.others b fun j other => ?_]
        · exact fresh
        · rw [owned.live j b other] at fresh
          cases fresh
    · rw [(outside i away).1] at holds
      exact owned.new i b holds
  · rcases place i with ⟨k,rfl⟩ | away
    · rw [inside] at holds
      rw [sized]
      exact inner.live k b holds
    · rw [(outside i away).1] at holds
      obtain ⟨kept,free⟩ := apart i b away holds
      rw [(outside i away).2,← kept]
      exact inner.others b free
  · rw [inner.others b fun k holds => free (e k) ((inside k).trans holds)]
    by_cases before : ∃ k, (held ∘ e) k = some b
    · rw [besides,if_pos before]
      obtain ⟨k,other⟩ := before
      exact (owned.new (e k) b other).symm
    · rw [besides,if_neg before]
      refine owned.others b fun i holds => ?_
      rcases place i with ⟨k,rfl⟩ | away
      · exact before ⟨k,holds⟩
      · exact free i ((outside i away).1.trans holds)

end Parts

end AutoUpscale.Blocks
