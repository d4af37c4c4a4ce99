import Mathlib.Tactic.Common

/-!
A mutex as the thread that owns it. Where every step of a thread changes the
owner the way it changes what the thread holds (`Change`), the owner is always
the one thread that holds the lock (`Owned`).
-/
namespace AutoUpscale.Mutex
universe u
variable {Thread : Type u} {who other : Thread} {before after owner : Option Thread}

/-- What a step of the thread `who` does to a lock: nothing, take it when it is
    free, or give it back. -/
def Change (who : Thread) (before after : Option Thread) (held holds : Bool) : Prop :=
  (after = before ∧ holds = held) ∨ (before = none ∧ after = some who ∧ holds = true) ∨
    (held = true ∧ after = none ∧ holds = false)

/-- The owner is exactly the thread that holds the lock. -/
def Owned (owner : Option Thread) (holds : Thread → Bool) : Prop :=
  ∀ who, owner = some who ↔ holds who = true

theorem owned_free {holds : Thread → Bool} (nobody : ∀ who, holds who = false) : Owned none holds := by
  intro who
  simp [nobody who]

theorem owned_change {held holds : Thread → Bool} (owned : Owned before held)
    (others : ∀ x, x ≠ who → holds x = held x) (change : Change who before after (held who) (holds who)) :
    Owned after holds := by
  intro x
  rcases eq_or_ne x who with rfl | different
  · rcases change with ⟨same,keeps⟩ | ⟨_,taken,has⟩ | ⟨_,free,lost⟩
    · rw [same,keeps]; exact owned x
    · simp [taken,has]
    · simp [free,lost]
  · rw [others x different]
    rcases change with ⟨same,_⟩ | ⟨free,taken,_⟩ | ⟨had,free,_⟩
    · rw [same]; exact owned x
    · have unheld : held x = false := by simpa [free] using (owned x).not
      simp [taken,unheld,different.symm]
    · have mine := (owned who).mpr had
      have unheld : held x = false := by simpa [mine,different.symm] using (owned x).not
      simp [free,unheld]

theorem owned_unique {holds : Thread → Bool} (owned : Owned owner holds) (mine : holds who = true)
    (yours : holds other = true) : who = other := by
  have first := (owned who).mpr mine
  have second := (owned other).mpr yours
  exact Option.some.inj (first.symm.trans second)

end AutoUpscale.Mutex
