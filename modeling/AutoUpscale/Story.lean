import Mathlib.Tactic.Common
import Mathlib.Data.List.Count

/-!
Stories of the items of a trace. A trace lists events, the last one first, and the
story of an item is the part of it that concerns the item. Items get their numbers
in the order in which they appear; when each number that was given has a story of a
certain kind, and the others have none, then the trace is `Told`. What a story says
of counts, of members and of the order of events, the trace says too. A trace can be
played over a state (`play`), part after part (`play_append`).
-/
namespace AutoUpscale.Story
universe u v
variable {Event : Type u} {Item : Type v} (concerns : Item → Event → Bool)

def story (h : Item) (trace : List Event) : List Event := trace.filter (concerns h)

variable {concerns} {h : Item} {e : Event} {trace later earlier new rest : List Event}

@[simp] theorem story_nil (h : Item) : story concerns h [] = [] := rfl

@[simp] theorem story_cons (h : Item) (e : Event) (trace : List Event) :
    story concerns h (e :: trace) = if concerns h e then e :: story concerns h trace else story concerns h trace :=
  List.filter_cons

@[simp] theorem story_append (h : Item) (new trace : List Event) :
    story concerns h (new ++ trace) = story concerns h new ++ story concerns h trace :=
  List.filter_append new trace

theorem mem_story (about : concerns h e = true) : e ∈ story concerns h trace ↔ e ∈ trace := by
  simp [story,about]

theorem about_of_story (member : e ∈ story concerns h trace) : concerns h e = true :=
  (List.mem_filter.mp member).2

theorem count_story [DecidableEq Event] (about : concerns h e = true) :
    trace.count e = (story concerns h trace).count e :=
  (List.count_filter about).symm

/-- An event in the middle of the trace is in the middle of the story. -/
theorem story_split (about : concerns h e = true) (parts : trace = later ++ e :: earlier) :
    story concerns h trace = story concerns h later ++ e :: story concerns h earlier := by
  subst parts
  simp [about]

/-- After the last event of a story the trace no longer concerns the item. -/
theorem quiet_after (ended : story concerns h trace = e :: rest) (once : e ∉ rest)
    (parts : trace = later ++ e :: earlier) : ∀ x ∈ later, concerns h x = false := by
  have last : e ∈ story concerns h trace := ended ▸ List.mem_cons_self
  have about : concerns h e = true := about_of_story last
  have split := story_split about parts
  rw [ended] at split
  have silent : story concerns h later = [] := by
    cases told : story concerns h later with
    | nil => rfl
    | cons x others =>
      rw [told] at split
      obtain ⟨-,tail⟩ := List.cons.inj split
      exact absurd (tail ▸ List.mem_append_right others List.mem_cons_self) once
  intro x member
  by_contra other
  have shown : x ∈ story concerns h later := (mem_story (by simpa using other)).mpr member
  rw [silent] at shown
  exact absurd shown List.not_mem_nil

/-! ## Numbered items -/

variable {concerns : Nat → Event → Bool} {Life Later : Nat → List Event → Prop} {next past : Nat}

/-- The items below `next` have a story of the kind `Life`, the others have none. -/
structure Told (concerns : Nat → Event → Bool) (Life : Nat → List Event → Prop) (next : Nat) (trace : List Event) :
    Prop where
  given : ∀ h < next, Life h (story concerns h trace)
  fresh : ∀ h, next ≤ h → story concerns h trace = []

theorem told_start : Told concerns Life 0 [] where
  given h small := absurd small (Nat.not_lt_zero h)
  fresh _ _ := rfl

theorem given_of_mem {h : Nat} (told : Told concerns Life next trace) (about : concerns h e = true) (member : e ∈ trace) :
    h < next := by
  by_contra large
  have shown : e ∈ story concerns h trace := (mem_story about).mpr member
  rw [told.fresh h (Nat.le_of_not_lt large)] at shown
  exact absurd shown List.not_mem_nil

/-- The story of an item that an event of the trace concerns. -/
theorem life_of_mem {h : Nat} (told : Told concerns Life next trace) (about : concerns h e = true) (member : e ∈ trace) :
    Life h (story concerns h trace) :=
  told.given h (given_of_mem told about member)

/-- A step that goes on with the stories of the old items, tells those of the new
    ones, and concerns no others. -/
theorem told_step (new : List Event) (told : Told concerns Life next trace) (grows : next ≤ past)
    (old : ∀ h < next, Life h (story concerns h trace) → Later h (story concerns h new ++ story concerns h trace))
    (young : ∀ h, next ≤ h → h < past → Later h (story concerns h new))
    (others : ∀ h, past ≤ h → story concerns h new = []) : Told concerns Later past (new ++ trace) where
  given h small := by
    rw [story_append]
    by_cases known : h < next
    · exact old h known (told.given h known)
    · have late := Nat.le_of_not_lt known
      rw [told.fresh h late,List.append_nil]
      exact young h late small
  fresh h large := by
    rw [story_append,told.fresh h (Nat.le_trans grows large),others h large,List.append_nil]

/-- A step that concerns new items only. -/
theorem told_new (new : List Event) (told : Told concerns Life next trace) (grows : next ≤ past)
    (quiet : ∀ h < next, story concerns h new = []) (young : ∀ h, next ≤ h → h < past → Life h (story concerns h new))
    (others : ∀ h, past ≤ h → story concerns h new = []) : Told concerns Life past (new ++ trace) := by
  refine told_step new told grows ?_ young others
  intro h small life
  rw [quiet h small]
  exact life

/-- A step that concerns no item. -/
theorem told_quiet (new : List Event) (told : Told concerns Life next trace) (quiet : ∀ h, story concerns h new = []) :
    Told concerns Life next (new ++ trace) :=
  told_new new told (Nat.le_refl next) (fun h _ => quiet h) (fun _ late small => absurd late (Nat.not_le_of_lt small))
    fun h _ => quiet h

/-! ## Justified events -/

/-- Every event is justified by the trace before it. -/
def Justified (J : Event → List Event → Prop) (trace : List Event) : Prop :=
  ∀ later e earlier, trace = later ++ e :: earlier → J e earlier

variable {J : Event → List Event → Prop}

theorem justified_nil : Justified J [] := by
  intro later e earlier parts
  simp at parts

theorem justified_cons : Justified J (e :: trace) ↔ J e trace ∧ Justified J trace := by
  constructor
  · intro justified
    refine ⟨justified [] e trace rfl,?_⟩
    intro later x earlier parts
    exact justified (e :: later) x earlier (congrArg (e :: ·) parts)
  · rintro ⟨first,rest⟩ later x earlier parts
    cases later with
    | nil =>
      obtain ⟨rfl,rfl⟩ := List.cons.inj parts
      exact first
    | cons y others => exact rest others x earlier (List.cons.inj parts).2

/-! ## What a trace does -/

section Played
universe w
variable {State : Type w}

/-- The state that a trace leads to, if each of its events can happen. -/
def play (does : Event → State → Option State) (s : State) : List Event → Option State
  | [] => some s
  | e :: earlier => (play does s earlier).bind (does e)

/-- The events since `before`. -/
def newer (before after : List Event) : List Event := after.take (after.length - before.length)

/-- The events of the trace since `before` lead from one state to another. -/
def Followed (does : Event → State → Option State) (before : List Event) (s : State) (trace : List Event) (t : State) : Prop :=
  ∃ new, trace = new ++ before ∧ play does s new = some t

theorem newer_append (new before : List Event) : newer before (new ++ before) = new := by
  rw [newer,List.length_append,Nat.add_sub_cancel,List.take_left]

variable {does : Event → State → Option State} {before : List Event} {s t r : State}

theorem play_append (later earlier : List Event) :
    play does s (later ++ earlier) = (play does s earlier).bind fun t => play does t later := by
  induction later with
  | nil => simp [play]
  | cons e later ih => simp [play,ih,Option.bind_assoc]

/-- Events that do nothing. -/
theorem play_idle (idle : ∀ e ∈ trace, ∀ s, does e s = some s) : play does s trace = some s := by
  induction trace with
  | nil => rfl
  | cons e earlier ih =>
    rw [play,ih fun d member => idle d (List.mem_cons_of_mem e member)]
    exact idle e List.mem_cons_self s

theorem followed_start : Followed does before s before s := ⟨[],rfl,rfl⟩

theorem followed_newer (followed : Followed does before s trace t) : play does s (newer before trace) = some t := by
  obtain ⟨new,rfl,run⟩ := followed
  rw [newer_append]
  exact run

theorem followed_cons (followed : Followed does before s trace t) (next : does e t = some r) :
    Followed does before s (e :: trace) r := by
  obtain ⟨new,rfl,run⟩ := followed
  exact ⟨e :: new,rfl,by rw [play,run]; exact next⟩

theorem followed_idle (followed : Followed does before s trace t) (idle : ∀ e ∈ new, ∀ s, does e s = some s) :
    Followed does before s (new ++ trace) t := by
  obtain ⟨earlier,rfl,run⟩ := followed
  refine ⟨new ++ earlier,(List.append_assoc ..).symm,?_⟩
  rw [play_append,run]
  exact play_idle idle

end Played

end AutoUpscale.Story
