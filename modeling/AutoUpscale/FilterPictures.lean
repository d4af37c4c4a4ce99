import AutoUpscale.FilterFrames
import AutoUpscale.Story

/-!
The pictures of a run. Every frame tells the whole story of its input and of its
output (`frame_input`, `frame_output`) and touches no other picture (`frame_quiet`),
so that the stories of all pictures are complete whenever no call is under way
(`frame_pictures`). An input ends in its release, an output in its release or in its
delivery, which a scaling that succeeded and no uncertain sharpening came before.
-/
namespace AutoUpscale.Filter
open AutoUpscale.Story

/-- Whether an event is about picture `h`. -/
def aboutPicture (h : Nat) : Event → Bool
  | .input p => decide (p = h)
  | .newPicture p => decide (p = h)
  | .release p => decide (p = h)
  | .deliver p => decide (p = h)
  | .sharpen p _ => decide (p = h)
  | .process _ _ src dst _ => decide (src = h ∨ dst = h)
  | .openBackend _ _ _ => false
  | .closeBackend _ _ => false

/-- The stories of a picture, its last event first. -/
inductive PictureLife (h : Nat) : List Event → Prop
  | dropped : PictureLife h [.release h,.input h]
  | used (b : Backend) (priv : Option Nat) (dst : Nat) (status : ProcessStatus) :
      PictureLife h [.release h,.process b priv h dst status,.input h]
  | failed (b : Backend) (priv : Option Nat) (src : Nat) (status : ProcessStatus) :
      PictureLife h [.release h,.process b priv src h status,.newPicture h]
  | spoiled (b : Backend) (priv : Option Nat) (src : Nat) :
      PictureLife h [.release h,.sharpen h .outputUncertain,.process b priv src h .ok,.newPicture h]
  | delivered (b : Backend) (priv : Option Nat) (src : Nat) (status : UsmStatus) (sharp : List Event)
      (sharpened : Sharpened h status sharp) (certain : status ≠ .outputUncertain) :
      PictureLife h (.deliver h :: sharp ++ [.process b priv src h .ok,.newPicture h])

variable {c d : Scaler} {h n m : Nat} {e : Event} {events trace : List Event} {result : Option Nat}

theorem swap_pictures (swapped : Swap c d events) : story aboutPicture h events = [] := by
  cases swapped with
  | kept => rfl
  | retired => rfl
  | swapped => rfl

theorem sharp_own {status : UsmStatus} (sharpened : Sharpened h status events) : story aboutPicture h events = events := by
  cases sharpened with
  | skipped => rfl
  | tried => simp [aboutPicture]

theorem sharp_other {status : UsmStatus} (sharpened : Sharpened n status events) (other : n ≠ h) :
    story aboutPicture h events = [] := by
  cases sharpened with
  | skipped => rfl
  | tried => simp [aboutPicture,other]

/-- A frame is about no pictures but its own. -/
theorem frame_quiet (frame : Frame c n d m events result) (noInput : n ≠ h) (noOutput : n + 1 ≠ h) :
    story aboutPicture h events = [] := by
  cases frame with
  | dropped => simp [aboutPicture,noInput]
  | failed b live status bad _ swap swapped fatal => simp [aboutPicture,noInput,noOutput,swap_pictures swapped]
  | spoiled b live => simp [aboutPicture,noInput,noOutput]
  | delivered b live status sharp sharpened certain =>
    simp [aboutPicture,noInput,noOutput,sharp_other sharpened noOutput]

theorem frame_input (frame : Frame c n d m events result) : PictureLife n (story aboutPicture n events) := by
  cases frame with
  | dropped =>
    simpa [aboutPicture] using PictureLife.dropped
  | failed b live status bad _ swap swapped fatal =>
    simpa [aboutPicture,swap_pictures swapped] using PictureLife.used b c.priv (n + 1) status
  | spoiled b live =>
    simpa [aboutPicture] using PictureLife.used b c.priv (n + 1) .ok
  | delivered b live status sharp sharpened certain =>
    simpa [aboutPicture,sharp_other sharpened (Nat.succ_ne_self n)] using PictureLife.used b c.priv (n + 1) .ok

theorem frame_output (frame : Frame c n d m events result) :
    m = n + 1 ∧ story aboutPicture (n + 1) events = [] ∨ m = n + 2 ∧ PictureLife (n + 1) (story aboutPicture (n + 1) events) := by
  cases frame with
  | dropped => exact .inl ⟨rfl,by simp [aboutPicture]⟩
  | failed b live status bad _ swap swapped fatal =>
    refine .inr ⟨rfl,?_⟩
    simpa [aboutPicture,swap_pictures swapped] using PictureLife.failed b c.priv n status
  | spoiled b live =>
    refine .inr ⟨rfl,?_⟩
    simpa [aboutPicture] using PictureLife.spoiled b c.priv n
  | delivered b live status sharp sharpened certain =>
    refine .inr ⟨rfl,?_⟩
    simpa [aboutPicture,sharp_own sharpened] using PictureLife.delivered b c.priv n status sharp sharpened certain

/-- The stories of all pictures are complete after a frame if they were before. -/
theorem frame_pictures (frame : Frame c n d m events result) (told : Told aboutPicture PictureLife n trace) :
    Told aboutPicture PictureLife m (events ++ trace) := by
  have quiet (h : Nat) (old : h < n) : story aboutPicture h events = [] := frame_quiet frame (by omega) (by omega)
  have output := frame_output frame
  refine told_new events told (by omega) quiet ?_ ?_
  · intro h new small
    by_cases own : n = h
    · subst own
      exact frame_input frame
    · obtain ⟨one,-⟩ | ⟨two,life⟩ := output
      · omega
      · obtain rfl : n + 1 = h := by omega
        exact life
  · intro h large
    by_cases own : n + 1 = h
    · subst own
      obtain ⟨-,silent⟩ | ⟨two,-⟩ := output
      · exact silent
      · omega
    · exact frame_quiet frame (by omega) own

/-! ## What the stories say -/

theorem picture_mem (about : aboutPicture h e = true) : e ∈ trace ↔ e ∈ story aboutPicture h trace := (mem_story about).symm

theorem picture_count (about : aboutPicture h e = true) : trace.count e = (story aboutPicture h trace).count e := count_story about

section
variable (told : Told aboutPicture PictureLife m trace)
include told

/-- An input arrives once, is released once and never delivered. -/
theorem input_settled (member : .input h ∈ trace) :
    trace.count (.input h) = 1 ∧ trace.count (.release h) = 1 ∧ .deliver h ∉ trace := by
  have life := life_of_mem (h := h) told (by simp [aboutPicture]) member
  rw [picture_mem (h := h) (by simp [aboutPicture])] at member
  rw [picture_count (h := h) (e := .input h) (by simp [aboutPicture]),
    picture_count (h := h) (e := .release h) (by simp [aboutPicture]),
    picture_mem (h := h) (e := .deliver h) (by simp [aboutPicture])]
  generalize story aboutPicture h trace = life at *
  cases life with
  | dropped => simp
  | used b priv dst status => simp
  | failed b priv src status => simp at member
  | spoiled b priv src => simp at member
  | delivered b priv src status sharp sharpened certain => cases sharpened <;> simp at member

/-- An output is allocated once, and either released once or delivered once. -/
theorem output_settled (member : .newPicture h ∈ trace) : trace.count (.newPicture h) = 1 ∧
    (trace.count (.release h) = 1 ∧ .deliver h ∉ trace ∨ .release h ∉ trace ∧ trace.count (.deliver h) = 1) := by
  have life := life_of_mem (h := h) told (by simp [aboutPicture]) member
  rw [picture_mem (h := h) (by simp [aboutPicture])] at member
  rw [picture_count (h := h) (e := .newPicture h) (by simp [aboutPicture]),
    picture_count (h := h) (e := .release h) (by simp [aboutPicture]),
    picture_count (h := h) (e := .deliver h) (by simp [aboutPicture]),
    picture_mem (h := h) (e := .deliver h) (by simp [aboutPicture]),
    picture_mem (h := h) (e := .release h) (by simp [aboutPicture])]
  generalize story aboutPicture h trace = life at *
  cases life with
  | dropped => simp at member
  | used b priv dst status => simp at member
  | failed b priv src status => simp
  | spoiled b priv src => simp
  | delivered b priv src status sharp sharpened certain => cases sharpened <;> simp

/-- What is delivered is an output that the backend scaled, and no sharpening left it
    uncertain. -/
theorem deliver_settled (member : .deliver h ∈ trace) : .newPicture h ∈ trace ∧
    (∃ b priv src, .process b priv src h .ok ∈ trace) ∧ (∀ b priv src status, .process b priv src h status ∈ trace → status = .ok) ∧
    .sharpen h .outputUncertain ∉ trace := by
  have life := life_of_mem (h := h) told (by simp [aboutPicture]) member
  have own (b : Backend) (priv : Option Nat) (src : Nat) (status : ProcessStatus) :
      .process b priv src h status ∈ trace ↔ .process b priv src h status ∈ story aboutPicture h trace :=
    picture_mem (by simp [aboutPicture])
  simp only [own]
  rw [picture_mem (h := h) (by simp [aboutPicture])] at member
  rw [picture_mem (h := h) (e := .newPicture h) (by simp [aboutPicture]),
    picture_mem (h := h) (e := .sharpen h .outputUncertain) (by simp [aboutPicture])]
  generalize story aboutPicture h trace = life at *
  cases life with
  | dropped => simp at member
  | used b priv dst status => simp at member
  | failed b priv src status => simp at member
  | spoiled b priv src => simp at member
  | delivered b priv src status sharp sharpened certain =>
    cases sharpened with
    | skipped => simp
    | tried => simpa using certain.symm

/-- Nothing is done with a picture after its release. -/
theorem quiet_after_release {later earlier : List Event} (parts : trace = later ++ .release h :: earlier) :
    ∀ e ∈ later, aboutPicture h e = false := by
  have about : aboutPicture h (.release h) = true := by simp [aboutPicture]
  have member : .release h ∈ trace := by simp [parts]
  have life := life_of_mem told about member
  rw [← mem_story about] at member
  generalize lived : story aboutPicture h trace = life at *
  cases life with
  | dropped => exact quiet_after lived (by simp) parts
  | used b priv dst status => exact quiet_after lived (by simp) parts
  | failed b priv src status => exact quiet_after lived (by simp) parts
  | spoiled b priv src => exact quiet_after lived (by simp) parts
  | delivered b priv src status sharp sharpened certain => cases sharpened <;> simp at member

end

end AutoUpscale.Filter
