import AutoUpscale.Signed
import AutoUpscale.UsmAdaptive

/-!
The deadline of a dispatch: `up__deadline_after_ms` of `pool_gate.h`. A normalised time
stands for an instant in nanoseconds (`ofInstant_eq`). The deadline stands for the one
that is the timeout later, and there is none exactly where the seconds of that instant
do not fit (`deadlineAfterMs_exact`); no other value on the way overflows.
-/
namespace AutoUpscale.Deadline
open AutoUpscale.Signed (Fits fits_int64 checked checked_eq checked_int64)
open AutoUpscale.UsmAdaptive (Timespec)

/-! ## Instants -/

/-- The nanoseconds are those of a part of a second. -/
def Normalised (t : Timespec) : Prop := 0 ≤ t.tvNsec ∧ t.tvNsec < 1000000000

/-- The instant of a time, in nanoseconds. -/
def instant (t : Timespec) : Int := t.tvSec * 1000000000 + t.tvNsec

/-- The normalised time of an instant. -/
def ofInstant (n : Int) : Timespec := ⟨n / 1000000000,n % 1000000000⟩

/-- A normalised time is that of its instant. -/
theorem ofInstant_eq {t : Timespec} {n : Int} (normalised : Normalised t) (same : instant t = n) : ofInstant n = t := by
  obtain ⟨sec,nsec⟩ := t
  obtain ⟨low,high⟩ := normalised
  dsimp only at low high
  simp only [instant] at same
  simp only [ofInstant,Timespec.mk.injEq]
  omega

/-- The time is the one that is `timeoutMs` milliseconds after `now`. -/
structure After (now : Timespec) (timeoutMs : Int) (t : Timespec) : Prop where
  normalised : Normalised t
  fits : Fits .int64 t.tvSec
  exactly : instant t = instant now + timeoutMs * 1000000

/-- The seconds of the instant that is `timeoutMs` milliseconds after `now`. -/
def secondsAfter (now : Timespec) (timeoutMs : Int) : Int := (ofInstant (instant now + timeoutMs * 1000000)).tvSec

theorem after_fits {now t : Timespec} {timeoutMs : Int} (after : After now timeoutMs t) :
    Fits .int64 (secondsAfter now timeoutMs) := by
  rw [secondsAfter,ofInstant_eq after.normalised after.exactly]
  exact after.fits

/-! ## The computation -/

/-- The error numbers that the function sets itself. -/
inductive Errno
  | einval
  | eoverflow
  deriving DecidableEq, Repr

/-- What the function returns and leaves. -/
structure Answer where
  value : Int
  errno : Option Errno
  deadline : Option Timespec

/-- `UP_NSEC_PER_SEC`. -/
def nsecPerSec : Int := 1000000000

/-- What 64 bits leave of a value. -/
def wrapped (x : Int) : Int := x.bmod 18446744073709551616

/-- `__builtin_add_overflow` on `time_t`: whether the sum does not fit, and what is stored. -/
def addOverflow (a b : Int) : Bool × Int := (decide ¬ Fits .int64 (a + b),wrapped (a + b))

/-- `up__deadline_after_ms`, with nothing where a signed value overflows. The clock is what
    `clock_gettime` stores, or nothing where it fails; then the errno is its own. -/
def deadlineAfterMs (deadline : Option Timespec) (timeoutMs : Int) (clock : Option Timespec) : Option Answer :=
  if deadline.isNone ∨ timeoutMs < 0 then some ⟨-1,some .einval,deadline⟩
  else
    match clock with
    | none => some ⟨-1,none,deadline⟩
    | some now => do
      let seconds ← checked .int64 (timeoutMs.tdiv 1000)
      let delta := wrapped seconds
      if wrapped delta ≠ seconds then some ⟨-1,some .eoverflow,some now⟩
      else
        let (overflow,sec) := addOverflow now.tvSec delta
        if overflow then some ⟨-1,some .eoverflow,some ⟨sec,now.tvNsec⟩⟩
        else do
          let nanos ← checked .int64 (timeoutMs.tmod 1000 * 1000000)
          let nsec ← checked .int64 (now.tvNsec + nanos)
          if nsec < nsecPerSec then some ⟨0,none,some ⟨sec,nsec⟩⟩
          else do
            let nsec ← checked .int64 (nsec - nsecPerSec)
            let (overflow,sec) := addOverflow sec 1
            if overflow then some ⟨-1,some .eoverflow,some ⟨sec,nsec⟩⟩ else some ⟨0,none,some ⟨sec,nsec⟩⟩

theorem wrapped_eq {x : Int} (fits : Fits .int64 x) : wrapped x = x := by
  rw [fits_int64] at fits
  exact Int.bmod_eq_of_le (by omega) (by omega)

/-- A sum is stored exactly or reported. -/
theorem addOverflow_eq (a b : Int) : (Fits .int64 (a + b) ∧ addOverflow a b = (false,a + b)) ∨
    (¬ Fits .int64 (a + b) ∧ (addOverflow a b).1 = true) := by
  by_cases fits : Fits .int64 (a + b)
  · refine Or.inl ⟨fits,?_⟩
    rw [addOverflow,wrapped_eq fits,decide_eq_false (not_not.mpr fits)]
  · exact Or.inr ⟨fits,decide_eq_true fits⟩

/-- The deadline is the time that is the timeout after the current one, or there is none
    because its seconds do not fit. -/
theorem deadlineAfterMs_exact (deadline : Timespec) {now : Timespec} {timeoutMs : Int} (normalised : Normalised now)
    (seconds : Fits .int64 now.tvSec) (nonneg : 0 ≤ timeoutMs) (long : Fits .int64 timeoutMs) :
    ∃ answer, deadlineAfterMs (some deadline) timeoutMs (some now) = some answer ∧
      ((Fits .int64 (secondsAfter now timeoutMs) ∧ ∃ t, answer = ⟨0,none,some t⟩ ∧ After now timeoutMs t) ∨
        (¬ Fits .int64 (secondsAfter now timeoutMs) ∧ answer.value = -1 ∧ answer.errno = some .eoverflow)) := by
  obtain ⟨sec,nsec⟩ := now
  obtain ⟨low,high⟩ := normalised
  rw [fits_int64] at long
  dsimp only at low high seconds
  have whole : Fits .int64 (timeoutMs / 1000) := fits_int64.mpr (by omega)
  have nanos : checked .int64 (timeoutMs % 1000 * 1000000) = some (timeoutMs % 1000 * 1000000) :=
    checked_int64 (by omega) (by omega)
  have sum : checked .int64 (nsec + timeoutMs % 1000 * 1000000) = some (nsec + timeoutMs % 1000 * 1000000) :=
    checked_int64 (by omega) (by omega)
  have rest : checked .int64 (nsec + timeoutMs % 1000 * 1000000 - 1000000000) =
      some (nsec + timeoutMs % 1000 * 1000000 - 1000000000) := checked_int64 (by omega) (by omega)
  have success : ∀ {t : Timespec}, After ⟨sec,nsec⟩ timeoutMs t → Fits .int64 (secondsAfter ⟨sec,nsec⟩ timeoutMs) ∧
      ∃ u, (⟨0,none,some t⟩ : Answer) = ⟨0,none,some u⟩ ∧ After ⟨sec,nsec⟩ timeoutMs u :=
    fun after => ⟨after_fits after,_,rfl,after⟩
  simp only [deadlineAfterMs,Option.isNone_some,Bool.false_eq_true,false_or,if_neg (not_lt.mpr nonneg),
    Int.tdiv_eq_ediv_of_nonneg nonneg,Int.tmod_eq_emod_of_nonneg nonneg,checked_eq whole,wrapped_eq whole,ne_eq,not_true,if_false,
    Option.bind_eq_bind,Option.bind_some,nanos,sum,rest,nsecPerSec]
  rcases addOverflow_eq sec (timeoutMs / 1000) with ⟨fits,stored⟩ | ⟨exceeds,flag⟩
  · rw [stored]
    simp only [Bool.false_eq_true,if_false]
    by_cases carry : nsec + timeoutMs % 1000 * 1000000 < 1000000000
    · rw [if_pos carry]
      refine ⟨_,rfl,Or.inl (success ⟨⟨?_,carry⟩,fits,?_⟩)⟩
      · dsimp only
        omega
      · simp only [instant]
        omega
    · rw [if_neg carry]
      -- the seconds fit without the carry, and may not fit with it
      rcases addOverflow_eq (sec + timeoutMs / 1000) 1 with ⟨fits',stored'⟩ | ⟨exceeds',flag'⟩
      · rw [stored']
        refine ⟨_,rfl,Or.inl (success ⟨⟨?_,?_⟩,fits',?_⟩)⟩
        · dsimp only
          omega
        · dsimp only
          omega
        · simp only [instant]
          omega
      · rw [if_pos flag']
        refine ⟨_,rfl,Or.inr ⟨fun exactly => exceeds' ?_,rfl,rfl⟩⟩
        simp only [secondsAfter,ofInstant,instant] at exactly
        rw [fits_int64] at exactly ⊢
        omega
  · rw [if_pos flag]
    refine ⟨_,rfl,Or.inr ⟨fun exactly => exceeds ?_,rfl,rfl⟩⟩
    simp only [secondsAfter,ofInstant,instant] at exactly
    rw [fits_int64] at exactly ⊢ seconds
    omega

/-- A second and a half after the last second that fits, there is no deadline. -/
theorem deadlineAfterMs_last : ∃ answer,
    deadlineAfterMs (some ⟨0,0⟩) 1500 (some ⟨9223372036854775806,500000000⟩) = some answer ∧ answer.value = -1 := by
  obtain ⟨answer,run,⟨fits,_⟩ | ⟨_,failure,_⟩⟩ := deadlineAfterMs_exact ⟨0,0⟩ (show Normalised ⟨9223372036854775806,500000000⟩ by
    constructor <;> decide) (by decide) (show (0 : Int) ≤ 1500 by decide) (by decide)
  · exact absurd fits (by decide)
  · exact ⟨answer,run,failure⟩

end AutoUpscale.Deadline
