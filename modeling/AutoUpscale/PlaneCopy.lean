import AutoUpscale.Accesses
import AutoUpscale.CopyPrograms
import AutoUpscale.Signed
import AutoUpscale.SizeType
import AutoUpscale.Usm

/-!
The copy of a plane with its accesses: `up_copy_plane` of `plane_utils.h`, in the types of
the code. Both of its paths are the copy of a band of rows wherever the platform can
address the planes (`copyPlane_band`), so what is read and written does not depend on
which one is taken (`copyPlane_exact`). What becomes of the memory is the copy of `Usm`
(`copyBand_copyPlane`), and so does the program that the workers of zimg run
(`copyPlane_program`).
-/
namespace AutoUpscale.PlaneCopy
open AutoUpscale.Accesses AutoUpscale.Rows AutoUpscale.SizeType
open AutoUpscale.Signed (Fits fits_int)
universe u
variable {κ : Type u} [DecidableEq κ] (z : SizeT)

/-- The loop of `up_copy_plane`, over `left` rows from row `r` on. -/
def copyRows (s : Accessed κ UInt8) (dst : Pointer κ) (dstStride : Int) (src : Pointer κ) (srcStride rowBytes : Int) :
    Nat → Nat → Accessed κ UInt8
  | 0, _ => s
  | left + 1, r =>
    copyRows (copyCells s (dst.plus (z.mul (z.ofInt r) (z.ofInt dstStride)))
      (src.plus (z.mul (z.ofInt r) (z.ofInt srcStride))) (z.ofInt rowBytes) 0) dst dstStride src srcStride rowBytes left (r + 1)

/-- `up_copy_plane`. -/
def copyPlane (s : Accessed κ UInt8) (dst : Pointer κ) (dstStride : Int) (src : Pointer κ) (srcStride rowBytes rows : Int) :
    Accessed κ UInt8 :=
  if rows ≤ 0 ∨ rowBytes ≤ 0 then s
  else if dstStride < rowBytes ∨ srcStride < rowBytes then s
  else if dstStride = srcStride ∧ rowBytes = srcStride then copyCells s dst src (z.mul (z.ofInt rows) (z.ofInt rowBytes)) 0
  else copyRows z s dst dstStride src srcStride rowBytes rows.toNat 0

/-- `up_usm__apply_identity`. -/
def applyIdentity (s : Accessed κ UInt8) (dst : Pointer κ) (dstStride : Int) (src : Pointer κ)
    (srcStride width height : Int) : Accessed κ UInt8 :=
  if dst = src ∧ dstStride = srcStride then s else copyPlane z s dst dstStride src srcStride width height

/-- The sizes with which something is copied. -/
def Sized (dstStride srcStride rowBytes rows : Int) : Prop :=
  0 < rows ∧ 0 < rowBytes ∧ rowBytes ≤ dstStride ∧ rowBytes ≤ srcStride

instance (dstStride srcStride rowBytes rows : Int) : Decidable (Sized dstStride srcStride rowBytes rows) :=
  inferInstanceAs (Decidable (_ ∧ _))

variable {z} {s : Accessed κ UInt8} {dst src : Pointer κ}

/-- The loop copies rows, where the last one can be addressed. -/
theorem copyRows_band {dstStride srcStride rowBytes last left r : Nat} (dstInt : dstStride ≤ 2147483647)
    (srcInt : srcStride ≤ 2147483647) (bytesInt : rowBytes ≤ 2147483647) (rowsInt : last ≤ 2147483647)
    (dstRoom : last * dstStride ≤ z.max) (srcRoom : last * srcStride ≤ z.max) (inside : r + left ≤ last + 1) :
    copyRows z s dst dstStride src srcStride rowBytes left r = copyBand s dst dstStride src srcStride rowBytes left r := by
  induction left generalizing s r with
  | zero => rfl
  | succ left ih =>
    have dstRow : r * dstStride ≤ z.max := le_trans (Nat.mul_le_mul_right _ (by omega)) dstRoom
    have srcRow : r * srcStride ≤ z.max := le_trans (Nat.mul_le_mul_right _ (by omega)) srcRoom
    rw [copyRows,copyBand,ofInt_natCast (show r ≤ 2147483647 by omega),ofInt_natCast dstInt,ofInt_natCast srcInt,
      ofInt_natCast bytesInt,mul_eq dstRow,mul_eq srcRow]
    exact ih (by omega)

variable {dstStride srcStride rowBytes rows : Int}

/-- Nothing is copied with other sizes. -/
theorem copyPlane_refused (refused : ¬ Sized dstStride srcStride rowBytes rows) :
    copyPlane z s dst dstStride src srcStride rowBytes rows = s := by
  unfold Sized at refused
  unfold copyPlane
  by_cases empty : rows ≤ 0 ∨ rowBytes ≤ 0
  · exact if_pos empty
  · rw [if_neg empty]
    exact if_pos (by omega)

/-- The bytes from the first row of a plane to the end of its last one are a size. -/
def Addressable (z : SizeT) (stride rowBytes rows : Int) : Prop := (rows - 1) * stride + rowBytes ≤ z.max

/-- With 64 bits every plane is addressable. -/
theorem size64_addressable {stride : Int} (strideInt : Fits .int stride) (bytesInt : Fits .int rowBytes)
    (rowsInt : Fits .int rows) (tall : 0 < rows) (wide : 0 < stride) : Addressable size64 stride rowBytes rows := by
  rw [fits_int] at strideInt bytesInt rowsInt
  have product : (rows - 1) * stride ≤ 2147483647 * 2147483647 :=
    Int.mul_le_mul (by omega) strideInt.2 (by omega) (by decide)
  calc (rows - 1) * stride + rowBytes ≤ 2147483647 * 2147483647 + 2147483647 := Int.add_le_add product bytesInt.2
    _ ≤ size64.max := by decide

section Addressable
variable (dstInt : Fits .int dstStride) (srcInt : Fits .int srcStride) (bytesInt : Fits .int rowBytes) (rowsInt : Fits .int rows)
  (dstRoom : Addressable z dstStride rowBytes rows) (srcRoom : Addressable z srcStride rowBytes rows)
  (sized : Sized dstStride srcStride rowBytes rows)
include dstInt srcInt bytesInt rowsInt dstRoom srcRoom sized

/-- Whichever path is taken, the rows are copied, as the loop does. -/
theorem copyPlane_band :
    copyPlane z s dst dstStride src srcStride rowBytes rows =
      copyBand s dst dstStride.toNat src srcStride.toNat rowBytes.toNat rows.toNat 0 ∧
    copyRows z s dst dstStride src srcStride rowBytes rows.toNat 0 =
      copyBand s dst dstStride.toNat src srcStride.toNat rowBytes.toNat rows.toNat 0 := by
  obtain ⟨tall,wide,dstWide,srcWide⟩ := sized
  rw [fits_int] at dstInt srcInt bytesInt rowsInt
  obtain ⟨d,rfl⟩ := Int.eq_ofNat_of_zero_le (show 0 ≤ dstStride by omega)
  obtain ⟨e,rfl⟩ := Int.eq_ofNat_of_zero_le (show 0 ≤ srcStride by omega)
  obtain ⟨w,rfl⟩ := Int.eq_ofNat_of_zero_le (show 0 ≤ rowBytes by omega)
  obtain ⟨last,isRows⟩ := Int.eq_ofNat_of_zero_le (show 0 ≤ rows - 1 by omega)
  obtain rfl : rows = (last + 1 : Nat) := by omega
  rw [Addressable,isRows] at dstRoom srcRoom
  have dstEnd : last * d + w ≤ z.max := by exact_mod_cast dstRoom
  have srcEnd : last * e + w ≤ z.max := by exact_mod_cast srcRoom
  simp only [Int.toNat_natCast]
  have loop : copyRows z s dst d src e w (last + 1) 0 = copyBand s dst d src e w (last + 1) 0 :=
    copyRows_band (by omega) (by omega) (by omega) (show last ≤ 2147483647 by omega) (by omega) (by omega) (by omega)
  refine ⟨?_,loop⟩
  rw [copyPlane,if_neg (by omega),if_neg (by omega)]
  by_cases flat : (d : Int) = e ∧ (w : Int) = e
  · obtain rfl : d = e := by omega
    obtain rfl : w = d := by omega
    have whole : (last + 1) * w ≤ z.max := by rwa [Nat.succ_mul]
    rw [if_pos flat,ofInt_natCast (show last + 1 ≤ 2147483647 by omega),ofInt_natCast (show w ≤ 2147483647 by omega),
      mul_eq whole,copyBand_flat,Nat.zero_mul]
  · rw [if_neg flat]
    exact loop

end Addressable

/-! ## The memory -/

theorem copyBand_memory {dstStride srcStride width left r : Nat} :
    (copyBand s dst dstStride src srcStride width left r).memory =
      Usm.copyRows s.memory dst dstStride src srcStride width left r := by
  induction left generalizing s r with
  | zero => rfl
  | succ left ih => rw [copyBand,ih,copyCells_memory,Usm.copyRows,copyRow]

/-- What becomes of the memory is the copy of planes whose sizes are natural numbers. -/
theorem copyBand_copyPlane (sized : Sized dstStride srcStride rowBytes rows) :
    (copyBand s dst dstStride.toNat src srcStride.toNat rowBytes.toNat rows.toNat 0).memory =
      Usm.copyPlane s.memory dst dstStride.toNat src srcStride.toNat rowBytes.toNat rows.toNat := by
  obtain ⟨tall,wide,dstWide,srcWide⟩ := sized
  rw [Usm.copyPlane,if_neg (by omega),if_neg (by omega)]
  by_cases flat : dstStride.toNat = srcStride.toNat ∧ rowBytes.toNat = srcStride.toNat
  · rw [if_pos flat,flat.1,flat.2,copyBand_flat,copyCells_memory,Nat.zero_mul,copyRow]
  · rw [if_neg flat,copyBand_memory]

/-- The program of a worker that copies a plane does the same, where it runs by itself. -/
theorem copyPlane_program (dst src : Pointer κ) (dstStride srcStride rowBytes rows : Int) (m : Memory κ UInt8) :
    ((CopyPrograms.copyPlane dst dstStride src srcStride rowBytes rows).exec m).2 =
      if Sized dstStride srcStride rowBytes rows
      then Usm.copyPlane m dst dstStride.toNat src srcStride.toNat rowBytes.toNat rows.toNat else m := by
  by_cases sized : Sized dstStride srcStride rowBytes rows
  · rw [if_pos sized]
    obtain ⟨tall,wide,dstWide,srcWide⟩ := sized
    obtain ⟨d,rfl⟩ := Int.eq_ofNat_of_zero_le (show 0 ≤ dstStride by omega)
    obtain ⟨e,rfl⟩ := Int.eq_ofNat_of_zero_le (show 0 ≤ srcStride by omega)
    obtain ⟨w,rfl⟩ := Int.eq_ofNat_of_zero_le (show 0 ≤ rowBytes by omega)
    obtain ⟨h,rfl⟩ := Int.eq_ofNat_of_zero_le (show 0 ≤ rows by omega)
    rw [CopyPrograms.copyPlane_exec]
    rfl
  · rw [if_neg sized,CopyPrograms.copyPlane]
    unfold Sized at sized
    by_cases empty : rows ≤ 0 ∨ rowBytes ≤ 0
    · rw [if_pos empty]
      rfl
    · rw [if_neg empty,if_pos (by omega)]
      rfl

/-- The rows of the source are copied to those of the destination: nothing else is
    written, and nothing else is read. -/
structure Copied (dst : Pointer κ) (dstStride : Int) (src : Pointer κ) (srcStride rowBytes rows : Int)
    (s t : Accessed κ UInt8) : Prop where
  values : ∀ r x : Nat, r < rows → x < rowBytes →
    t.memory (dst.plus (r * dstStride.toNat + x)) = s.memory (src.plus (r * srcStride.toNat + x))
  others : ∀ a, a ∉ Band dst dstStride.toNat rowBytes.toNat 0 rows.toNat → t.memory a = s.memory a
  reads : ∀ a, a ∈ t.reads ↔ a ∈ s.reads ∨ a ∈ Band src srcStride.toNat rowBytes.toNat 0 rows.toNat
  writes : ∀ a, a ∈ t.writes ↔ a ∈ s.writes ∨ a ∈ Band dst dstStride.toNat rowBytes.toNat 0 rows.toNat

section Apart
variable (apart : Disjoint (Band src srcStride.toNat rowBytes.toNat 0 rows.toNat)
  (Band dst dstStride.toNat rowBytes.toNat 0 rows.toNat))
include apart

theorem copyBand_copied (sized : Sized dstStride srcStride rowBytes rows) :
    Copied dst dstStride src srcStride rowBytes rows s
      (copyBand s dst dstStride.toNat src srcStride.toNat rowBytes.toNat rows.toNat 0) := by
  have memory := @copyBand_copyPlane κ _ s dst src dstStride srcStride rowBytes rows sized
  obtain ⟨tall,wide,dstWide,srcWide⟩ := sized
  have room : rowBytes.toNat ≤ dstStride.toNat ∧ rowBytes.toNat ≤ srcStride.toNat := by omega
  refine ⟨fun r x row column => ?_,fun a outside => ?_,fun a => ?_,fun a => ?_⟩
  · have copied := Usm.copyPlane_value (m := s.memory) room apart (show x < rowBytes.toNat by omega)
      (show r < rows.toNat by omega)
    rw [rowAt,rowAt,plus_plus,plus_plus] at copied
    rw [memory]
    exact copied
  · rw [copyBand_memory]
    refine Usm.copyRows_frame ?_
    rwa [Nat.zero_add]
  · rw [copyBand_accesses.1,Nat.zero_add]
  · rw [copyBand_accesses.2,Nat.zero_add]

/-- The identity copy leaves out only a copy of nothing. -/
theorem applyIdentity_copyPlane :
    applyIdentity z s dst dstStride src srcStride rowBytes rows = copyPlane z s dst dstStride src srcStride rowBytes rows := by
  rw [applyIdentity]
  by_cases same : dst = src ∧ dstStride = srcStride
  · obtain ⟨rfl,rfl⟩ := same
    rw [if_pos ⟨rfl,rfl⟩]
    -- a plane that does not meet itself is empty
    refine (copyPlane_refused fun sized => ?_).symm
    obtain ⟨tall,wide,_⟩ := sized
    have head : rowAt dst dstStride.toNat 0 ∈ Band dst dstStride.toNat rowBytes.toNat 0 rows.toNat :=
      row_band (le_refl 0) (by omega) (row_head (by omega))
    exact Set.disjoint_left.mp apart head head
  · exact if_neg same

end Apart

/-- Between planes that do not meet, and with sizes with which anything is copied, both
    paths do what the loop does, and that is to copy the rows. With other sizes nothing
    happens. The identity copy of the unsharp mask is this copy, and so is what a worker's
    program leaves that runs by itself. -/
theorem copyPlane_exact (s : Accessed κ UInt8) (dst src : Pointer κ) (dstInt : Fits .int dstStride)
    (srcInt : Fits .int srcStride) (bytesInt : Fits .int rowBytes) (rowsInt : Fits .int rows)
    (apart : Disjoint (Band src srcStride.toNat rowBytes.toNat 0 rows.toNat)
      (Band dst dstStride.toNat rowBytes.toNat 0 rows.toNat)) :
    (Sized dstStride srcStride rowBytes rows →
      copyPlane size64 s dst dstStride src srcStride rowBytes rows =
        copyRows size64 s dst dstStride src srcStride rowBytes rows.toNat 0 ∧
      Copied dst dstStride src srcStride rowBytes rows s
        (copyPlane size64 s dst dstStride src srcStride rowBytes rows)) ∧
    (¬ Sized dstStride srcStride rowBytes rows → copyPlane size64 s dst dstStride src srcStride rowBytes rows = s) ∧
    applyIdentity size64 s dst dstStride src srcStride rowBytes rows =
      copyPlane size64 s dst dstStride src srcStride rowBytes rows ∧
    ((CopyPrograms.copyPlane dst dstStride src srcStride rowBytes rows).exec s.memory).2 =
      (copyPlane size64 s dst dstStride src srcStride rowBytes rows).memory := by
  have banded : Sized dstStride srcStride rowBytes rows →
      copyPlane size64 s dst dstStride src srcStride rowBytes rows =
        copyBand s dst dstStride.toNat src srcStride.toNat rowBytes.toNat rows.toNat 0 ∧
      copyRows size64 s dst dstStride src srcStride rowBytes rows.toNat 0 =
        copyBand s dst dstStride.toNat src srcStride.toNat rowBytes.toNat rows.toNat 0 := by
    intro sized
    have dstRoom := size64_addressable dstInt bytesInt rowsInt sized.1 (lt_of_lt_of_le sized.2.1 sized.2.2.1)
    have srcRoom := size64_addressable srcInt bytesInt rowsInt sized.1 (lt_of_lt_of_le sized.2.1 sized.2.2.2)
    exact copyPlane_band dstInt srcInt bytesInt rowsInt dstRoom srcRoom sized
  refine ⟨fun sized => ?_,copyPlane_refused,applyIdentity_copyPlane apart,?_⟩
  · obtain ⟨band,loop⟩ := banded sized
    refine ⟨band.trans loop.symm,?_⟩
    rw [band]
    exact copyBand_copied apart sized
  · rw [copyPlane_program]
    by_cases sized : Sized dstStride srcStride rowBytes rows
    · rw [if_pos sized,(banded sized).1,copyBand_copyPlane sized]
    · rw [if_neg sized,copyPlane_refused sized]

/-- A source whose bytes count up, and a destination of zeros. -/
def ramp : Accessed Bool UInt8 := ⟨fun a => if a.block then 0 else a.offset.toUInt8,[],[]⟩

/-- Two rows of three bytes between planes with different strides: the last byte of the
    second row is copied, the byte after the first row stays. -/
theorem copyPlane_padded : (copyPlane size64 ramp ⟨true,0⟩ 4 ⟨false,0⟩ 5 3 2).memory ⟨true,6⟩ = 7 ∧
    (copyPlane size64 ramp ⟨true,0⟩ 4 ⟨false,0⟩ 5 3 2).memory ⟨true,3⟩ = 0 := by
  obtain ⟨copies,_⟩ := copyPlane_exact ramp ⟨true,0⟩ ⟨false,0⟩ (show Fits .int 4 by decide) (show Fits .int 5 by decide)
    (show Fits .int 3 by decide) (show Fits .int 2 by decide) (bands_block_apart (by decide))
  obtain ⟨_,copied⟩ := copies (by unfold Sized; decide)
  refine ⟨copied.values 1 2 (by decide) (by decide),copied.others ⟨true,3⟩ ?_⟩
  rintro ⟨y,_,below,_,low,high⟩
  obtain rfl | rfl : y = 0 ∨ y = 1 := by
    have few : y < 2 := below
    omega
  · exact absurd high (by decide)
  · exact absurd low (by decide)

end AutoUpscale.PlaneCopy
