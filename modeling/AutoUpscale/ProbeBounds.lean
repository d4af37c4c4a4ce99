import AutoUpscale.ContentProbe
import AutoUpscale.UpscaleLogic
import Mathlib.Tactic.Linarith

/-!
The sums of the content probe as numbers. The metrics of a frame are the sums of its
samples (`probeMetrics_samples`). What has been observed does not depend on the order
of the frames (`accumOf_perm`), and up to the greatest dimension the samples of a whole
window add up without a wrap (`accumOf_exact`).
-/
namespace AutoUpscale.ContentProbe
open AutoUpscale.Signed AutoUpscale.Sweeps
open AutoUpscale.UpscaleLogic (maxDim)

/-! ## The samples of a frame -/

/-- The squares of a row, each counted once. -/
def lapRowSamples (plane : Plane) (stride w h : Int) (y : Nat) : List Acc :=
  if gridStep ≤ y ∧ (y : Int) + 1 < h then (positions gridStep gridStep (w - 1)).map (lapSample plane stride y) else []

/-- The differences of a row to the left and to the row above, each counted once. -/
def edgeRowSamples (plane : Plane) (stride w h : Int) (y : Nat) : List Acc :=
  if w ≤ blockSize ∨ h ≤ blockSize then []
  else (positions blockSize blockSize w).map (acrossSample plane stride y) ++
    if blockSize ≤ y ∧ y % blockSize = 0 then (positions 0 gridStep w).map (downSample plane stride y) else []

/-- The samples of a frame, of which a stride that is too short leaves none. -/
def lapSamples (plane : Plane) (stride w h : Int) : List Acc :=
  if stride ≤ 0 ∨ stride < w then [] else (positions 0 gridStep h).flatMap (lapRowSamples plane stride w h)

def edgeSamples (plane : Plane) (stride w h : Int) : List Acc :=
  if stride ≤ 0 ∨ stride < w then [] else (positions 0 gridStep h).flatMap (edgeRowSamples plane stride w h)

variable {plane : Plane} {stride w h : Int}

theorem lapRowSamples_sum (plane : Plane) (stride w h : Int) (y : Nat) :
    (lapRowSamples plane stride w h y).sum = lapOf plane stride w h y := by
  rw [lapRowSamples,lapOf]
  split_ifs <;> rfl

theorem edgeRowSamples_sum (plane : Plane) (stride w h : Int) (y : Nat) :
    (edgeRowSamples plane stride w h y).sum = edgeOf plane stride w h y := by
  rw [edgeRowSamples,edgeOf]
  by_cases small : w ≤ blockSize ∨ h ≤ blockSize
  · rw [if_pos small,if_pos small]
    rfl
  · rw [if_neg small,if_neg small,List.sum_append,acrossOf,downOf]
    split_ifs <;> rfl

theorem flatMap_sum {α : Type} (l : List α) (samples : α → List Acc) :
    (l.flatMap samples).sum = (l.map fun a => (samples a).sum).sum := by
  rw [List.flatMap,List.sum_flatten,List.map_map]
  rfl

/-- The metrics of a frame are the sums of its samples. -/
theorem probeMetrics_samples (readable : Readable plane stride w h) (fits : 6 ≤ h → Fits .int (w - 1)) :
    probeMetrics (some plane) stride w h = some (.of (lapSamples plane stride w h).sum (edgeSamples plane stride w h).sum) := by
  by_cases short : stride ≤ 0 ∨ stride < w
  · rw [lapSamples,edgeSamples,if_pos short,if_pos short]
    simp only [probeMetrics]
    rw [if_pos short]
    rfl
  · rw [probeMetrics_eq readable short fits,lapSamples,edgeSamples,if_neg short,if_neg short,flatMap_sum,flatMap_sum]
    simp only [lapRowSamples_sum,edgeRowSamples_sum]

/-! ## How large they are -/

theorem read_range {place byte : Int} (found : read plane place = some byte) : 0 ≤ byte ∧ byte ≤ 255 := by
  obtain ⟨value,_,rfl⟩ := Option.map_eq_some_iff.mp found
  have small := value.toNat_lt
  omega

theorem square_le (lap : Int) (low : -1020 ≤ lap) (high : lap ≤ 1020) : lap * lap ≤ 1040400 := by
  nlinarith

theorem ofNat_toNat_le {n cap : Nat} (small : n ≤ cap) : (UInt64.ofNat n).toNat ≤ cap := by
  rw [UInt64.toNat_ofNat']
  exact le_trans (Nat.mod_le _ _) small

theorem lapSample_le (plane : Plane) (stride : Int) (y x : Nat) : (lapSample plane stride y x).1.toNat ≤ 1040400 := by
  simp only [lapSample]
  cases found : lapSquare plane (y * stride) (y * stride - stride) (y * stride + stride) x with
  | none => simp
  | some square =>
    obtain ⟨center,up,dn,left,right,readCenter,readUp,readDn,readLeft,readRight,rfl⟩ := lapSquare_reads found
    have centerRange := read_range readCenter
    have upRange := read_range readUp
    have dnRange := read_range readDn
    have leftRange := read_range readLeft
    have rightRange := read_range readRight
    have square := square_le (4 * center - (up + dn + left + right)) (by omega) (by omega)
    exact ofNat_toNat_le (by omega)

theorem magnitude_le (plane : Plane) (place other : Int) : ((magnitude plane place other).getD 0).toNat ≤ 255 := by
  cases found : magnitude plane place other with
  | none => simp
  | some difference =>
    obtain ⟨byte,neighbour,readByte,readNeighbour,rfl⟩ := magnitude_reads found
    have byteRange := read_range readByte
    have neighbourRange := read_range readNeighbour
    refine ofNat_toNat_le ?_
    split_ifs <;> omega

/-- A sample is counted once and is no more than the cap. -/
def Capped (cap : Nat) (sample : Acc) : Prop := sample.1.toNat ≤ cap ∧ sample.2 = 1

theorem lapSamples_capped : ∀ sample ∈ lapSamples plane stride w h, Capped 1040400 sample := by
  intro sample member
  rw [lapSamples] at member
  split_ifs at member
  · cases member
  obtain ⟨y,_,member⟩ := List.mem_flatMap.mp member
  rw [lapRowSamples] at member
  split_ifs at member
  · obtain ⟨x,_,rfl⟩ := List.mem_map.mp member
    exact ⟨lapSample_le plane stride y x,rfl⟩
  · cases member

theorem edgeSamples_capped : ∀ sample ∈ edgeSamples plane stride w h, Capped 255 sample := by
  intro sample member
  rw [edgeSamples] at member
  split_ifs at member
  · cases member
  obtain ⟨y,_,member⟩ := List.mem_flatMap.mp member
  rw [edgeRowSamples] at member
  split_ifs at member
  · cases member
  · obtain member | member := List.mem_append.mp member
    all_goals
      obtain ⟨x,_,rfl⟩ := List.mem_map.mp member
      exact ⟨magnitude_le plane _ _,rfl⟩
  · obtain ⟨x,_,rfl⟩ := List.mem_map.mp (by simpa using member)
    exact ⟨magnitude_le plane _ _,rfl⟩

/-! ## How many there are -/

theorem rows_le (short : h ≤ maxDim) : (positions 0 gridStep h).length ≤ 8192 := by
  simp only [maxDim] at short
  exact length_positions_le (by decide) (by simp only [gridStep]; omega)

theorem lapSamples_length (width : w ≤ maxDim) (height : h ≤ maxDim) : (lapSamples plane stride w h).length ≤ 8192 * 8192 := by
  rw [lapSamples]
  split_ifs
  · exact Nat.zero_le _
  rw [List.length_flatMap]
  refine sum_le_of_each (rows_le height) fun y _ => ?_
  rw [lapRowSamples]
  split_ifs
  · simp only [maxDim] at width
    rw [List.length_map]
    exact length_positions_le (by decide) (by simp only [gridStep]; omega)
  · exact Nat.zero_le _

theorem edgeSamples_length (width : w ≤ maxDim) (height : h ≤ maxDim) : (edgeSamples plane stride w h).length ≤ 8192 * 12288 := by
  rw [edgeSamples]
  split_ifs
  · exact Nat.zero_le _
  rw [List.length_flatMap]
  refine sum_le_of_each (rows_le height) fun y _ => ?_
  simp only [maxDim] at width
  have across : (positions blockSize blockSize w).length ≤ 4096 :=
    length_positions_le (by decide) (by simp only [blockSize]; omega)
  have down : (positions 0 gridStep w).length ≤ 8192 := length_positions_le (by decide) (by simp only [gridStep]; omega)
  rw [edgeRowSamples]
  split_ifs
  · exact Nat.zero_le _
  · rw [List.length_append,List.length_map,List.length_map]
    omega
  · rw [List.length_append,List.length_map,List.length_nil]
    omega

/-! ## The sums of a window -/

/-- The sum of samples as numbers. -/
def total (samples : List Acc) : Nat := (samples.map fun sample => sample.1.toNat).sum

/-- The sums are those of the samples as numbers. -/
structure Exact (a : ProbeAccum) (lap edge : List Acc) : Prop where
  lapSum : a.lapSum.toNat = total lap
  lapSamples : a.lapSamples.toNat = lap.length
  edgeSum : a.edgeSum.toNat = total edge
  edgeSamples : a.edgeSamples.toNat = edge.length

theorem sum_fst (samples : List Acc) : samples.sum.1 = (samples.map Prod.fst).sum :=
  map_list_sum (AddMonoidHom.fst UInt64 UInt64) samples

theorem sum_snd (samples : List Acc) : samples.sum.2 = (samples.map Prod.snd).sum :=
  map_list_sum (AddMonoidHom.snd UInt64 UInt64) samples

theorem acc_exact (cap : Nat) {samples : List Acc} {count : Nat} (few : samples.length ≤ count)
    (capped : ∀ sample ∈ samples, Capped cap sample) (some : 1 ≤ cap) (room : count * cap < UInt64.size) :
    samples.sum.1.toNat = total samples ∧ samples.sum.2.toNat = samples.length := by
  have sums : total samples ≤ count * cap := sum_le_of_each few fun sample member => (capped sample member).1
  have counted : samples.map Prod.snd = List.replicate samples.length 1 :=
    List.eq_replicate_iff.mpr ⟨List.length_map _,fun value member => by
      obtain ⟨sample,inside,rfl⟩ := List.mem_map.mp member
      exact (capped sample inside).2⟩
  have ones : ((List.replicate samples.length (1 : UInt64)).map UInt64.toNat).sum = samples.length := by simp
  have fewer : count ≤ count * cap := Nat.le_mul_of_pos_right count some
  constructor
  · rw [sum_fst,toNat_sum]
    · rw [List.map_map]
      rfl
    · rw [List.map_map]
      exact lt_of_le_of_lt sums room
  · rw [sum_snd,counted,toNat_sum]
    · exact ones
    · rw [ones]
      omega

/-- The luma plane of a frame, from the first pixel that is shown, and its pitch. -/
structure LumaView where
  bytes : Int → UInt8
  pitch : Int

def LumaView.shown (v : LumaView) : Plane := fun place => some (v.bytes place)

/-- `up_probe_metrics` of a luma plane. -/
def metricsOf (w h : Int) (v : LumaView) : Metrics := (probeMetrics (some v.shown) v.pitch w h).getD ⟨0,0,0,0⟩

theorem metricsOf_eq (fits : 6 ≤ h → Fits .int (w - 1)) (v : LumaView) :
    metricsOf w h v = .of (lapSamples v.shown v.pitch w h).sum (edgeSamples v.shown v.pitch w h).sum := by
  have readable : Readable v.shown v.pitch w h := fun _ _ _ _ _ _ => rfl
  rw [metricsOf,probeMetrics_samples readable fits]
  rfl

/-- What is accumulated of some metrics. -/
def accumOf (ms : List Metrics) : ProbeAccum :=
  ⟨ms.sum.lapSum,ms.sum.lapN,ms.sum.edgeSum,ms.sum.edgeN,ms.length⟩

theorem accumOf_snoc (ms : List Metrics) (m : Metrics) : accumOf (ms ++ [m]) = probeObserve (accumOf ms) m := by
  simp only [accumOf,List.sum_append,List.sum_singleton,List.length_append,List.length_singleton]
  rfl

theorem accumOf_perm {ms ms' : List Metrics} (same : ms.Perm ms') : accumOf ms = accumOf ms' := by
  rw [accumOf,accumOf,same.sum_eq,same.length_eq]

/-- The samples of a window add up without a wrap. -/
theorem accumOf_exact {frames : List LumaView} (few : frames.length ≤ 60) (positive : 1 ≤ w) (width : w ≤ maxDim)
    (height : h ≤ maxDim) :
    Exact (accumOf (frames.map (metricsOf w h))) (frames.flatMap fun v => lapSamples v.shown v.pitch w h)
      (frames.flatMap fun v => edgeSamples v.shown v.pitch w h) := by
  have fits : 6 ≤ h → Fits .int (w - 1) := by
    intro
    simp only [maxDim] at width
    exact fits_int.mpr (by omega)
  have sums : (frames.map (metricsOf w h)).sum = .of (frames.flatMap fun v => lapSamples v.shown v.pitch w h).sum
      (frames.flatMap fun v => edgeSamples v.shown v.pitch w h).sum := by
    rw [flatMap_sum,flatMap_sum,← metrics_of_sum]
    exact congrArg List.sum (List.map_congr_left fun v _ => metricsOf_eq fits v)
  have lapFew : (frames.flatMap fun v => lapSamples v.shown v.pitch w h).length ≤ 60 * (8192 * 8192) := by
    rw [List.length_flatMap]
    exact sum_le_of_each few fun v _ => lapSamples_length width height
  have edgeFew : (frames.flatMap fun v => edgeSamples v.shown v.pitch w h).length ≤ 60 * (8192 * 12288) := by
    rw [List.length_flatMap]
    exact sum_le_of_each few fun v _ => edgeSamples_length width height
  obtain ⟨lapSum,lapCount⟩ := acc_exact 1040400 lapFew
    (fun sample member => by
      obtain ⟨v,_,inside⟩ := List.mem_flatMap.mp member
      exact lapSamples_capped sample inside) (by decide) (by decide)
  obtain ⟨edgeSum,edgeCount⟩ := acc_exact 255 edgeFew
    (fun sample member => by
      obtain ⟨v,_,inside⟩ := List.mem_flatMap.mp member
      exact edgeSamples_capped sample inside) (by decide) (by decide)
  rw [accumOf,sums]
  exact ⟨lapSum,lapCount,edgeSum,edgeCount⟩

end AutoUpscale.ContentProbe
