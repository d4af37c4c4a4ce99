import AutoUpscale.Signed
import AutoUpscale.Sweeps
import Mathlib.Data.UInt
import Mathlib.Tactic.Ring

/-!
The content probe: its metrics and its verdicts of `content_probe.h`, and the two sweeps
that its tests take as their reference: `content_probe_reference.h`. A byte is found by its distance
from the start of the plane; a byte that must not be read is none, and what has read it
has no result. The sums are unsigned and may wrap. Up to the greatest dimension no
loop variable comes near the end of its type, but the width less one does at the least
width. One sweep over the rows has the sums of both references exactly where that is not
computed (`probe_metrics_eq`).
-/
namespace AutoUpscale.ContentProbe
open AutoUpscale.Signed AutoUpscale.Sweeps

/-- The bytes of a plane. -/
abbrev Plane := Int → Option UInt8

/-- `UP_PROBE_GRID_STEP`. -/
def gridStep : Nat := 4

/-- `UP_PROBE_BLOCK_SIZE`. -/
def blockSize : Nat := 8

/-- `up_probe_metrics_t`. -/
@[ext] structure Metrics where
  lapSum : UInt64
  lapN : UInt64
  edgeSum : UInt64
  edgeN : UInt64
  deriving DecidableEq, Repr

/-- A byte as an `int`. -/
def read (plane : Plane) (place : Int) : Option Int := (plane place).map fun byte => (byte.toNat : Int)

/-- The square of `lap` at a column of three rows. -/
def lapSquare (plane : Plane) (row rowUp rowDn x : Int) : Option UInt64 := do
  let center ← read plane (row + x)
  let up ← read plane (rowUp + x)
  let dn ← read plane (rowDn + x)
  let left ← read plane (row + (x - 1))
  let right ← read plane (row + (x + 1))
  let lap := 4 * center - (up + dn + left + right)
  return UInt64.ofNat (lap * lap).toNat

/-- The magnitude of `diff` between two bytes. -/
def magnitude (plane : Plane) (place other : Int) : Option UInt64 := do
  let byte ← read plane place
  let neighbour ← read plane other
  let diff := byte - neighbour
  return UInt64.ofNat (if diff < 0 then -diff else diff).toNat

/-- `up_probe__lap_row`, which has no result where `w - 1` overflows. -/
def lapRow (plane : Plane) (stride w h : Int) (y : Nat) (m : Metrics) : Option Metrics :=
  if y < gridStep ∨ (y : Int) + 1 ≥ h then some m
  else do
    let row := y * stride
    let stop ← checked .int (w - 1)
    (positions gridStep gridStep stop).foldlM (fun m (x : Nat) => do
      let lap ← lapSquare plane row (row - stride) (row + stride) x
      return { m with lapSum := m.lapSum + lap, lapN := m.lapN + 1 }) m

/-- `up_probe__edge_rows`. -/
def edgeRows (plane : Plane) (stride w h : Int) (y : Nat) (m : Metrics) : Option Metrics :=
  if w ≤ blockSize ∨ h ≤ blockSize then some m
  else do
    let row := y * stride
    let m ← (positions blockSize blockSize w).foldlM (fun m (x : Nat) => do
      let diff ← magnitude plane (row + x) (row + (x - 1))
      return { m with edgeSum := m.edgeSum + diff, edgeN := m.edgeN + 1 }) m
    if y < blockSize ∨ y % blockSize ≠ 0 then return m
    let rowUp := row - stride
    (positions 0 gridStep w).foldlM (fun m (x : Nat) => do
      let diff ← magnitude plane (row + x) (rowUp + x)
      return { m with edgeSum := m.edgeSum + diff, edgeN := m.edgeN + 1 }) m

/-- `up_probe_metrics`. -/
def probeMetrics (plane : Option Plane) (stride w h : Int) : Option Metrics :=
  match plane with
  | none => some ⟨0,0,0,0⟩
  | some plane =>
    if stride ≤ 0 ∨ stride < w then some ⟨0,0,0,0⟩
    else (positions 0 gridStep h).foldlM (fun m (y : Nat) => do
      let m ← lapRow plane stride w h y m
      edgeRows plane stride w h y m) ⟨0,0,0,0⟩

/-! ## The verdicts -/

/-- `up_probe_accum_t`. -/
structure ProbeAccum where
  lapSum : UInt64
  lapSamples : UInt64
  edgeSum : UInt64
  edgeSamples : UInt64
  frames : Int
  deriving DecidableEq, Repr

/-- `up_probe_observe` of the metrics of a frame. -/
def probeObserve (a : ProbeAccum) (m : Metrics) : ProbeAccum :=
  ⟨a.lapSum + m.lapSum,a.lapSamples + m.lapN,a.edgeSum + m.edgeSum,a.edgeSamples + m.edgeN,a.frames + 1⟩

/-- A mean, of some samples. -/
def mean (sum n : UInt64) (_some : n ≠ 0) : UInt64 := sum / n

/-- `UP_PROBE_THRESH_SOFT_LAP_MEAN` and `UP_PROBE_THRESH_BLOCKY_EDGE_MEAN`. -/
def threshSoftLapMean : UInt64 := 400
def threshBlockyEdgeMean : UInt64 := 6

/-- `UP_PROBE_MIN_FRAMES`, `UP_PROBE_MIN_SAMPLES_PER_KIND` and `UP_PROBE_WINDOW_FRAMES`. -/
def probeMinFrames : Int := 10
def probeMinSamplesPerKind : UInt64 := 20000
def probeWindowFrames : Int := 60

/-- `up_should_skip_usm_for_sharpness`. -/
def shouldSkipUsmForSharpness (a : ProbeAccum) (threshold : Int) : Bool :=
  if threshold ≤ 0 then false
  else if none : a.lapSamples = 0 then false
  else decide (((mean a.lapSum a.lapSamples none).toNat : Int) > threshold)

theorem samples_of_many {n : UInt64} (many : ¬ n < probeMinSamplesPerKind) : n ≠ 0 := by
  rintro rfl
  exact many (by decide)

/-- `up_should_bypass_for_content`. -/
def shouldBypassForContent (a : ProbeAccum) : Bool :=
  if a.frames < probeMinFrames then false
  else if lap : a.lapSamples < probeMinSamplesPerKind then false
  else if edge : a.edgeSamples < probeMinSamplesPerKind then false
  else
    let lapMean := mean a.lapSum a.lapSamples (samples_of_many lap)
    let edgeMean := mean a.edgeSum a.edgeSamples (samples_of_many edge)
    let verySoft := decide (lapMean < threshSoftLapMean)
    let veryBlocky := decide (edgeMean > threshBlockyEdgeMean)
    verySoft && veryBlocky

/-- Sharpening is skipped for a mean of some samples only. -/
theorem samples_of_skip {a : ProbeAccum} {threshold : Int} (skip : shouldSkipUsmForSharpness a threshold = true) :
    a.lapSamples ≠ 0 := by
  intro none
  simp [shouldSkipUsmForSharpness,none] at skip

/-! ## The references -/

/-- A sum and its number of samples, as in `up_edge_acc_t`. -/
abbrev Acc := UInt64 × UInt64

/-- `up_laplacian_variance` with its number of samples. -/
def laplacianVariance (plane : Option Plane) (stride w h : Int) : Option Acc :=
  match plane with
  | none => some (0,0)
  | some plane =>
    if stride ≤ 0 ∨ stride < w ∨ w ≤ 2 ∨ h ≤ 2 then some (0,0)
    else do
      let bottom ← checked .int (h - 1)
      (positions gridStep gridStep bottom).foldlM (fun acc (y : Nat) => do
        let row := y * stride
        let rowUp := row - stride
        let rowDn := row + stride
        let stop ← checked .int (w - 1)
        (positions gridStep gridStep stop).foldlM (fun acc (x : Nat) => do
          let center ← read plane (row + x)
          let up ← read plane (rowUp + x)
          let dn ← read plane (rowDn + x)
          let left ← read plane (row + (x - 1))
          let right ← read plane (row + (x + 1))
          let lap := 4 * center - (up + dn + left + right)
          return (acc.1 + UInt64.ofNat (lap * lap).toNat,acc.2 + 1)) acc) (0,0)

/-- `up_block_edge_vertical`. -/
def blockEdgeVertical (plane : Plane) (stride w h : Int) (b step : Nat) (acc : Acc) : Option Acc :=
  (positions 0 step h).foldlM (fun acc (y : Nat) =>
    let row := y * stride
    (positions b b w).foldlM (fun acc (x : Nat) => do
      let byte ← read plane (row + x)
      let left ← read plane (row + (x - 1))
      let diff := byte - left
      let diff := if diff < 0 then -diff else diff
      return (acc.1 + UInt64.ofNat diff.toNat,acc.2 + 1)) acc) acc

/-- `up_block_edge_horizontal`. -/
def blockEdgeHorizontal (plane : Plane) (stride w h : Int) (b step : Nat) (acc : Acc) : Option Acc :=
  (positions b b h).foldlM (fun acc (y : Nat) =>
    let row := y * stride
    let rowUp := row - stride
    (positions 0 step w).foldlM (fun acc (x : Nat) => do
      let byte ← read plane (row + x)
      let above ← read plane (rowUp + x)
      let diff := byte - above
      let diff := if diff < 0 then -diff else diff
      return (acc.1 + UInt64.ofNat diff.toNat,acc.2 + 1)) acc) acc

/-- `up_block_edge_strength` with its number of samples. -/
def blockEdgeStrength (plane : Option Plane) (stride w h : Int) : Option Acc :=
  match plane with
  | none => some (0,0)
  | some plane =>
    if stride ≤ 0 ∨ stride < w ∨ w ≤ blockSize ∨ h ≤ blockSize then some (0,0)
    else do
      let acc ← blockEdgeVertical plane stride w h blockSize gridStep (0,0)
      blockEdgeHorizontal plane stride w h blockSize gridStep acc

/-! ## The samples -/

instance : Zero Metrics := ⟨⟨0,0,0,0⟩⟩

instance : Add Metrics := ⟨fun a b => ⟨a.lapSum + b.lapSum,a.lapN + b.lapN,a.edgeSum + b.edgeSum,a.edgeN + b.edgeN⟩⟩

instance : AddCommMonoid Metrics where
  add_assoc a b c := by ext <;> exact congrArg _ (add_assoc _ _ _)
  zero_add a := by ext <;> exact congrArg _ (zero_add _)
  add_zero a := by ext <;> exact congrArg _ (add_zero _)
  add_comm a b := by ext <;> exact congrArg _ (add_comm _ _)
  nsmul := nsmulRec

/-- The metrics of a sum of each kind. -/
def Metrics.of (lap edge : Acc) : Metrics := ⟨lap.1,lap.2,edge.1,edge.2⟩

theorem metrics_of_add (lap lap' edge edge' : Acc) : Metrics.of lap edge + .of lap' edge' = .of (lap + lap') (edge + edge') := rfl

theorem metrics_of_sum {α : Type} (l : List α) (lap edge : α → Acc) :
    (l.map fun a => Metrics.of (lap a) (edge a)).sum = .of (l.map lap).sum (l.map edge).sum := by
  induction l with
  | nil => rfl
  | cons a l ih => simp only [List.map_cons,List.sum_cons,ih,metrics_of_add]

theorem add_lap (m : Metrics) (lap : UInt64) :
    { m with lapSum := m.lapSum + lap, lapN := m.lapN + 1 } = m + .of (lap,1) 0 :=
  Metrics.ext rfl rfl (add_zero m.edgeSum).symm (add_zero m.edgeN).symm

theorem add_edge (m : Metrics) (diff : UInt64) :
    { m with edgeSum := m.edgeSum + diff, edgeN := m.edgeN + 1 } = m + .of 0 (diff,1) :=
  Metrics.ext (add_zero m.lapSum).symm (add_zero m.lapN).symm rfl rfl

variable {plane : Plane} {stride w h : Int}

/-- The bytes of the first columns of the first rows can be read. -/
def Readable (plane : Plane) (stride w h : Int) : Prop :=
  ∀ y x : Int, 0 ≤ y → y < h → 0 ≤ x → x < w → (plane (y * stride + x)).isSome

theorem read_some (readable : Readable plane stride w h) {place : Int} (y x : Int) (row : 0 ≤ y ∧ y < h) (column : 0 ≤ x ∧ x < w)
    (found : place = y * stride + x) : ∃ byte, read plane place = some byte := by
  obtain ⟨byte,held⟩ := Option.isSome_iff_exists.mp (readable y x row.1 row.2 column.1 column.2)
  exact ⟨byte.toNat,by rw [found,read,held]; rfl⟩

/-- The square at a column of a row, counted once. -/
def lapSample (plane : Plane) (stride : Int) (y x : Nat) : Acc :=
  ((lapSquare plane (y * stride) (y * stride - stride) (y * stride + stride) x).getD 0,1)

def acrossSample (plane : Plane) (stride : Int) (y x : Nat) : Acc :=
  ((magnitude plane (y * stride + x) (y * stride + (x - 1))).getD 0,1)

def downSample (plane : Plane) (stride : Int) (y x : Nat) : Acc :=
  ((magnitude plane (y * stride + x) (y * stride - stride + x)).getD 0,1)

/-- What a square is computed from. -/
theorem lapSquare_reads {row rowUp rowDn x : Int} {square : UInt64} (found : lapSquare plane row rowUp rowDn x = some square) :
    ∃ center up dn left right, read plane (row + x) = some center ∧ read plane (rowUp + x) = some up ∧
      read plane (rowDn + x) = some dn ∧ read plane (row + (x - 1)) = some left ∧ read plane (row + (x + 1)) = some right ∧
      square = UInt64.ofNat ((4 * center - (up + dn + left + right)) * (4 * center - (up + dn + left + right))).toNat := by
  simp only [lapSquare,Option.bind_eq_bind,Option.bind_eq_some_iff] at found
  obtain ⟨center,readCenter,up,readUp,dn,readDn,left,readLeft,right,readRight,same⟩ := found
  exact ⟨center,up,dn,left,right,readCenter,readUp,readDn,readLeft,readRight,(Option.some.inj same).symm⟩

theorem magnitude_reads {place other : Int} {diff : UInt64} (found : magnitude plane place other = some diff) :
    ∃ byte neighbour, read plane place = some byte ∧ read plane other = some neighbour ∧
      diff = UInt64.ofNat (if byte - neighbour < 0 then -(byte - neighbour) else byte - neighbour).toNat := by
  simp only [magnitude,Option.bind_eq_bind,Option.bind_eq_some_iff] at found
  obtain ⟨byte,readByte,neighbour,readNeighbour,same⟩ := found
  exact ⟨byte,neighbour,readByte,readNeighbour,(Option.some.inj same).symm⟩

/-- A square needs a row and a column on each side. -/
theorem lapSquare_some (readable : Readable plane stride w h) {y x : Nat} (row : 1 ≤ y ∧ (y : Int) + 1 < h)
    (column : 1 ≤ x ∧ (x : Int) + 1 < w) :
    lapSquare plane (y * stride) (y * stride - stride) (y * stride + stride) x = some (lapSample plane stride y x).1 := by
  obtain ⟨center,readCenter⟩ : ∃ byte, read plane (y * stride + x) = some byte :=
    read_some readable y x (by omega) (by omega) rfl
  obtain ⟨up,readUp⟩ : ∃ byte, read plane (y * stride - stride + x) = some byte :=
    read_some readable (y - 1) x (by omega) (by omega) (by ring)
  obtain ⟨dn,readDn⟩ : ∃ byte, read plane (y * stride + stride + x) = some byte :=
    read_some readable (y + 1) x (by omega) (by omega) (by ring)
  obtain ⟨left,readLeft⟩ : ∃ byte, read plane (y * stride + (x - 1)) = some byte :=
    read_some readable y (x - 1) (by omega) (by omega) rfl
  obtain ⟨right,readRight⟩ : ∃ byte, read plane (y * stride + (x + 1)) = some byte :=
    read_some readable y (x + 1) (by omega) (by omega) rfl
  simp [lapSample,lapSquare,readCenter,readUp,readDn,readLeft,readRight]

theorem across_some (readable : Readable plane stride w h) {y x : Nat} (row : (y : Int) < h) (column : 1 ≤ x ∧ (x : Int) < w) :
    magnitude plane (y * stride + x) (y * stride + (x - 1)) = some (acrossSample plane stride y x).1 := by
  obtain ⟨byte,readByte⟩ : ∃ byte, read plane (y * stride + x) = some byte :=
    read_some readable y x (by omega) (by omega) rfl
  obtain ⟨left,readLeft⟩ : ∃ byte, read plane (y * stride + (x - 1)) = some byte :=
    read_some readable y (x - 1) (by omega) (by omega) rfl
  simp [acrossSample,magnitude,readByte,readLeft]

theorem down_some (readable : Readable plane stride w h) {y x : Nat} (row : 1 ≤ y ∧ (y : Int) < h) (column : (x : Int) < w) :
    magnitude plane (y * stride + x) (y * stride - stride + x) = some (downSample plane stride y x).1 := by
  obtain ⟨byte,readByte⟩ : ∃ byte, read plane (y * stride + x) = some byte :=
    read_some readable y x (by omega) (by omega) rfl
  obtain ⟨up,readUp⟩ : ∃ byte, read plane (y * stride - stride + x) = some byte :=
    read_some readable (y - 1) x (by omega) (by omega) (by ring)
  simp [downSample,magnitude,readByte,readUp]

/-! ## Rows -/

/-- The squares of the sampled columns of a row, if the row is sampled. -/
def lapOf (plane : Plane) (stride w h : Int) (y : Nat) : Acc :=
  if gridStep ≤ y ∧ (y : Int) + 1 < h then ((positions gridStep gridStep (w - 1)).map (lapSample plane stride y)).sum else 0

def acrossOf (plane : Plane) (stride w : Int) (y : Nat) : Acc :=
  ((positions blockSize blockSize w).map (acrossSample plane stride y)).sum

/-- The differences to the row above, if a block starts at the row. -/
def downOf (plane : Plane) (stride w : Int) (y : Nat) : Acc :=
  if blockSize ≤ y ∧ y % blockSize = 0 then ((positions 0 gridStep w).map (downSample plane stride y)).sum else 0

def edgeOf (plane : Plane) (stride w h : Int) (y : Nat) : Acc :=
  if w ≤ blockSize ∨ h ≤ blockSize then 0 else acrossOf plane stride w y + downOf plane stride w y

theorem grid_column {x : Nat} {stop : Int} (sampled : x ∈ positions gridStep gridStep stop) : 1 ≤ x ∧ (x : Int) < stop := by
  obtain ⟨low,high,_⟩ := (mem_positions (by decide)).mp sampled
  exact ⟨le_trans (by decide) low,high⟩

theorem block_column {x : Nat} {stop : Int} (sampled : x ∈ positions blockSize blockSize stop) : 1 ≤ x ∧ (x : Int) < stop := by
  obtain ⟨low,high,_⟩ := (mem_positions (by decide)).mp sampled
  exact ⟨le_trans (by decide) low,high⟩

theorem lapRow_eq (readable : Readable plane stride w h) (fits : 6 ≤ h → Fits .int (w - 1)) (y : Nat) (m : Metrics) :
    lapRow plane stride w h y m = some (m + .of (lapOf plane stride w h y) 0) := by
  by_cases outside : y < gridStep ∨ (y : Int) + 1 ≥ h
  · have skipped : ¬(gridStep ≤ y ∧ (y : Int) + 1 < h) := by omega
    rw [lapRow,if_pos outside,lapOf,if_neg skipped]
    exact congrArg some (add_zero m).symm
  have inside : gridStep ≤ y ∧ (y : Int) + 1 < h := by omega
  have high : 6 ≤ h := by
    simp only [gridStep] at inside
    omega
  rw [lapRow,if_neg outside,lapOf,if_pos inside]
  simp only [checked_eq (fits high),Option.bind_eq_bind,Option.bind_some]
  have row : 1 ≤ y ∧ (y : Int) + 1 < h := ⟨le_trans (by decide) inside.1,inside.2⟩
  refine (foldlM_sum (fun x => Metrics.of (lapSample plane stride y x) 0) (fun x sampled m => ?_) m).trans ?_
  · obtain ⟨low,high⟩ := grid_column sampled
    rw [lapSquare_some readable row ⟨low,by omega⟩,Option.bind_some,add_lap]
    rfl
  · rw [metrics_of_sum]
    simp

theorem edgeRows_eq (readable : Readable plane stride w h) {y : Nat} (row : (y : Int) < h) (m : Metrics) :
    edgeRows plane stride w h y m = some (m + .of 0 (edgeOf plane stride w h y)) := by
  by_cases small : w ≤ blockSize ∨ h ≤ blockSize
  · rw [edgeRows,if_pos small,edgeOf,if_pos small]
    exact congrArg some (add_zero m).symm
  rw [edgeRows,if_neg small,edgeOf,if_neg small]
  refine Option.bind_eq_some_iff.mpr
    ⟨_,foldlM_sum (fun x => Metrics.of 0 (acrossSample plane stride y x)) (fun x sampled m => ?_) m,?_⟩
  · rw [across_some readable row (block_column sampled),Option.bind_eq_bind,Option.bind_some,add_edge]
    rfl
  by_cases other : y < blockSize ∨ y % blockSize ≠ 0
  · have none : ¬(blockSize ≤ y ∧ y % blockSize = 0) := by omega
    rw [if_pos other,downOf,if_neg none,metrics_of_sum]
    simp [acrossOf]
  have block : blockSize ≤ y ∧ y % blockSize = 0 := by omega
  rw [if_neg other,downOf,if_pos block]
  refine (foldlM_sum (fun x => Metrics.of 0 (downSample plane stride y x)) (fun x sampled m => ?_) _).trans ?_
  · obtain ⟨_,high,_⟩ := (mem_positions (by decide)).mp sampled
    rw [down_some readable ⟨le_trans (by decide) block.1,row⟩ high,Option.bind_eq_bind,Option.bind_some,add_edge]
    rfl
  · rw [metrics_of_sum,metrics_of_sum,add_assoc,metrics_of_add]
    simp [acrossOf]

/-! ## Both ways to the sums -/

theorem probeMetrics_eq (readable : Readable plane stride w h) (valid : ¬(stride ≤ 0 ∨ stride < w))
    (fits : 6 ≤ h → Fits .int (w - 1)) :
    probeMetrics (some plane) stride w h = some (.of ((positions 0 gridStep h).map (lapOf plane stride w h)).sum
      ((positions 0 gridStep h).map (edgeOf plane stride w h)).sum) := by
  simp only [probeMetrics]
  rw [if_neg valid]
  refine (foldlM_sum (fun y => Metrics.of (lapOf plane stride w h y) (edgeOf plane stride w h y))
    (fun y sampled m => ?_) _).trans ?_
  · obtain ⟨_,row,_⟩ := (mem_positions (by decide)).mp sampled
    rw [lapRow_eq readable fits,Option.bind_eq_bind,Option.bind_some,edgeRows_eq readable row,add_assoc,metrics_of_add,
      add_zero,zero_add]
  · rw [metrics_of_sum]
    exact congrArg some (zero_add _)

/-- Rows that are not sampled have no squares. -/
theorem lapOf_sum (plane : Plane) (stride w h : Int) :
    ((positions gridStep gridStep (h - 1)).map (lapOf plane stride w h)).sum =
      ((positions 0 gridStep h).map (lapOf plane stride w h)).sum := by
  refine sum_subset (nodup_positions (by decide)) (nodup_positions (by decide)) (fun y sampled => ?_) (fun y sampled left => ?_)
  · obtain ⟨low,high,even⟩ := (mem_positions (by decide)).mp sampled
    simp only [gridStep] at low even
    refine (mem_positions (by decide)).mpr ⟨by omega,by omega,?_⟩
    simp only [gridStep]
    omega
  · obtain ⟨_,high,even⟩ := (mem_positions (by decide)).mp sampled
    rw [lapOf,if_neg]
    rintro ⟨low,below⟩
    simp only [gridStep] at low even
    refine left ((mem_positions (by decide)).mpr ⟨low,by omega,?_⟩)
    simp only [gridStep]
    omega

/-- Only the rows at which a block starts have differences to the row above. -/
theorem downOf_sum (plane : Plane) (stride w h : Int) :
    ((positions blockSize blockSize h).map (downOf plane stride w)).sum =
      ((positions 0 gridStep h).map (downOf plane stride w)).sum := by
  refine sum_subset (nodup_positions (by decide)) (nodup_positions (by decide)) (fun y sampled => ?_) (fun y sampled left => ?_)
  · obtain ⟨low,high,whole⟩ := (mem_positions (by decide)).mp sampled
    simp only [blockSize] at low whole
    refine (mem_positions (by decide)).mpr ⟨by omega,high,?_⟩
    simp only [gridStep]
    omega
  · obtain ⟨_,high,_⟩ := (mem_positions (by decide)).mp sampled
    rw [downOf,if_neg]
    rintro ⟨low,whole⟩
    refine left ((mem_positions (by decide)).mpr ⟨low,high,?_⟩)
    simp only [blockSize] at low whole ⊢
    omega

theorem laplacianVariance_eq (readable : Readable plane stride w h) (valid : ¬(stride ≤ 0 ∨ stride < w ∨ w ≤ 2 ∨ h ≤ 2))
    (width : w ≤ 32768) (height : h ≤ 32768) :
    laplacianVariance (some plane) stride w h = some ((positions gridStep gridStep (h - 1)).map (lapOf plane stride w h)).sum := by
  have bottom : checked .int (h - 1) = some (h - 1) := checked_int (by omega) (by omega)
  have stop : checked .int (w - 1) = some (w - 1) := checked_int (by omega) (by omega)
  simp only [laplacianVariance]
  rw [if_neg valid]
  simp only [bottom,stop,Option.bind_eq_bind,Option.bind_some]
  refine (foldlM_sum (lapOf plane stride w h) (fun y sampled acc => ?_) _).trans (congrArg some (zero_add _))
  obtain ⟨low,below⟩ := grid_column sampled
  obtain ⟨first,_,_⟩ := (mem_positions (by decide)).mp sampled
  rw [lapOf,if_pos ⟨first,by omega⟩]
  refine foldlM_sum (lapSample plane stride y) (fun x inside acc => ?_) acc
  obtain ⟨left,high⟩ := grid_column inside
  obtain ⟨center,up,dn,before,behind,readCenter,readUp,readDn,readBefore,readBehind,square⟩ :=
    lapSquare_reads (lapSquare_some readable ⟨low,by omega⟩ ⟨left,by omega⟩)
  simp only [readCenter,readUp,readDn,readBefore,readBehind,Option.bind_some,← square]
  rfl

theorem blockEdgeVertical_eq (readable : Readable plane stride w h) (acc : Acc) :
    blockEdgeVertical plane stride w h blockSize gridStep acc =
      some (acc + ((positions 0 gridStep h).map (acrossOf plane stride w)).sum) := by
  refine foldlM_sum (acrossOf plane stride w) (fun y sampled acc => ?_) acc
  obtain ⟨_,row,_⟩ := (mem_positions (by decide)).mp sampled
  refine foldlM_sum (acrossSample plane stride y) (fun x inside acc => ?_) acc
  obtain ⟨byte,left,readByte,readLeft,diff⟩ := magnitude_reads (across_some readable row (block_column inside))
  simp only [readByte,readLeft,Option.bind_eq_bind,Option.bind_some,← diff]
  rfl

theorem blockEdgeHorizontal_eq (readable : Readable plane stride w h) (acc : Acc) :
    blockEdgeHorizontal plane stride w h blockSize gridStep acc =
      some (acc + ((positions blockSize blockSize h).map (downOf plane stride w)).sum) := by
  refine foldlM_sum (downOf plane stride w) (fun y sampled acc => ?_) acc
  obtain ⟨first,_,whole⟩ := (mem_positions (by decide)).mp sampled
  simp only [blockSize] at first whole
  rw [downOf,if_pos (by simp only [blockSize]; omega)]
  refine foldlM_sum (downSample plane stride y) (fun x inside acc => ?_) acc
  obtain ⟨_,column,_⟩ := (mem_positions (by decide)).mp inside
  obtain ⟨byte,above,readByte,readAbove,diff⟩ := magnitude_reads (down_some readable (block_column sampled) column)
  simp only [readByte,readAbove,Option.bind_eq_bind,Option.bind_some,← diff]
  rfl

theorem blockEdgeStrength_eq (readable : Readable plane stride w h) (valid : ¬(stride ≤ 0 ∨ stride < w)) :
    blockEdgeStrength (some plane) stride w h = some ((positions 0 gridStep h).map (edgeOf plane stride w h)).sum := by
  simp only [blockEdgeStrength]
  by_cases small : w ≤ blockSize ∨ h ≤ blockSize
  · have none : edgeOf plane stride w h = fun _ => 0 := by
      funext y
      rw [edgeOf,if_pos small]
    rw [if_pos (by omega),none,List.sum_map_zero]
    rfl
  · have both : edgeOf plane stride w h = fun y => acrossOf plane stride w y + downOf plane stride w y := by
      funext y
      rw [edgeOf,if_neg small]
    rw [if_neg (by omega),blockEdgeVertical_eq readable,Option.bind_eq_bind,Option.bind_some,blockEdgeHorizontal_eq readable,
      downOf_sum,add_assoc,← List.sum_map_add,both]
    exact congrArg some (zero_add _)

/-- Where the reference has no squares to sum, no row has any. -/
theorem laplacianVariance_sum (readable : Readable plane stride w h) (valid : ¬(stride ≤ 0 ∨ stride < w))
    (width : w ≤ 32768) (height : h ≤ 32768) :
    laplacianVariance (some plane) stride w h = some ((positions 0 gridStep h).map (lapOf plane stride w h)).sum := by
  by_cases small : w ≤ 2 ∨ h ≤ 2
  · have none : lapOf plane stride w h = fun _ => 0 := by
      funext y
      rw [lapOf]
      by_cases row : gridStep ≤ y ∧ (y : Int) + 1 < h
      · have columns : positions gridStep gridStep (w - 1) = [] := by
          refine List.eq_nil_iff_forall_not_mem.mpr (fun x sampled => ?_)
          obtain ⟨low,high,_⟩ := (mem_positions (by decide)).mp sampled
          simp only [gridStep] at low row
          omega
        rw [if_pos row,columns]
        rfl
      · rw [if_neg row]
    simp only [laplacianVariance]
    rw [if_pos (by omega),none,List.sum_map_zero]
    rfl
  · rw [laplacianVariance_eq readable (by omega) width height,lapOf_sum]

/-- Where the least width overflows there are no metrics. -/
theorem probeMetrics_least (plane : Plane) (positive : 0 < stride) (high : 6 ≤ h) :
    probeMetrics (some plane) stride (-2147483648) h = none := by
  have fourth : 4 ∈ positions 0 gridStep h := (mem_positions (by decide)).mpr ⟨Nat.zero_le _,by push_cast; omega,by decide⟩
  have overflow : ∀ m, lapRow plane stride (-2147483648) h 4 m = none := by
    intro m
    have inside : ¬(4 < gridStep ∨ ((4 : Nat) : Int) + 1 ≥ h) := by
      simp only [gridStep]
      omega
    rw [lapRow,if_neg inside]
    rfl
  simp only [probeMetrics]
  rw [if_neg (by omega)]
  refine foldlM_none fourth (fun m => ?_) _
  rw [overflow]
  rfl

/-- The metrics of one sweep are those of the two references, and zero where these reject
    the plane. -/
def Fused (plane : Option Plane) (stride w h : Int) : Prop :=
  ∃ m, probeMetrics plane stride w h = some m ∧ laplacianVariance plane stride w h = some (m.lapSum,m.lapN) ∧
    blockEdgeStrength plane stride w h = some (m.edgeSum,m.edgeN) ∧
    (plane = none ∨ stride ≤ 0 ∨ stride < w ∨ w ≤ 2 ∨ h ≤ 2 → m.lapSum = 0 ∧ m.lapN = 0) ∧
    (plane = none ∨ stride ≤ 0 ∨ stride < w ∨ w ≤ blockSize ∨ h ≤ blockSize → m.edgeSum = 0 ∧ m.edgeN = 0)

theorem fused_none (stride w h : Int) : Fused none stride w h := ⟨⟨0,0,0,0⟩,rfl,rfl,rfl,by simp,by simp⟩

theorem fused_invalid (plane : Plane) (invalid : stride ≤ 0 ∨ stride < w) (h : Int) : Fused (some plane) stride w h := by
  refine ⟨⟨0,0,0,0⟩,?_,?_,?_,by simp,by simp⟩
  · simp only [probeMetrics]
    rw [if_pos invalid]
  · simp only [laplacianVariance]
    rw [if_pos (by omega)]
  · simp only [blockEdgeStrength]
    rw [if_pos (by omega)]

theorem fused_window (window : Readable plane stride w h) (valid : ¬(stride ≤ 0 ∨ stride < w)) (width : w ≤ 32768)
    (height : h ≤ 32768) (fits : 6 ≤ h → Fits .int (w - 1)) : Fused (some plane) stride w h := by
  have lap := laplacianVariance_sum window valid width height
  have edge := blockEdgeStrength_eq window valid
  refine ⟨_,probeMetrics_eq window valid fits,lap,edge,fun rejected => ?_,fun rejected => ?_⟩
  · simp only [laplacianVariance] at lap
    rw [if_pos (by simpa using rejected)] at lap
    exact ⟨(congrArg Prod.fst (Option.some.inj lap)).symm,(congrArg Prod.snd (Option.some.inj lap)).symm⟩
  · simp only [blockEdgeStrength] at edge
    rw [if_pos (by simpa using rejected)] at edge
    exact ⟨(congrArg Prod.fst (Option.some.inj edge)).symm,(congrArg Prod.snd (Option.some.inj edge)).symm⟩

/-- One sweep has the metrics of the two references, which it reads from the first columns
    of the first rows only, unless it is given the least width and comes to a row that has
    squares. -/
theorem probe_metrics_eq (plane : Option Plane) (stride w h : Int) (width : -2147483648 ≤ w ∧ w ≤ 32768) (height : h ≤ 32768)
    (readable : ∀ bytes, plane = some bytes → 0 < stride → w ≤ stride → Readable bytes stride w h) :
    Fused plane stride w h ↔ (w = -2147483648 → plane = none ∨ stride ≤ 0 ∨ h ≤ 5) := by
  constructor
  · rintro ⟨m,value,_⟩ rfl
    by_contra reaches
    obtain ⟨given,positive,high⟩ : plane ≠ none ∧ 0 < stride ∧ 6 ≤ h := by
      simp only [not_or] at reaches
      exact ⟨reaches.1,by omega,by omega⟩
    obtain ⟨bytes,rfl⟩ := Option.ne_none_iff_exists'.mp given
    rw [probeMetrics_least bytes positive high] at value
    cases value
  · intro safe
    cases plane with
    | none => exact fused_none stride w h
    | some bytes =>
      by_cases invalid : stride ≤ 0 ∨ stride < w
      · exact fused_invalid bytes invalid h
      refine fused_window (readable bytes rfl (by omega) (by omega)) invalid width.2 height fun high => ?_
      have past : w ≠ -2147483648 := by
        intro least
        obtain none | flat | low := safe least
        · cases none
        · exact invalid (Or.inl flat)
        · omega
      exact fits_int.mpr (by omega)

/-- A plane of twelve columns in rows of sixteen bytes. -/
def squares : Plane := fun place => if place % 16 < 12 then some (UInt8.ofNat (place * place).toNat) else none

theorem probe_metrics_eq_squares : Fused (some squares) 16 12 12 ∧
    probeMetrics (some squares) 16 12 12 = some ⟨397328,4,271,6⟩ ∧
    laplacianVariance (some squares) 16 12 12 = some (397328,4) ∧ blockEdgeStrength (some squares) 16 12 12 = some (271,6) := by
  refine ⟨(probe_metrics_eq (some squares) 16 12 12 (by decide) (by decide) ?_).mpr (by decide),by decide,by decide,by decide⟩
  rintro bytes ⟨⟩ _ _ y x _ _ low high
  simp only [squares]
  rw [if_pos (by omega)]
  rfl

/-- The least width and six rows of one byte: both references reject them. -/
theorem least_width : laplacianVariance (some fun _ => some 0) 1 (-2147483648) 6 = some (0,0) ∧
    blockEdgeStrength (some fun _ => some 0) 1 (-2147483648) 6 = some (0,0) ∧
    ¬ Fused (some fun _ => some 0) 1 (-2147483648) 6 := by
  refine ⟨by decide,by decide,?_⟩
  rintro ⟨m,value,_⟩
  rw [probeMetrics_least _ (by decide) (by decide)] at value
  cases value

end AutoUpscale.ContentProbe
