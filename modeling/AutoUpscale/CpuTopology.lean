import AutoUpscale.Runs
import AutoUpscale.SizeType
import Mathlib.Data.List.Basic
import Mathlib.Logic.Function.Basic

/-!
The processors of an affinity mask: `thread_policy.h`, and how `scaler_zimg.c` pins its
workers to them. One pass over the mask keeps two counts with different limits and the
first processors it finds (`visit_holds`, `scan_holds`); these are the smallest members
of the mask (`topologyFromSet_exact`), so that no worker is pinned outside of it
(`detected_pins`).
-/
namespace AutoUpscale.CpuTopology
open AutoUpscale.SizeType

/-! ## Masks -/

/-- The words of a `cpu_set_t`. -/
abbrev CpuSet := Nat → BitVec 64

/-- `CPU_ALLOC_SIZE`, the bytes of a set for so many processors. -/
def cpuAllocSize (count : Nat) : Nat := (count + 63) / 64 * 8

/-- `CPU_ISSET_S`. -/
def cpuIsset (cpu setSize : Nat) (set : CpuSet) : Bool :=
  decide (cpu / 8 < setSize) && (set (cpu / 64)).getLsbD (cpu % 64)

/-- `CPU_ZERO_S`. -/
def cpuZero : CpuSet := fun _ => 0

/-- `CPU_SET_S`. -/
def cpuSet (cpu setSize : Nat) (set : CpuSet) : CpuSet :=
  if cpu / 8 < setSize then Function.update set (cpu / 64) (set (cpu / 64) ||| BitVec.twoPow 64 (cpu % 64)) else set

/-- A set with one processor has no other. -/
theorem cpuSet_zero {cpu other setSize : Nat} (isset : cpuIsset other setSize (cpuSet cpu setSize cpuZero) = true) :
    other = cpu := by
  simp only [cpuIsset,Bool.and_eq_true,decide_eq_true_eq] at isset
  obtain ⟨_,bit⟩ := isset
  unfold cpuSet at bit
  split at bit
  · by_cases word : other / 64 = cpu / 64
    · rw [word,Function.update_self] at bit
      simp only [cpuZero,BitVec.getLsbD_or,BitVec.getLsbD_twoPow] at bit
      simp at bit
      omega
    · rw [Function.update_of_ne word] at bit
      simp [cpuZero] at bit
  · simp [cpuZero] at bit

/-! ## Topologies -/

/-- `UP_THREADS_MAX`. -/
def threadsMax : Nat := 64

/-- `UP_CPU_COUNT_MAX`. -/
def cpuCountMax : Nat := threadsMax * 4

/-- `UP_CPU_ID_LIMIT`. -/
def cpuIdLimit : Nat := 8192

/-- `up_cpu_topology_t`; the array has `threadsMax` elements. -/
structure Topology where
  allowedCount : Nat
  pinCount : Nat
  pinIds : Nat → Nat

/-- A zeroed topology. -/
def zeroed : Topology := ⟨0,0,fun _ => 0⟩

/-- The body of the loop of `up_cpu_topology_from_set`. -/
def visit (set : CpuSet) (setSize : Nat) (t : Topology) (cpu : Nat) : Topology :=
  if cpuIsset cpu setSize set = false then t
  else
    let t := if t.pinCount < threadsMax then
        { t with pinIds := Function.update t.pinIds t.pinCount cpu, pinCount := t.pinCount + 1 }
      else t
    if t.allowedCount < cpuCountMax then { t with allowedCount := t.allowedCount + 1 } else t

/-- The loop, over `left` processors from `cpu` on. -/
def scan (set : CpuSet) (setSize : Nat) (t : Topology) : Nat → Nat → Topology
  | 0, _ => t
  | left + 1, cpu => scan set setSize (visit set setSize t cpu) left (cpu + 1)

/-- How many processors are looked at. -/
def scanLimit (z : SizeT) (setSize : Nat) : Nat := if setSize > cpuIdLimit / 8 then cpuIdLimit else z.mul setSize 8

/-- `up_cpu_topology_from_set`: the topology it leaves and what it returns. NULL is nothing. -/
def topologyFromSet (z : SizeT) (topology : Option Topology) (set : Option CpuSet) (setSize : Nat) : Option Topology × Nat :=
  match topology with
  | none => (none,0)
  | some _ =>
    match set with
    | none => (some zeroed,0)
    | some set =>
      let t := scan set setSize zeroed (scanLimit z setSize) 0
      (some t,t.allowedCount)

/-- `up__clamp_core_count`. -/
def clampCoreCount (count : Int) : Nat :=
  if count ≤ 0 then 1 else if count > cpuCountMax then cpuCountMax else count.toNat

/-- `up__topology_from_sysconf`; a function that is not there is nothing. -/
def topologyFromSysconf (t : Topology) (getcores : Option Int) : Topology :=
  { t with allowedCount := clampCoreCount (getcores.getD 1), pinCount := 0 }

/-- `up_detect_cpu_topology_with`. The set may not be allocated; `affinity` is what
    `getaffinity` stores, or nothing where it is not there or fails. -/
def detectCpuTopology (z : SizeT) (allocated : Bool) (affinity : Option CpuSet) (getcores : Option Int) : Topology :=
  if allocated = false then topologyFromSysconf zeroed getcores
  else
    match affinity with
    | none => topologyFromSysconf zeroed getcores
    | some set =>
      match topologyFromSet z (some zeroed) (some set) (cpuAllocSize cpuIdLimit) with
      | (none,_) => topologyFromSysconf zeroed getcores
      | (some t,count) => if count > 0 then t else topologyFromSysconf t getcores

/-! ## Pinning -/

/-- What `zimg_priv_t` keeps of the pinning. -/
structure Pinning where
  pinCpus : Bool
  topology : Topology
  attempts : Nat
  successes : Nat

/-- A mask that `pthread_setaffinity_np` is given. -/
structure Affinity where
  setSize : Nat
  set : CpuSet

/-- Whether the set of `pin_worker_to_cpu` is allocated, and whether the system accepts it. -/
structure PinOutcome where
  allocated : Bool
  accepted : Bool

/-- `pin_worker_to_cpu`: the mask that it asks for, and whether the worker was pinned. -/
def pinWorkerToCpu (cpu : Nat) (o : PinOutcome) : Option Affinity × Bool :=
  let setSize := cpuAllocSize (cpu + 1)
  if o.allocated = false then (none,false) else (some ⟨setSize,cpuSet cpu setSize cpuZero⟩,o.accepted)

/-- `zimg_pool_on_spawn`, with the mask that it asks for. -/
def onSpawn (p : Pinning) (i : Nat) (o : PinOutcome) : Pinning × Option Affinity :=
  if p.pinCpus = false ∨ p.topology.pinCount ≤ 0 then (p,none)
  else
    let p := { p with attempts := p.attempts + 1 }
    let (asked,pinned) := pinWorkerToCpu (p.topology.pinIds (i % p.topology.pinCount)) o
    (if pinned then { p with successes := p.successes + 1 } else p,asked)

/-! ## The pass over a mask -/

variable {set : CpuSet} {setSize : Nat} {t : Topology}

/-- The members among the first `limit` processors, the smallest one first. -/
def membersBelow (set : CpuSet) (setSize limit : Nat) : List Nat := (List.range limit).filter fun cpu => cpuIsset cpu setSize set

/-- What the topology says of the members found so far. -/
structure Holds (t : Topology) (found : List Nat) : Prop where
  pins : t.pinCount = min threadsMax found.length
  allowed : t.allowedCount = min cpuCountMax found.length
  ids : ∀ i, i < t.pinCount → found[i]? = some (t.pinIds i)

theorem membersBelow_succ (cpu : Nat) : membersBelow set setSize (cpu + 1) =
    membersBelow set setSize cpu ++ if cpuIsset cpu setSize set = true then [cpu] else [] := by
  rw [membersBelow,List.range_succ,List.filter_append,membersBelow,List.filter_cons,List.filter_nil]

/-- A member is counted twice, each time up to a limit. -/
theorem visit_isset {cpu : Nat} (isset : cpuIsset cpu setSize set = true) : visit set setSize t cpu =
    ⟨if t.allowedCount < cpuCountMax then t.allowedCount + 1 else t.allowedCount,
      if t.pinCount < threadsMax then t.pinCount + 1 else t.pinCount,
      if t.pinCount < threadsMax then Function.update t.pinIds t.pinCount cpu else t.pinIds⟩ := by
  by_cases room : t.pinCount < threadsMax <;> by_cases more : t.allowedCount < cpuCountMax <;>
    simp only [visit,isset,room,more,if_true,if_false,Bool.true_eq_false]

theorem visit_holds {cpu : Nat} (holds : Holds t (membersBelow set setSize cpu)) :
    Holds (visit set setSize t cpu) (membersBelow set setSize (cpu + 1)) := by
  rw [membersBelow_succ]
  obtain ⟨pins,allowed,ids⟩ := holds
  generalize membersBelow set setSize cpu = found at pins allowed ids
  by_cases isset : cpuIsset cpu setSize set = true
  · rw [visit_isset isset,if_pos isset]
    refine ⟨?_,?_,fun i inside => ?_⟩
    · rw [List.length_append,List.length_singleton]
      dsimp only
      split <;> omega
    · rw [List.length_append,List.length_singleton]
      dsimp only
      split <;> omega
    · dsimp only at inside ⊢
      by_cases room : t.pinCount < threadsMax
      · rw [if_pos room] at inside ⊢
        by_cases here : i = t.pinCount
        · rw [here,Function.update_self,show t.pinCount = found.length by omega,List.getElem?_append_right (le_refl _),
            Nat.sub_self]
          rfl
        · rw [Function.update_of_ne here,List.getElem?_append_left (by omega)]
          exact ids i (by omega)
      · rw [if_neg room] at inside ⊢
        rw [List.getElem?_append_left (by omega)]
        exact ids i inside
  · rw [if_neg isset,List.append_nil]
    unfold visit
    rw [if_pos (Bool.eq_false_of_not_eq_true isset)]
    exact ⟨pins,allowed,ids⟩

theorem scan_holds {left cpu : Nat} (holds : Holds t (membersBelow set setSize cpu)) :
    Holds (scan set setSize t left cpu) (membersBelow set setSize (cpu + left)) := by
  induction left generalizing t cpu with
  | zero => exact holds
  | succ left ih =>
    rw [scan,← Nat.add_assoc,Nat.add_right_comm]
    exact ih (visit_holds holds)

/-! ## The members of a mask -/

/-- The members among the processors that a mask of so many bytes can name, up to the limit. -/
def members (set : CpuSet) (setSize : Nat) : List Nat := membersBelow set setSize (min (8 * setSize) cpuIdLimit)

theorem mem_members {cpu : Nat} : cpu ∈ members set setSize ↔
    cpu < min (8 * setSize) cpuIdLimit ∧ cpuIsset cpu setSize set = true := by
  rw [members,membersBelow,List.mem_filter,List.mem_range]

theorem members_sorted : (members set setSize).Pairwise (· < ·) := List.Pairwise.filter _ List.pairwise_lt_range

theorem scanLimit_eq (z : SizeT) (setSize : Nat) : scanLimit z setSize = min (8 * setSize) cpuIdLimit := by
  unfold scanLimit cpuIdLimit
  by_cases large : setSize > 8192 / 8
  · rw [if_pos large]
    omega
  · have fits : setSize * 8 ≤ z.max := int_le_max (by omega)
    rw [if_neg large,mul_eq fits]
    omega

/-- The pass over a mask finds its members. -/
theorem topologyFromSet_holds (z : SizeT) (topology : Topology) (set : CpuSet) (setSize : Nat) :
    ∃ t, topologyFromSet z (some topology) (some set) setSize = (some t,t.allowedCount) ∧ Holds t (members set setSize) := by
  have start : Holds zeroed (membersBelow set setSize 0) := ⟨rfl,rfl,fun i none => absurd none (Nat.not_lt_zero i)⟩
  have found := @scan_holds set setSize zeroed (scanLimit z setSize) 0 start
  rw [Nat.zero_add,scanLimit_eq] at found
  refine ⟨_,rfl,?_⟩
  rw [scanLimit_eq]
  exact found

/-- The processors that are kept are the first members. -/
theorem holds_ids {found : List Nat} (holds : Holds t found) :
    (List.range t.pinCount).map t.pinIds = found.take threadsMax := by
  have pins := holds.pins
  refine List.ext_getElem? fun i => ?_
  rw [List.getElem?_map,List.getElem?_take]
  by_cases inside : i < t.pinCount
  · rw [List.getElem?_range inside,Option.map_some,if_pos (by omega),holds.ids i inside]
  · rw [List.getElem?_eq_none (by rw [List.length_range]; omega),Option.map_none]
    split
    · exact (List.getElem?_eq_none (by omega)).symm
    · rfl

theorem holds_member {found : List Nat} (holds : Holds t found) {i : Nat} (inside : i < t.pinCount) : t.pinIds i ∈ found :=
  List.mem_of_getElem? (holds.ids i inside)

/-- They increase where the members do. -/
theorem holds_increase {found : List Nat} (holds : Holds t found) (sorted : found.Pairwise (· < ·)) {i j : Nat}
    (before : i < j) (inside : j < t.pinCount) : t.pinIds i < t.pinIds j := by
  obtain ⟨hi,left⟩ := List.getElem?_eq_some_iff.mp (holds.ids i (by omega))
  obtain ⟨hj,right⟩ := List.getElem?_eq_some_iff.mp (holds.ids j inside)
  rw [← left,← right]
  exact List.pairwise_iff_getElem.mp sorted i j hi hj before

/-- A member that is smaller than one that is kept is kept before it. -/
theorem holds_smallest {found : List Nat} (holds : Holds t found) (sorted : found.Pairwise (· < ·)) {i cpu : Nat}
    (inside : i < t.pinCount) (member : cpu ∈ found) (smaller : cpu < t.pinIds i) : ∃ j, j < i ∧ t.pinIds j = cpu := by
  obtain ⟨j,hj,rfl⟩ := List.getElem_of_mem member
  obtain ⟨hi,right⟩ := List.getElem?_eq_some_iff.mp (holds.ids i inside)
  have before : j < i := by
    by_contra none
    rcases Nat.eq_or_lt_of_le (not_lt.mp none) with rfl | later
    · omega
    · have := List.pairwise_iff_getElem.mp sorted i j hi hj later
      omega
  have kept := holds.ids j (by omega)
  rw [List.getElem?_eq_getElem hj] at kept
  exact ⟨j,before,(Option.some.inj kept).symm⟩

/-- A worker is pinned to the processor at its place, counted round. -/
theorem onSpawn_mask {p : Pinning} {i : Nat} {o : PinOutcome} {asked : Affinity} (spawned : (onSpawn p i o).2 = some asked) :
    0 < p.topology.pinCount ∧ ∀ cpu, cpuIsset cpu asked.setSize asked.set = true →
      cpu = p.topology.pinIds (i % p.topology.pinCount) := by
  unfold onSpawn at spawned
  split at spawned
  · cases spawned
  · rename_i pins
    dsimp only [pinWorkerToCpu] at spawned
    split at spawned
    · cases spawned
    · cases spawned
      exact ⟨by omega,fun cpu isset => cpuSet_zero isset⟩

/-- The topology of a mask: how many members it has, up to the two limits, and the smallest
    of them in order. Whichever worker is pinned, it is pinned to one of these. -/
theorem topologyFromSet_exact (z : SizeT) (topology : Topology) (set : CpuSet) (setSize : Nat) :
    ∃ t, topologyFromSet z (some topology) (some set) setSize = (some t,t.allowedCount) ∧
      t.pinCount = min threadsMax (members set setSize).length ∧
      t.allowedCount = min cpuCountMax (members set setSize).length ∧
      (t.pinCount = 0 ↔ (members set setSize).length = 0) ∧ (t.allowedCount = 0 ↔ (members set setSize).length = 0) ∧
      (List.range t.pinCount).map t.pinIds = (members set setSize).take threadsMax ∧
      (∀ i j, i < j → j < t.pinCount → t.pinIds i < t.pinIds j) ∧
      (∀ i cpu, i < t.pinCount → cpu ∈ members set setSize → cpu < t.pinIds i → ∃ j, j < i ∧ t.pinIds j = cpu) ∧
      (0 < t.pinCount → ∀ i, i % t.pinCount < threadsMax ∧ t.pinIds (i % t.pinCount) ∈ members set setSize) ∧
      ∀ (p : Pinning) (i : Nat) (o : PinOutcome) (asked : Affinity), p.topology = t → (onSpawn p i o).2 = some asked →
        ∀ cpu, cpuIsset cpu asked.setSize asked.set = true → cpu ∈ members set setSize := by
  obtain ⟨t,found,holds⟩ := topologyFromSet_holds z topology set setSize
  have pins := holds.pins
  have allowed := holds.allowed
  have round : 0 < t.pinCount → ∀ i, i % t.pinCount < threadsMax ∧ t.pinIds (i % t.pinCount) ∈ members set setSize := by
    intro present i
    have inside := Nat.mod_lt i present
    exact ⟨by omega,holds_member holds inside⟩
  refine ⟨t,found,pins,allowed,?_,?_,holds_ids holds,fun i j => holds_increase holds members_sorted,
    fun i cpu => holds_smallest holds members_sorted,round,?_⟩
  · rw [pins,threadsMax]
    omega
  · rw [allowed,cpuCountMax,threadsMax]
    omega
  · rintro p i o asked rfl spawned cpu isset
    obtain ⟨present,one⟩ := onSpawn_mask spawned
    rw [one cpu isset]
    exact (round present i).2

/-! ## Workers of a pool -/

theorem clampCoreCount_bounds (count : Int) : 1 ≤ clampCoreCount count ∧ clampCoreCount count ≤ cpuCountMax := by
  have limit : cpuCountMax = 256 := rfl
  unfold clampCoreCount
  split_ifs <;> omega

/-- A detected topology has a count of processors, and names none outside the mask. -/
theorem detectCpuTopology_spec (z : SizeT) (allocated : Bool) (set : CpuSet) (getcores : Option Int) :
    (1 ≤ (detectCpuTopology z allocated (some set) getcores).allowedCount ∧
      (detectCpuTopology z allocated (some set) getcores).allowedCount ≤ cpuCountMax) ∧
    ∀ i, i < (detectCpuTopology z allocated (some set) getcores).pinCount →
      (detectCpuTopology z allocated (some set) getcores).pinIds i ∈ members set (cpuAllocSize cpuIdLimit) := by
  have fallback : ∀ t : Topology, (1 ≤ (topologyFromSysconf t getcores).allowedCount ∧
      (topologyFromSysconf t getcores).allowedCount ≤ cpuCountMax) ∧
      ∀ i, i < (topologyFromSysconf t getcores).pinCount →
        (topologyFromSysconf t getcores).pinIds i ∈ members set (cpuAllocSize cpuIdLimit) := by
    exact fun t => ⟨clampCoreCount_bounds _,fun i none => absurd none (Nat.not_lt_zero i)⟩
  obtain ⟨t,found,holds⟩ := topologyFromSet_holds z zeroed set (cpuAllocSize cpuIdLimit)
  have allowed := holds.allowed
  unfold detectCpuTopology
  cases allocated with
  | false => exact fallback zeroed
  | true =>
    rw [if_neg (by decide)]
    simp only [found]
    by_cases present : t.allowedCount > 0
    · rw [if_pos present]
      exact ⟨⟨present,by omega⟩,fun i inside => holds_member holds inside⟩
    · rw [if_neg present]
      exact fallback t

/-- The pinning of a pool, and the masks that it has asked for. -/
structure Pinned where
  pinning : Pinning
  asked : List Affinity

/-- A worker spawns. -/
def spawn (s : Pinned) (worker : Nat × PinOutcome) : Option Pinned :=
  let (pinning,asked) := onSpawn s.pinning worker.1 worker.2
  some ⟨pinning,s.asked ++ asked.toList⟩

/-- What a pool with a topology keeps as its workers spawn. -/
structure Within (t : Topology) (allowed : List Nat) (s : Pinned) : Prop where
  topology : s.pinning.topology = t
  asked : ∀ a ∈ s.asked, ∀ cpu, cpuIsset cpu a.setSize a.set = true → cpu ∈ allowed
  counted : s.pinning.successes ≤ s.pinning.attempts

theorem onSpawn_counts (p : Pinning) (i : Nat) (o : PinOutcome) : (onSpawn p i o).1.topology = p.topology ∧
    (p.successes ≤ p.attempts → (onSpawn p i o).1.successes ≤ (onSpawn p i o).1.attempts) := by
  unfold onSpawn
  split
  · exact ⟨rfl,id⟩
  · dsimp only
    split
    · exact ⟨rfl,Nat.succ_le_succ⟩
    · exact ⟨rfl,fun less => Nat.le_succ_of_le less⟩

theorem spawn_within {allowed : List Nat} {s s' : Pinned} {worker : Nat × PinOutcome}
    (inside : ∀ i, i < t.pinCount → t.pinIds i ∈ allowed) (within : Within t allowed s) (spawned : spawn s worker = some s') :
    Within t allowed s' := by
  obtain ⟨rfl,asked,counted⟩ := within
  cases spawned
  obtain ⟨same,less⟩ := onSpawn_counts s.pinning worker.1 worker.2
  refine ⟨same,fun a member cpu isset => ?_,less counted⟩
  rcases List.mem_append.mp member with earlier | new
  · exact asked a earlier cpu isset
  · obtain ⟨present,one⟩ := onSpawn_mask (Option.mem_toList.mp new)
    rw [one cpu isset]
    exact inside _ (Nat.mod_lt _ present)

/-- However many workers a pool spawns and whatever becomes of their masks, none is asked to
    leave the mask that the process has. -/
theorem detected_pins (z : SizeT) (allocated : Bool) (set : CpuSet) (getcores : Option Int) (pinCpus : Bool)
    {workers : List (Nat × PinOutcome)} {s : Pinned}
    (spawned : Runs.run spawn ⟨⟨pinCpus,detectCpuTopology z allocated (some set) getcores,0,0⟩,[]⟩ workers = some s) :
    (∀ a ∈ s.asked, ∀ cpu, cpuIsset cpu a.setSize a.set = true → cpuIsset cpu (cpuAllocSize cpuIdLimit) set = true) ∧
      s.pinning.successes ≤ s.pinning.attempts := by
  have inside := (detectCpuTopology_spec z allocated set getcores).2
  have start : Within (detectCpuTopology z allocated (some set) getcores) (members set (cpuAllocSize cpuIdLimit))
      ⟨⟨pinCpus,detectCpuTopology z allocated (some set) getcores,0,0⟩,[]⟩ :=
    ⟨rfl,fun a none => absurd none List.not_mem_nil,le_refl 0⟩
  have within := Runs.reachable_preserves (fun _ _ _ within spawned => spawn_within inside within spawned) start ⟨workers,spawned⟩
  exact ⟨fun a member cpu isset => (mem_members.mp (within.asked a member cpu isset)).2,within.counted⟩

end AutoUpscale.CpuTopology
