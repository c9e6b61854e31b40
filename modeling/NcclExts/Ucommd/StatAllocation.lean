import NcclExts.Ucommd.StatsShm

/-!
# Allocation of stats

Ids go round between the queue and the allocated stats, so that each id is in one place.
The counters of a stat are found from its id, and two ids have no counter in common
as long as the ids are numbers of an `int` and all counters together can be addressed.
-/

namespace NcclExts.Ucommd

open NcclExts.Foundation

/-! ## Where the counters of an id lie -/

/-- The ids are of type `int`, and the counters of all stats have addresses of their
own. -/
def ShmSetup.Addressable (setup : ShmSetup) : Prop :=
  setup.numStats.toNat ≤ 2 ^ 31 ∧ setup.counterList.length * setup.numStats.toNat ≤ 2 ^ 61

instance (setup : ShmSetup) : Decidable setup.Addressable :=
  inferInstanceAs (Decidable (_ ∧ _))

/-- Positions of counters within a quarter of the address space have cells of their
own. -/
theorem offset_inj {stats : UInt64} {a b : UInt64} (aSmall : a.toNat < 2 ^ 61)
    (bSmall : b.toNat < 2 ^ 61) (same : stats + Stat.offset a = stats + Stat.offset b) : a = b := by
  have eight : (8 : UInt64).toNat = 8 := rfl
  have offsets : Stat.offset a = Stat.offset b := by simpa using same
  have values := congrArg UInt64.toNat offsets
  rw [Stat.offset, Stat.offset, UInt64.toNat_mul, UInt64.toNat_mul, eight] at values
  apply UInt64.toNat_inj.mp
  omega

/-- The cells of the stats, in one row. -/
theorem object_cell (shm : StatsShm) (id : Int32) (i : UInt64) :
    (shm.object id).cell i = shm.stats + Stat.offset (toSizeT id * shm.numCounters + i) := by
  simp only [StatObject.cell, StatsShm.object, StatsShm.base, Stat.offset, UInt64.mul_add,
    UInt64.add_assoc]

/-- A position in the row belongs to one stat and one of its counters. -/
theorem position_inj {width a b i j : Nat} (iInside : i < width) (jInside : j < width)
    (same : a * width + i = b * width + j) : a = b ∧ i = j := by
  have positive : 0 < width := by omega
  have quotient := congrArg (fun position => position / width) same
  have remainder := congrArg (fun position => position % width) same
  simp only [Nat.mul_comm _ width, Nat.mul_add_div positive, Nat.div_eq_of_lt iInside,
    Nat.div_eq_of_lt jInside] at quotient
  simp only [Nat.mul_comm _ width, Nat.mul_add_mod, Nat.mod_eq_of_lt iInside,
    Nat.mod_eq_of_lt jInside] at remainder
  omega

/-- An id of the segment, and its number. -/
def ShmSetup.IsId (setup : ShmSetup) (id : Int32) (number : Nat) : Prop :=
  id.toInt = number ∧ number < setup.numStats.toNat

section

variable {setup : ShmSetup}

/-- There is no counter beyond the addressable ones. -/
theorem ShmSetup.Addressable.sized (addressable : setup.Addressable)
    (some : 0 < setup.numStats.toNat) : setup.counterList.length ≤ 2 ^ 61 := by
  obtain ⟨_, total⟩ := addressable
  have least : setup.counterList.length * 1 ≤ setup.counterList.length * setup.numStats.toNat :=
    Nat.mul_le_mul_left _ some
  omega

/-- The position of a counter in the row, as a number. -/
theorem ShmSetup.IsId.position {id : Int32} {number : Nat} (isId : setup.IsId id number)
    (addressable : setup.Addressable) {i : UInt64}
    (inside : i < (setup.initialized.object id).numCounters) :
    i.toNat < setup.counterList.length ∧
      (toSizeT id * setup.initialized.numCounters + i).toNat =
        number * setup.counterList.length + i.toNat ∧
      number * setup.counterList.length + i.toNat < 2 ^ 61 := by
  obtain ⟨value, below⟩ := isId
  have sized := addressable.sized (by omega)
  have count : (UInt64.ofNat setup.counterList.length).toNat = setup.counterList.length := by
    rw [UInt64.toNat_ofNat', Nat.mod_eq_of_lt (by omega)]
  have bound : i.toNat < setup.counterList.length := by
    rw [UInt64.lt_iff_toNat_lt] at inside
    exact count ▸ inside
  have converted : (toSizeT id).toNat = number := by
    have cases := toNat_toSizeT id
    omega
  have row : (number + 1) * setup.counterList.length ≤
      setup.counterList.length * setup.numStats.toNat := by
    rw [Nat.mul_comm]
    exact Nat.mul_le_mul_left _ below
  rw [Nat.succ_mul] at row
  have total := addressable.2
  have counters : setup.initialized.numCounters.toNat = setup.counterList.length := count
  refine ⟨bound, ?_, by omega⟩
  rw [UInt64.toNat_add, UInt64.toNat_mul, converted, counters, Nat.mod_eq_of_lt (by omega),
    Nat.mod_eq_of_lt (by omega)]

/-- A cell is that of one counter of one id. -/
theorem ShmSetup.Addressable.cell_inj (addressable : setup.Addressable) {id other : Int32}
    {number another : Nat} (isId : setup.IsId id number) (isOther : setup.IsId other another)
    {i j : UInt64} (iInside : i < (setup.initialized.object id).numCounters)
    (jInside : j < (setup.initialized.object other).numCounters)
    (same : (setup.initialized.object id).cell i = (setup.initialized.object other).cell j) :
    id = other ∧ i = j := by
  obtain ⟨iBound, iPosition, iSmall⟩ := isId.position addressable iInside
  obtain ⟨jBound, jPosition, jSmall⟩ := isOther.position addressable jInside
  rw [object_cell, object_cell] at same
  have positions := congrArg UInt64.toNat (offset_inj (by omega) (by omega) same)
  rw [iPosition, jPosition] at positions
  obtain ⟨numbers, indices⟩ := position_inj iBound jBound positions
  constructor
  · apply Int32.toInt_inj.mp
    rw [isId.1, isOther.1, numbers]
  · exact UInt64.toNat_inj.mp indices

/-! ## The invariant -/

/-- The segment keeps its shape: it stays initialised, and makes the same object for an
id. -/
structure StatsShm.Shaped (setup : ShmSetup) (shm : StatsShm) : Prop where
  state : shm.state = .initialized
  object : ∀ id, shm.object id = setup.initialized.object id

/-- The segment keeps its shape, its stats point to the counters of their ids, and no id
is lost or doubled. -/
structure Kept (setup : ShmSetup) (use : StatsUse) : Prop where
  shaped : use.shm.Shaped setup
  distinct : use.shm.statsGroup.Nodup
  pointed : ∀ ptr ∈ use.shm.statsGroup,
    ∃ id, use.objects ptr = some (setup.initialized.object id)
  ids : (use.shm.statsAvailable ++ use.allocatedIds).Perm setup.initialized.statsAvailable

namespace Kept

variable {use : StatsUse}

/-- The ids depend on the objects of the allocated stats alone. -/
theorem allocatedIds_congr {group : List Ptr} {objects after : Ptr → Option StatObject}
    (same : ∀ ptr ∈ group, after ptr = objects ptr) :
    group.filterMap (fun ptr => (after ptr).map StatObject.id) =
      group.filterMap (fun ptr => (objects ptr).map StatObject.id) := by
  apply List.filterMap_congr
  intro ptr member
  rw [same ptr member]

/-- Objects that are not of allocated stats may come and go. -/
theorem replaced (kept : Kept setup use) {ptr : Ptr} (other : ptr ∉ use.shm.statsGroup)
    (object : Option StatObject) :
    Kept setup { use with objects := Function.update use.objects ptr object } := by
  have same (held : Ptr) (member : held ∈ use.shm.statsGroup) :
      Function.update use.objects ptr object held = use.objects held := by
    rw [Function.update_of_ne]
    rintro rfl
    exact other member
  constructor
  · exact kept.shaped
  · exact kept.distinct
  · intro held member
    obtain ⟨id, points⟩ := kept.pointed held member
    exact ⟨id, (same held member).trans points⟩
  · have listed : StatsUse.allocatedIds
        { use with objects := Function.update use.objects ptr object } = use.allocatedIds :=
      allocatedIds_congr same
    rw [listed]
    exact kept.ids

/-- The ids of all stats are in place when the segment is initialised. -/
theorem initially (first : use.shm = setup.initialized) : Kept setup use := by
  constructor
  · rw [first]
    exact ⟨rfl, fun _ => rfl⟩
  · rw [first]
    exact List.nodup_nil
  · intro ptr member
    rw [first] at member
    exact absurd member List.not_mem_nil
  · rw [StatsUse.allocatedIds, first]
    exact .of_eq (List.append_nil _)

/-- An allocation moves the first id to a new stat. -/
theorem allocated (kept : Kept setup use) {ptr : Ptr} (free : use.objects ptr = none)
    {shm : StatsShm} {stat : StatObject} {memory : Memory}
    (alloc : use.shm.allocStat ptr use.memory = some (shm, stat, memory)) :
    Kept setup ⟨shm, Function.update use.objects ptr (some stat), memory⟩ := by
  have other : ptr ∉ use.shm.statsGroup := by
    intro member
    obtain ⟨id, points⟩ := kept.pointed ptr member
    rw [free] at points
    simp at points
  rw [StatsShm.allocStat, if_neg (not_not_intro kept.shaped.state)] at alloc
  split at alloc
  · simp at alloc
  · rename_i id rest queue
    simp only [Option.some.injEq, Prod.mk.injEq] at alloc
    obtain ⟨rfl, rfl, -⟩ := alloc
    have grown : use.shm.statsGroup.insert ptr = ptr :: use.shm.statsGroup :=
      List.insert_of_not_mem other
    have same (held : Ptr) (member : held ∈ use.shm.statsGroup) :
        Function.update use.objects ptr (some (use.shm.object id)) held = use.objects held := by
      rw [Function.update_of_ne]
      rintro rfl
      exact other member
    constructor
    · exact ⟨kept.shaped.state, kept.shaped.object⟩
    · simp only [grown]
      exact List.nodup_cons.mpr ⟨other, kept.distinct⟩
    · intro held member
      simp only [grown, List.mem_cons] at member
      rcases member with rfl | before
      · have made : Function.update use.objects held (some (use.shm.object id)) held =
            some (setup.initialized.object id) := by
          rw [Function.update_self, kept.shaped.object]
        exact ⟨id, made⟩
      · obtain ⟨heldId, points⟩ := kept.pointed held before
        exact ⟨heldId, (same held before).trans points⟩
    · have ids := kept.ids
      rw [queue] at ids
      have listed : (ptr :: use.shm.statsGroup).filterMap (fun held =>
          (Function.update use.objects ptr (some (use.shm.object id)) held).map StatObject.id) =
          id :: use.allocatedIds := by
        rw [List.filterMap_cons, Function.update_self, allocatedIds_congr same]
        rfl
      simp only [StatsUse.allocatedIds, grown, listed]
      exact List.perm_middle.trans ids

/-- To free an allocated stat is to move its id to the end of the queue. -/
theorem freed (kept : Kept setup use) {ptr : Ptr} {stat : StatObject}
    (points : use.objects ptr = some stat) {shm : StatsShm} {memory : Memory}
    (free : use.shm.freeStat ptr stat use.memory = some (shm, memory)) :
    Kept setup { use with shm := shm, memory := memory } := by
  rw [StatsShm.freeStat, if_neg (not_not_intro kept.shaped.state)] at free
  split at free
  · rename_i member
    simp only [Option.some.injEq, Prod.mk.injEq] at free
    obtain ⟨rfl, -⟩ := free
    constructor
    · exact ⟨kept.shaped.state, kept.shaped.object⟩
    · exact kept.distinct.erase ptr
    · intro held stays
      exact kept.pointed held (List.mem_of_mem_erase stays)
    · have moved : use.allocatedIds.Perm (stat.id ::
          (use.shm.statsGroup.erase ptr).filterMap (fun held =>
            (use.objects held).map StatObject.id)) := by
        have taken := (List.perm_cons_erase member).filterMap
          (fun held => (use.objects held).map StatObject.id)
        rwa [List.filterMap_cons, points, Option.map_some] at taken
      have regrouped : (use.shm.statsAvailable ++ [stat.id] ++
          (use.shm.statsGroup.erase ptr).filterMap (fun held =>
            (use.objects held).map StatObject.id)).Perm
          (use.shm.statsAvailable ++ use.allocatedIds) := by
        rw [List.append_assoc]
        exact moved.symm.append_left _
      exact regrouped.trans kept.ids
  · simp at free

/-- Every step keeps the segment in order. -/
theorem step (kept : Kept setup use) {event : StatsEvent} {after : StatsUse}
    (stepped : use.step event = some after) : Kept setup after := by
  cases event with
  | allocStat ptr =>
    simp only [StatsUse.step] at stepped
    split at stepped
    · simp at stepped
    · rename_i free
      split at stepped
      · rename_i alloc
        rw [← Option.some.inj stepped]
        exact kept.allocated free alloc
      · rw [← Option.some.inj stepped]
        exact kept
  | freeStat ptr =>
    simp only [StatsUse.step] at stepped
    split at stepped
    · simp at stepped
    · rename_i points
      split at stepped
      · rename_i free
        rw [← Option.some.inj stepped]
        exact kept.freed points free
      · rw [← Option.some.inj stepped]
        exact kept
  | change ptr key change =>
    simp only [StatsUse.step] at stepped
    split at stepped
    · simp at stepped
    · split at stepped
      · obtain ⟨memory, _, rfl⟩ := Option.map_eq_some_iff.mp stepped
        exact ⟨kept.shaped, kept.distinct, kept.pointed, kept.ids⟩
      · simp at stepped
  | made ptr object =>
    simp only [StatsUse.step] at stepped
    split at stepped
    · simp at stepped
    · rename_i free
      rw [← Option.some.inj stepped]
      apply kept.replaced
      intro member
      obtain ⟨id, points⟩ := kept.pointed ptr member
      rw [free] at points
      simp at points
  | dropped ptr =>
    simp only [StatsUse.step] at stepped
    split at stepped
    · simp at stepped
    · rename_i other
      rw [← Option.some.inj stepped]
      exact kept.replaced other none

/-- The segment is in order after every run. -/
theorem reachable (reached : (allocating setup).Reachable use) : Kept setup use := by
  have kept : ∀ use event after, Kept setup use → (allocating setup).step use event = some after →
      Kept setup after := fun _ _ _ kept stepped => kept.step stepped
  exact reached.invariant (fun _ first => initially first) kept

end Kept

/-! ## The calls -/

/-- What a process relies on: each id is in one place, and the calls on the stats do
what they say, each within the counters of its own stat. -/
structure StatsSound (setup : ShmSetup) (use : StatsUse) : Prop where
  ids : ((use.shm.statsAvailable ++ use.allocatedIds).map Int32.toInt).Perm
    ((List.range setup.numStats.toNat).map (fun number : Nat => (number : Int)))
  apart : ∀ ptr ∈ use.shm.statsGroup, ∀ other ∈ use.shm.statsGroup, ∀ stat another,
    use.objects ptr = some stat → use.objects other = some another →
    ∀ i < stat.numCounters, ∀ j < another.numCounters,
      stat.cell i = another.cell j → ptr = other ∧ i = j
  cleared : ∀ ptr shm stat memory, use.objects ptr = none →
    use.shm.allocStat ptr use.memory = some (shm, stat, memory) →
    ∀ key, stat.InRange key → stat.get memory key = some 0
  changed : ∀ ptr ∈ use.shm.statsGroup, ∀ stat, use.objects ptr = some stat →
    ∀ key, stat.InRange key → ∀ change : Change, ∃ i < stat.numCounters, ∃ value,
      stat.locate key = some (stat.cell i) ∧
        change.apply stat use.memory key =
          some (Function.update use.memory (stat.cell i) value) ∧
        ∀ other ∈ use.shm.statsGroup, other ≠ ptr → ∀ another, use.objects other = some another →
          ∀ j < another.numCounters, another.cell j ≠ stat.cell i
  exhausted : ∀ ptr, use.objects ptr = none →
    (use.shm.allocStat ptr use.memory = none ↔
      use.shm.statsGroup.length = setup.numStats.toNat)
  unknown : ∀ ptr stat, ptr ∉ use.shm.statsGroup →
    use.shm.freeStat ptr stat use.memory = none

namespace Kept

variable {use : StatsUse}

/-- An id that is about is one of the segment. -/
theorem isId (kept : Kept setup use) (addressable : setup.Addressable) {id : Int32}
    (about : id ∈ use.shm.statsAvailable ++ use.allocatedIds) :
    ∃ number, setup.IsId id number := by
  have member : id ∈ setup.initialized.statsAvailable := kept.ids.mem_iff.mp about
  obtain ⟨number, inside, rfl⟩ := List.mem_map.mp member
  have below := List.mem_range.mp inside
  have bound := addressable.1
  refine ⟨number, ?_, below⟩
  have word : Int32.size = 2 ^ 32 := rfl
  rw [Int32.toInt_ofNat', Int.bmod_def, word]
  omega

/-- The ids that are about are different. -/
theorem nodup (kept : Kept setup use) (addressable : setup.Addressable) :
    (use.shm.statsAvailable ++ use.allocatedIds).Nodup := by
  rw [kept.ids.nodup_iff]
  apply List.Nodup.map_on _ List.nodup_range
  intro number inside other otherInside same
  have below := List.mem_range.mp inside
  have otherBelow := List.mem_range.mp otherInside
  have bound := addressable.1
  have word : Int32.size = 2 ^ 32 := rfl
  have values := congrArg Int32.toInt same
  rw [Int32.toInt_ofNat', Int32.toInt_ofNat', Int.bmod_def, Int.bmod_def, word] at values
  omega

/-- The object of an allocated stat is that of its id, which is one of the segment. -/
theorem stat (kept : Kept setup use) (addressable : setup.Addressable) {ptr : Ptr}
    (member : ptr ∈ use.shm.statsGroup) {stat : StatObject}
    (points : use.objects ptr = some stat) :
    stat = setup.initialized.object stat.id ∧ ∃ number, setup.IsId stat.id number := by
  obtain ⟨id, made⟩ := kept.pointed ptr member
  rw [points] at made
  have same : stat = setup.initialized.object id := Option.some.inj made
  have about : id ∈ use.allocatedIds := by
    rw [StatsUse.allocatedIds, List.mem_filterMap]
    refine ⟨ptr, member, ?_⟩
    rw [points, same]
    rfl
  rw [same]
  exact ⟨rfl, kept.isId addressable (List.mem_append_right _ about)⟩

/-- Two handles of one id are one handle. -/
theorem handle_inj (kept : Kept setup use) (addressable : setup.Addressable) {ptr other : Ptr}
    (member : ptr ∈ use.shm.statsGroup) (otherMember : other ∈ use.shm.statsGroup)
    {stat another : StatObject} (points : use.objects ptr = some stat)
    (otherPoints : use.objects other = some another) (same : stat.id = another.id) :
    ptr = other := by
  have nodup : use.allocatedIds.Nodup := (List.nodup_append.mp (kept.nodup addressable)).2.1
  rw [StatsUse.allocatedIds, List.Nodup, List.pairwise_filterMap] at nodup
  by_contra different
  have symmetric : Std.Symm (fun held another : Ptr =>
      ∀ id, (use.objects held).map StatObject.id = some id →
        ∀ other, (use.objects another).map StatObject.id = some other → id ≠ other) := by
    constructor
    intro held another apart id isId other isOther
    exact (apart other isOther id isId).symm
  have apart := nodup.forall member otherMember different
  apply apart stat.id _ another.id _ same
  · rw [points, Option.map_some]
  · rw [otherPoints, Option.map_some]

/-- Every allocated stat has an id. -/
theorem length_allocatedIds (kept : Kept setup use) :
    use.allocatedIds.length = use.shm.statsGroup.length := by
  rw [StatsUse.allocatedIds, List.filterMap_length_eq_length]
  intro ptr member
  obtain ⟨id, points⟩ := kept.pointed ptr member
  rw [points, Option.map_some, Option.isSome_some]

/-- A counter named in range is a counter of its stat. -/
theorem located (addressable : setup.Addressable) {id : Int32} {number : Nat}
    (isId : setup.IsId id number) {key : CounterKey}
    (inRange : (setup.initialized.object id).InRange key) :
    ∃ i < (setup.initialized.object id).numCounters,
      (setup.initialized.object id).locate key = some ((setup.initialized.object id).cell i) := by
  have few : 0 < setup.numStats.toNat := by
    have inside := isId.2
    omega
  have sized : setup.counterList.length < 2 ^ 64 := by
    have bound := addressable.sized few
    omega
  exact inRange.locate sized

/-- A change in range writes the one counter that it names. -/
theorem change_apply {stat : StatObject} {key : CounterKey} {cell : UInt64}
    (located : stat.locate key = some cell) (change : Change) (memory : Memory) :
    ∃ value, change.apply stat memory key = some (Function.update memory cell value) := by
  cases change <;>
    simp only [Change.apply, StatObject.add, StatObject.sub, StatObject.inc, StatObject.dec,
      StatObject.set, StatObject.modify, located, Option.map_some] <;>
    exact ⟨_, rfl⟩

/-- An allocation succeeds exactly when an id is waiting. -/
theorem allocStat_eq_none_iff (kept : Kept setup use) (ptr : Ptr) :
    use.shm.allocStat ptr use.memory = none ↔ use.shm.statsAvailable = [] := by
  rw [StatsShm.allocStat, if_neg (not_not_intro kept.shaped.state)]
  cases use.shm.statsAvailable with
  | nil => simp
  | cons id rest => simp

/-- A segment in order serves its callers well. -/
theorem sound (kept : Kept setup use) (addressable : setup.Addressable) :
    StatsSound setup use := by
  constructor
  · have listed : setup.initialized.statsAvailable.map Int32.toInt =
        (List.range setup.numStats.toNat).map (fun number : Nat => (number : Int)) := by
      simp only [ShmSetup.initialized, StatsShm.new, List.map_map]
      apply List.map_congr_left
      intro number inside
      have below := List.mem_range.mp inside
      have bound := addressable.1
      have word : Int32.size = 2 ^ 32 := rfl
      rw [Function.comp_apply, Int32.toInt_ofNat', Int.bmod_def, word]
      omega
    rw [← listed]
    exact kept.ids.map _
  · intro ptr member other otherMember stat another points otherPoints i iInside j jInside same
    obtain ⟨isStat, number, isId⟩ := kept.stat addressable member points
    obtain ⟨isAnother, otherNumber, isOther⟩ := kept.stat addressable otherMember otherPoints
    rw [isStat] at iInside same
    rw [isAnother] at jInside same
    obtain ⟨ids, indices⟩ := addressable.cell_inj isId isOther iInside jInside same
    exact ⟨kept.handle_inj addressable member otherMember points otherPoints ids, indices⟩
  · intro ptr shm stat memory free alloc key inRange
    rw [StatsShm.allocStat, if_neg (not_not_intro kept.shaped.state)] at alloc
    split at alloc
    · simp at alloc
    · rename_i id rest queue
      simp only [Option.some.injEq, Prod.mk.injEq] at alloc
      obtain ⟨-, rfl, rfl⟩ := alloc
      have about : id ∈ use.shm.statsAvailable ++ use.allocatedIds := by
        rw [queue]
        exact List.mem_append_left _ List.mem_cons_self
      obtain ⟨number, isId⟩ := kept.isId addressable about
      rw [kept.shaped.object] at inRange ⊢
      obtain ⟨i, inside, isCell⟩ := located addressable isId inRange
      rw [StatObject.get, isCell, Option.map_some, StatObject.clear_apply, if_pos ⟨i, inside, rfl⟩]
  · intro ptr member stat points key inRange change
    obtain ⟨isStat, number, isId⟩ := kept.stat addressable member points
    have ranged : (setup.initialized.object stat.id).InRange key := isStat ▸ inRange
    obtain ⟨i, inside, isCell⟩ := located addressable isId ranged
    rw [← isStat] at inside isCell
    obtain ⟨value, written⟩ := change_apply isCell change use.memory
    refine ⟨i, inside, value, isCell, written, ?_⟩
    intro other otherMember different another otherPoints j jInside same
    obtain ⟨isAnother, otherNumber, isOther⟩ := kept.stat addressable otherMember otherPoints
    rw [isAnother] at jInside same
    rw [isStat] at inside same
    have ids := (addressable.cell_inj isOther isId jInside inside same).1
    exact different (kept.handle_inj addressable otherMember member otherPoints points ids)
  · intro ptr free
    have total := kept.ids.length_eq
    have all : setup.initialized.statsAvailable.length = setup.numStats.toNat := by
      simp [ShmSetup.initialized, StatsShm.new]
    rw [List.length_append, kept.length_allocatedIds, all] at total
    rw [kept.allocStat_eq_none_iff, ← List.length_eq_zero_iff]
    omega
  · intro ptr stat other
    rw [StatsShm.freeStat, if_neg (not_not_intro kept.shaped.state), if_neg other]

end Kept

/-- After every sequence of allocations, frees and updates, each id is queued or allocated
once, the stats have counters of their own, and each call does what it says. -/
theorem stat_allocation (setup : ShmSetup) (addressable : setup.Addressable) {use : StatsUse}
    (reached : (allocating setup).Reachable use) : StatsSound setup use :=
  (Kept.reachable reached).sound addressable

/-- A segment with more stats than an `int` counts has the least `int` among its ids, in
every state. -/
theorem ids_overflow {use : StatsUse} (large : 2 ^ 31 < setup.numStats.toNat)
    (reached : (allocating setup).Reachable use) :
    ¬ ((use.shm.statsAvailable ++ use.allocatedIds).map Int32.toInt).Perm
      ((List.range setup.numStats.toNat).map (fun number : Nat => (number : Int))) := by
  intro numbers
  have about : Int32.ofNat (2 ^ 31) ∈ use.shm.statsAvailable ++ use.allocatedIds := by
    rw [(Kept.reachable reached).ids.mem_iff]
    exact List.mem_map_of_mem (List.mem_range.mpr large)
  have listed := numbers.mem_iff.mp (List.mem_map_of_mem about)
  obtain ⟨number, _, same⟩ := List.mem_map.mp listed
  have negative : (Int32.ofNat (2 ^ 31)).toInt < 0 := by decide
  omega

end

/-- Two stats are allocated and one is freed, in a segment of two stats of two counters. -/
theorem stat_allocation_freed : ∃ use : StatsUse,
    (allocating ⟨2, [[97], [98]], 4096⟩).replay
        ⟨ShmSetup.initialized ⟨2, [[97], [98]], 4096⟩, fun _ => none, fun _ => 7⟩
        [.allocStat 1, .allocStat 2, .change 2 (.named [98]) .inc, .freeStat 1, .freeStat 1] =
      some use ∧
      StatsSound ⟨2, [[97], [98]], 4096⟩ use := by
  have possible : ((allocating ⟨2, [[97], [98]], 4096⟩).replay
      ⟨ShmSetup.initialized ⟨2, [[97], [98]], 4096⟩, fun _ => none, fun _ => 7⟩
      [.allocStat 1, .allocStat 2, .change 2 (.named [98]) .inc, .freeStat 1,
        .freeStat 1]).isSome = true := by decide +kernel
  obtain ⟨use, replayed⟩ := Option.isSome_iff_exists.mp possible
  have first : (allocating ⟨2, [[97], [98]], 4096⟩).Reachable
      ⟨ShmSetup.initialized ⟨2, [[97], [98]], 4096⟩, fun _ => none, fun _ => 7⟩ := .start rfl
  exact ⟨use, replayed, stat_allocation _ (by decide) (first.replay _ replayed)⟩

/-- In a segment of `2 ^ 31 + 1` stats the ids are not the numbers of the stats. -/
theorem stat_allocation_overflown : ∃ use : StatsUse,
    (allocating ⟨2147483649, [], 4096⟩).Reachable use ∧
      ¬ ((use.shm.statsAvailable ++ use.allocatedIds).map Int32.toInt).Perm
        ((List.range 2147483649).map (fun number : Nat => (number : Int))) := by
  have first : (allocating ⟨2147483649, [], 4096⟩).Reachable
      ⟨ShmSetup.initialized ⟨2147483649, [], 4096⟩, fun _ => none, fun _ => 0⟩ := .start rfl
  have count : (ShmSetup.mk 2147483649 [] 4096).numStats.toNat = 2147483649 := by decide
  have overflow := ids_overflow (by rw [count]; decide) first
  rw [count] at overflow
  exact ⟨_, first, overflow⟩

end NcclExts.Ucommd
