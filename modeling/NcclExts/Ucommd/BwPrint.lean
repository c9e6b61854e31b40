import NcclExts.Ucommd.UnetPerf

/-!
# Reading the bw stat

The monitor reads the counters of a bw stat at positions of its own: the ranking
information in front, and one counter for each rank of the world. How many ranks there
are it reads from the stat as well, as an unsigned word, while the process that fills
the stat counted them as an `int`. The two agree as long as the process knew the size
of its world.
-/

namespace NcclExts.Ucommd

/-- `base[i]` of the monitor. -/
def Stat.cellAt (stat : Stat) (i : UInt64) : UInt64 := stat.cells (offset i)

/-- The conversion of a counter to `int`. -/
def toInt (value : UInt64) : Int32 := value.toInt64.toInt32

/-- The static variables of `Monitor::bw_print_func` that it keeps between its calls. -/
structure BwWorld where
  worldSize : UInt64
  localWorldSize : UInt64
  unprinted : Int32 → UInt64 → List UInt64
  prevCqlMap : Int32 → UInt64 → UInt64
  local2GlobalRank : Int32 → Option Int32
  localRank2Pid : Int32 → Option Int32

namespace BwWorld

/-- The variables as the program starts with them. -/
def initial : BwWorld where
  worldSize := 0
  localWorldSize := 0
  unprinted := fun _ _ => []
  prevCqlMap := fun _ _ => 0
  local2GlobalRank := fun _ => none
  localRank2Pid := fun _ => none

/-- Take over the sizes of the world that a stat states; what was kept of another world
is dropped. -/
def sync (world : BwWorld) (stat : Stat) : BwWorld :=
  if world.worldSize ≠ stat.cellAt 3 ∨ world.localWorldSize ≠ stat.cellAt 4 then
    { initial with worldSize := stat.cellAt 3, localWorldSize := stat.cellAt 4 }
  else
    world

/-- The position read for a rank. -/
def rankPosition (i : UInt64) : UInt64 := 2 * i + 6

/-- The bytes sent in a second, from the bytes sent in so many nanoseconds. -/
def thruput (bytes duration : UInt64) : UInt64 := bytes * 1000000000 / duration

/-- One turn of the loop over the ranks: the throughput since the last call, when
anything was sent since. -/
def collectRank (duration : UInt64) (localRank : Int32) (stat : Stat) (world : BwWorld)
    (i : UInt64) : BwWorld :=
  let bytes := stat.cellAt (rankPosition i)
  if world.prevCqlMap localRank i = bytes then
    world
  else
    let sent := thruput (bytes - world.prevCqlMap localRank i) duration
    { world with
      unprinted := Function.update world.unprinted localRank
        (Function.update (world.unprinted localRank) i (world.unprinted localRank i ++ [sent]))
      prevCqlMap := Function.update world.prevCqlMap localRank
        (Function.update (world.prevCqlMap localRank) i bytes) }

/-- The ranks that the loop goes over. -/
def ranks (worldSize : UInt64) : List UInt64 :=
  (List.range worldSize.toNat).map UInt64.ofNat

/-- The part of `Monitor::bw_print_func` that reads one stat. -/
def collect (duration : UInt64) (world : BwWorld) (stat : Stat) : BwWorld :=
  let pid := toInt (stat.cellAt 0)
  let rank := toInt (stat.cellAt 1)
  let localRank := toInt (stat.cellAt 2)
  let world := world.sync stat
  let world := { world with
    local2GlobalRank := Function.update world.local2GlobalRank localRank (some rank)
    localRank2Pid := Function.update world.localRank2Pid localRank (some pid) }
  (ranks world.worldSize).foldl (collectRank duration localRank stat) world

/-- The positions that `collect` reads. -/
def reads (world : BwWorld) (stat : Stat) : List UInt64 :=
  [0, 1, 2, 3, 4] ++ (ranks (world.sync stat).worldSize).map rankPosition

@[simp] theorem sync_worldSize (world : BwWorld) (stat : Stat) :
    (world.sync stat).worldSize = stat.cellAt 3 := by
  rw [sync]
  split
  · rfl
  · rename_i same
    rw [not_or, not_not] at same
    exact same.1

theorem mem_ranks {worldSize i : UInt64} : i ∈ ranks worldSize ↔ i < worldSize := by
  rw [ranks, List.mem_map, UInt64.lt_iff_toNat_lt]
  constructor
  · rintro ⟨rank, member, rfl⟩
    have below := List.mem_range.mp member
    have word := UInt64.toNat_lt worldSize
    rwa [UInt64.toNat_ofNat', Nat.mod_eq_of_lt (by omega)]
  · intro below
    exact ⟨i.toNat, List.mem_range.mpr below, UInt64.ofNat_toNat⟩

end BwWorld

/-! ## What the published stat states -/

/-- Where a bw stat keeps the size of its world. -/
theorem find_worldSize {stat : Stat} {worldSize : Int32}
    (listed : stat.counterList = bwCounterList worldSize) :
    stat.find "world_size" = some (Stat.offset 3) := by
  simp [Stat.find, listed, bwCounterList, rankingCounters, List.findIdx?_cons]

/-- Where a bw stat keeps the size of its node. -/
theorem find_localSize {stat : Stat} {worldSize : Int32}
    (listed : stat.counterList = bwCounterList worldSize) :
    stat.find "local_size" = some (Stat.offset 4) := by
  simp [Stat.find, listed, bwCounterList, rankingCounters, List.findIdx?_cons]

/-- The ranking information states the size of the world, converted to a word. -/
theorem setRanking_worldSize {stat after : Stat} {env : RankEnv} {pid : Int32}
    (listed : stat.counterList = bwCounterList env.worldSize)
    (written : setRanking stat env pid = some after) :
    after.cellAt 3 = toSizeT env.worldSize := by
  simp only [setRanking, Option.bind_eq_bind, Option.bind_eq_some_iff] at written
  obtain ⟨first, isFirst, second, isSecond, third, isThird, fourth, isFourth, isLast⟩ := written
  have listedThird : third.counterList = bwCounterList env.worldSize := by
    rw [Stat.set_counterList isThird, Stat.set_counterList isSecond,
      Stat.set_counterList isFirst, listed]
  have listedFourth : fourth.counterList = bwCounterList env.worldSize := by
    rw [Stat.set_counterList isFourth, listedThird]
  rw [Stat.set, find_worldSize listedThird, Option.map_some, Option.some.injEq] at isFourth
  rw [Stat.set, find_localSize listedFourth, Option.map_some, Option.some.injEq] at isLast
  have apart : Stat.offset 3 ≠ Stat.offset 4 := by decide
  rw [← isLast, Stat.cellAt]
  simp only [Function.update_of_ne apart]
  rw [← isFourth]
  simp only [Function.update_self]

/-- The length of the list of a bw stat. -/
theorem length_bwCounterList (worldSize : Int32) :
    (bwCounterList worldSize).length = 5 + 2 * worldSize.toInt.toNat := by
  simp [bwCounterList, rankingCounters, rankCounters, List.length_flatMap]
  omega

/-- A published bw stat has the list of the world size that the process read, and states
that size. -/
theorem initStats_stated {env : RankEnv} {pid : Int32}
    {ibMemory bwMemory : Option (UInt64 → UInt64)} {ib bw : Stat}
    (inited : initStats env pid ibMemory bwMemory = some (ib, some bw)) :
    bw.counterList = bwCounterList env.worldSize ∧ bw.cellAt 3 = toSizeT env.worldSize := by
  simp only [initStats, Option.bind_eq_bind, Option.bind_eq_some_iff] at inited
  obtain ⟨memory, _, result⟩ := inited
  split at result
  · obtain ⟨bwMemory, _, stat, written, same⟩ := by
      simpa only [Option.bind_eq_some_iff] using result
    simp only [Option.pure_def, Option.some.injEq, Prod.mk.injEq] at same
    rw [← same.2]
    exact ⟨setRanking_counterList written, setRanking_worldSize rfl written⟩
  · simp at result

/-! ## Agreement -/

/-- Every position read from the stat is that of a counter, and the one read for a rank
is that of its completion counter, by name as by index. -/
structure BwLayoutAgrees (world : BwWorld) (bw : Stat) : Prop where
  inside : ∀ i ∈ world.reads bw, i.toNat < bw.counterList.length
  named : ∀ i ∈ BwWorld.ranks (world.sync bw).worldSize,
    bw.find (cplName i.toNat) = some (Stat.offset (BwWorld.rankPosition i))
  indexed : ∀ i ∈ BwWorld.ranks (world.sync bw).worldSize,
    toSizeT (unetBwCplBytesByRank (toInt i)) = BwWorld.rankPosition i

/-- The world has a size, and the position of its last rank is an `int`. -/
def WorldIndexed (worldSize : Int32) : Prop :=
  0 ≤ worldSize.toInt ∧ 2 * worldSize.toInt + 4 < 2 ^ 31

instance (worldSize : Int32) : Decidable (WorldIndexed worldSize) :=
  inferInstanceAs (Decidable (_ ∧ _))

/-- A word below a nonnegative `int` is converted to itself. -/
theorem toInt_of_lt {i : UInt64} (small : i.toNat < 2 ^ 31) : (toInt i).toInt = i.toNat := by
  have read : i.toInt64.toInt = (i.toNat : Int).bmod (2 ^ 64) := by
    rw [← Int64.toInt_toBitVec, BitVec.toInt_eq_toNat_bmod]
    rfl
  rw [toInt, Int64.toInt_toInt32, read, Int.bmod_def, Int.bmod_def]
  omega

/-- A nonnegative `int` is converted to the word of the same value. -/
theorem toNat_toSizeT_of_nonneg {value : Int32} (nonneg : 0 ≤ value.toInt) :
    (toSizeT value).toNat = value.toInt.toNat := by
  have cases := toNat_toSizeT value
  omega

/-- The position read for a rank. -/
theorem rankPosition_eq (i : UInt64) :
    BwWorld.rankPosition i = UInt64.ofNat (2 * i.toNat + 6) := by
  apply UInt64.toNat_inj.mp
  have two : (2 : UInt64).toNat = 2 := rfl
  have six : (6 : UInt64).toNat = 6 := rfl
  rw [BwWorld.rankPosition, UInt64.toNat_add, UInt64.toNat_mul, UInt64.toNat_ofNat', two, six]
  omega

/-- The layout of a world that is indexed is agreed on. -/
theorem WorldIndexed.agrees {world : BwWorld} {bw : Stat} {worldSize : Int32}
    (listed : bw.counterList = bwCounterList worldSize)
    (stated : bw.cellAt 3 = toSizeT worldSize) (indexed : WorldIndexed worldSize) :
    BwLayoutAgrees world bw := by
  obtain ⟨nonneg, small⟩ := indexed
  have size : (toSizeT worldSize).toNat = worldSize.toInt.toNat := toNat_toSizeT_of_nonneg nonneg
  have below {i : UInt64} (member : i ∈ BwWorld.ranks (world.sync bw).worldSize) :
      i.toNat < worldSize.toInt.toNat := by
    rw [BwWorld.sync_worldSize, BwWorld.mem_ranks, stated, UInt64.lt_iff_toNat_lt, size] at member
    exact member
  constructor
  · intro read member
    rw [listed, length_bwCounterList]
    rcases List.mem_append.mp member with front | rank
    · simp only [List.mem_cons, List.not_mem_nil, or_false] at front
      rcases front with rfl | rfl | rfl | rfl | rfl <;> simp <;> omega
    · obtain ⟨i, isRank, rfl⟩ := List.mem_map.mp rank
      have isBelow := below isRank
      rw [rankPosition_eq, UInt64.toNat_ofNat']
      omega
  · intro i member
    have isBelow := below member
    have inWorld : 0 ≤ (i.toNat : Int) ∧ (i.toNat : Int) < worldSize.toInt := by omega
    rw [find_cplName listed, if_pos inWorld, rankPosition_eq, Int.toNat_natCast]
  · intro i member
    have isBelow := below member
    have same : (toInt i).toInt = i.toNat := toInt_of_lt (by omega)
    have index : (unetBwCplBytesByRank (toInt i)).toInt = 2 * (i.toNat : Int) + 6 := by
      rw [toInt_unetBwCplBytesByRank, same, Int.bmod_def]
      omega
    apply UInt64.toNat_inj.mp
    rw [rankPosition_eq, toNat_toSizeT_of_nonneg (by omega), index, UInt64.toNat_ofNat']
    omega

/-- The last rank of a world whose positions are of no `int` is counted elsewhere. -/
theorem indexed_small {last : Nat} (below : last + 1 < 2 ^ 31)
    (indexed : toSizeT (unetBwCplBytesByRank (toInt (UInt64.ofNat last))) =
      BwWorld.rankPosition (UInt64.ofNat last)) : 2 * last + 6 < 2 ^ 31 := by
  have word : (UInt64.ofNat last).toNat = last := by
    rw [UInt64.toNat_ofNat']
    omega
  have index := toInt_unetBwCplBytesByRank (toInt (UInt64.ofNat last))
  rw [toInt_of_lt (by omega), word, Int.bmod_def] at index
  have position := congrArg UInt64.toNat indexed
  rw [rankPosition_eq, word, UInt64.toNat_ofNat', Nat.mod_eq_of_lt (by omega)] at position
  have converted := toNat_toSizeT (unetBwCplBytesByRank (toInt (UInt64.ofNat last)))
  rw [position] at converted
  omega

/-- A world without a size makes the monitor read behind the counters, and one whose last
rank has no `int` position makes the plugin count it elsewhere. -/
theorem BwLayoutAgrees.worldIndexed {world : BwWorld} {bw : Stat} {worldSize : Int32}
    (listed : bw.counterList = bwCounterList worldSize)
    (stated : bw.cellAt 3 = toSizeT worldSize) (agrees : BwLayoutAgrees world bw) :
    WorldIndexed worldSize := by
  have most := Int32.toInt_lt worldSize
  have least := Int32.le_toInt worldSize
  have cases := toNat_toSizeT worldSize
  have member {i : UInt64} (below : i.toNat < (toSizeT worldSize).toNat) :
      i ∈ BwWorld.ranks (world.sync bw).worldSize := by
    rwa [BwWorld.sync_worldSize, BwWorld.mem_ranks, stated, UInt64.lt_iff_toNat_lt]
  have nonneg : 0 ≤ worldSize.toInt := by
    by_contra negative
    -- the loop over the ranks runs, and its first read is behind the five counters
    have runs : (0 : UInt64).toNat < (toSizeT worldSize).toNat := by
      rw [UInt64.toNat_zero]
      omega
    have read := agrees.inside (BwWorld.rankPosition 0)
      (List.mem_append_right _ (List.mem_map_of_mem (member runs)))
    rw [listed, length_bwCounterList, rankPosition_eq, UInt64.toNat_zero] at read
    have six : (UInt64.ofNat (2 * 0 + 6)).toNat = 6 := by decide
    omega
  constructor
  · exact nonneg
  · by_contra large
    obtain ⟨last, isLast⟩ : ∃ last : Nat, worldSize.toInt = last + 1 :=
      ⟨(worldSize.toInt - 1).toNat, by omega⟩
    have isRank : UInt64.ofNat last ∈ BwWorld.ranks (world.sync bw).worldSize := by
      apply member
      rw [UInt64.toNat_ofNat']
      omega
    have small := indexed_small (by omega) (agrees.indexed _ isRank)
    omega

/-- Of a published bw stat the monitor reads counters only, and for each rank the one of
its completions, exactly when the world has a size whose positions are of type `int`. -/
theorem bw_layout_agreement {env : RankEnv} {pid : Int32}
    {ibMemory bwMemory : Option (UInt64 → UInt64)} {ib bw : Stat}
    (inited : initStats env pid ibMemory bwMemory = some (ib, some bw)) (world : BwWorld) :
    BwLayoutAgrees world bw ↔ WorldIndexed env.worldSize := by
  obtain ⟨listed, stated⟩ := initStats_stated inited
  constructor
  · intro agrees
    exact agrees.worldIndexed listed stated
  · intro indexed
    exact indexed.agrees listed stated

/-- The monitor finds its way in the stat of a world of two ranks. -/
theorem bw_layout_agreement_two : ∃ ib bw : Stat,
    initStats ⟨1, 1, 2, 2⟩ 4711 (some (fun _ => 0)) (some (fun _ => 0)) = some (ib, some bw) ∧
      BwLayoutAgrees BwWorld.initial bw := by
  obtain ⟨ib, bw, inited⟩ := initStats_some ⟨1, 1, 2, 2⟩ (by decide) 4711 (fun _ => 0) (fun _ => 0)
  exact ⟨ib, bw, inited, (bw_layout_agreement inited BwWorld.initial).mpr (by decide)⟩

/-- A process that knows its rank and not the size of its world publishes five counters,
and the monitor reads the seventh. -/
theorem bw_layout_unsized : ∃ ib bw : Stat,
    initStats ⟨0, 0, -1, -1⟩ 4711 (some (fun _ => 0)) (some (fun _ => 0)) = some (ib, some bw) ∧
      bw.counterList.length = 5 ∧ 6 ∈ BwWorld.initial.reads bw := by
  obtain ⟨ib, bw, inited⟩ :=
    initStats_some ⟨0, 0, -1, -1⟩ (by decide) 4711 (fun _ => 0) (fun _ => 0)
  obtain ⟨listed, stated⟩ := initStats_stated inited
  refine ⟨ib, bw, inited, ?_, ?_⟩
  · rw [listed, length_bwCounterList]
    rfl
  · have first : (0 : UInt64) ∈ BwWorld.ranks (BwWorld.initial.sync bw).worldSize := by
      rw [BwWorld.sync_worldSize, BwWorld.mem_ranks, stated]
      decide
    exact List.mem_append_right _ (List.mem_map_of_mem first)

end NcclExts.Ucommd
