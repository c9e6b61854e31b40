import NcclExts.Ucommd.Stats

/-!
# The stats of the network plugin

One process publishes two stats: the ib stat with counters of fixed positions, and,
when the process knows its rank, the bw stat with a pair of counters for each rank of
the world. The list of the bw stat is sized by the world size of the environment,
while its counters are addressed by a rank that the caller supplies.
-/

namespace NcclExts.Ucommd

/-- What the process reads from its environment; `-1` stands for an unset variable. -/
structure RankEnv where
  rank : Int32
  localRank : Int32
  worldSize : Int32
  localSize : Int32
deriving DecidableEq, Repr

/-- Positions in the ib stat. -/
def unetPid : UInt64 := 0
def unetRank : UInt64 := 1
def unetIbCqCount : UInt64 := 2
def unetIbQpCount : UInt64 := 3
def unetIbMrCount : UInt64 := 4
def unetIbCplCount : UInt64 := 5
def unetIbCplErrCount : UInt64 := 6
def unetIbFifoPostCount : UInt64 := 7
def unetIbFifoRecvCount : UInt64 := 8
def unetIbTxBytes : UInt64 := 9

/-- The counters of the ib stat. -/
def ibCounterList : List String :=
  ["pid", "rank", "cq_count", "qp_count", "mr_count", "cpl_count", "cpl_err_count",
    "fifo_post_count", "fifo_recv_count", "tx_bytes"]

/-- The counters in front of the per-rank ones. -/
def rankingCounters : List String := ["pid", "rank", "local_rank", "world_size", "local_size"]

def txName (rank : Int) : String := "tx_rank" ++ Int.repr rank

def cplName (rank : Int) : String := "cpl_rank" ++ Int.repr rank

/-- The two counters of each rank, in rank order. -/
def rankCounters (worldSize : Nat) : List String :=
  (List.range worldSize).flatMap (fun rank => [txName rank, cplName rank])

/-- The counters of the bw stat; the loop over the ranks runs while the rank is below
the world size. -/
def bwCounterList (worldSize : Int32) : List String :=
  rankingCounters ++ rankCounters worldSize.toInt.toNat

/-- `UnetPerfMonitor::bw_offset_`. -/
def bwOffset : Int32 := 5

/-- `unetBwCplBytesByRank`, in wrapping `int` arithmetic. -/
def unetBwCplBytesByRank (rank : Int32) : Int32 := bwOffset + rank * 2 + 1

/-- A segment with its counters cleared, as `StatsShm::allocStat` hands it out. -/
def allocStat (counterList : List String) (memory : UInt64 → UInt64) : Stat :=
  (Stat.mk counterList memory).clear

/-- Write the ranking information by name. -/
def setRanking (stat : Stat) (env : RankEnv) (pid : Int32) : Option Stat := do
  let stat ← stat.set "pid" (toSizeT pid)
  let stat ← stat.set "rank" (toSizeT env.rank)
  let stat ← stat.set "local_rank" (toSizeT env.localRank)
  let stat ← stat.set "world_size" (toSizeT env.worldSize)
  stat.set "local_size" (toSizeT env.localSize)

/-- `UnetPerfMonitor::init` once it holds its lock: the ib stat and, for a known rank,
the bw stat. A segment that cannot be mapped is `none`, and makes the whole call fail. -/
def initStats (env : RankEnv) (pid : Int32) (ibMemory bwMemory : Option (UInt64 → UInt64)) :
    Option (Stat × Option Stat) := do
  let ib := allocStat ibCounterList (← ibMemory)
  let ib := (ib.setAt unetPid (toSizeT pid)).setAt unetRank (toSizeT env.rank)
  if env.rank ≥ 0 then
    let bw ← setRanking (allocStat (bwCounterList env.worldSize) (← bwMemory)) env pid
    return (ib, some bw)
  else
    return (ib, none)

/-- Where the ib stat keeps the bytes sent. -/
theorem find_txBytes {stat : Stat} (listed : stat.counterList = ibCounterList) :
    stat.find "tx_bytes" = some (Stat.offset unetIbTxBytes) := by
  simp [Stat.find, listed, ibCounterList, List.findIdx?_cons, unetIbTxBytes]

/-! ## Where a rank's completion counter lies -/

theorem cplName_inj {rank other : Int} : cplName rank = cplName other ↔ rank = other := by
  simp only [cplName, String.append_right_inj, Int.repr_inj]

theorem txName_ne_cplName (rank other : Int) : txName rank ≠ cplName other := by
  intro same
  have heads := congrArg (fun name : String => name.toList.head?) same
  simp [txName, cplName] at heads

theorem ranking_ne_cplName (rank : Int) : ∀ name ∈ rankingCounters, name ≠ cplName rank := by
  intro name member same
  have head : name.toList.head? = some 'c' := by
    rw [same]
    simp [cplName]
  simp only [rankingCounters, List.mem_cons, List.not_mem_nil, or_false] at member
  rcases member with rfl | rfl | rfl | rfl | rfl <;> simp at head

/-- Among the per-rank counters, the completion counter of a rank below the world size
has an odd position, and no other rank has one. -/
theorem findIdx_rankCounters (worldSize : Nat) (rank : Int) :
    (rankCounters worldSize).findIdx? (fun counter => counter = cplName rank) =
      if 0 ≤ rank ∧ rank < worldSize then some (2 * rank.toNat + 1) else none := by
  induction worldSize with
  | zero =>
    simp [rankCounters]
  | succ size ih =>
    have length : (rankCounters size).length = 2 * size := by
      simp [rankCounters, List.length_flatMap]
      omega
    have grown : rankCounters (size + 1) =
        rankCounters size ++ [txName size, cplName size] := by
      simp [rankCounters, List.range_succ]
    have tx : ¬ txName size = cplName rank := txName_ne_cplName size rank
    rw [grown, List.findIdx?_append, ih, length]
    by_cases below : 0 ≤ rank ∧ rank < size
    · have still : 0 ≤ rank ∧ rank < (size + 1 : Nat) := by omega
      simp only [if_pos below, if_pos still, Option.some_or]
    · by_cases last : rank = size
      · have inside : 0 ≤ rank ∧ rank < (size + 1 : Nat) := by omega
        have cpl : cplName size = cplName rank := cplName_inj.mpr last.symm
        simp only [if_neg below, if_pos inside, Option.none_or, List.findIdx?_cons, tx, cpl]
        simp [last]
        omega
      · have outside : ¬ (0 ≤ rank ∧ rank < (size + 1 : Nat)) := by omega
        have cpl : ¬ cplName size = cplName rank := fun same => last (cplName_inj.mp same).symm
        simp only [if_neg below, if_neg outside, Option.none_or, List.findIdx?_cons, tx, cpl]
        simp

/-- The completion counter of a rank inside the world, and of no other, is in the list
of the bw stat. -/
theorem findIdx_bwCounterList (worldSize : Int32) (rank : Int) :
    (bwCounterList worldSize).findIdx? (fun counter => counter = cplName rank) =
      if 0 ≤ rank ∧ rank < worldSize.toInt then some (2 * rank.toNat + 6) else none := by
  have absent : rankingCounters.findIdx? (fun counter => counter = cplName rank) = none := by
    rw [List.findIdx?_eq_none_iff]
    intro name member
    simpa using ranking_ne_cplName rank name member
  rw [bwCounterList, List.findIdx?_append, absent, Option.none_or, findIdx_rankCounters]
  have length : rankingCounters.length = 5 := rfl
  by_cases inside : 0 ≤ rank ∧ rank < worldSize.toInt
  · have below : 0 ≤ rank ∧ rank < (worldSize.toInt.toNat : Int) := by omega
    simp only [if_pos inside, if_pos below, Option.map_some, length]
  · have outside : ¬ (0 ≤ rank ∧ rank < (worldSize.toInt.toNat : Int)) := by omega
    rw [if_neg inside, if_neg outside, Option.map_none]

theorem toInt_unetBwCplBytesByRank (rank : Int32) :
    (unetBwCplBytesByRank rank).toInt = (2 * rank.toInt + 6).bmod (2 ^ 32) := by
  have two : (2 : Int32).toInt = 2 := rfl
  have five : bwOffset.toInt = 5 := rfl
  have one : (1 : Int32).toInt = 1 := rfl
  have sum : 5 + rank.toInt * 2 + 1 = 2 * rank.toInt + 6 := by omega
  simp only [unetBwCplBytesByRank, Int32.toInt_add, Int32.toInt_mul, two, five, one,
    Int.bmod_add_bmod, Int.add_bmod_bmod, sum]

/-- Where a bw stat of a world keeps the completion counter of a rank. -/
theorem find_cplName {stat : Stat} {worldSize : Int32}
    (listed : stat.counterList = bwCounterList worldSize) (rank : Int) :
    stat.find (cplName rank) = if 0 ≤ rank ∧ rank < worldSize.toInt then
      some (Stat.offset (UInt64.ofNat (2 * rank.toNat + 6))) else none := by
  rw [Stat.find, listed, findIdx_bwCounterList]
  split <;> rfl

/-- The rank has a completion counter, and the index of that counter is an `int`. -/
def RankCounted (worldSize rank : Int32) : Prop :=
  0 ≤ rank.toInt ∧ rank.toInt < worldSize.toInt ∧ 2 * rank.toInt + 6 < 2 ^ 31

instance (worldSize rank : Int32) : Decidable (RankCounted worldSize rank) :=
  inferInstanceAs (Decidable (_ ∧ _))

/-- The index of a rank reaches its completion counter. -/
theorem find_cplName_counted {stat : Stat} {worldSize rank : Int32}
    (listed : stat.counterList = bwCounterList worldSize) (counted : RankCounted worldSize rank) :
    stat.find (cplName rank.toInt) =
      some (Stat.offset (toSizeT (unetBwCplBytesByRank rank))) := by
  obtain ⟨atLeast, below, small⟩ := counted
  have most := Int32.toInt_lt rank
  have position : (unetBwCplBytesByRank rank).toInt = (2 * rank.toInt.toNat + 6 : Nat) := by
    rw [toInt_unetBwCplBytesByRank, Int.bmod_def]
    split <;> omega
  rw [find_cplName listed, if_pos ⟨atLeast, below⟩, (offset_eq_iff _ _ (by omega)).mpr position]

/-- Adding something by the index of a rank is adding it by the name of its completion
counter exactly when the index reaches that counter. -/
theorem add_index_eq_addNamed_iff {stat : Stat} {worldSize : Int32}
    (listed : stat.counterList = bwCounterList worldSize) (rank : Int32) {val : UInt64}
    (some : val ≠ 0) :
    stat.add (toSizeT (unetBwCplBytesByRank rank)) val =
      stat.addNamed (cplName rank.toInt) val ↔ RankCounted worldSize rank := by
  constructor
  · intro named
    have hit := congrArg (fun stat : Stat =>
      stat.cells (Stat.offset (toSizeT (unetBwCplBytesByRank rank)))) named
    have untouched (cell : UInt64) : cell + val ≠ cell := by simpa using some
    simp only [Stat.add_cell, Stat.addNamed, find_cplName listed] at hit
    by_cases inside : 0 ≤ rank.toInt ∧ rank.toInt < worldSize.toInt
    · simp only [if_pos inside] at hit
      by_cases same : Stat.offset (toSizeT (unetBwCplBytesByRank rank)) =
          Stat.offset (UInt64.ofNat (2 * rank.toInt.toNat + 6))
      · have most := Int32.toInt_lt rank
        have position := (offset_eq_iff _ _ (by omega)).mp same
        rw [toInt_unetBwCplBytesByRank, Int.bmod_def] at position
        refine ⟨inside.1, inside.2, ?_⟩
        split at position <;> omega
      · rw [Function.update_of_ne same] at hit
        exact absurd hit (untouched _)
    · simp only [if_neg inside] at hit
      exact absurd hit (untouched _)
  · intro counted
    simp only [Stat.addNamed, find_cplName_counted listed counted, Stat.add]

theorem setRanking_counterList {stat after : Stat} {env : RankEnv} {pid : Int32}
    (written : setRanking stat env pid = some after) : after.counterList = stat.counterList := by
  simp only [setRanking, Option.bind_eq_bind, Option.bind_eq_some_iff] at written
  obtain ⟨first, isFirst, second, isSecond, third, isThird, fourth, isFourth, isLast⟩ := written
  rw [Stat.set_counterList isLast, Stat.set_counterList isFourth, Stat.set_counterList isThird,
    Stat.set_counterList isSecond, Stat.set_counterList isFirst]

theorem setRanking_some (stat : Stat) (listed : ∀ name ∈ rankingCounters, name ∈ stat.counterList)
    (env : RankEnv) (pid : Int32) : ∃ after, setRanking stat env pid = some after := by
  have step {stat : Stat} (listed : ∀ name ∈ rankingCounters, name ∈ stat.counterList)
      (name : String) (member : name ∈ rankingCounters) (val : UInt64) :
      ∃ after, stat.set name val = some after ∧
        ∀ name ∈ rankingCounters, name ∈ after.counterList := by
    have found : (stat.find name).isSome := by
      simpa [Stat.find] using listed name member
    obtain ⟨cell, isCell⟩ := Option.isSome_iff_exists.mp found
    refine ⟨{ stat with cells := Function.update stat.cells cell val }, ?_, listed⟩
    rw [Stat.set, isCell, Option.map_some]
  obtain ⟨first, isFirst, listed⟩ := step listed "pid" (by simp [rankingCounters])
    (toSizeT pid)
  obtain ⟨second, isSecond, listed⟩ := step listed "rank" (by simp [rankingCounters])
    (toSizeT env.rank)
  obtain ⟨third, isThird, listed⟩ := step listed "local_rank" (by simp [rankingCounters])
    (toSizeT env.localRank)
  obtain ⟨fourth, isFourth, listed⟩ := step listed "world_size"
    (by simp [rankingCounters]) (toSizeT env.worldSize)
  obtain ⟨fifth, isFifth, _⟩ := step listed "local_size" (by simp [rankingCounters])
    (toSizeT env.localSize)
  exact ⟨fifth, by simp [setRanking, isFirst, isSecond, isThird, isFourth, isFifth]⟩

/-- With its segments mapped and its rank known, `init` succeeds. -/
theorem initStats_some (env : RankEnv) (known : env.rank ≥ 0) (pid : Int32)
    (ibMemory bwMemory : UInt64 → UInt64) :
    ∃ ib bw, initStats env pid (some ibMemory) (some bwMemory) = some (ib, some bw) := by
  obtain ⟨bw, written⟩ := setRanking_some (allocStat (bwCounterList env.worldSize) bwMemory)
    (fun name member => List.mem_append_left _ member) env pid
  exact ⟨_, bw, by simp [initStats, known, written]; rfl⟩

/-- A successful `init` publishes the ib stat. -/
theorem initStats_ib {env : RankEnv} {pid : Int32} {ibMemory bwMemory : Option (UInt64 → UInt64)}
    {ib : Stat} {bw : Option Stat} (inited : initStats env pid ibMemory bwMemory = some (ib, bw)) :
    ib.counterList = ibCounterList := by
  simp only [initStats, Option.bind_eq_bind, Option.bind_eq_some_iff] at inited
  obtain ⟨memory, _, result⟩ := inited
  split at result
  · obtain ⟨_, _, _, _, same⟩ := by
      simpa only [Option.bind_eq_some_iff] using result
    simp only [Option.pure_def, Option.some.injEq, Prod.mk.injEq] at same
    rw [← same.1]
    rfl
  · simp only [Option.pure_def, Option.some.injEq, Prod.mk.injEq] at result
    rw [← result.1]
    rfl

/-- A successful `init` publishes a bw stat exactly for a known rank, with the list of
the world size it read. -/
theorem initStats_bw {env : RankEnv} {pid : Int32} {ibMemory bwMemory : Option (UInt64 → UInt64)}
    {ib : Stat} {bw : Option Stat} (inited : initStats env pid ibMemory bwMemory = some (ib, bw)) :
    if env.rank ≥ 0 then ∃ stat, bw = some stat ∧ stat.counterList = bwCounterList env.worldSize
    else bw = none := by
  simp only [initStats, Option.bind_eq_bind, Option.bind_eq_some_iff] at inited
  obtain ⟨memory, _, result⟩ := inited
  split at result
  · rename_i known
    obtain ⟨bwMemory, _, stat, written, same⟩ := by
      simpa only [Option.bind_eq_some_iff] using result
    rw [if_pos known]
    have list := setRanking_counterList written
    simp only [Option.pure_def, Option.some.injEq, Prod.mk.injEq] at same
    exact ⟨stat, same.2.symm, list⟩
  · rename_i unknown
    rw [if_neg unknown]
    simp only [Option.pure_def, Option.some.injEq, Prod.mk.injEq] at result
    exact result.2.symm

end NcclExts.Ucommd
