import NcclExts.Foundation.System
import NcclExts.Ucommd.BwPrint

/-!
# Throughput samples

Every call of `Monitor::bw_print_func` reads the bw stats of all processes and stores, for
each of them and each rank that bytes went to, the bytes in a second since the call
before. What it remembers of the call before is kept by local rank, and dropped when a
stat states another size of the world; the product is taken in 64 bits. Next to the
variables of the monitor stand what they are meant to follow: when each process was
sampled last and what its counters were, and the samples with what they should be.
-/

namespace NcclExts.Ucommd

open NcclExts.Foundation

/-! ## The monitor -/

/-- The static variables of `Monitor::bw_print_func`. -/
structure BwMonitor where
  world : BwWorld
  prevGetNs : UInt64
  prevPrintNs : UInt64

/-- The variables as the program starts with them. -/
def BwMonitor.initial : BwMonitor := { world := .initial, prevGetNs := 0, prevPrintNs := 0 }

/-- What printing leaves of the variables: the throughputs are printed, and the local ranks
that are printed have entries afterwards. -/
def BwWorld.printed (world : BwWorld) : BwWorld :=
  let entry (map : Int32 → Option Int32) (localRank : Int32) : Option Int32 :=
    if (ranks world.localWorldSize).any (fun i => toInt i = localRank) then
      some ((map localRank).getD 0)
    else map localRank
  { world with
    unprinted := fun _ _ => []
    local2GlobalRank := entry world.local2GlobalRank
    localRank2Pid := entry world.localRank2Pid }

/-- The end of `Monitor::bw_print_func`: print once a second. -/
def BwMonitor.print (monitor : BwMonitor) (now : UInt64) : BwMonitor :=
  if now - monitor.prevPrintNs > 1000000000 then
    { monitor with world := monitor.world.printed, prevPrintNs := now }
  else monitor

/-- `Monitor::bw_print_func` at a time of the steady clock, with the bw stats that are
recorded then. -/
def bwPrintFunc (monitor : BwMonitor) (now : UInt64) (stats : List Stat) : BwMonitor :=
  let duration := now - monitor.prevGetNs
  if duration < 1000000 then monitor
  else
    { monitor with
      world := stats.foldl (BwWorld.collect duration) monitor.world
      prevGetNs := now }.print now

/-! ## What it is meant to follow -/

/-- A bw stat among those recorded, with the process it is of. -/
structure BwRow where
  proc : Nat
  stat : Stat

/-- The counter for a rank. -/
def BwRow.bytes (row : BwRow) (i : UInt64) : UInt64 := row.stat.cellAt (BwWorld.rankPosition i)

/-- The local rank that a row states. -/
def BwRow.localRank (row : BwRow) : Int32 := toInt (row.stat.cellAt 2)

/-- The ranks of the world that a row states. -/
def BwRow.targets (row : BwRow) : List UInt64 := BwWorld.ranks (row.stat.cellAt 3)

/-- When a process was sampled, and its counters then. -/
structure Sampling where
  time : UInt64
  bytes : UInt64 → UInt64

/-- A sample that is stored: for a process and a rank, at a time and with the counter at
that time; and the sampling of the process before. -/
structure ThruputSample where
  proc : Nat
  target : UInt64
  value : UInt64
  time : UInt64
  bytes : UInt64
  before : Option Sampling

/-- The sample is the growth since a sampling of the process, in a second. -/
def ThruputSample.GrowthSince (sample : ThruputSample) : Option Sampling → Prop
  | none => False
  | some before =>
    before.time < sample.time ∧ before.bytes sample.target ≤ sample.bytes ∧
      sample.value.toNat =
        (sample.bytes.toNat - (before.bytes sample.target).toNat) * 1000000000 /
          (sample.time.toNat - before.time.toNat)

instance (sample : ThruputSample) : ∀ before, Decidable (sample.GrowthSince before)
  | none => .isFalse id
  | some _ => inferInstanceAs (Decidable (_ ∧ _ ∧ _))

/-- The sample is the growth since the sampling of its process before, in a second. -/
def ThruputSample.Exact (sample : ThruputSample) : Prop := sample.GrowthSince sample.before

instance (sample : ThruputSample) : Decidable sample.Exact :=
  inferInstanceAs (Decidable (sample.GrowthSince _))

/-- The monitor with a record of what happened: the last sampling of each process, whose
row was read last under each local rank and at what time, as long as it is remembered,
and the samples. -/
structure BwMonitoring extends BwMonitor where
  history : Nat → Option Sampling
  keeper : Int32 → Option (Nat × UInt64)
  samples : List ThruputSample

namespace BwMonitoring

/-- A row states other sizes of the world than are remembered. -/
def Drops (state : BwMonitoring) (row : BwRow) : Prop :=
  state.world.worldSize ≠ row.stat.cellAt 3 ∨ state.world.localWorldSize ≠ row.stat.cellAt 4

instance (state : BwMonitoring) (row : BwRow) : Decidable (state.Drops row) :=
  inferInstanceAs (Decidable (_ ∨ _))

/-- What is remembered of the counter for a rank when a row is read. -/
def remembered (state : BwMonitoring) (row : BwRow) (i : UInt64) : UInt64 :=
  (state.world.sync row.stat).prevCqlMap row.localRank i

/-- Whose row is remembered under the local rank of a row when it is read. -/
def keeperOf (state : BwMonitoring) (row : BwRow) : Option (Nat × UInt64) :=
  if state.Drops row then none else state.keeper row.localRank

/-- The sample that reading a row stores for a rank, if its counter changed. -/
def sampleOf (duration now : UInt64) (state : BwMonitoring) (row : BwRow) (i : UInt64) :
    Option ThruputSample :=
  if state.remembered row i = row.bytes i then none
  else
    some { proc := row.proc
           target := i
           value := BwWorld.thruput (row.bytes i - state.remembered row i) duration
           time := now
           bytes := row.bytes i
           before := state.history row.proc }

/-- The samples that reading a row stores. -/
def stored (duration now : UInt64) (state : BwMonitoring) (row : BwRow) : List ThruputSample :=
  row.targets.filterMap (state.sampleOf duration now row)

/-- Read a row. -/
def observe (duration now : UInt64) (state : BwMonitoring) (row : BwRow) : BwMonitoring :=
  { state with
    world := state.world.collect duration row.stat
    history := Function.update state.history row.proc (some ⟨now, row.bytes⟩)
    keeper := Function.update (if state.Drops row then fun _ => none else state.keeper)
      row.localRank (some (row.proc, now))
    samples := state.samples ++ state.stored duration now row }

/-- A call with the rows that are recorded. -/
structure Call where
  now : UInt64
  rows : List BwRow

/-- A call of `Monitor::bw_print_func`. -/
def call (state : BwMonitoring) (event : Call) : BwMonitoring :=
  let duration := event.now - state.prevGetNs
  if duration < 1000000 then state
  else
    let state := event.rows.foldl (observe duration event.now) { state with prevGetNs := event.now }
    { state with toBwMonitor := state.toBwMonitor.print event.now }

/-- The record before the first call. -/
def initial : BwMonitoring :=
  { BwMonitor.initial with history := fun _ => none, keeper := fun _ => none, samples := [] }

/-- Every sequence of calls. -/
def monitoring : System BwMonitoring Call where
  starts := fun state => state = initial
  step := fun state event => some (state.call event)

/-! ## The record is of the monitor -/

/-- Reading rows does with the variables of the monitor what the code does. -/
theorem foldl_observe (duration now : UInt64) (rows : List BwRow) (state : BwMonitoring) :
    (rows.foldl (observe duration now) state).toBwMonitor =
      { state.toBwMonitor with
        world := (rows.map BwRow.stat).foldl (BwWorld.collect duration) state.world } := by
  induction rows generalizing state with
  | nil => rfl
  | cons row rest ih =>
    rw [List.foldl_cons, ih, List.map_cons, List.foldl_cons]
    rfl

/-- So does a call. -/
theorem call_toBwMonitor (state : BwMonitoring) (event : Call) :
    (state.call event).toBwMonitor =
      bwPrintFunc state.toBwMonitor event.now (event.rows.map BwRow.stat) := by
  unfold call bwPrintFunc
  dsimp only
  split
  · rfl
  · rw [foldl_observe]

end BwMonitoring

/-! ## Reading one stat -/

namespace BwWorld

/-- What is pushed for a rank. -/
def pushed (duration : UInt64) (localRank : Int32) (stat : Stat) (world : BwWorld) (i : UInt64) :
    List UInt64 :=
  if world.prevCqlMap localRank i = stat.cellAt (rankPosition i) then []
  else [thruput (stat.cellAt (rankPosition i) - world.prevCqlMap localRank i) duration]

/-- The ranks are different words. -/
theorem ranks_nodup (worldSize : UInt64) : (ranks worldSize).Nodup := by
  refine List.Nodup.map_on (fun i inside j insideOther same => ?_) List.nodup_range
  have word := UInt64.toNat_lt worldSize
  have small := List.mem_range.mp inside
  have smallOther := List.mem_range.mp insideOther
  have values := congrArg UInt64.toNat same
  rw [UInt64.toNat_ofNat', UInt64.toNat_ofNat'] at values
  omega

/-- Turns for different ranks leave the counters of the ranks, push for each of them, and
leave the rest. -/
structure Turned (duration : UInt64) (localRank : Int32) (stat : Stat) (world : BwWorld)
    (turns : List UInt64) (after : BwWorld) : Prop where
  worldSize : after.worldSize = world.worldSize
  localWorldSize : after.localWorldSize = world.localWorldSize
  remembers : ∀ i ∈ turns, after.prevCqlMap localRank i = stat.cellAt (rankPosition i)
  pushes : ∀ i ∈ turns, after.unprinted localRank i =
    world.unprinted localRank i ++ world.pushed duration localRank stat i
  othersRemembered : ∀ other i, other ≠ localRank ∨ i ∉ turns →
    after.prevCqlMap other i = world.prevCqlMap other i
  othersUnprinted : ∀ other i, other ≠ localRank ∨ i ∉ turns →
    after.unprinted other i = world.unprinted other i

/-- One turn. -/
theorem collectRank_turned (duration : UInt64) (localRank : Int32) (stat : Stat)
    (world : BwWorld) (i : UInt64) :
    Turned duration localRank stat world [i] (world.collectRank duration localRank stat i) := by
  unfold collectRank
  dsimp only
  by_cases same : world.prevCqlMap localRank i = stat.cellAt (rankPosition i)
  · rw [if_pos same]
    refine ⟨rfl, rfl, fun j isI => ?_, fun j isI => ?_, fun _ _ _ => rfl, fun _ _ _ => rfl⟩
    · rw [List.mem_singleton.mp isI, same]
    · rw [List.mem_singleton.mp isI, pushed, if_pos same, List.append_nil]
  · rw [if_neg same]
    have elsewhere {α : Type} (map : Int32 → UInt64 → α) (value : α) (other : Int32) (j : UInt64)
        (away : other ≠ localRank ∨ j ∉ [i]) :
        Function.update map localRank (Function.update (map localRank) i value) other j =
          map other j := by
      by_cases isRank : other = localRank
      · have apart : j ≠ i := by
          rcases away with away | away
          · exact absurd isRank away
          · exact fun equal => away (List.mem_singleton.mpr equal)
        rw [isRank, Function.update_self, Function.update_of_ne apart]
      · rw [Function.update_of_ne isRank]
    refine ⟨rfl, rfl, fun j isI => ?_, fun j isI => ?_, fun other j away => ?_,
      fun other j away => ?_⟩
    · rw [List.mem_singleton.mp isI]
      simp only [Function.update_self]
    · rw [List.mem_singleton.mp isI, pushed, if_neg same]
      simp only [Function.update_self]
    · exact elsewhere _ _ other j away
    · exact elsewhere _ _ other j away

/-- All turns. -/
theorem foldl_collectRank_turned (duration : UInt64) (localRank : Int32) (stat : Stat)
    (turns : List UInt64) (world : BwWorld) (distinct : turns.Nodup) :
    Turned duration localRank stat world turns
      (turns.foldl (collectRank duration localRank stat) world) := by
  induction turns generalizing world with
  | nil =>
    exact ⟨rfl, rfl, fun i member => absurd member List.not_mem_nil,
      fun i member => absurd member List.not_mem_nil, fun _ _ _ => rfl, fun _ _ _ => rfl⟩
  | cons turn rest ih =>
    obtain ⟨new, distinct⟩ := List.nodup_cons.mp distinct
    have first := collectRank_turned duration localRank stat world turn
    have later := ih (collectRank duration localRank stat world turn) distinct
    have notTurn {i : UInt64} (member : i ∈ rest) : i ∉ [turn] := by
      intro equal
      rw [List.mem_singleton.mp equal] at member
      exact new member
    rw [List.foldl_cons]
    refine ⟨later.worldSize.trans first.worldSize,
      later.localWorldSize.trans first.localWorldSize, fun i member => ?_, fun i member => ?_,
      fun other i away => ?_, fun other i away => ?_⟩
    · rcases List.mem_cons.mp member with rfl | member
      · rw [later.othersRemembered localRank i (Or.inr new)]
        exact first.remembers i List.mem_cons_self
      · exact later.remembers i member
    · rcases List.mem_cons.mp member with rfl | member
      · rw [later.othersUnprinted localRank i (Or.inr new)]
        exact first.pushes i List.mem_cons_self
      · rw [later.pushes i member, first.othersUnprinted localRank i (Or.inr (notTurn member)),
          pushed, pushed, first.othersRemembered localRank i (Or.inr (notTurn member))]
    · rw [List.mem_cons, not_or] at away
      rw [later.othersRemembered other i (away.imp_right And.right),
        first.othersRemembered other i (away.imp_right fun both => by simpa using both.1)]
    · rw [List.mem_cons, not_or] at away
      rw [later.othersUnprinted other i (away.imp_right And.right),
        first.othersUnprinted other i (away.imp_right fun both => by simpa using both.1)]

/-- Reading a stat takes the turns for the ranks of its world, once the sizes are taken
over. -/
theorem collect_turned (duration : UInt64) (world : BwWorld) (stat : Stat) :
    Turned duration (toInt (stat.cellAt 2)) stat (world.sync stat) (ranks (stat.cellAt 3))
      (world.collect duration stat) := by
  have turned := foldl_collectRank_turned duration (toInt (stat.cellAt 2)) stat
    (ranks (world.sync stat).worldSize)
    { world.sync stat with
      local2GlobalRank := Function.update (world.sync stat).local2GlobalRank
        (toInt (stat.cellAt 2)) (some (toInt (stat.cellAt 1)))
      localRank2Pid := Function.update (world.sync stat).localRank2Pid
        (toInt (stat.cellAt 2)) (some (toInt (stat.cellAt 0))) } (ranks_nodup _)
  rw [← sync_worldSize world stat]
  exact ⟨turned.worldSize, turned.localWorldSize, turned.remembers, turned.pushes,
    turned.othersRemembered, turned.othersUnprinted⟩

end BwWorld

namespace BwMonitoring

/-- Of what different items give, each under its item, one item's is what it gives. -/
theorem filter_filterMap_of_nodup {α β : Type} [DecidableEq α] {give : α → Option β}
    {item : β → α} (under : ∀ i given, give i = some given → item given = i) {items : List α}
    (distinct : items.Nodup) {i : α} (member : i ∈ items) :
    (items.filterMap give).filter (fun given => item given = i) = (give i).toList := by
  induction items with
  | nil => exact absurd member List.not_mem_nil
  | cons first rest ih =>
    obtain ⟨new, distinct⟩ := List.nodup_cons.mp distinct
    rcases List.mem_cons.mp member with rfl | member
    · have others : (rest.filterMap give).filter (fun given => item given = i) = [] := by
        rw [List.filter_eq_nil_iff]
        intro given isGiven equal
        obtain ⟨j, inside, gives⟩ := List.mem_filterMap.mp isGiven
        rw [under j given gives, decide_eq_true_eq] at equal
        exact new (equal ▸ inside)
      cases gives : give i with
      | none => rw [List.filterMap_cons_none gives, others, Option.toList_none]
      | some given =>
        rw [List.filterMap_cons_some gives, List.filter_cons_of_pos (by simp [under i given gives]),
          others, Option.toList_some]
    · have away : first ≠ i := by
        rintro rfl
        exact new member
      cases gives : give first with
      | none => rw [List.filterMap_cons_none gives, ih distinct member]
      | some given =>
        rw [List.filterMap_cons_some gives,
          List.filter_cons_of_neg (by simpa [under first given gives] using away),
          ih distinct member]

/-- What the record notes of a row is what the code pushes for its ranks. -/
theorem observe_unprinted (duration now : UInt64) (state : BwMonitoring) (row : BwRow)
    {i : UInt64} (target : i ∈ row.targets) :
    (state.observe duration now row).world.unprinted row.localRank i =
      (state.world.sync row.stat).unprinted row.localRank i ++
        ((state.stored duration now row).filter fun sample => sample.target = i).map
          ThruputSample.value := by
  have pushes := (BwWorld.collect_turned duration state.world row.stat).pushes i target
  have under : ∀ i sample, state.sampleOf duration now row i = some sample →
      sample.target = i := by
    intro i sample isSample
    unfold sampleOf at isSample
    split at isSample
    · cases isSample
    · rw [← Option.some.inj isSample]
  have same : (state.sampleOf duration now row i).toList.map ThruputSample.value =
      (state.world.sync row.stat).pushed duration row.localRank row.stat i := by
    rw [sampleOf, BwWorld.pushed]
    by_cases unchanged : state.remembered row i = row.bytes i
    · rw [if_pos unchanged]
      exact (if_pos unchanged).symm
    · rw [if_neg unchanged]
      exact (if_neg unchanged).symm
  rw [stored, BwRow.targets,
    filter_filterMap_of_nodup under (BwWorld.ranks_nodup (row.stat.cellAt 3)) target, same]
  exact pushes

/-! ## Exact samples -/

/-- The sizes that a stat states are taken over as they are, when no row drops them. -/
theorem sync_of_not_drops {state : BwMonitoring} {row : BwRow} (keeps : ¬ state.Drops row) :
    state.world.sync row.stat = state.world :=
  if_neg keeps

/-- The counters of a row are not below those of a sampling before. -/
def GrownFrom (row : BwRow) : Option Sampling → Prop
  | none => True
  | some before => ∀ i ∈ row.targets, before.bytes i ≤ row.bytes i

-- over the list of ranks: words are a finite type too, and too large a one to go over
instance (row : BwRow) : ∀ before, Decidable (GrownFrom row before)
  | none => .isTrue trivial
  | some before => List.decidableBAll (fun i => before.bytes i ≤ row.bytes i) row.targets

/-- Counters of a process do not fall from its last sampling on. -/
def Fed (state : BwMonitoring) (row : BwRow) : Prop := GrownFrom row (state.history row.proc)

instance (state : BwMonitoring) (row : BwRow) : Decidable (state.Fed row) :=
  inferInstanceAs (Decidable (GrownFrom row _))

/-- A counter of a row that differs from what is remembered under its local rank: there the
row of the same process was remembered, in the sampling before, and the growth in
nanoseconds is a word. -/
def Tracked (previous : UInt64) (state : BwMonitoring) (row : BwRow) : Prop :=
  ∀ i ∈ row.targets, state.remembered row i ≠ row.bytes i →
    state.keeperOf row = some (row.proc, previous) ∧
      ((row.bytes i).toNat - (state.remembered row i).toNat) * 1000000000 < 2 ^ 64

instance (previous : UInt64) (state : BwMonitoring) (row : BwRow) :
    Decidable (state.Tracked previous row) :=
  List.decidableBAll (fun i => state.remembered row i ≠ row.bytes i →
    state.keeperOf row = some (row.proc, previous) ∧
      ((row.bytes i).toNat - (state.remembered row i).toNat) * 1000000000 < 2 ^ 64) row.targets

/-- Something holds of every row of a call when it is read. -/
def EachRow (duration now : UInt64) (holds : BwMonitoring → BwRow → Prop) :
    BwMonitoring → List BwRow → Prop
  | _, [] => True
  | state, row :: rest =>
    holds state row ∧ EachRow duration now holds (state.observe duration now row) rest

instance EachRow.decidable (duration now : UInt64) (holds : BwMonitoring → BwRow → Prop)
    [∀ state row, Decidable (holds state row)] :
    ∀ state rows, Decidable (EachRow duration now holds state rows)
  | _, [] => .isTrue trivial
  | state, row :: rest =>
    @instDecidableAnd _ _ _
      (EachRow.decidable duration now holds (state.observe duration now row) rest)

/-- Something holds of every row that a call reads; it reads none when it comes too soon. -/
def Call.Each (event : Call) (holds : BwMonitoring → BwRow → Prop) (state : BwMonitoring) : Prop :=
  ¬ event.now - state.prevGetNs < 1000000 →
    EachRow (event.now - state.prevGetNs) event.now holds { state with prevGetNs := event.now }
      event.rows

/-- What calls are like: the clock does not go back, a process has one row, and its counters
do not fall. -/
structure Call.Proper (event : Call) (state : BwMonitoring) : Prop where
  clock : state.prevGetNs ≤ event.now
  once : (event.rows.map BwRow.proc).Nodup
  fed : event.Each Fed state

instance (event : Call) (holds : BwMonitoring → BwRow → Prop)
    [∀ state row, Decidable (holds state row)] (state : BwMonitoring) :
    Decidable (event.Each holds state) :=
  inferInstanceAs (Decidable (_ → _))

instance (event : Call) (state : BwMonitoring) : Decidable (event.Proper state) :=
  decidable_of_iff
    (state.prevGetNs ≤ event.now ∧ (event.rows.map BwRow.proc).Nodup ∧ event.Each Fed state)
    ⟨fun both => ⟨both.1, both.2.1, both.2.2⟩,
      fun proper => ⟨proper.clock, proper.once, proper.fed⟩⟩

/-- What is remembered while the rows of a call are read, some of which are still unread:
the samples are exact; the keeper of a local rank has been sampled, and if not again since,
its counters are those that are remembered; and no process was sampled later than now, or
later than the call before if it is unread. -/
structure Remembering (previous now : UInt64) (unread : List Nat) (state : BwMonitoring) :
    Prop where
  exact : ∀ sample ∈ state.samples, sample.Exact
  kept : ∀ localRank proc time, state.keeper localRank = some (proc, time) →
    ∃ before ∈ state.history proc, time ≤ before.time ∧ (before.time = time →
      ∀ i ∈ BwWorld.ranks state.world.worldSize,
        state.world.prevCqlMap localRank i = before.bytes i)
  past : ∀ proc, ∀ before ∈ state.history proc, before.time ≤ now
  old : ∀ proc ∈ unread, ∀ before ∈ state.history proc, before.time ≤ previous

/-- The throughput is exact when its product is a word. -/
theorem thruput_exact {before after previous now : UInt64} (grown : before ≤ after)
    (passed : previous < now) (small : (after.toNat - before.toNat) * 1000000000 < 2 ^ 64) :
    (BwWorld.thruput (after - before) (now - previous)).toNat =
      (after.toNat - before.toNat) * 1000000000 / (now.toNat - previous.toNat) := by
  rw [UInt64.le_iff_toNat_le] at grown
  have passed' := Nat.le_of_lt (UInt64.lt_iff_toNat_lt.mp passed)
  rw [BwWorld.thruput, UInt64.toNat_div, UInt64.toNat_mul,
    UInt64.toNat_sub_of_le _ _ (UInt64.le_iff_toNat_le.mpr grown),
    UInt64.toNat_sub_of_le _ _ (UInt64.le_iff_toNat_le.mpr passed'),
    show (1000000000 : UInt64).toNat = 1000000000 from rfl, Nat.mod_eq_of_lt small]

variable {previous now : UInt64} {state : BwMonitoring} {row : BwRow} {unread : List Nat}

/-- What a tracked row stores is exact. -/
theorem Remembering.stored_exact
    (remembering : state.Remembering previous now (row.proc :: unread)) (passed : previous < now)
    (fed : state.Fed row) (tracked : state.Tracked previous row) :
    ∀ sample ∈ state.stored (now - previous) now row, sample.Exact := by
  intro sample isStored
  obtain ⟨i, target, isSample⟩ := List.mem_filterMap.mp isStored
  unfold sampleOf at isSample
  split at isSample
  · cases isSample
  next changed =>
    obtain ⟨isKeeper, small⟩ := tracked i target changed
    unfold keeperOf at isKeeper
    split at isKeeper
    · cases isKeeper
    next keeps =>
      obtain ⟨before, known, since, same⟩ := remembering.kept _ _ _ isKeeper
      have time : before.time = previous :=
        UInt64.le_antisymm (remembering.old _ List.mem_cons_self _ known) since
      have size : state.world.worldSize = row.stat.cellAt 3 := by
        unfold Drops at keeps
        rw [not_or, not_not] at keeps
        exact keeps.1
      have bytes : state.remembered row i = before.bytes i := by
        rw [remembered, sync_of_not_drops keeps]
        exact same time i (size ▸ target)
      have grown : before.bytes i ≤ row.bytes i := by
        rw [Fed, Option.mem_def.mp known] at fed
        exact fed i target
      rw [bytes] at small
      rw [← Option.some.inj isSample, ThruputSample.Exact]
      dsimp only
      rw [Option.mem_def.mp known, bytes, ThruputSample.GrowthSince, time]
      exact ⟨passed, grown, thruput_exact grown passed small⟩

/-- Reading a tracked row keeps what is remembered. -/
theorem Remembering.observe
    (remembering : state.Remembering previous now (row.proc :: unread)) (passed : previous < now)
    (fed : state.Fed row) (tracked : state.Tracked previous row) (new : row.proc ∉ unread) :
    (state.observe (now - previous) now row).Remembering previous now unread := by
  have turned := BwWorld.collect_turned (now - previous) state.world row.stat
  have size : (state.observe (now - previous) now row).world.worldSize = row.stat.cellAt 3 :=
    turned.worldSize.trans (BwWorld.sync_worldSize _ _)
  have sampled : ∀ proc, (state.observe (now - previous) now row).history proc =
      if proc = row.proc then some ⟨now, row.bytes⟩ else state.history proc := by
    intro proc
    exact Function.update_apply _ _ _ _
  constructor
  · intro sample member
    rcases List.mem_append.mp member with older | isStored
    · exact remembering.exact sample older
    · exact remembering.stored_exact passed fed tracked sample isStored
  · intro localRank proc time isKeeper
    change Function.update (if state.Drops row then fun _ => none else state.keeper)
      row.localRank (some (row.proc, now)) localRank = some (proc, time) at isKeeper
    rw [sampled]
    by_cases isRank : localRank = row.localRank
    · rw [isRank, Function.update_self, Option.some.injEq, Prod.mk.injEq] at isKeeper
      obtain ⟨rfl, rfl⟩ := isKeeper
      refine ⟨⟨now, row.bytes⟩, by rw [if_pos rfl]; rfl, UInt64.le_refl _, fun _ i inside => ?_⟩
      rw [size] at inside
      rw [isRank]
      exact turned.remembers i inside
    · rw [Function.update_of_ne isRank] at isKeeper
      by_cases drops : state.Drops row
      · rw [if_pos drops] at isKeeper
        cases isKeeper
      · rw [if_neg drops] at isKeeper
        obtain ⟨before, known, since, same⟩ := remembering.kept _ _ _ isKeeper
        by_cases isProc : proc = row.proc
        · rw [if_pos isProc]
          -- the process is read again under another local rank
          have earlier := remembering.old proc (isProc ▸ List.mem_cons_self) before known
          have later := UInt64.lt_of_le_of_lt (UInt64.le_trans since earlier) passed
          exact ⟨⟨now, row.bytes⟩, rfl, UInt64.le_of_lt later,
            fun equal => absurd (equal ▸ later) (UInt64.lt_irrefl _)⟩
        · rw [if_neg isProc]
          refine ⟨before, known, since, fun equal i inside => ?_⟩
          have kept := turned.othersRemembered localRank i (Or.inl isRank)
          rw [sync_of_not_drops drops] at kept
          have sizes : state.world.worldSize = row.stat.cellAt 3 := by
            unfold Drops at drops
            rw [not_or, not_not] at drops
            exact drops.1
          rw [size, ← sizes] at inside
          exact kept.trans (same equal i inside)
  · intro proc before known
    rw [sampled] at known
    split at known
    · rw [← Option.some.inj known]
      exact UInt64.le_refl _
    · exact remembering.past proc before known
  · intro proc isUnread before known
    have away : proc ≠ row.proc := by
      rintro rfl
      exact new isUnread
    rw [sampled, if_neg away] at known
    exact remembering.old proc (List.mem_cons_of_mem _ isUnread) before known

/-- So does reading all rows of a call. -/
theorem Remembering.foldl_observe (rows : List BwRow) {state : BwMonitoring}
    (remembering : state.Remembering previous now (rows.map BwRow.proc)) (passed : previous < now)
    (once : (rows.map BwRow.proc).Nodup)
    (fed : EachRow (now - previous) now Fed state rows)
    (tracked : EachRow (now - previous) now (Tracked previous) state rows) :
    (rows.foldl (BwMonitoring.observe (now - previous) now) state).Remembering previous now [] := by
  induction rows generalizing state with
  | nil => exact remembering
  | cons row rest ih =>
    rw [List.map_cons] at remembering
    obtain ⟨new, once⟩ := List.nodup_cons.mp once
    exact ih (remembering.observe passed fed.1 tracked.1 new) once fed.2 tracked.2

/-- Printing changes nothing that is remembered. -/
theorem Remembering.print (remembering : state.Remembering previous now []) (at' : UInt64) :
    ({ state with toBwMonitor := state.toBwMonitor.print at' } : BwMonitoring).Remembering
      previous now [] := by
  unfold BwMonitor.print
  split
  · exact ⟨remembering.exact, remembering.kept, remembering.past, remembering.old⟩
  · exact remembering

/-- A call whose rows are tracked keeps what is remembered. -/
theorem Remembering.call {event : Call}
    (remembering : state.Remembering state.prevGetNs state.prevGetNs [])
    (proper : event.Proper state) (tracked : event.Each (Tracked state.prevGetNs) state) :
    (state.call event).Remembering (state.call event).prevGetNs (state.call event).prevGetNs
      [] := by
  unfold BwMonitoring.call
  dsimp only
  split
  · exact remembering
  next late =>
    have passed : state.prevGetNs < event.now := by
      rw [UInt64.lt_iff_toNat_lt]
      refine Nat.lt_of_le_of_ne (UInt64.le_iff_toNat_le.mp proper.clock) fun equal => late ?_
      rw [UInt64.toNat_inj.mp equal, UInt64.sub_self]
      decide
    have before : ({ state with prevGetNs := event.now } : BwMonitoring).Remembering
        state.prevGetNs event.now (event.rows.map BwRow.proc) :=
      ⟨remembering.exact, remembering.kept,
        fun proc before known => UInt64.le_trans (remembering.past proc before known) proper.clock,
        fun proc _ before known => remembering.past proc before known⟩
    have after := before.foldl_observe event.rows passed proper.once (proper.fed late)
      (tracked late)
    have printed := after.print event.now
    have last : ∀ monitor : BwMonitor, (monitor.print event.now).prevGetNs = monitor.prevGetNs := by
      intro monitor
      unfold BwMonitor.print
      split <;> rfl
    have time : ∀ fold : BwMonitoring, fold = event.rows.foldl
        (BwMonitoring.observe (event.now - state.prevGetNs) event.now)
          { state with prevGetNs := event.now } → fold.prevGetNs = event.now := by
      rintro fold rfl
      rw [BwMonitoring.foldl_observe]
    rw [last, time _ rfl]
    exact ⟨printed.exact, printed.kept, printed.past, fun proc none => absurd none List.not_mem_nil⟩

/-- In every run whose calls read only tracked rows, every sample that is stored is the
growth of the counter of its process since the sampling of that process before, over the
time since then. -/
theorem throughput_exact
    (reached : monitoring.Reaches (fun state event =>
      event.Proper state ∧ event.Each (Tracked state.prevGetNs) state) state) :
    ∀ sample ∈ state.samples, sample.Exact := by
  have remembering : state.Remembering state.prevGetNs state.prevGetNs [] := by
    refine @System.Reaches.invariant _ _ _ _
      (fun state => state.Remembering state.prevGetNs state.prevGetNs []) ?_ ?_ _ reached
    · rintro _ rfl
      exact ⟨fun sample none => absurd none List.not_mem_nil, fun _ _ _ none => (nomatch none),
        fun proc before none => (nomatch none), fun proc none => absurd none List.not_mem_nil⟩
    · rintro state event after _ remembering ⟨proper, tracked⟩ stepped
      rw [← Option.some.inj stepped]
      exact remembering.call proper tracked
  exact remembering.exact

/-! ## Runs -/

/-- The row of a process of local rank 0 in a world of its own, with the bytes it sent to
itself. -/
def soleRow (proc : Nat) (bytes : UInt64) : BwRow :=
  { proc := proc
    stat := { counterList := []
              cells := fun cell =>
                [UInt64.ofNat proc, 0, 0, 1, 1, 0, bytes].getD (cell / 8).toNat 0 } }

/-- Calls at given seconds, with the rows that are recorded then. -/
def callAt (second : UInt64) (rows : List BwRow) : Call := ⟨second * 1000000000, rows⟩

/-- Calls are always possible. -/
theorem replay_eq (state : BwMonitoring) (events : List Call) :
    monitoring.replay state events = some (events.foldl call state) := by
  induction events generalizing state with
  | nil => rfl
  | cons event rest ih => exact ih (state.call event)

/-- One process, and what it sends in a second. -/
def sole (bytes : UInt64) : List Call := [callAt 1 [soleRow 7 0], callAt 2 [soleRow 7 bytes]]

/-- Two processes of local rank 0, of two jobs. -/
def twoJobs : List Call :=
  [callAt 1 [soleRow 7 0, soleRow 8 0], callAt 2 [soleRow 7 5000000000, soleRow 8 1000000000]]

/-- A process that sends five gigabytes in a second. -/
theorem throughput_exact_sole :
    ((sole 5000000000).foldl call initial).samples.map ThruputSample.value = [5000000000] ∧
      ∀ sample ∈ ((sole 5000000000).foldl call initial).samples, sample.Exact :=
  ⟨by decide +kernel, throughput_exact
    (System.Reaches.replay (.start rfl) (sole 5000000000) (by decide +kernel) (replay_eq _ _))⟩

/-- Two jobs take each other's counters for their own before, and the product of twenty
gigabytes in a second is no word. -/
theorem throughput_astray :
    (∃ state, monitoring.Reaches (fun state event => event.Proper state) state ∧
      ∃ sample ∈ state.samples, ¬ sample.Exact) ∧
    (twoJobs.foldl call initial).samples.map ThruputSample.value = [5000000000, 14446744073] ∧
    (∃ state, monitoring.Reaches (fun state event => event.Proper state) state ∧
      ∃ sample ∈ state.samples, ¬ sample.Exact) ∧
    ((sole 20000000000).foldl call initial).samples.map ThruputSample.value = [1553255926] := by
  refine ⟨⟨twoJobs.foldl call initial, ?_, by decide +kernel⟩, by decide +kernel,
    ⟨(sole 20000000000).foldl call initial, ?_, by decide +kernel⟩, by decide +kernel⟩
  · exact System.Reaches.replay (.start rfl) twoJobs (by decide +kernel) (replay_eq _ _)
  · exact System.Reaches.replay (.start rfl) (sole 20000000000) (by decide +kernel) (replay_eq _ _)

end BwMonitoring

end NcclExts.Ucommd
