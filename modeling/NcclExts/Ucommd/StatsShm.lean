import NcclExts.Foundation.System
import NcclExts.Ucommd.Stats

/-!
# Stats of a segment

A segment holds the counters of a number of stats, one stat behind the other. Ids of
stats that nobody holds wait in a queue; to allocate a stat is to take the first id and
to make an object that points to the counters of that id. The handle of the object is
kept in a set, by which a handle that is given back is recognised.

The counters are cells of the memory of the process, addressed by bytes. Objects of stats
live at addresses of their own, and a handle is such an address.
-/

namespace NcclExts.Ucommd

open NcclExts.Foundation

/-- A `std::string`. -/
abbrev Bytes := List UInt8

/-- The address of a `Stat` object. -/
abbrev Ptr := Nat

/-- The counters of the process, by their address. -/
abbrev Memory := UInt64 → UInt64

/-! ## One stat -/

/-- A `Stat` as an object: its id, `base_`, and the names of its counters in order. -/
structure StatObject where
  id : Int32
  base : UInt64
  counterList : List Bytes
deriving DecidableEq, Repr

/-- How a counter of a stat is named in a call. -/
inductive CounterKey
  | named (name : Bytes)
  | index (i : UInt64)
deriving DecidableEq, Repr

namespace StatObject

/-- `num_counters_`. -/
def numCounters (object : StatObject) : UInt64 := UInt64.ofNat object.counterList.length

/-- `base_ + i`. -/
def cell (object : StatObject) (i : UInt64) : UInt64 := object.base + Stat.offset i

/-- `counter_by_name_.find`; of counters with one name the first is in the map. -/
def find (object : StatObject) (name : Bytes) : Option UInt64 :=
  (object.counterList.findIdx? (fun counter => counter = name)).map
    (fun position => object.cell (UInt64.ofNat position))

/-- The counter that a call is about; an index is not checked. -/
def locate (object : StatObject) : CounterKey → Option UInt64
  | .named name => object.find name
  | .index i => some (object.cell i)

/-- Change one counter; `none` is the error of an unknown name. -/
def modify (object : StatObject) (memory : Memory) (key : CounterKey)
    (change : UInt64 → UInt64) : Option Memory :=
  (object.locate key).map fun cell => Function.update memory cell (change (memory cell))

/-- `Stat::add`. -/
def add (object : StatObject) (memory : Memory) (key : CounterKey) (val : UInt64) :
    Option Memory := object.modify memory key (fun old => old + val)

/-- `Stat::sub`. -/
def sub (object : StatObject) (memory : Memory) (key : CounterKey) (val : UInt64) :
    Option Memory := object.modify memory key (fun old => old - val)

/-- `Stat::inc`. -/
def inc (object : StatObject) (memory : Memory) (key : CounterKey) : Option Memory :=
  object.modify memory key (fun old => old + 1)

/-- `Stat::dec`. -/
def dec (object : StatObject) (memory : Memory) (key : CounterKey) : Option Memory :=
  object.modify memory key (fun old => old - 1)

/-- `Stat::set`. -/
def set (object : StatObject) (memory : Memory) (key : CounterKey) (val : UInt64) :
    Option Memory := object.modify memory key (fun _ => val)

/-- `Stat::get`. -/
def get (object : StatObject) (memory : Memory) (key : CounterKey) : Option UInt64 :=
  (object.locate key).map memory

/-- `Stat::clear`. -/
def clear (object : StatObject) (memory : Memory) : Memory :=
  ((List.range object.numCounters.toNat).map UInt64.ofNat).foldl
    (fun memory i => Function.update memory (object.cell i) 0) memory

/-- The key names a counter of the stat. -/
def InRange (object : StatObject) : CounterKey → Prop
  | .named name => name ∈ object.counterList
  | .index i => i < object.numCounters

instance (object : StatObject) : (key : CounterKey) → Decidable (object.InRange key)
  | .named name => inferInstanceAs (Decidable (name ∈ object.counterList))
  | .index i => inferInstanceAs (Decidable (i < object.numCounters))

/-- A counter that is named in range is one of the counters. -/
theorem InRange.locate {object : StatObject} {key : CounterKey} (inRange : object.InRange key)
    (sized : object.counterList.length < 2 ^ 64) :
    ∃ i < object.numCounters, object.locate key = some (object.cell i) := by
  cases key with
  | named name =>
    have found : (object.counterList.findIdx? (fun counter => counter = name)).isSome := by
      simpa [InRange] using inRange
    obtain ⟨position, isPosition⟩ := Option.isSome_iff_exists.mp found
    have inside : position < object.counterList.length :=
      (List.findIdx?_eq_some_iff_findIdx_eq.mp isPosition).1
    refine ⟨UInt64.ofNat position, ?_, ?_⟩
    · rw [UInt64.lt_iff_toNat_lt, numCounters, UInt64.toNat_ofNat', UInt64.toNat_ofNat',
        Nat.mod_eq_of_lt (by omega), Nat.mod_eq_of_lt sized]
      exact inside
    · rw [StatObject.locate, find, isPosition, Option.map_some]
  | index i => exact ⟨i, inRange, rfl⟩

/-- What `clear` leaves in a cell. -/
theorem clear_apply (object : StatObject) (memory : Memory) (cell : UInt64) :
    object.clear memory cell =
      if ∃ i < object.numCounters, object.cell i = cell then 0 else memory cell := by
  have folded (rest : List UInt64) (memory : Memory) :
      rest.foldl (fun memory i => Function.update memory (object.cell i) 0) memory cell =
        if ∃ i ∈ rest, object.cell i = cell then 0 else memory cell := by
    induction rest generalizing memory with
    | nil => simp
    | cons i rest ih =>
      rw [List.foldl_cons, ih]
      by_cases later : ∃ j ∈ rest, object.cell j = cell
      · have either : ∃ j ∈ i :: rest, object.cell j = cell := by
          obtain ⟨j, member, same⟩ := later
          exact ⟨j, List.mem_cons_of_mem _ member, same⟩
        rw [if_pos later, if_pos either]
      · rw [if_neg later]
        by_cases now : object.cell i = cell
        · rw [if_pos ⟨i, List.mem_cons_self, now⟩, ← now, Function.update_self]
        · have never : ¬ ∃ j ∈ i :: rest, object.cell j = cell := by
            rintro ⟨j, member, same⟩
            rcases List.mem_cons.mp member with rfl | inRest
            · exact now same
            · exact later ⟨j, inRest, same⟩
          rw [if_neg never, Function.update_of_ne (fun same => now same.symm)]
  have listed (i : UInt64) :
      i ∈ (List.range object.numCounters.toNat).map UInt64.ofNat ↔ i < object.numCounters := by
    rw [List.mem_map, UInt64.lt_iff_toNat_lt]
    constructor
    · rintro ⟨position, member, rfl⟩
      have below := List.mem_range.mp member
      have word := UInt64.toNat_lt object.numCounters
      rwa [UInt64.toNat_ofNat', Nat.mod_eq_of_lt (by omega)]
    · intro below
      exact ⟨i.toNat, List.mem_range.mpr below, UInt64.ofNat_toNat⟩
  rw [clear, folded]
  simp only [listed]

/-- The stat as its users see it, with its counters at offsets from its base, under names
that are read from bytes in some way. -/
def view (text : Bytes → String) (object : StatObject) (memory : Memory) : Stat where
  counterList := object.counterList.map text
  cells := fun offset => memory (object.base + offset)

/-- To write a cell is to write it as seen from the base. -/
theorem view_update (text : Bytes → String) (object : StatObject) (memory : Memory)
    (offset value : UInt64) :
    object.view text (Function.update memory (object.base + offset) value) =
      { object.view text memory with
        cells := Function.update (object.view text memory).cells offset value } := by
  simp only [view, Stat.mk.injEq, true_and]
  funext other
  by_cases same : other = offset
  · rw [same, Function.update_self, Function.update_self]
  · have apart : object.base + other ≠ object.base + offset := by simpa using same
    rw [Function.update_of_ne apart, Function.update_of_ne same]

/-- An update by index is the update of the stat as its users see it. -/
theorem view_add_index (text : Bytes → String) (object : StatObject) (memory : Memory)
    (i val : UInt64) : (object.add memory (.index i) val).map (object.view text) =
      some ((object.view text memory).add i val) := by
  rw [add, modify, locate, Option.map_some, Option.map_some, cell, view_update]
  rfl

/-- So is an update by name, when the names are read apart; only the error of an unknown
name is not seen. -/
theorem view_add_named {text : Bytes → String} (apart : Function.Injective text)
    (object : StatObject) (memory : Memory) (name : Bytes) (val : UInt64) :
    object.view text ((object.add memory (.named name) val).getD memory) =
      (object.view text memory).addNamed (text name) val := by
  have found : (object.view text memory).find (text name) =
      (object.counterList.findIdx? (fun counter => counter = name)).map
        (fun position => Stat.offset (UInt64.ofNat position)) := by
    rw [Stat.find, view, List.findIdx?_map]
    congr 2
    funext counter
    simp only [Function.comp_apply, apart.eq_iff]
  rw [add, modify, locate, find, Stat.addNamed, found]
  cases object.counterList.findIdx? (fun counter => counter = name) with
  | none => rfl
  | some position =>
    simp only [Option.map_some, Option.getD_some, cell]
    rw [view_update]
    rfl

end StatObject

/-! ## The segment -/

/-- `StatsShm::State`. -/
inductive ShmState
  | created
  | initialized
  | error
deriving DecidableEq, Repr

/-- `StatsShm`: the shape of the segment, the address of its counters, the handles of
the allocated stats and the ids of the others. -/
structure StatsShm where
  numCounters : UInt64
  numStats : UInt64
  counterList : List Bytes
  stats : UInt64
  statsGroup : List Ptr
  statsAvailable : List Int32
  state : ShmState
deriving DecidableEq, Repr

namespace StatsShm

/-- The constructor: the ids of all stats are pushed to the queue, each converted to
`int`. -/
def new (numStats : UInt64) (counterList : List Bytes) : StatsShm where
  numCounters := UInt64.ofNat counterList.length
  numStats := numStats
  counterList := counterList
  stats := 0
  statsGroup := []
  statsAvailable := (List.range numStats.toNat).map (fun i => Int32.ofNat i)
  state := .created

/-- The address of the counters of a stat: `stats_ + (id * num_counters_)`. -/
def base (shm : StatsShm) (id : Int32) : UInt64 :=
  shm.stats + Stat.offset (toSizeT id * shm.numCounters)

/-- The object that is made for an id. -/
def object (shm : StatsShm) (id : Int32) : StatObject := ⟨id, shm.base id, shm.counterList⟩

/-- `StatsShm::allocStat`, with the address where the object is made; `none` is its
error. -/
def allocStat (shm : StatsShm) (ptr : Ptr) (memory : Memory) :
    Option (StatsShm × StatObject × Memory) :=
  if shm.state ≠ .initialized then
    none
  else
    match shm.statsAvailable with
    | [] => none
    | id :: rest =>
      let stat := shm.object id
      some ({ shm with statsAvailable := rest, statsGroup := shm.statsGroup.insert ptr },
        stat, stat.clear memory)

/-- `StatsShm::freeStat` of a handle and the object it points to; `none` is its error. -/
def freeStat (shm : StatsShm) (ptr : Ptr) (stat : StatObject) (memory : Memory) :
    Option (StatsShm × Memory) :=
  if shm.state ≠ .initialized then
    none
  else if ptr ∈ shm.statsGroup then
    some ({ shm with
      statsGroup := shm.statsGroup.erase ptr
      statsAvailable := shm.statsAvailable ++ [stat.id] }, stat.clear memory)
  else
    none

end StatsShm

/-! ## Runs -/

/-- A change of a counter. -/
inductive Change
  | add (val : UInt64)
  | sub (val : UInt64)
  | inc
  | dec
  | set (val : UInt64)
deriving DecidableEq, Repr

/-- The call of a change. -/
def Change.apply (change : Change) (object : StatObject) (memory : Memory) (key : CounterKey) :
    Option Memory :=
  match change with
  | .add val => object.add memory key val
  | .sub val => object.sub memory key val
  | .inc => object.inc memory key
  | .dec => object.dec memory key
  | .set val => object.set memory key val

/-- A process with a segment, the `Stat` objects that live in it, and its memory. -/
structure StatsUse where
  shm : StatsShm
  objects : Ptr → Option StatObject
  memory : Memory

/-- What can happen: a stat is allocated at a free address, a handle is given back, a
counter is changed through an allocated stat, an object is made elsewhere, or the last
handle of an object is dropped. -/
inductive StatsEvent
  | allocStat (ptr : Ptr)
  | freeStat (ptr : Ptr)
  | change (ptr : Ptr) (key : CounterKey) (change : Change)
  | made (ptr : Ptr) (object : StatObject)
  | dropped (ptr : Ptr)
deriving DecidableEq, Repr

namespace StatsUse

/-- One step. A call that fails changes nothing; a null handle is not given back; a
counter is changed in range only; the set keeps its objects alive. -/
def step (use : StatsUse) : StatsEvent → Option StatsUse
  | .allocStat ptr =>
    match use.objects ptr with
    | some _ => none
    | none =>
      match use.shm.allocStat ptr use.memory with
      | some (shm, stat, memory) =>
        some ⟨shm, Function.update use.objects ptr (some stat), memory⟩
      | none => some use
  | .freeStat ptr =>
    match use.objects ptr with
    | none => none
    | some stat =>
      match use.shm.freeStat ptr stat use.memory with
      | some (shm, memory) => some { use with shm := shm, memory := memory }
      | none => some use
  | .change ptr key change =>
    match use.objects ptr with
    | none => none
    | some stat =>
      if ptr ∈ use.shm.statsGroup ∧ stat.InRange key then
        (change.apply stat use.memory key).map fun memory => { use with memory := memory }
      else
        none
  | .made ptr stat =>
    match use.objects ptr with
    | some _ => none
    | none => some { use with objects := Function.update use.objects ptr (some stat) }
  | .dropped ptr =>
    if ptr ∈ use.shm.statsGroup then
      none
    else
      some { use with objects := Function.update use.objects ptr none }

/-- The ids of the allocated stats. -/
def allocatedIds (use : StatsUse) : List Int32 :=
  use.shm.statsGroup.filterMap (fun ptr => (use.objects ptr).map StatObject.id)

end StatsUse

/-- A segment as a process sets it up: so many stats with given counters, mapped
somewhere. -/
structure ShmSetup where
  numStats : UInt64
  counterList : List Bytes
  stats : UInt64
deriving DecidableEq, Repr

/-- The segment once `init` has succeeded. -/
def ShmSetup.initialized (setup : ShmSetup) : StatsShm :=
  { StatsShm.new setup.numStats setup.counterList with
    stats := setup.stats, state := .initialized }

/-- Runs on an initialised segment, from any memory and any other objects. -/
def allocating (setup : ShmSetup) : System StatsUse StatsEvent where
  starts := fun use => use.shm = setup.initialized
  step := StatsUse.step

end NcclExts.Ucommd
