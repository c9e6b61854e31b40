import Mathlib

/-!
# Counters in shared memory

A stat is a pointer to an array of 64-bit counters in a shared segment, with the list
of names the counters were given. Updates by name look the name up; updates by index
add to whatever cell lies that far from the pointer. The model therefore keeps every
cell reachable from the pointer, and addresses cells by their byte offset from it.
-/

namespace NcclExts.Ucommd

/-- `Stat`: the names of the counters in order, and the cell at every byte offset from
`base_`. -/
structure Stat where
  counterList : List String
  cells : UInt64 → UInt64

/-- The conversion of an `int` argument to `size_t`. -/
def toSizeT (value : Int32) : UInt64 := value.toInt64.toUInt64

namespace Stat

/-- The byte offset of `base_ + i`. -/
def offset (i : UInt64) : UInt64 := 8 * i

/-- `Stat::add` by index, without a check of the index. -/
def add (stat : Stat) (i val : UInt64) : Stat :=
  { stat with
    cells := Function.update stat.cells (offset i) (stat.cells (offset i) + val) }

/-- `Stat::inc` by index. -/
def inc (stat : Stat) (i : UInt64) : Stat := stat.add i 1

/-- `Stat::sub` by index. -/
def sub (stat : Stat) (i val : UInt64) : Stat :=
  { stat with
    cells := Function.update stat.cells (offset i) (stat.cells (offset i) - val) }

/-- `Stat::dec` by index. -/
def dec (stat : Stat) (i : UInt64) : Stat := stat.sub i 1

/-- `counter_by_name_.find`: the offset of the counter with the given name. -/
def find (stat : Stat) (name : String) : Option UInt64 :=
  (stat.counterList.findIdx? (fun counter => counter = name)).map
    (fun position => offset (UInt64.ofNat position))

/-- `Stat::add` by name; nothing changes when there is no such counter. -/
def addNamed (stat : Stat) (name : String) (val : UInt64) : Stat :=
  match stat.find name with
  | some cell => { stat with cells := Function.update stat.cells cell (stat.cells cell + val) }
  | none => stat

/-- `Stat::get` by name. -/
def get (stat : Stat) (name : String) : Option UInt64 := (stat.find name).map stat.cells

/-- `Stat::set` by name; `none` when there is no such counter. -/
def set (stat : Stat) (name : String) (val : UInt64) : Option Stat :=
  (stat.find name).map (fun cell => { stat with cells := Function.update stat.cells cell val })

/-- `Stat::set` by index. -/
def setAt (stat : Stat) (i val : UInt64) : Stat :=
  { stat with cells := Function.update stat.cells (offset i) val }

/-- `Stat::clear`: every counter reads zero afterwards. -/
def clear (stat : Stat) : Stat :=
  { stat with cells := fun cell =>
      if cell % 8 = 0 ∧ (cell / 8).toNat < stat.counterList.length then 0 else stat.cells cell }

@[simp] theorem add_counterList (stat : Stat) (i val : UInt64) :
    (stat.add i val).counterList = stat.counterList := rfl

@[simp] theorem inc_counterList (stat : Stat) (i : UInt64) :
    (stat.inc i).counterList = stat.counterList := rfl

theorem add_cell (stat : Stat) (i val : UInt64) :
    (stat.add i val).cells (offset i) = stat.cells (offset i) + val := by
  simp [add]

theorem add_other (stat : Stat) (i val : UInt64) {cell : UInt64} (other : cell ≠ offset i) :
    (stat.add i val).cells cell = stat.cells cell := by
  simp [add, other]

theorem find_of_counterList {stat other : Stat} (same : stat.counterList = other.counterList)
    (name : String) : stat.find name = other.find name := by
  simp [find, same]

theorem set_counterList {stat after : Stat} {name : String} {val : UInt64}
    (written : stat.set name val = some after) : after.counterList = stat.counterList := by
  obtain ⟨cell, _, rfl⟩ := Option.map_eq_some_iff.mp written
  rfl

end Stat

/-- A signed index as a `size_t` is itself, or counts back from the word range. -/
theorem toNat_toSizeT (value : Int32) :
    ((toSizeT value).toNat : Int) = value.toInt ∨
      value.toInt < 0 ∧ ((toSizeT value).toNat : Int) = value.toInt + 2 ^ 64 := by
  have signed : value.toInt = Int.bmod (toSizeT value).toNat (2 ^ 64) := by
    have widened : value.toInt64.toInt = value.toInt := Int32.toInt_toInt64 value
    rw [← widened, ← Int64.toInt_toBitVec, BitVec.toInt_eq_toNat_bmod]
    rfl
  have word : (toSizeT value).toNat < 2 ^ 64 := UInt64.toNat_lt _
  rw [Int.bmod_def] at signed
  split at signed <;> omega

/-- A signed index reaches the cell of a position exactly when it is that position: a
negative one wraps to cells far behind every counter. -/
theorem offset_eq_iff (value : Int32) (position : Nat) (small : position < 2 ^ 60) :
    Stat.offset (toSizeT value) = Stat.offset (UInt64.ofNat position) ↔
      value.toInt = position := by
  have least := Int32.le_toInt value
  have most := Int32.toInt_lt value
  have cases := toNat_toSizeT value
  have exact : (UInt64.ofNat position).toNat = position := by
    rw [UInt64.toNat_ofNat']
    omega
  have eight : (8 : UInt64).toNat = 8 := rfl
  rw [Stat.offset, Stat.offset, ← UInt64.toNat_inj, UInt64.toNat_mul, UInt64.toNat_mul, exact,
    eight]
  omega

end NcclExts.Ucommd
