import NcclExts.Foundation.Finishing
import NcclExts.Ucommd.RoundTrip
import NcclExts.Ucommd.Robustness

/-!
# The tables of the monitor

The monitor prints the segments of one name as a table. The widths of the columns come
from the names of the counters in the first segment, by a cascade of cases, and every
cell asks for the width of its column with a check that throws. A long name that does not
speak of bytes is in no case, and leaves the table a width short.
-/

namespace NcclExts.Ucommd

open NcclExts.Foundation

/-! ## The table of one name -/

/-- What stands in a cell. -/
inductive Cell where
  | name (desc : Bytes)
  | counter (value : UInt64)
deriving DecidableEq, Repr

/-- What is printed for one name: the widths, and lines of cells with their widths. -/
structure Table where
  width : List Nat
  lines : List (List (Nat × Cell))
deriving DecidableEq, Repr

/-- What the reads of a stat find, each at its time: its first counter when the monitor
looks whether the stat is used, and its counters when they are printed. -/
structure CounterReads where
  first : StatsShmInfo → Nat → UInt64
  cell : StatsShmInfo → Nat → Nat → UInt64

/-- The cascade of cases; `none` pushes no width. -/
def columnWidth (desc : Bytes) : Option Nat :=
  if ascii "bytes" <:+: desc then some 20
  else if desc.length ≤ 8 then some 8
  else if 8 < desc.length ∧ desc.length ≤ 12 then some 12
  else if 12 < desc.length ∧ desc.length ≤ 16 then some 16
  else none

/-- `width` once all names are passed. -/
def columnWidths (desc : List Bytes) : List Nat := desc.filterMap columnWidth

/-- `at` of a vector. -/
def vectorAt {α : Type} (items : List α) (i : Nat) : Except MonitorFault α :=
  match items[i]? with
  | some item => .ok item
  | none => .error .threw

/-- The loop over the cells of a line. -/
def printLine (width : List Nat) (cells : List Cell) :
    Except MonitorFault (List (Nat × Cell)) :=
  cells.zipIdx.mapM fun cell => (vectorAt width cell.2).map fun set => (set, cell.1)

/-- The loop over the stats of a segment; unused ones are passed over. -/
def printStats (reads : CounterReads) (width : List Nat) (info : StatsShmInfo) :
    Except MonitorFault (List (List (Nat × Cell))) :=
  ((List.range info.statNum.toNat).filter fun i => reads.first info i ≠ 0).mapM fun i =>
    printLine width ((List.range info.counterNum.toNat).map fun j =>
      .counter (reads.cell info i j))

/-- The display loop of `Monitor::run` for the segments of one name; the bw stats have a
display of their own. -/
def displayTable (reads : CounterReads) (statsName : Bytes) (records : List StatsShmInfo) :
    Except MonitorFault (Option Table) :=
  if ascii "unet_bw_stats" <:+: statsName then .ok none
  else do
    let info ← vectorAt records 0
    let width := columnWidths info.desc
    let head ← printLine width (info.desc.map .name)
    let rows ← records.mapM (printStats reads width)
    return some { width := width, lines := head :: rows.flatten }

/-! ## When it is printed -/

/-- A name is in one of the cases when it speaks of bytes or has 16 characters at most. -/
theorem columnWidth_isSome (desc : Bytes) :
    (columnWidth desc).isSome ↔ ascii "bytes" <:+: desc ∨ desc.length ≤ 16 := by
  unfold columnWidth
  split_ifs with bytes short middle long
  · simp [bytes]
  · exact ⟨fun _ => Or.inr (by omega), fun _ => rfl⟩
  · exact ⟨fun _ => Or.inr (by omega), fun _ => rfl⟩
  · exact ⟨fun _ => Or.inr (by omega), fun _ => rfl⟩
  · refine ⟨fun none => absurd none (by simp), fun either => ?_⟩
    rcases either with bytes' | small
    · exact absurd bytes' bytes
    · omega

/-- The names that the plugin publishes are in one of the cases. -/
theorem ibCounterList_columnWidth : ∀ name ∈ ibCounterList, (columnWidth (ascii name)).isSome := by
  decide +kernel

/-- There is one width for each name exactly when every name is in one of the cases. -/
theorem length_columnWidths (desc : List Bytes) :
    (columnWidths desc).length = desc.length ↔ ∀ name ∈ desc, (columnWidth name).isSome :=
  List.filterMap_length_eq_length

/-- A line is printed when it has no more cells than there are widths. -/
theorem finishes_printLine (width : List Nat) (cells : List Cell) :
    Finishes (printLine width cells) ↔ cells.length ≤ width.length := by
  have cell (i : Nat) : Finishes (vectorAt width i) ↔ i < width.length := by
    rw [vectorAt]
    cases found : width[i]? with
    | none => simpa using found
    | some set => simpa using (List.getElem?_eq_some_iff.mp found).1
  rw [printLine, finishes_mapM]
  simp only [finishes_map, cell]
  constructor
  · intro all
    by_contra short
    have inside : width.length < cells.length := by omega
    have last : (cells[width.length], width.length) ∈ cells.zipIdx := by
      rw [List.mk_mem_zipIdx_iff_getElem?, List.getElem?_eq_getElem]
    exact Nat.lt_irrefl _ (all _ last)
  · intro enough item member
    have inside := List.snd_lt_of_mem_zipIdx member
    omega

/-- The stats of a segment are printed when none is used or there are widths for all of
its counters. -/
theorem finishes_printStats (reads : CounterReads) (width : List Nat) (info : StatsShmInfo) :
    Finishes (printStats reads width info) ↔
      ((∃ i, i < info.statNum.toNat ∧ reads.first info i ≠ 0) →
        info.counterNum.toNat ≤ width.length) := by
  rw [printStats, finishes_mapM]
  simp only [finishes_printLine, List.length_map, List.length_range, List.mem_filter,
    List.mem_range, decide_eq_true_eq]
  exact ⟨fun all ⟨i, used⟩ => all i used, fun enough i used => enough ⟨i, used⟩⟩

/-- The display does not throw, and a table that it shows has one width for each name of the
first segment. -/
def Displayed (reads : CounterReads) (statsName : Bytes) (first : StatsShmInfo)
    (rest : List StatsShmInfo) : Prop :=
  ∃ shown, displayTable reads statsName (first :: rest) = .ok shown ∧
    ∀ table ∈ shown, table.width.length = first.desc.length

/-- The names of the first segment are all in one of the cases, and no segment with a stat
in use has more counters than the first has names. -/
structure Printable (reads : CounterReads) (first : StatsShmInfo) (rest : List StatsShmInfo) :
    Prop where
  named : ∀ name ∈ first.desc, ascii "bytes" <:+: name ∨ name.length ≤ 16
  fitting : ∀ info ∈ first :: rest, (∃ i, i < info.statNum.toNat ∧ reads.first info i ≠ 0) →
    info.counterNum.toNat ≤ first.desc.length

/-- The display prints when the names of the first segment and the stats of all of them
have their widths; the widths are then one for each name. -/
theorem finishes_displayTable {reads : CounterReads} {statsName : Bytes}
    (other : ¬ ascii "unet_bw_stats" <:+: statsName) (first : StatsShmInfo)
    (rest : List StatsShmInfo) :
    Finishes (displayTable reads statsName (first :: rest)) ↔
      (columnWidths first.desc).length = first.desc.length ∧
        ∀ info ∈ first :: rest, Finishes (printStats reads (columnWidths first.desc) info) := by
  have most : (columnWidths first.desc).length ≤ first.desc.length := List.length_filterMap_le _ _
  have start : vectorAt (first :: rest) 0 = .ok first := rfl
  have head := finishes_printLine (columnWidths first.desc) (first.desc.map .name)
  rw [List.length_map] at head
  rw [displayTable, if_neg other, start, ← finishes_mapM]
  constructor
  · intro finishes
    obtain ⟨_, isFirst, printed⟩ := finishes_bind.mp finishes
    cases isFirst
    obtain ⟨line, isLine, later⟩ := finishes_bind.mp printed
    obtain ⟨rows, isRows, _⟩ := finishes_bind.mp later
    exact ⟨Nat.le_antisymm most (head.mp ⟨line, isLine⟩), rows, isRows⟩
  · rintro ⟨exact, rows, isRows⟩
    obtain ⟨line, isLine⟩ := head.mpr (Nat.le_of_eq exact.symm)
    exact finishes_bind.mpr ⟨first, rfl, finishes_bind.mpr ⟨line, isLine,
      finishes_bind.mpr ⟨rows, isRows, finishes_ok _⟩⟩⟩

/-- The width of a table that is shown is the one of the first segment. -/
theorem displayTable_width {reads : CounterReads} {statsName : Bytes} {first : StatsShmInfo}
    {rest : List StatsShmInfo} {table : Table}
    (shown : displayTable reads statsName (first :: rest) = .ok (some table)) :
    table.width = columnWidths first.desc := by
  have start : vectorAt (first :: rest) 0 = .ok first := rfl
  rw [displayTable, start] at shown
  split at shown
  · cases shown
  · obtain ⟨_, isFirst, printed⟩ := bind_eq_ok.mp shown
    cases isFirst
    obtain ⟨line, _, later⟩ := bind_eq_ok.mp printed
    obtain ⟨rows, _, made⟩ := bind_eq_ok.mp later
    cases made
    rfl

/-- The segments of a name are displayed exactly when they are bw stats or printable. -/
theorem displayed_iff (reads : CounterReads) (statsName : Bytes) (first : StatsShmInfo)
    (rest : List StatsShmInfo) :
    Displayed reads statsName first rest ↔
      ascii "unet_bw_stats" <:+: statsName ∨ Printable reads first rest := by
  by_cases own : ascii "unet_bw_stats" <:+: statsName
  · have skipped : displayTable reads statsName (first :: rest) = .ok none := by
      rw [displayTable, if_pos own]
    exact ⟨fun _ => Or.inl own,
      fun _ => ⟨none, skipped, fun table member => absurd member (by simp)⟩⟩
  have printable : Printable reads first rest ↔
      Finishes (displayTable reads statsName (first :: rest)) := by
    rw [finishes_displayTable own, length_columnWidths]
    simp only [finishes_printStats, columnWidth_isSome]
    constructor
    · rintro ⟨named, fitting⟩
      have exact : (columnWidths first.desc).length = first.desc.length :=
        (length_columnWidths _).mpr fun name member =>
          (columnWidth_isSome name).mpr (named name member)
      rw [exact]
      exact ⟨named, fitting⟩
    · rintro ⟨named, fitting⟩
      have exact : (columnWidths first.desc).length = first.desc.length :=
        (length_columnWidths _).mpr fun name member =>
          (columnWidth_isSome name).mpr (named name member)
      rw [exact] at fitting
      exact ⟨named, fitting⟩
  rw [printable]
  constructor
  · rintro ⟨shown, equal, _⟩
    exact Or.inr ⟨shown, equal⟩
  · rintro (skipped | ⟨shown, equal⟩)
    · exact absurd skipped own
    · refine ⟨shown, equal, fun table isTable => ?_⟩
      rw [Option.mem_def.mp isTable] at equal
      rw [displayTable_width equal]
      exact ((finishes_displayTable own first rest).mp ⟨_, equal⟩).1

/-- The names that the monitor has of a segment are as many as it has counters. -/
theorem readSegment_desc {shm file : Bytes} {addr : UInt64} {info : StatsShmInfo}
    (read : readSegment shm file addr = .ok info) (counted : info.counterNum.toNat < 2 ^ 31) :
    info.desc.length = info.counterNum.toNat := by
  unfold readSegment at read
  dsimp only at read
  split at read
  · split at read
    · cases read
    · split at read
      · cases read
      next desc named =>
        cases read
        have range := toNat_toSizeT (intAt (pages file) metaCounterNum)
        have least := (intAt (pages file) metaCounterNum).le_toInt
        rw [(readDescs_eq_some named).1]
        dsimp only at counted ⊢
        omega
  · cases read

/-- The segment of a process with one counter of the given name. -/
def namedSource (name : String) : ShmSource := sampleSource 1 [ascii name]

/-- Reads of a segment whose stats are not in use. -/
def CounterReads.unused : CounterReads := { first := fun _ _ => 0, cell := fun _ _ _ => 0 }

/-- A counter with a name of 18 characters can be published, and its segment is not
displayed: the width of its column is missing. -/
theorem displayed_not_long :
    (namedSource "completion_latency").Plain ∧ (namedSource "completion_latency").Fits ∧
      displayTable .unused (namedSource "completion_latency").name
        [(namedSource "completion_latency").seenInfo 1 0] = .error .threw ∧
      ¬ Displayed .unused (namedSource "completion_latency").name
        ((namedSource "completion_latency").seenInfo 1 0) [] := by
  have threw : displayTable .unused (namedSource "completion_latency").name
      [(namedSource "completion_latency").seenInfo 1 0] = .error .threw := by
    decide +kernel
  refine ⟨by constructor <;> decide, ⟨by decide⟩, threw, ?_⟩
  rintro ⟨shown, equal, _⟩
  rw [threw] at equal
  cases equal

end NcclExts.Ucommd
