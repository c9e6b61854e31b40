import NcclExts.Ucommd.Segment

/-!
# The monitor's view of segments

The monitor finds segments by the names of their files, which also name the stats and the
process, maps each file it does not know yet, and takes the layout of the segment from
its first bytes. It checks none of what it reads there: a number that cannot be read is
an exception, and text without an end or records beyond the mapping are read from
wherever they would be.
-/

namespace NcclExts.Ucommd

open NcclExts.Foundation

/-- `StatsShm::kLockPrefix`. -/
def kLockPrefix : Bytes := ascii ".ucommd_lock."

/-- What ends a call of the monitor before its time: an exception, or an access outside
the memory it may touch. -/
inductive MonitorFault
  | threw
  | outside
deriving DecidableEq, Repr

/-- `Monitor::StatsShmInfo`. -/
structure StatsShmInfo where
  shm : Bytes
  time : Int32
  addr : UInt64
  size : Nat
  desc : List Bytes
  data : UInt64
  counterNum : UInt64
  statNum : UInt64
deriving DecidableEq, Repr

/-- `std::stoi`; `none` is an exception. -/
def stoi (text : Bytes) : Option Int32 :=
  (scanInt text).bind fun value =>
    if -2 ^ 31 ≤ value ∧ value < 2 ^ 31 then some (Int32.ofInt value) else none

/-- `atoi`: no number is zero, and one out of the range of `long` is the nearest `long`. -/
def atoi (text : Bytes) : Int32 :=
  match scanInt text with
  | none => 0
  | some value => Int32.ofInt (max (-2 ^ 63) (min (2 ^ 63 - 1) value))

/-- What the system answers about a file: its bytes, whether it can be opened, and where
it is mapped. -/
structure FileAnswers where
  content : Option Bytes
  opened : Bool
  mapped : Option UInt64
deriving DecidableEq, Repr

/-- The size of a page. -/
def pageSize : Nat := 4096

/-- The memory of a mapping: whole pages, the last filled up with zeros. -/
def pages (file : Bytes) : Bytes :=
  file ++ List.replicate ((pageSize - file.length % pageSize) % pageSize) 0

/-- The names of counters, from the given record on. -/
def readDescs (memory : Bytes) : Nat → Nat → Option (List Bytes)
  | _, 0 => some []
  | i, count + 1 => do
    let name ← textAt nul memory (sizeofMeta + sizeofDesc * i)
    let rest ← readDescs memory (i + 1) count
    return name :: rest

/-- The part of `Monitor::check_stats` that reads a mapped file. That the name inside
differs is only logged. -/
def readSegment (shm file : Bytes) (addr : UInt64) : Except MonitorFault StatsShmInfo :=
  let memory := pages file
  match textAt nul memory metaShm, textAt nul memory metaTime with
  | some _, some time =>
    match stoi time with
    | none => .error .threw
    | some time =>
      let counterNum := intAt memory metaCounterNum
      match readDescs memory 0 counterNum.toInt.toNat with
      | none => .error .outside
      | some desc =>
        .ok {
          shm := shm
          time := time
          addr := addr
          size := file.length
          desc := desc
          data := addr + UInt64.ofNat sizeofMeta + UInt64.ofNat sizeofDesc * toSizeT counterNum
          counterNum := toSizeT counterNum
          statNum := toSizeT (intAt memory metaStatNum) }
  | _, _ => .error .outside

/-- `Monitor::check_stats`: the code it returns, and the info when the code is zero. An
empty file cannot be mapped. -/
def checkStats (shm : Bytes) (answers : FileAnswers) :
    Except MonitorFault (Int32 × Option StatsShmInfo) :=
  if shm = [] then
    .ok (1, none)
  else
    match answers.content with
    | none => .ok (-1, none)
    | some file =>
      if answers.opened = false then
        .ok (1, none)
      else if file = [] then
        .ok (-1, none)
      else
        match answers.mapped with
        | none => .ok (-1, none)
        | some addr => (readSegment shm file addr).map fun info => (0, some info)

/-! ## Files of the directory -/

/-- An entry of the directory of segments: its name, whether it is a regular file, and
what the system answers about it. -/
structure DirEntry where
  name : Bytes
  regular : Bool
  answers : FileAnswers
deriving DecidableEq, Repr

/-- The entry is the file of a segment. -/
def DirEntry.IsStats (entry : DirEntry) : Prop :=
  entry.regular = true ∧ kPrefix.isPrefixOf entry.name = true

instance (entry : DirEntry) : Decidable entry.IsStats :=
  inferInstanceAs (Decidable (_ ∧ _))

/-- The fields of a file name; the one of the process lies behind those of the id and
of the stats. -/
def statsName (name : Bytes) : Option Bytes := (fields dot name)[3]?
def statsPidField (name : Bytes) : Option Bytes := (fields dot name)[4]?

/-- A segment that the monitor knows, under the name of its stats. -/
structure StatsRecord where
  statsName : Bytes
  info : StatsShmInfo
deriving DecidableEq, Repr

/-- The segment is among the records of its stats. -/
def Recorded (records : List StatsRecord) (statsName shm : Bytes) : Prop :=
  ∃ record ∈ records, record.statsName = statsName ∧ record.info.shm = shm

instance (records : List StatsRecord) (statsName shm : Bytes) :
    Decidable (Recorded records statsName shm) := inferInstanceAs (Decidable (∃ _ ∈ _, _))

/-- One entry of `Monitor::scan_stats`: a segment of a monitored process that is not
recorded is checked, and recorded when it passes. -/
def scanEntry (ucommdPids : List Int32) (records : List StatsRecord) (entry : DirEntry) :
    Except MonitorFault (List StatsRecord) :=
  if entry.IsStats then
    match statsPidField entry.name, statsName entry.name with
    | some pid, some statsName =>
      if atoi pid ∈ ucommdPids ∧ ¬ Recorded records statsName entry.name then
        (checkStats entry.name entry.answers).map fun checked =>
          match checked with
          | (_, some info) => records ++ [⟨statsName, info⟩]
          | (_, none) => records
      else
        .ok records
    | _, _ => .error .outside
  else
    .ok records

/-- `Monitor::scan_stats`. -/
def scanStats (ucommdPids : List Int32) (directory : List DirEntry)
    (records : List StatsRecord) : Except MonitorFault (List StatsRecord) :=
  directory.foldlM (scanEntry ucommdPids) records

end NcclExts.Ucommd
