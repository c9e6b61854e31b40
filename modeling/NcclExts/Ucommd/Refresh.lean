import NcclExts.Foundation.System
import NcclExts.Ucommd.Monitor

/-!
# The monitor over time

Processes come and go, and the monitor refreshes what it knows about them from three
sources: the locks that are held, the lock files, and the files of segments. It follows
the processes it was given as long as one of them lives, and every process afterwards.
Segments of dead processes are dropped when it looks for every process, and those whose
files are gone are dropped in any case.
-/

namespace NcclExts.Ucommd

open NcclExts.Foundation

/-- What the monitor can see: the processes that hold a lock, and the directory of the
segments. -/
structure World where
  locks : List Int32
  directory : List DirEntry
deriving DecidableEq, Repr

/-- `Monitor`: the pids it was given and still follows, and what the last refresh found. -/
structure Monitor where
  optsPids : List Int32
  lockPids : List Int32
  ucommdPids : List Int32
  statsRecords : List StatsRecord
deriving DecidableEq, Repr

/-- The entry is a lock file. -/
def DirEntry.IsLock (entry : DirEntry) : Prop :=
  entry.regular = true ∧ kLockPrefix.isPrefixOf entry.name = true

instance (entry : DirEntry) : Decidable entry.IsLock :=
  inferInstanceAs (Decidable (_ ∧ _))

/-- The process of a lock file, named in its last field. -/
def lockPid (name : Bytes) : Int32 := atoi ((fields dot name).getLast?.getD [])

/-- The processes of the lock files. -/
def World.lockFilePids (world : World) : List Int32 :=
  (world.directory.filter (fun entry => entry.IsLock)).map (fun entry => lockPid entry.name)

/-- The file is in the directory. -/
def World.Present (world : World) (name : Bytes) : Prop :=
  ∃ entry ∈ world.directory, entry.name = name

instance (world : World) (name : Bytes) : Decidable (world.Present name) :=
  inferInstanceAs (Decidable (∃ _ ∈ _, _))

/-- Drop the records of processes without a lock; a process that is no number is an
exception. -/
def eraseDead (lockPids : List Int32) : List StatsRecord → Except MonitorFault (List StatsRecord)
  | [] => .ok []
  | record :: rest =>
    match statsPidField record.info.shm with
    | none => .error .outside
    | some field =>
      match stoi field with
      | none => .error .threw
      | some pid =>
        (eraseDead lockPids rest).map fun kept =>
          if pid ∈ lockPids then record :: kept else kept

/-- The pids among the given ones that are in a set. -/
def living (pids lockPids : List Int32) : List Int32 := pids.filter (fun pid => pid ∈ lockPids)

theorem mem_living {pids lockPids : List Int32} {pid : Int32} :
    pid ∈ living pids lockPids ↔ pid ∈ pids ∧ pid ∈ lockPids := by
  rw [living, List.mem_filter, decide_eq_true_eq]

namespace Monitor

/-- `Monitor::get_lock_pids`. -/
def getLockPids (monitor : Monitor) (world : World) : Monitor :=
  { monitor with lockPids := world.locks }

/-- `Monitor::check_ucommd_pids`. -/
def checkUcommdPids (monitor : Monitor) (world : World) : Except MonitorFault Monitor :=
  let alive := living monitor.optsPids monitor.lockPids
  if alive ≠ [] then
    .ok { monitor with optsPids := alive, ucommdPids := alive }
  else
    (eraseDead monitor.lockPids monitor.statsRecords).map fun kept =>
      { monitor with
        optsPids := alive
        ucommdPids := living world.lockFilePids monitor.lockPids
        statsRecords := kept }

/-- `Monitor::clean_stats`. -/
def cleanStats (monitor : Monitor) (world : World) : Monitor :=
  { monitor with statsRecords :=
      monitor.statsRecords.filter (fun record => world.Present record.info.shm) }

/-- `Monitor::check_ucommd_pids_stats`. -/
def checkUcommdPidsStats (monitor : Monitor) (world : World) : Except MonitorFault Monitor := do
  let monitor ← (monitor.getLockPids world).checkUcommdPids world
  let records ← scanStats monitor.ucommdPids world.directory monitor.statsRecords
  return { monitor with statsRecords := records }.cleanStats world

end Monitor

/-! ## Processes -/

namespace World

/-- A file is created or written. -/
def place (world : World) (entry : DirEntry) : World :=
  { world with directory :=
      world.directory.filter (fun other => other.name ≠ entry.name) ++ [entry] }

/-- The entry is a file that a process leaves behind unless it removes it: its lock file
or one of its segments. -/
def OfProcess (pid : Int32) (entry : DirEntry) : Prop :=
  (entry.IsLock ∧ lockPid entry.name = pid) ∨
    (entry.IsStats ∧ (statsPidField entry.name).map atoi = some pid)

instance (pid : Int32) (entry : DirEntry) : Decidable (OfProcess pid entry) :=
  inferInstanceAs (Decidable (_ ∨ _))

/-- A process takes its lock. -/
def lock (world : World) (pid : Int32) : World :=
  { world with locks := pid :: world.locks }

/-- The locks of a process are gone. -/
def unlock (world : World) (pid : Int32) : World :=
  { world with locks := world.locks.filter (fun other => other ≠ pid) }

/-- The files of a process are gone. -/
def remove (world : World) (pid : Int32) : World :=
  { world with directory := world.directory.filter (fun entry => ¬ OfProcess pid entry) }

end World

/-- A monitor and what goes on around it. -/
structure Monitoring where
  monitor : Monitor
  world : World
deriving DecidableEq, Repr

/-- A process takes its lock, a file is created or written, a process exits and removes
its files, a process is killed, or the monitor refreshes. -/
inductive MonitorEvent
  | started (pid : Int32) (lockFile : DirEntry)
  | written (entry : DirEntry)
  | exited (pid : Int32)
  | killed (pid : Int32)
  | refresh
deriving DecidableEq, Repr

namespace Monitoring

/-- One step; a refresh that throws ends the monitor. -/
def step (state : Monitoring) : MonitorEvent → Option Monitoring
  | .started pid lockFile =>
    some { state with world := (state.world.place lockFile).lock pid }
  | .written entry => some { state with world := state.world.place entry }
  | .exited pid => some { state with world := (state.world.unlock pid).remove pid }
  | .killed pid => some { state with world := state.world.unlock pid }
  | .refresh =>
    match state.monitor.checkUcommdPidsStats state.world with
    | .ok monitor => some { state with monitor := monitor }
    | .error _ => none

end Monitoring

/-- The runs of a monitor with given pids, in any world to start with. -/
def monitoring (pids : List Int32) : System Monitoring MonitorEvent where
  starts := fun state => state.monitor = ⟨pids, [], [], []⟩
  step := Monitoring.step

end NcclExts.Ucommd
