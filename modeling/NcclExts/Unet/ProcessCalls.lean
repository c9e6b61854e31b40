import NcclExts.Unet.ConnectAccept

/-!
# The calls of a process on its comms

Beside connecting and accepting, a process listens, registers memory on its comms, and
closes them. Registered memory goes through the cache of each device of the comm, and
closing gives back what connecting acquired, one object after the other, until a call
fails. Verbs only destroys what is live.
-/

namespace NcclExts.Unet

open NcclExts.Foundation NcclExts.Ucommd

/-! ## Closing -/

/-- Which calls of verbs succeed when a comm is closed. -/
structure CloseAnswers where
  destroyQp : QpSlot → Bool
  deregMr : MrSlot → Bool
  destroyCq : Nat → Bool
  deallocPd : Nat → Bool

/-- A part of a call on the process, which leaves early with an error. -/
abbrev ProcessCall := EStateM NcclResult Process

namespace Process

/-- Count one less of something, when there is an ib stat. -/
def discountIb (process : Process) (counter : UInt64) : Process :=
  { process with ibStat := process.ibStat.map fun stat => stat.dec counter }

/-- `ncclSocketClose` on the socket of a comm. -/
def closeSock (process : Process) (comm : SetupComm) : Process :=
  { process with
    fds := match comm.sock.fd with
      | some fd => process.fds.erase fd
      | none => process.fds }

/-- A completion queue is destroyed and no longer counted. -/
def dropCq (process : Process) (cq : Nat) : Process :=
  { process with cqs := process.cqs.eraseP fun object => object.handle = cq }.discountIb
    unetIbCqCount

/-- A queue pair is destroyed and no longer counted. -/
def dropQp (process : Process) (qp : Nat) : Process :=
  { process with qps := process.qps.eraseP fun object => object.handle = qp }.discountIb
    unetIbQpCount

end Process

namespace ProcessCall

/-- Destroy a queue pair of a comm, if it has one there. -/
def destroyQp (comm : SetupComm) (answers : CloseAnswers) (slot : QpSlot) : ProcessCall PUnit :=
  match comm.qps slot with
  | none => pure ⟨⟩
  | some qp => do
    let process ← get
    leaveIf (answers.destroyQp slot = false ∨ qp.qp ∉ process.qps.map VerbsObject.handle)
      .ncclSystemError
    set (process.dropQp qp.qp)

/-- Deregister memory of a comm, if it is registered. -/
def deregMr (comm : SetupComm) (answers : CloseAnswers) (slot : MrSlot) : ProcessCall PUnit :=
  match comm.mrs slot with
  | none => pure ⟨⟩
  | some mr => do
    leaveIf (answers.deregMr slot = false) .ncclSystemError
    modify fun process => { process with mrs := process.mrs.erase mr }

/-- The process after a base was destroyed, or was begun to be. -/
def destroyed (process : Process) (dev : SetupDev) (cqOk : Bool) (outcome : DestroyOutcome) :
    Process :=
  let process :=
    { process with ibDevs := Function.update process.ibDevs dev.ibDevN outcome.dev }
  match dev.base.cq with
  | some cq => if cqOk then process.dropCq cq else process
  | none => process

/-- `ncclIbDestroyBase` for a device of a comm. -/
def ncclIbDestroyBase (comm : SetupComm) (answers : CloseAnswers) (i : Nat) :
    ProcessCall PUnit := do
  let process ← get
  let dev := comm.devs i
  let cqOk := answers.destroyCq i ∧ ∃ cq ∈ dev.base.cq, cq ∈ process.cqs.map VerbsObject.handle
  let outcome := Unet.ncclIbDestroyBase (process.ibDevs dev.ibDevN) cqOk (answers.deallocPd i)
  set (destroyed process dev cqOk outcome)
  leaveIf (outcome.result ≠ .ncclSuccess) outcome.result

/-- `ncclIbCloseSend` on a comm that is not NULL. -/
def ncclIbCloseSend (comm : SetupComm) (answers : CloseAnswers) : ProcessCall PUnit := do
  modify fun process => process.closeSock comm
  (List.range comm.nqps).forM fun q => destroyQp comm answers (.data q)
  (List.range comm.ndevs).forM fun i => do
    deregMr comm answers (.fifo i)
    deregMr comm answers (.sizes i)
    ncclIbDestroyBase comm answers i
  modify fun process => { process with comms := process.comms.erase comm.address }

/-- `ncclIbCloseRecv` on a comm that is not NULL. -/
def ncclIbCloseRecv (comm : SetupComm) (answers : CloseAnswers) : ProcessCall PUnit := do
  modify fun process => process.closeSock comm
  (List.range comm.nqps).forM fun q => destroyQp comm answers (.data q)
  (List.range comm.ndevs).forM fun i => do
    doIf comm.flushEnabled do
      destroyQp comm answers (.flush i)
      deregMr comm answers (.flush i)
    deregMr comm answers (.fifo i)
    deregMr comm answers (.sizes i)
    ncclIbDestroyBase comm answers i
  modify fun process => { process with comms := process.comms.erase comm.address }

end ProcessCall

/-! ## Registering memory -/

/-- The memory that is registered, and what the allocator and verbs answer on each device
of the comm. -/
structure RegRequest where
  page : PageSize
  relaxed : Bool
  data : Nat
  size : Nat
  offset : Nat
  fd : Int
  mallocOk : Nat → Bool
  registered : Nat → Option Nat

/-- How a registration leaves early: with an error, or by an access outside of the slots
of a cache. -/
inductive RegExit where
  | error (result : NcclResult)
  | outside
deriving DecidableEq, Repr

namespace Process

/-- The cache of a device. -/
def cache (process : Process) (ibDevN : Fin 32) : NcclIbMrCache :=
  (process.ibDevs ibDevN).mrCache

/-- Replace the cache of a device. -/
def setCache (process : Process) (ibDevN : Fin 32) (cache : NcclIbMrCache) : Process :=
  { process with
    ibDevs := Function.update process.ibDevs ibDevN
      { process.ibDevs ibDevN with mrCache := cache } }

/-- A registration is counted when verbs made it. -/
def registered (process : Process) (ibDevN : Fin 32) (outcome : RegOutcome) : Process :=
  if outcome.result = .ncclSuccess ∧ outcome.call ≠ none then
    (process.setCache ibDevN outcome.cache).countIb unetIbMrCount
  else process.setCache ibDevN outcome.cache

/-- A deregistration is counted when verbs made it. -/
def deregistered (process : Process) (ibDevN : Fin 32) (outcome : DeregOutcome) : Process :=
  if outcome.result = .ncclSuccess ∧ outcome.deregistered then
    (process.setCache ibDevN outcome.cache).discountIb unetIbMrCount
  else process.setCache ibDevN outcome.cache

end Process

namespace ProcessCall

/-- `ncclIbRegMrDmaBufInternal` for a device of a comm. -/
def regMrInternal (request : RegRequest) (dev : SetupDev) (i : Nat) :
    EStateM RegExit Process (Option Nat) := do
  let process ← get
  match ncclIbRegMrDmaBufInternal request.page request.relaxed (process.cache dev.ibDevN)
      dev.base.pd request.data request.size request.offset request.fd (request.mallocOk i)
      (request.registered i) with
  | none => throw .outside
  | some outcome => do
    set (process.registered dev.ibDevN outcome)
    leaveIf (outcome.result ≠ .ncclSuccess) (.error outcome.result)
    pure outcome.mhandle

/-- `ncclIbRegMrDmaBuf`: the regions on the devices of the comm, in order. -/
def ncclIbRegMrDmaBuf (comm : SetupComm) (request : RegRequest) :
    EStateM RegExit Process (List (Option Nat)) :=
  (List.range comm.ndevs).mapM fun i => regMrInternal request (comm.devs i) i

/-- `ncclIbDeregMrInternal` for a device of a comm. -/
def deregMrInternal (dev : SetupDev) (mhandle : Nat) (deregOk : Bool) : ProcessCall PUnit := do
  let process ← get
  let outcome := ncclIbDeregMrInternal (process.cache dev.ibDevN) mhandle deregOk
  set (process.deregistered dev.ibDevN outcome)
  leaveIf (outcome.result ≠ .ncclSuccess) outcome.result

/-- `ncclIbDeregMr`. -/
def ncclIbDeregMr (comm : SetupComm) (mhandles : Nat → Nat) (deregOk : Nat → Bool) :
    ProcessCall PUnit :=
  (List.range comm.ndevs).forM fun i => deregMrInternal (comm.devs i) (mhandles i) (deregOk i)

end ProcessCall

/-! ## Listening -/

/-- What listening is answered: the calls of `ncclSocketInit`, those of `ncclSocketListen`
together, and the memory of the stats. -/
structure ListenAnswers where
  mallocOk : Bool
  init : Answers
  listenOk : Bool
  pid : Int32
  env : RankEnv
  ibMemory : Option (UInt64 → UInt64)
  bwMemory : Option (UInt64 → UInt64)

/-- A listen comm: its socket, and the stage and the comm of the attempt to accept. -/
structure ListenComm where
  sock : NcclSocket
  stage : NcclIbCommStage
  comm : SetupComm

/-- The process, whether its stats could not be initialized once, and whether it has an ib
stat in `ib_stat_`. -/
structure PerfProcess where
  process : Process
  perfFailed : Bool

namespace PerfProcess

/-- `if (ib_stat_ == nullptr) ib_stat_ = getUnetIbStat()`; stats that could not be
initialized stay so. -/
def obtainIbStat (perf : PerfProcess) (answers : ListenAnswers) : PerfProcess :=
  if perf.process.ibStat = none ∧ perf.perfFailed = false then
    match initStats answers.env answers.pid answers.ibMemory answers.bwMemory with
    | some stats => { perf with process.ibStat := some stats.1 }
    | none => { perf with perfFailed := true }
  else perf

/-- `ncclIbListen`; the listen comm is returned when the socket listens. -/
def ncclIbListen (perf : PerfProcess) (family : SockFamily) (answers : ListenAnswers) :
    Option ListenComm × PerfProcess :=
  if answers.mallocOk = false then (none, perf)
  else
    match Setup.ncclSocketInit answers.init (some family) ncclSocketMagic ncclSocketTypeNetIb
        ⟨perf.process, .clean, .zero 0⟩ with
    | .error _ after => (none, { perf with process := after.process.closeSock after.comm })
    | .ok _ after =>
      if answers.listenOk = false then
        (none, { perf with process := after.process.closeSock after.comm })
      else
        (some ⟨{ after.comm.sock with state := .ready }, .clean, .zero 0⟩,
          { perf with process := after.process }.obtainIbStat answers)

end PerfProcess

end NcclExts.Unet
