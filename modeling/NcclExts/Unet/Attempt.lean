import NcclExts.Foundation.EarlyExit
import NcclExts.Unet.Handshake
import NcclExts.Unet.Socket

/-!
# What an attempt to connect works on

A call of the plugin that sets up a connection works on the tables of the process, on
the stage that outlives it, and on the comm it sets up. Every call it makes outside the
plugin is a point at which it can leave early; what is answered there is an argument.

The process keeps the objects that are live: descriptors, allocated comms, completion
queues and queue pairs with the comm their context points into, and memory regions that
no cache holds. The steps below are those that both sides of a connection share.
-/

namespace NcclExts.Unet

open NcclExts.Foundation NcclExts.Ucommd

/-- Where a comm keeps a queue pair: those of the connection, and on a receiver the one of
each device that flushes. -/
inductive QpSlot where
  | data (q : Nat)
  | flush (i : Nat)
deriving DecidableEq, Repr

/-- Where a comm keeps a memory region: for its FIFO, for sizes and for flushing, one on
each device. -/
inductive MrSlot where
  | fifo (i : Nat)
  | sizes (i : Nat)
  | flush (i : Nat)
deriving DecidableEq, Repr

/-- The points at which connecting or accepting can return an error. -/
inductive Point where
  | wrongState
  | mallocComm
  | socketFamily
  | socket
  | fcntl
  | connectSockopt
  | connect
  | poll
  | sendMagic
  | sendType
  | listenState
  | accept
  | acceptSockopt
  | recvMagic
  | recvType
  | wrongType
  | socketState
  | mallocBuffer
  | mallocReply
  | allocPd (i : Nat)
  | createCq (i : Nat)
  | createQp (slot : QpSlot)
  | initQp (slot : QpSlot)
  | rtrQp (slot : QpSlot)
  | rtsQp (slot : QpSlot)
  | queryEce (q : Nat)
  | setEce (q : Nat)
  | gidIndex (i : Nat)
  | queryGid (i : Nat)
  | regMr (slot : MrSlot)
  | linkLayer
  | sendMeta
  | recvMeta
  | sendReady
  | recvReady
deriving DecidableEq, Repr

/-- A call can drive the state machine of its socket twice: when it starts the socket,
and when it asks whether the socket is ready. -/
inductive Round where
  | starting
  | asking
deriving DecidableEq, Repr

/-- What one call is answered: the object or the success of a call that can only fail, and
the answers of the calls on the socket. -/
structure Answers where
  outcome : Point → Option Nat
  socket : Round → SocketAnswers
  sendMeta : List SendAnswer
  recvMeta : List RecvAnswer
  sendReady : List SendAnswer
  recvReady : List RecvAnswer

/-- How a call leaves before its end: to be called again, through the label that frees
the comm, by returning an error directly, or not yet, since it waits for a transfer. -/
inductive Exit where
  | again
  | failed (point : Point) (result : NcclResult)
  | bailed (point : Point) (result : NcclResult)
  | waiting (point : Point)
deriving DecidableEq, Repr

/-- `enum ncclIbCommState`. -/
inductive NcclIbCommState where
  | start
  | connect
  | accept
  | send
  | recv
  | connecting
  | connected
  | pendingReady
deriving DecidableEq, Repr

/-- `struct ncclIbCommStage`; a buffer that was freed is `none`. -/
structure NcclIbCommStage where
  state : NcclIbCommState
  offset : Nat
  buffer : Option (List UInt8)
  comm : Option Nat
deriving DecidableEq, Repr

/-- The stage of a handle or a listen comm that was just cleared. -/
def NcclIbCommStage.clean : NcclIbCommStage := ⟨.start, 0, none, none⟩

/-- `enum ibv_qp_state`, as far as connecting goes. -/
inductive IbvQpState where
  | reset
  | init
  | rtr
  | rts
deriving DecidableEq, Repr

/-- `struct ncclIbQp` while it is set up, with the state of the verbs object. -/
structure SetupQp where
  qp : Nat
  state : IbvQpState
deriving DecidableEq, Repr

/-- What a comm holds on one device, and which device it is. -/
structure SetupDev where
  ibDevN : Fin 32
  base : NcclIbNetCommDevBase
deriving DecidableEq, Repr

/-- The parts of a send or receive comm that connecting writes. `remMeta` is what was last
copied out of the stage buffer. -/
structure SetupComm where
  address : Nat
  sock : NcclSocket
  ndevs : Nat
  nqps : Nat
  devs : Nat → SetupDev
  qps : QpSlot → Option SetupQp
  mrs : MrSlot → Option Nat
  flushEnabled : Bool
  ready : List UInt8
  remMeta : List UInt8

/-- A comm just allocated and cleared. -/
def SetupComm.zero (address : Nat) : SetupComm :=
  { address := address, sock := .zero, ndevs := 0, nqps := 0, devs := fun _ => ⟨0, none, none⟩,
    qps := fun _ => none, mrs := fun _ => none, flushEnabled := false, ready := wordBytes 4 0,
    remMeta := [] }

/-- A live verbs object, and the address of the comm its context points into. -/
structure VerbsObject where
  handle : Nat
  context : Nat
deriving DecidableEq, Repr

/-- What outlives a comm: `ncclIbDevs`, the live objects, and `ib_stat_`. -/
structure Process where
  ibDevs : Fin 32 → NcclIbDev
  cqs : List VerbsObject
  qps : List VerbsObject
  mrs : List Nat
  fds : List Nat
  comms : List Nat
  ibStat : Option Stat

/-- The process, the stage of the attempt, and the comm that the stage points to. -/
structure Attempt where
  process : Process
  stage : NcclIbCommStage
  comm : SetupComm

/-- What does not change while an attempt goes on. The bytes of metadata in memory are
left open; only their number matters. -/
structure Config where
  side : Side
  mergedDevs : Nat → Fin 32
  stack : NcclIbConnectionMetadata
  metaSize : Nat
  metaBytes : NcclIbConnectionMetadata → List UInt8
  metaOfBytes : List UInt8 → NcclIbConnectionMetadata
  gdrSupport : Bool
  dmaBufSupport : Bool
  gdrFlushDisable : Bool
  length_metaBytes : ∀ info, (metaBytes info).length = metaSize

/-- A part of a call that sets up a connection. -/
abbrev Setup := EStateM Exit Attempt

namespace Process

/-- Count one more of something, when there is an ib stat. -/
def countIb (process : Process) (counter : UInt64) : Process :=
  { process with ibStat := process.ibStat.map fun stat => stat.inc counter }

/-- A completion queue is created and counted. -/
def addCq (process : Process) (cq : VerbsObject) : Process :=
  { process with cqs := cq :: process.cqs }.countIb unetIbCqCount

/-- A queue pair is created and counted. -/
def addQp (process : Process) (qp : VerbsObject) : Process :=
  { process with qps := qp :: process.qps }.countIb unetIbQpCount

end Process

namespace Setup

/-- A call that hands out an object or just succeeds. -/
def demand (answers : Answers) (point : Point) (result : NcclResult) : Setup Nat :=
  match answers.outcome point with
  | some handle => pure handle
  | none => throw (.failed point result)

/-- Change the socket. -/
def setSock (change : NcclSocket → NcclSocket) : Setup PUnit :=
  modify fun attempt => { attempt with comm.sock := change attempt.comm.sock }

/-- Change the state of the socket. -/
def setState (state : NcclSocketState) : Setup PUnit :=
  setSock fun sock => { sock with state := state }

/-- The socket gets a descriptor just opened, on a connection of its own. -/
def openFd (fd : Nat) : Setup PUnit :=
  modify fun attempt =>
    { attempt with
      process.fds := fd :: attempt.process.fds
      comm.sock := { attempt.comm.sock with fd := some fd, sent := [], received := [] } }

/-- `close`; the socket gives up its descriptor. -/
def closeFd : Setup PUnit :=
  modify fun attempt =>
    { attempt with
      process.fds := match attempt.comm.sock.fd with
        | some fd => attempt.process.fds.erase fd
        | none => attempt.process.fds
      comm.sock := { attempt.comm.sock with fd := none } }

/-! ## Transfers -/

/-- `socketProgress` on bytes to send; how many were sent. -/
def sendSome (point : Point) (bytes : List UInt8) (answers : List SendAnswer) : Setup Nat := do
  let progress := socketSend bytes.length answers
  setSock fun sock => { sock with sent := sock.sent ++ bytes.take progress.count }
  if progress.ok then pure progress.count else throw (.failed point .ncclRemoteError)

/-- `socketWait` on bytes to send. -/
def sendAll (point : Point) (bytes : List UInt8) (answers : List SendAnswer) : Setup PUnit :=
  match socketWaitSend bytes.length answers with
  | none => throw (.waiting point)
  | some progress => do
    setSock fun sock => { sock with sent := sock.sent ++ bytes.take progress.count }
    if progress.ok then pure ⟨⟩ else throw (.failed point .ncclRemoteError)

/-- `socketProgress` on bytes to receive; those that were received. -/
def recvSome (point : Point) (wanted : Nat) (answers : List RecvAnswer) :
    Setup (List UInt8) := do
  let progress := socketRecv wanted answers
  setSock fun sock => { sock with received := sock.received ++ progress.data }
  if progress.ok then pure progress.data else throw (.failed point .ncclRemoteError)

/-- `socketWait` on bytes to receive. -/
def recvAll (point : Point) (wanted : Nat) (answers : List RecvAnswer) : Setup (List UInt8) :=
  match socketWaitRecv wanted answers with
  | none => throw (.waiting point)
  | some progress => do
    setSock fun sock => { sock with received := sock.received ++ progress.data }
    if progress.ok then pure progress.data else throw (.failed point .ncclRemoteError)

/-- `ncclSocketProgress` on a send from the offset of the stage, which is to be called
again while it is not complete. -/
def progressSend (point : Point) (bytes : List UInt8) (answers : List SendAnswer) :
    Setup PUnit := do
  let offset := (← get).stage.offset
  let count ← sendSome point (bytes.drop offset) answers
  modify fun attempt => { attempt with stage.offset := offset + count }
  leaveIf (offset + count ≠ bytes.length) .again

/-- `ncclSocketProgress` on a receive into a buffer of `size` bytes from the offset of the
stage, which is to be called again while it is not complete. -/
def progressRecv (point : Point) (size : Nat) (answers : List RecvAnswer)
    (store : Nat → List UInt8 → Attempt → Attempt) : Setup PUnit := do
  let offset := (← get).stage.offset
  let data ← recvSome point (size - offset) answers
  modify fun attempt =>
    { store offset data attempt with stage.offset := offset + data.length }
  leaveIf (offset + data.length ≠ size) .again

/-! ## The socket state machine -/

/-- `socket`, and the `fcntl` that makes it nonblocking; when that fails, the descriptor is
closed. -/
def openSocket (answers : Answers) : Setup PUnit := do
  let fd ← demand answers .socket .ncclSystemError
  openFd fd
  if answers.outcome .fcntl = none then
    closeFd
    throw (.failed .fcntl .ncclSystemError)
  else
    pure ⟨⟩

/-- `ncclSocketInit`; a socket without an address gets no descriptor. -/
def ncclSocketInit (answers : Answers) (addr : Option SockFamily) (magic type : Nat) :
    Setup PUnit := do
  setSock fun sock =>
    { sock with
      timedOutRetries := 0, refusedRetries := 0, state := .initialized, magic := magic,
      type := type, fd := none, acceptFd := none }
  match addr with
  | none => pure ⟨⟩
  | some (.other _) => throw (.failed .socketFamily .ncclInternalError)
  | some .inet | some .inet6 => openSocket answers

/-- `socketTryAccept`. -/
def socketTryAccept (answer : AcceptAnswer) : Setup PUnit :=
  match answer with
  | .accepted fd => do
    openFd fd
    setState .accepted
  | .again => setSock fun sock => { sock with fd := none }
  | .failed => do
    setSock fun sock => { sock with fd := none }
    throw (.failed .accept .ncclSystemError)

/-- `socketFinalizeAccept`. A connection with another magic is closed, and accepting goes
on; one with another type is an error. -/
def socketFinalizeAccept (answers : SocketAnswers) : Setup PUnit := do
  leaveIf (answers.setsockopt = false) (.failed .acceptSockopt .ncclSystemError)
  let first ← recvSome .recvMagic 8 answers.recvMagic
  doIf (first ≠ []) do
    let rest ← recvAll .recvMagic (8 - first.length) answers.recvMagicRest
    if first ++ rest ≠ wordBytes 8 (← get).comm.sock.magic then
      closeFd
      setState .accepting
    else
      let type ← recvAll .recvType 4 answers.recvType
      if type ≠ wordBytes 4 (← get).comm.sock.type then
        setState .error
        closeFd
        throw (.failed .wrongType .ncclInternalError)
      else
        setState .ready

/-- One more refused connection. -/
def retryRefused (point : Point) : Setup PUnit := do
  setSock fun sock => { sock with refusedRetries := sock.refusedRetries + 1 }
  doIf ((← get).comm.sock.refusedRetries = retryRefusedTimes) do
    setState .error
    throw (.failed point .ncclRemoteError)

/-- One more connection that timed out. -/
def retryTimedout (point : Point) : Setup PUnit := do
  setSock fun sock => { sock with timedOutRetries := sock.timedOutRetries + 1 }
  doIf ((← get).comm.sock.timedOutRetries = retryTimedoutTimes) do
    setState .error
    throw (.failed point .ncclRemoteError)

/-- `socketStartConnect`. -/
def socketStartConnect (answer : ConnectAnswer) : Setup PUnit :=
  match answer with
  | .connected => setState .connected
  | .inProgress => setState .connectPolling
  | .refused => retryRefused .connect
  | .timedOut => retryTimedout .connect
  | .failed => do
    setState .error
    throw (.failed .connect .ncclSystemError)

/-- `socketPollConnect`. -/
def socketPollConnect (answer : PollAnswer) : Setup PUnit :=
  match answer with
  | .notYet => pure ⟨⟩
  | .failed => throw (.failed .poll .ncclRemoteError)
  | .otherEvents | .getsockoptFailed => throw (.failed .poll .ncclSystemError)
  | .pending .connected => setState .connected
  | .pending .refused => do
    retryRefused .poll
    setState .connecting
  | .pending .timedOut => do
    retryTimedout .poll
    setState .connecting
  | .pending .inProgress => pure ⟨⟩
  | .pending .failed => do
    setState .error
    throw (.failed .poll .ncclSystemError)

/-- `socketFinalizeConnect`. -/
def socketFinalizeConnect (answers : SocketAnswers) : Setup PUnit := do
  let magic := wordBytes 8 (← get).comm.sock.magic
  let count ← sendSome .sendMagic magic answers.sendMagic
  doIf (count ≠ 0) do
    sendAll .sendMagic (magic.drop count) answers.sendMagicRest
    sendAll .sendType (wordBytes 4 (← get).comm.sock.type) answers.sendType
    setState .ready

/-- Run a part of the socket state machine when the socket is in its state. -/
def whenState (state : NcclSocketState) (part : Setup PUnit) : Setup PUnit := do
  doIf ((← get).comm.sock.state = state) part

/-- `socketProgressState`. -/
def socketProgressState (answers : SocketAnswers) : Setup PUnit := do
  whenState .accepting (socketTryAccept answers.accept)
  whenState .accepted (socketFinalizeAccept answers)
  whenState .connecting (socketStartConnect answers.connect)
  whenState .connectPolling (socketPollConnect answers.poll)
  whenState .connected (socketFinalizeConnect answers)

/-- `ncclSocketReady`. -/
def ncclSocketReady (answers : Answers) : Setup Bool := do
  let state := (← get).comm.sock.state
  leaveIf (state = .error ∨ state = .closed) (.failed .socketState .ncclRemoteError)
  doIf (state ≠ .ready) (socketProgressState (answers.socket .asking))
  pure ((← get).comm.sock.state = .ready)

/-- The end of `ncclSocketConnect` and `ncclSocketAccept`: success in the given states. -/
def checkState (states : List NcclSocketState) : Setup PUnit := do
  let state := (← get).comm.sock.state
  leaveIf (state ∉ states)
    (.failed .socketState (if state = .error then .ncclSystemError else .ncclInternalError))

/-- `ncclSocketConnect` on a socket just initialized with an address. -/
def ncclSocketConnect (answers : Answers) : Setup PUnit := do
  let _ ← demand answers .connectSockopt .ncclSystemError
  setState .connecting
  socketProgressState (answers.socket .starting)
  checkState [.connecting, .connectPolling, .connected, .ready]

/-- `ncclSocketAccept` on a socket just initialized without one. -/
def ncclSocketAccept (answers : Answers) (listenSock : NcclSocket) : Setup PUnit := do
  leaveIf (listenSock.state ≠ .ready)
    (.failed .listenState
      (if listenSock.state = .error then .ncclSystemError else .ncclInternalError))
  setSock fun _ => { listenSock with acceptFd := listenSock.fd, state := .accepting }
  socketProgressState (answers.socket .starting)
  checkState [.accepting, .accepted, .ready]

/-! ## Verbs objects -/

/-- The attempt after a base was initialized, or was begun to be. -/
def initialized (attempt : Attempt) (ibDevN : Fin 32) (i : Nat) (outcome : InitOutcome) :
    Attempt :=
  let process :=
    { attempt.process with
      ibDevs := Function.update attempt.process.ibDevs ibDevN outcome.dev }
  { attempt with
    process := match outcome.result, outcome.base.cq with
      | .ncclSuccess, some cq => process.addCq ⟨cq, attempt.comm.address⟩
      | _, _ => process
    comm.devs := Function.update attempt.comm.devs i ⟨ibDevN, outcome.base⟩ }

/-- `ncclIbInitCommDevBase` for a device of the comm. -/
def ncclIbInitCommDevBase (answers : Answers) (ibDevN : Fin 32) (i : Nat) : Setup PUnit := do
  let attempt ← get
  let outcome := Unet.ncclIbInitCommDevBase (attempt.process.ibDevs ibDevN)
    (answers.outcome (.allocPd i)) (answers.outcome (.createCq i))
  set (initialized attempt ibDevN i outcome)
  leaveIf (outcome.result ≠ .ncclSuccess)
    (.failed
      (if outcome.allocated ∧ answers.outcome (.allocPd i) = none then .allocPd i else .createCq i)
      outcome.result)

/-- Change the state of a queue pair. -/
def moveQp (slot : QpSlot) (state : IbvQpState) : Setup PUnit :=
  modify fun attempt =>
    { attempt with
      comm.qps := Function.update attempt.comm.qps slot
        ((attempt.comm.qps slot).map fun qp => { qp with state := state }) }

/-- `ncclIbCreateQp`. -/
def ncclIbCreateQp (answers : Answers) (slot : QpSlot) : Setup PUnit := do
  let qp ← demand answers (.createQp slot) .ncclSystemError
  modify fun attempt =>
    { attempt with
      process := attempt.process.addQp ⟨qp, attempt.comm.address⟩
      comm.qps := Function.update attempt.comm.qps slot (some ⟨qp, .reset⟩) }
  let _ ← demand answers (.initQp slot) .ncclSystemError
  moveQp slot .init

/-- `ncclIbRtrQp` and then `ncclIbRtsQp`. -/
def readyQp (answers : Answers) (slot : QpSlot) : Setup PUnit := do
  let _ ← demand answers (.rtrQp slot) .ncclSystemError
  moveQp slot .rtr
  let _ ← demand answers (.rtsQp slot) .ncclSystemError
  moveQp slot .rts

/-- `wrap_ibv_reg_mr` on memory of the comm. -/
def regMr (answers : Answers) (slot : MrSlot) : Setup PUnit := do
  let mr ← demand answers (.regMr slot) .ncclSystemError
  modify fun attempt =>
    { attempt with
      process.mrs := mr :: attempt.process.mrs
      comm.mrs := Function.update attempt.comm.mrs slot (some mr) }

/-- The index of the GID of a port, and the GID at it. -/
def findGid (answers : Answers) (i : Nat) : Setup PUnit := do
  let _ ← demand answers (.gidIndex i) .ncclSystemError
  let _ ← demand answers (.queryGid i) .ncclSystemError

end Setup

end NcclExts.Unet
