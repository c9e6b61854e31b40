import NcclExts.Unet.Attempt

/-!
# Connecting and accepting, call after call

`ncclIbConnect` and `ncclIbAccept` are called again until they return a comm. Each call
goes on at the label its stage remembers and runs into the labels behind it, until a
transfer is not complete or something fails. The labels are definitions of their own
here, each ending in the next.
-/

namespace NcclExts.Unet

open NcclExts.Foundation

/-- What a handle tells about the listening side, apart from the stage. -/
structure ConnectAddr where
  family : SockFamily
  magic : Nat
deriving DecidableEq, Repr

/-- What a call returns: `ncclSuccess` without a comm, `ncclSuccess` with one, or the
error of a point; a call that waits for a transfer has not returned. -/
inductive Returned where
  | again
  | done (comm : Nat)
  | error (point : Point) (result : NcclResult)
  | waiting
deriving DecidableEq, Repr

namespace Setup

/-- A loop over the devices of the comm. -/
def eachDev (config : Config) (body : Nat → Setup PUnit) : Setup PUnit :=
  (List.range config.side.ndevs).forM body

/-- A loop over the queue pairs of the connection. -/
def eachQp (config : Config) (body : Nat → Setup PUnit) : Setup PUnit :=
  (List.range config.side.numQps).forM body

/-- Change the stage. -/
def setStage (change : NcclIbCommStage → NcclIbCommStage) : Setup PUnit :=
  modify fun attempt => { attempt with stage := change attempt.stage }

/-- `ncclIbMalloc` of a comm, which returns directly when it fails. -/
def mallocComm (answers : Answers) : Setup Nat :=
  match answers.outcome .mallocComm with
  | none => throw (.bailed .mallocComm .ncclSystemError)
  | some address => do
    modify fun attempt =>
      { attempt with
        process.comms := address :: attempt.process.comms
        comm := .zero address }
    pure address

/-- The number of devices and of queue pairs of the comm. -/
def sizeComm (config : Config) : Setup PUnit :=
  modify fun attempt =>
    { attempt with comm.ndevs := config.side.ndevs, comm.nqps := config.side.numQps }

/-- A receive into the stage buffer. -/
def storeBuffer (offset : Nat) (data : List UInt8) (attempt : Attempt) : Attempt :=
  { attempt with
    stage.buffer := attempt.stage.buffer.map fun buffer => overwrite buffer offset data }

/-- A receive into the ready word. -/
def storeReady (offset : Nat) (data : List UInt8) (attempt : Attempt) : Attempt :=
  { attempt with comm.ready := overwrite attempt.comm.ready offset data }

/-- Copy the metadata of the other side out of the stage buffer. -/
def copyMeta (config : Config) : Setup NcclIbConnectionMetadata := do
  let bytes := (← get).stage.buffer.getD []
  modify fun attempt => { attempt with comm.remMeta := bytes }
  pure (config.metaOfBytes bytes)

/-! ## `ncclIbConnect` -/

/-- `ib_send_ready`. -/
def ibSendReady (answers : Answers) : Setup PUnit := do
  progressSend .sendReady (← get).comm.ready answers.sendReady

/-- Move the queue pairs to RTS as the metadata of the other side says. -/
def connectQps (config : Config) (answers : Answers) (remMeta : NcclIbConnectionMetadata) :
    Setup PUnit :=
  eachQp config fun q => do
    doIf (remMeta.qpInfo q).eceSupported do
      let _ ← demand answers (.setEce q) .ncclSystemError
    readyQp answers (.data q)

/-- `ib_connect`. -/
def ibConnect (config : Config) (answers : Answers) : Setup PUnit := do
  progressRecv .recvMeta config.metaSize answers.recvMeta storeBuffer
  let remMeta ← copyMeta config
  leaveIf (linksDiffer remMeta.ndevs (fun i => remMeta.devs i) (remMeta.devs 0))
    (.bailed .linkLayer .ncclInternalError)
  eachDev config fun i => regMr answers (.sizes i)
  connectQps config answers remMeta
  modify fun attempt => { attempt with comm.ready := wordBytes 4 1 }
  setStage fun stage => { stage with state := .connected, offset := 0 }
  ibSendReady answers

/-- `ib_send` of the connecting side; the buffer is cleared for the answer. -/
def ibSend (config : Config) (answers : Answers) : Setup PUnit := do
  progressSend .sendMeta ((← get).stage.buffer.getD []) answers.sendMeta
  setStage fun stage =>
    { stage with
      state := .connecting, offset := 0, buffer := some (List.replicate config.metaSize 0) }
  ibConnect config answers

/-- Create the queue pairs of the connecting side. -/
def createQps (config : Config) (answers : Answers) : Setup PUnit :=
  eachQp config fun q => do
    ncclIbCreateQp answers (.data q)
    doIf config.side.eceEnable do
      let _ ← demand answers (.queryEce q) .ncclSystemError

/-- Register the FIFO on each device, and find the GIDs that metadata tells. -/
def prepareFifos (config : Config) (answers : Answers) : Setup PUnit :=
  eachDev config fun i => do
    regMr answers (.fifo i)
    doIf ((config.side.devInfo i).linkLayer = .ethernet ∨ (config.side.devInfo i).isGlobal)
      (findGid answers i)

/-- `ib_connect_check`. -/
def ibConnectCheck (config : Config) (answers : Answers) : Setup PUnit := do
  let ready ← ncclSocketReady answers
  leaveIf (ready = false) .again
  sizeComm config
  eachDev config fun i => ncclIbInitCommDevBase answers (config.mergedDevs i) i
  createQps config answers
  prepareFifos config answers
  setStage fun stage => { stage with state := .send, offset := 0 }
  let _ ← demand answers .mallocBuffer .ncclSystemError
  setStage fun stage =>
    { stage with buffer := some (config.metaBytes (connectMeta config.side config.stack)) }
  ibSend config answers

/-- The first call of an attempt to connect. -/
def connectStart (config : Config) (addr : ConnectAddr) (answers : Answers) : Setup PUnit := do
  setStage fun stage => { stage with buffer := none }
  let address ← mallocComm answers
  ncclSocketInit answers (some addr.family) addr.magic ncclSocketTypeNetIb
  setStage fun stage => { stage with comm := some address, state := .connect }
  ncclSocketConnect answers
  ibConnectCheck config answers

/-- Where a call of `ncclIbConnect` goes on. -/
def connectFrom (config : Config) (addr : ConnectAddr) (answers : Answers) :
    NcclIbCommState → Setup PUnit
  | .connect => ibConnectCheck config answers
  | .send => ibSend config answers
  | .connecting => ibConnect config answers
  | .connected => ibSendReady answers
  | .start => connectStart config addr answers
  | .accept | .recv | .pendingReady => throw (.bailed .wrongState .ncclInternalError)

/-! ## `ncclIbAccept` -/

/-- `ib_recv_ready`. -/
def ibRecvReady (answers : Answers) : Setup PUnit :=
  progressRecv .recvReady 4 answers.recvReady storeReady

/-- `ib_send` of the accepting side. -/
def ibReply (answers : Answers) : Setup PUnit := do
  progressSend .sendMeta ((← get).stage.buffer.getD []) answers.sendMeta
  setStage fun stage => { stage with offset := 0, state := .pendingReady }
  ibRecvReady answers

/-- Create the queue pairs of the accepting side and move them to RTS. -/
def acceptQps (config : Config) (answers : Answers) (remMeta : NcclIbConnectionMetadata) :
    Setup PUnit :=
  eachQp config fun q => do
    ncclIbCreateQp answers (.data q)
    doIf (remMeta.qpInfo q).eceSupported do
      let _ ← demand answers (.setEce q) .ncclSystemError
      doIf (config.side.setEce q) do
        let _ ← demand answers (.queryEce q) .ncclSystemError
    readyQp answers (.data q)

/-- `rComm->flushEnabled`. -/
def Config.flushEnabled (config : Config) : Bool :=
  (config.gdrSupport || config.dmaBufSupport) && !config.gdrFlushDisable

/-- Register the memory of the comm on each device, with the queue pair that flushes. -/
def acceptDevs (config : Config) (answers : Answers) : Setup PUnit :=
  eachDev config fun i => do
    regMr answers (.fifo i)
    doIf (Config.flushEnabled config) do
      regMr answers (.flush i)
      ncclIbCreateQp answers (.flush i)
      readyQp answers (.flush i)
    regMr answers (.sizes i)

/-- `ib_recv`. -/
def ibRecv (config : Config) (answers : Answers) : Setup PUnit := do
  progressRecv .recvMeta config.metaSize answers.recvMeta storeBuffer
  let remMeta ← copyMeta config
  sizeComm config
  eachDev config fun i => do
    ncclIbInitCommDevBase answers (config.mergedDevs i) i
    findGid answers i
  acceptQps config answers remMeta
  modify fun attempt => { attempt with comm.flushEnabled := Config.flushEnabled config }
  acceptDevs config answers
  setStage fun stage => { stage with state := .send, offset := 0, buffer := none }
  let _ ← demand answers .mallocReply .ncclSystemError
  setStage fun stage =>
    { stage with
      buffer := some (config.metaBytes (acceptSetup config.side config.stack remMeta).value.2) }
  ibReply answers

/-- `ib_accept_check`. -/
def ibAcceptCheck (config : Config) (answers : Answers) : Setup PUnit := do
  let ready ← ncclSocketReady answers
  leaveIf (ready = false) .again
  setStage fun stage => { stage with state := .recv, offset := 0 }
  let _ ← demand answers .mallocBuffer .ncclSystemError
  setStage fun stage => { stage with buffer := some (List.replicate config.metaSize 0) }
  ibRecv config answers

/-- The first call of an attempt to accept. -/
def acceptStart (config : Config) (listenSock : NcclSocket) (answers : Answers) :
    Setup PUnit := do
  let address ← mallocComm answers
  setStage fun stage => { stage with comm := some address, state := .accept }
  ncclSocketInit answers none ncclSocketMagic 0
  ncclSocketAccept answers listenSock
  ibAcceptCheck config answers

/-- Where a call of `ncclIbAccept` goes on. -/
def acceptFrom (config : Config) (listenSock : NcclSocket) (answers : Answers) :
    NcclIbCommState → Setup PUnit
  | .accept => ibAcceptCheck config answers
  | .recv => ibRecv config answers
  | .send => ibReply answers
  | .pendingReady => ibRecvReady answers
  | .start => acceptStart config listenSock answers
  | .connect | .connecting | .connected => throw (.bailed .wrongState .ncclInternalError)

end Setup

namespace Attempt

/-- `free` of the comm. -/
def freeComm (attempt : Attempt) : Attempt :=
  { attempt with process.comms := attempt.process.comms.erase attempt.comm.address }

/-- The `exit` label of `ncclIbConnect`. -/
def exitConnect (attempt : Attempt) : Attempt :=
  { attempt with stage.buffer := none, stage.state := .start }

/-- The `exit` label of `ncclIbAccept`. -/
def exitAccept (attempt : Attempt) : Attempt := { attempt with stage := .clean }

/-- What a call returns and leaves behind, given its `exit` label. -/
def finish (exit : Attempt → Attempt) : EStateM.Result Exit Attempt PUnit → Returned × Attempt
  | .ok _ after => (.done after.comm.address, exit after)
  | .error .again after => (.again, after)
  | .error (.failed point result) after => (.error point result, exit after.freeComm)
  | .error (.bailed point result) after => (.error point result, after)
  | .error (.waiting _) after => (.waiting, after)

end Attempt

/-- `ncclIbConnect`. -/
def ncclIbConnect (config : Config) (addr : ConnectAddr) (answers : Answers)
    (attempt : Attempt) : Returned × Attempt :=
  Attempt.finish Attempt.exitConnect
    (Setup.connectFrom config addr answers attempt.stage.state attempt)

/-- `ncclIbAccept`. -/
def ncclIbAccept (config : Config) (listenSock : NcclSocket) (answers : Answers)
    (attempt : Attempt) : Returned × Attempt :=
  Attempt.finish Attempt.exitAccept
    (Setup.acceptFrom config listenSock answers attempt.stage.state attempt)

end NcclExts.Unet
