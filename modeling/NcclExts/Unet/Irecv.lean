import NcclExts.Unet.Isend

/-!
# Posting a receive

A receive takes a request, posts an empty receive on each queue pair that will carry
its message, and announces its buffers to the sender by a write into the next slot of
the sender's FIFO. The announcements alternate between the devices, and only those
into one slot of each device ask for a completion. A flush reads back through every
device.
-/

namespace NcclExts.Unet

open NcclExts.Foundation NcclExts.Ucommd

/-- One receive of a call, with the remote keys of its memory handle. -/
structure RecvArg where
  data : Nat
  size : Int32
  tag : Int32
  rkeys : Dev → UInt32

/-- What connecting leaves in a receive comm and the data path only reads: the keys of
the sender's FIFO and of the local staging rows, and the flush memory. -/
structure RecvSetup extends CommSetup where
  fifoRkeys : Dev → UInt32
  fifoLkeys : Dev → UInt32
  flushEnabled : Bool
  flushLkeys : Dev → UInt32

/-- `struct ncclIbRecvComm`; `elems` are the staging rows of the announcements, and the
sizes FIFO is part of the endpoint. -/
structure RecvComm where
  ep : Endpoint
  devIndex : Nat
  fifoTail : Nat
  elems : Nat → Nat → NcclIbSendFifo

/-- The posting of an empty receive for a request. -/
def recvPosting (setup : RecvSetup) (q group : Nat) (i : ReqId) : Posting :=
  { qp := .data q, dev := (setup.qps q).devIndex, kind := .recv, wrId := i.val, chain := [],
    members := 1, group := group }

/-- Apply a function to one request. -/
def Endpoint.mapReq (ep : Endpoint) (i : ReqId) (change : NcclIbRequest → NcclIbRequest) :
    Endpoint :=
  ep.setReq i (change (ep.reqs i))

/-- Post a receive on the next queue pair. -/
def postRecv (setup : RecvSetup) (group : Nat) (i : ReqId) (ep : Endpoint) : Endpoint :=
  let q := ep.qpIndex
  let ep := ep.mapReq i (fun req => Endpoint.ncclIbAddEvent req (setup.qps q).devIndex)
  let ep := ep.postSignaled (recvPosting setup q group i)
  { ep with qpIndex := (q + 1) % setup.nqps }

/-- The loop that posts the receives of a call. -/
def postRecvs (setup : RecvSetup) (group : Nat) (i : ReqId) : Nat → Endpoint → Endpoint
  | 0, ep => ep
  | count + 1, ep => postRecvs setup group i count (postRecv setup group i ep)

/-- What is written into a staging row for one receive; keys of devices the comm does
not have keep their old values. -/
def announce (setup : RecvSetup) (nreqs idx : Nat) (recv : RecvArg) (old : NcclIbSendFifo) :
    NcclIbSendFifo :=
  { addr := recv.data
    size := recv.size
    rkeys := fun dev => if dev.val < setup.ndevs then recv.rkeys dev else old.rkeys dev
    nreqs := nreqs
    tag := recv.tag.toUInt32
    idx := idx }

/-- Zero the first sizes of a row. -/
def Endpoint.clearSizes (ep : Endpoint) (slot n : Nat) : Endpoint :=
  { ep with
    sizesFifo := Function.update ep.sizesFifo slot
      (fun r => if r < n then 0 else ep.sizesFifo slot r) }

/-- The write of an announcement. -/
def ctsWr (setup : RecvSetup) (slot nreqs : Nat) (qp : NcclIbQp) (signaled : Bool) (i : ReqId) :
    IbvSendWr :=
  { wrId := if signaled then i.val else 0
    opcode := .rdmaWrite
    signaled := signaled
    remoteAddr := .ctsRow slot
    rkey := setup.fifoRkeys qp.remDevIdx
    sge := some ⟨.ctsRow slot, nreqs * 64, setup.fifoLkeys qp.devIndex⟩
    immData := 0 }

def ctsPosting (wr : IbvSendWr) (q group : Nat) (dev : Dev) : Posting :=
  { qp := .data q, dev := dev, kind := .cts, wrId := wr.wrId, chain := [wr], members := 1,
    group := group }

/-- Write an announcement into the staging row of a slot. -/
def stage (setup : RecvSetup) (slot idx : Nat) (recvs : List RecvArg)
    (elems : Nat → Nat → NcclIbSendFifo) : Nat → Nat → NcclIbSendFifo :=
  Function.update elems slot (fun r =>
    match recvs[r]? with
    | some recv => announce setup recvs.length idx recv (elems slot r)
    | none => elems slot r)

/-- `ncclIbPostFifo`. -/
def ncclIbPostFifo (setup : RecvSetup) (comm : RecvComm) (recvs : List RecvArg) (i : ReqId) :
    RecvComm :=
  let slot := comm.fifoTail % maxRequests
  let q := comm.devIndex
  let qp := setup.qps q
  let signaled : Bool := slot = qp.devIndex.val
  let wr := ctsWr setup slot recvs.length qp signaled i
  let posting := ctsPosting wr q comm.fifoTail qp.devIndex
  let ep := comm.ep.mapReq i (fun req => { req with sizes := slot })
  let ep := ep.clearSizes slot recvs.length
  let ep :=
    if signaled then
      (ep.mapReq i (fun req => Endpoint.ncclIbAddEvent req qp.devIndex)).postSignaled posting
    else ep.postUnsignaled posting
  { ep := ep.countIb unetIbFifoPostCount
    devIndex := (comm.devIndex + 1) % setup.ndevs
    fifoTail := comm.fifoTail + 1
    elems := stage setup slot (comm.fifoTail + 1) recvs comm.elems }

/-- The request of a receive before anything is posted for it. -/
def recvRequest (setup : RecvSetup) (nreqs : Nat) (req : NcclIbRequest) : NcclIbRequest :=
  { req with
    type := .recv
    nreqs := nreqs
    devBases := fun dev => if dev.val < setup.ndevs then some dev else req.devBases dev }

/-- `ncclIbIrecv`. -/
def ncclIbIrecv (setup : RecvSetup) (comm : RecvComm) (recvs : List RecvArg) :
    CallOutcome RecvComm :=
  if setup.ready = false then .returned .ncclInternalError none comm
  else if recvs.length > maxRecvs then .returned .ncclInternalError none comm
  else
    let checked := Endpoint.ncclIbStatsCheckFatalCount setup.asyncEvents comm.ep.fatalErrorCount
    if checked ≠ .ncclSuccess then .returned checked none comm
    else
      match comm.ep.ncclIbGetRequest with
      | none => .returned .ncclInternalError none comm
      | some (i, ep) =>
        let ep := ep.mapReq i (recvRequest setup recvs.length)
        let ep := postRecvs setup comm.fifoTail i setup.perMessage ep
        .returned .ncclSuccess (some i) (ncclIbPostFifo setup { comm with ep := ep } recvs i)

/-- The posting of the flushing read of one device. -/
def flushPosting (setup : RecvSetup) (recv : RecvArg) (group : Nat) (i : ReqId) (dev : Dev) :
    Posting :=
  { qp := .gpuFlush dev, dev := dev, kind := .flush, wrId := i.val
    chain := [{ wrId := i.val, opcode := .rdmaRead, signaled := true,
                remoteAddr := .user recv.data, rkey := recv.rkeys dev,
                sge := some ⟨.flushMem, 1, setup.flushLkeys dev⟩, immData := 0 }]
    members := 1, group := group }

/-- Post the read of one device. -/
def postFlush (setup : RecvSetup) (recv : RecvArg) (group : Nat) (i : ReqId) (dev : Dev)
    (ep : Endpoint) : Endpoint :=
  (ep.postSignaled (flushPosting setup recv group i dev)).mapReq i
    (fun req => Endpoint.ncclIbAddEvent req dev)

/-- The loop that posts the reads of a flush. -/
def postFlushes (setup : RecvSetup) (recv : RecvArg) (group : Nat) (i : ReqId) :
    List Dev → Endpoint → Endpoint
  | [], ep => ep
  | dev :: rest, ep =>
    postFlushes setup recv group i rest (postFlush setup recv group i dev ep)

/-- The devices of a comm. -/
def CommSetup.devices (setup : CommSetup) : List Dev :=
  (List.finRange 2).filter (fun dev => dev.val < setup.ndevs)

/-- `ncclIbIflush`; it flushes through the last receive of the call that got data. -/
def ncclIbIflush (setup : RecvSetup) (comm : RecvComm) (recvs : List RecvArg) :
    CallOutcome RecvComm :=
  match (recvs.filter (fun recv => recv.size ≠ 0)).getLast? with
  | none => .returned .ncclSuccess none comm
  | some last =>
    if setup.flushEnabled = false then .returned .ncclSuccess none comm
    else
      match comm.ep.ncclIbGetRequest with
      | none => .returned .ncclInternalError none comm
      | some (i, ep) =>
        let ep := ep.mapReq i (fun req => { req with type := .flush })
        let ep := postFlushes setup last comm.fifoTail i setup.devices ep
        .returned .ncclSuccess (some i) { comm with ep := ep }

end NcclExts.Unet
