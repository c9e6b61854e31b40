import NcclExts.Unet.MultiSend

/-!
# Matching a send to a receive

The peer announces its receives in the FIFO of the send comm, one slot for each call,
stamped with the number of the call. A send looks at the slot of the next call only.
It takes the first receive there that has its tag and no send yet, and the send that
completes the slot posts the message and moves on to the next one.
-/

namespace NcclExts.Unet

open NcclExts.Foundation NcclExts.Ucommd

/-- The outcomes of a call on a comm. A call that spins waits for the peer inside the
call, and one that faults follows a null pointer or leaves the row of a slot. -/
inductive CallOutcome (Comm : Type) where
  | returned (result : NcclResult) (request : Option ReqId) (comm : Comm)
  | spins
  | faulted

/-- One round of the loop that counts the completions a send will wait for. -/
def countStripe (setup : SendSetup) (lkeys : Dev → UInt32) (req : NcclIbRequest) (q : Nat) :
    NcclIbRequest :=
  let devIndex := (setup.qps q).devIndex
  let req := Endpoint.ncclIbAddEvent req devIndex
  { req with lkeys := Function.update req.lkeys devIndex (lkeys devIndex) }

/-- The loop over the queue pairs that will carry the message. -/
def countStripes (setup : SendSetup) (lkeys : Dev → UInt32) :
    Nat → Nat → NcclIbRequest → NcclIbRequest
  | 0, _, req => req
  | nEvents + 1, q, req =>
    countStripes setup lkeys nEvents ((q + 1) % setup.nqps) (countStripe setup lkeys req q)

/-- The request of a send that found its receive. -/
def sendRequest (setup : SendSetup) (lkeys : Dev → UInt32) (nreqs qpIndex : Nat) (size : Int32)
    (data : Int) (req : NcclIbRequest) : NcclIbRequest :=
  let req := { req with
    type := .send, nreqs := nreqs, size := size, data := data, offset := 0
    peerRank := setup.peerRank }
  let req := countStripes setup lkeys setup.perMessage qpIndex req
  { req with lkeys := fun dev => if dev.val < setup.ndevs then lkeys dev else req.lkeys dev }

/-- The size a send is clipped to. -/
def clip (size : Int32) (recv : NcclIbSendFifo) : Int32 :=
  if size > recv.size then recv.size else size

/-- The announcement of a receive that cannot be real. -/
def NcclIbSendFifo.Incorrect (recv : NcclIbSendFifo) : Prop :=
  recv.size < 0 ∨ recv.addr = 0 ∨ recv.rkeys 0 = 0

instance (recv : NcclIbSendFifo) : Decidable recv.Incorrect :=
  inferInstanceAs (Decidable (_ ∨ _ ∨ _))

/-- `reqs[r] = req`. -/
def SendComm.setFifoReq (comm : SendComm) (slot r : Nat) (i : ReqId) : SendComm :=
  { comm with
    fifoReqs := Function.update comm.fifoReqs slot
      (Function.update (comm.fifoReqs slot) r (some i)) }

/-- Clear a slot that was posted and move on to the next one. -/
def SendComm.nextSlot (comm : SendComm) (slot : Nat) : SendComm :=
  { comm with
    fifo := Function.update comm.fifo slot
      (Function.update (comm.fifo slot) 0 NcclIbSendFifo.zero)
    fifoReqs := Function.update comm.fifoReqs slot (fun _ => none)
    fifoHead := comm.fifoHead + 1 }

/-- Once every receive of the slot has its send, post the message and move on. -/
def postWhenMatched (setup : SendSetup) (comm : SendComm) (slot nreqs : Nat) (i : ReqId) :
    CallOutcome SendComm :=
  if ∃ r ∈ List.range nreqs, comm.fifoReqs slot r = none then
    .returned .ncclSuccess (some i) comm
  else
    match ncclIbMultiSend setup comm slot with
    | none => .faulted
    | some (.ncclSuccess, comm) => .returned .ncclSuccess (some i) (comm.nextSlot slot)
    | some (result, comm) => .returned result (some i) comm

/-- The body of the loop over the receives of a slot, for one that has the tag of the
send and no send yet. -/
def matchSend (setup : SendSetup) (comm : SendComm) (slot nreqs r : Nat) (lkeys : Dev → UInt32)
    (size : Int32) (data : Int) : CallOutcome SendComm :=
  let recv := comm.fifo slot r
  let size := clip size recv
  if recv.Incorrect then .returned .ncclInternalError none comm
  else
    match comm.ep.ncclIbGetRequest with
    | none => .returned .ncclInternalError none comm
    | some (i, ep) =>
      let req := sendRequest setup lkeys nreqs ep.qpIndex size data (ep.reqs i)
      let comm := { comm with ep := ep.setReq i req }
      postWhenMatched setup (comm.setFifoReq slot r i) slot nreqs i

/-- The first receive of a slot that has the tag of a send and no send yet. -/
def matching (comm : SendComm) (slot nreqs : Nat) (tag : Int32) : Option Nat :=
  (List.range nreqs).find? (fun r =>
    comm.fifoReqs slot r = none ∧ (comm.fifo slot r).tag = tag.toUInt32)

/-- `ncclIbIsend` with the memory handle's local keys. -/
def ncclIbIsend (setup : SendSetup) (comm : SendComm) (data : Int) (size tag : Int32)
    (lkeys : Dev → UInt32) : CallOutcome SendComm :=
  if setup.ready = false then .returned .ncclInternalError none comm
  else
    let slot := comm.fifoHead % maxRequests
    let slots := comm.fifo slot
    let idx := comm.fifoHead + 1
    if (slots 0).idx ≠ idx then .returned .ncclSuccess none comm
    else
      let nreqs := (slots 0).nreqs
      if nreqs > maxRecvs then .faulted
      else if ∃ r ∈ List.range nreqs, r ≠ 0 ∧ (slots r).idx ≠ idx then .spins
      else
        let comm := { comm with ep := comm.ep.countIb unetIbFifoRecvCount }
        match matching comm slot nreqs tag with
        | none => .returned .ncclSuccess none comm
        | some r => matchSend setup comm slot nreqs r lkeys size data

end NcclExts.Unet
