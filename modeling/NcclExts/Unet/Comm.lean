import NcclExts.Foundation.Packing
import NcclExts.Ucommd.UnetPerf
import NcclExts.Unet.Result

/-!
# Requests, queue pairs and completions of a comm

Both kinds of comm share a pool of requests and the test of a request. A request
counts, per device, the completions it still waits for. A completion names its
requests by their positions in the pool, packed into one word, and turns up on the
completion queue of the device it was posted on.

The verbs side holds what was posted and has not completed, in posting order, and
what completed and was not polled, in completion order. It also keeps the whole
history of what was posted, and notes with each posting how many requests its word
names and which message it belongs to; no function of the program reads these notes.
-/

namespace NcclExts.Unet

open NcclExts.Foundation NcclExts.Ucommd

/-- A device of a comm; a comm has at most `NCCL_IB_MAX_DEVS_PER_NIC` of them. -/
abbrev Dev := Fin 2

/-- A position in the request pool of a comm, which holds `MAX_REQUESTS` requests. -/
abbrev ReqId := Fin 256

-- Named once, so that every module reads the same numerals and counts of these types.
instance instNeZeroDev : NeZero 2 := ⟨by decide⟩

instance instNeZeroIbDev : NeZero 32 := ⟨by decide⟩

instance instNeZeroReqId : NeZero 256 := ⟨by decide⟩

instance instLawfulBEqReqId : LawfulBEq ReqId := inferInstance

theorem oneDev_le : 1 ≤ 2 := by decide

theorem twoDevs_le : 2 ≤ 2 := by decide

theorem onTwoDevs (q : Nat) : (Fin.ofNat 2 q).val < 2 := (Fin.ofNat 2 q).isLt

/-- `MAX_REQUESTS`: the size of the pool and of the FIFOs. -/
def maxRequests : Nat := 256

/-- `NCCL_NET_IB_MAX_RECVS`: how many receives one message may group. -/
def maxRecvs : Nat := 8

/-- The `NCCL_NET_IB_REQ_` constants. -/
inductive ReqType where
  | unused
  | send
  | recv
  | flush
deriving DecidableEq, Repr

/-- `struct ncclIbRequest`. A pointer to a device of the comm is the position of the
device; `sizes` is the row of the comm's sizes FIFO that `recv.sizes` points to. -/
structure NcclIbRequest where
  type : ReqType
  peerRank : Int32
  events : Dev → Int
  devBases : Dev → Option Dev
  nreqs : Nat
  size : Int32
  data : Int
  lkeys : Dev → UInt32
  offset : Int
  sizes : Nat

/-- A request of a pool just allocated. -/
def NcclIbRequest.zero : NcclIbRequest :=
  { type := .unused, peerRank := 0, events := fun _ => 0, devBases := fun _ => none, nreqs := 0,
    size := 0, data := 0, lkeys := fun _ => 0, offset := 0, sizes := 0 }

/-- `struct ncclIbQp`, without the verbs object. -/
structure NcclIbQp where
  devIndex : Dev
  remDevIdx : Dev
deriving DecidableEq, Repr

/-- What connecting leaves in the base of a comm and the data path only reads: one or
two devices, and queue pairs that live on them. -/
structure CommSetup where
  ndevs : Nat
  nqps : Nat
  qps : Nat → NcclIbQp
  splitDataOnQps : Bool
  asyncEvents : Bool
  ready : Bool
  someDev : 0 < ndevs
  atMostTwo : ndevs ≤ 2
  someQp : 0 < nqps
  onDevs : ∀ q, (qps q).devIndex.val < ndevs

/-- How many queue pairs carry one message. -/
def CommSetup.perMessage (setup : CommSetup) : Nat :=
  if setup.splitDataOnQps then setup.nqps else setup.ndevs

theorem CommSetup.perMessage_positive (setup : CommSetup) : 0 < setup.perMessage := by
  unfold perMessage
  split
  · exact setup.someQp
  · exact setup.someDev

/-! ## The verbs side -/

/-- The queue pairs of a comm: those of the connection, and on a receiver the one of
each device that flushes. -/
inductive QpRef where
  | data (q : Nat)
  | gpuFlush (dev : Dev)
deriving DecidableEq, Repr

/-- What a work request was posted for. -/
inductive WrKind where
  | data
  | cts
  | flush
  | recv
deriving DecidableEq, Repr

inductive WcOpcode where
  | rdmaWrite
  | rdmaRead
  | recvRdmaWithImm
deriving DecidableEq, Repr

/-- The opcode of the completion of a work request. -/
def WrKind.wcOpcode : WrKind → WcOpcode
  | .data => .rdmaWrite
  | .cts => .rdmaWrite
  | .flush => .rdmaRead
  | .recv => .recvRdmaWithImm

/-- Local memory a work request reads: user memory, or the staging row of a FIFO slot. -/
inductive LocalAddr where
  | user (addr : Int)
  | sizesRow (slot : Nat)
  | ctsRow (slot : Nat)
  | flushMem
deriving DecidableEq, Repr

/-- Remote memory a work request names: an address, or the row of a FIFO slot behind
the address the peer advertised for the FIFO. -/
inductive RemoteAddr where
  | user (addr : Int)
  | sizesRow (slot : Nat)
  | ctsRow (slot : Nat)
deriving DecidableEq, Repr

/-- `struct ibv_sge`. -/
structure IbvSge where
  addr : LocalAddr
  length : Int
  lkey : UInt32
deriving DecidableEq, Repr

inductive WrOpcode where
  | rdmaWrite
  | rdmaWriteWithImm
  | rdmaRead
deriving DecidableEq, Repr

/-- `struct ibv_send_wr`; a list of them models the chain through `next`. -/
structure IbvSendWr where
  wrId : Nat
  opcode : WrOpcode
  signaled : Bool
  remoteAddr : RemoteAddr
  rkey : UInt32
  sge : Option IbvSge
  immData : UInt32
deriving DecidableEq, Repr

/-- One call of a verbs post function: the queue pair and its device, the word of the
work request that completes, the chain of send work requests (empty for a receive),
how many requests the word names and which message the call belongs to. -/
structure Posting where
  qp : QpRef
  dev : Dev
  kind : WrKind
  wrId : Nat
  chain : List IbvSendWr
  members : Nat
  group : Nat
deriving DecidableEq, Repr

/-- `struct ibv_wc`, with the posting it completes. -/
structure IbvWc where
  posting : Posting
  success : Bool
  immData : UInt32
deriving DecidableEq, Repr

/-- The request at a byte of a word: `(wr_id >> (j*8)) & 0xff`. -/
def reqAt (wrId position : Nat) : ReqId := Fin.ofNat 256 (unpack 8 wrId position)

/-- The requests a posting names. -/
def Posting.names (posting : Posting) : List ReqId :=
  (List.range posting.members).map (reqAt posting.wrId)

/-- `wr_id += (reqs[r] - base.reqs) << (r*8)` over the requests of a message. -/
def packReqs (reqs : List ReqId) : Nat := pack 8 (reqs.map Fin.val)

/-- A word read back byte by byte names the requests packed into it. -/
theorem map_reqAt_packReqs (reqs : List ReqId) :
    (List.range reqs.length).map (reqAt (packReqs reqs)) = reqs := by
  apply List.ext_getElem
  · simp
  · intro position _ inside
    have small : ∀ digit ∈ reqs.map Fin.val, digit < 2 ^ 8 := by
      intro digit member
      obtain ⟨req, _, rfl⟩ := List.mem_map.mp member
      exact req.isLt
    have within : position < (reqs.map Fin.val).length := by simpa using inside
    have read := unpack_pack small within
    rw [List.getElem_map, List.getElem_range, reqAt, packReqs, read, List.getElem_map]
    exact Fin.ofNat_val_eq_self _

/-- A word that is one position names that request. -/
theorem reqAt_val (req : ReqId) : reqAt req.val 0 = req := by
  have low : unpack 8 req.val 0 = req.val := by
    rw [unpack_eq]
    simp
  rw [reqAt, low]
  exact Fin.ofNat_val_eq_self _

/-! ## The state of a comm -/

/-- The parts of a comm that both sides have, and the verbs objects below it. The
sizes FIFO belongs to a receiver, but the test of a request writes it. -/
structure Endpoint where
  reqs : ReqId → NcclIbRequest
  qpIndex : Nat
  fatalErrorCount : Nat
  devFatalErrorCount : Dev → Nat
  sizesFifo : Nat → Nat → Int32
  posted : List Posting
  log : List Posting
  cqs : Dev → List IbvWc
  ibStat : Option Stat
  bwStat : Option Stat

namespace Endpoint

/-- Write one request of the pool. -/
def setReq (ep : Endpoint) (i : ReqId) (req : NcclIbRequest) : Endpoint :=
  { ep with reqs := Function.update ep.reqs i req }

/-- A request as `ncclIbGetRequest` hands it out. -/
def cleared (req : NcclIbRequest) : NcclIbRequest :=
  { req with events := fun _ => 0, devBases := fun _ => none }

/-- `ncclIbGetRequest`: the first unused request; `none` when all are in use. -/
def ncclIbGetRequest (ep : Endpoint) : Option (ReqId × Endpoint) :=
  ((List.finRange 256).find? (fun i => (ep.reqs i).type = .unused)).map
    (fun i => (i, ep.setReq i (cleared (ep.reqs i))))

/-- The request handed out was unused. -/
theorem ncclIbGetRequest_some {ep after : Endpoint} {i : ReqId}
    (got : ep.ncclIbGetRequest = some (i, after)) :
    (ep.reqs i).type = .unused ∧ after = ep.setReq i (cleared (ep.reqs i)) := by
  obtain ⟨j, found, same⟩ := Option.map_eq_some_iff.mp got
  obtain ⟨rfl, rfl⟩ := Prod.mk.injEq .. ▸ same
  exact ⟨by simpa using List.find?_some found, rfl⟩

/-- No request is handed out only when all are in use. -/
theorem ncclIbGetRequest_none {ep : Endpoint} (got : ep.ncclIbGetRequest = none) (i : ReqId) :
    (ep.reqs i).type ≠ .unused := by
  have nothing := Option.map_eq_none_iff.mp got
  have checked := List.find?_eq_none.mp nothing i (List.mem_finRange i)
  simpa using checked

/-- `ncclIbFreeRequest`. -/
def ncclIbFreeRequest (ep : Endpoint) (i : ReqId) : Endpoint :=
  ep.setReq i { ep.reqs i with type := .unused }

/-- `ncclIbAddEvent` on a request. -/
def ncclIbAddEvent (req : NcclIbRequest) (dev : Dev) : NcclIbRequest :=
  { req with
    events := Function.update req.events dev (req.events dev + 1)
    devBases := Function.update req.devBases dev (some dev) }

/-- A successful post of a work request that completes. -/
def postSignaled (ep : Endpoint) (posting : Posting) : Endpoint :=
  { ep with posted := ep.posted ++ [posting], log := ep.log ++ [posting] }

/-- A successful post of work requests that do not complete. -/
def postUnsignaled (ep : Endpoint) (posting : Posting) : Endpoint :=
  { ep with log := ep.log ++ [posting] }

/-- The posting at a position completes successfully; a receive completes with the
immediate of the write that took it. -/
def complete (ep : Endpoint) (position : Nat) (immData : UInt32) : Option Endpoint :=
  ep.posted[position]?.map fun posting =>
    { ep with
      posted := ep.posted.eraseIdx position
      cqs := Function.update ep.cqs posting.dev
        (ep.cqs posting.dev ++ [⟨posting, true, immData⟩]) }

/-- Count one more in an ib stat, when there is one. -/
def countIb (ep : Endpoint) (counter : UInt64) : Endpoint :=
  { ep with ibStat := ep.ibStat.map (fun stat => stat.inc counter) }

/-- `ncclIbStatsCheckFatalCount` on a count. -/
def ncclIbStatsCheckFatalCount (asyncEvents : Bool) (fatalErrorCount : Nat) : NcclResult :=
  if asyncEvents ∧ fatalErrorCount ≠ 0 then .ncclSystemError else .ncclSuccess

/-- A comm whose base was just allocated, with no fatal event and nothing posted. -/
def Fresh (ep : Endpoint) : Prop :=
  ep.reqs = (fun _ => .zero) ∧ ep.qpIndex = 0 ∧ ep.fatalErrorCount = 0 ∧
    ep.devFatalErrorCount = (fun _ => 0) ∧ ep.sizesFifo = (fun _ _ => 0) ∧ ep.posted = [] ∧
    ep.log = [] ∧ ep.cqs = (fun _ => [])

/-- The fresh comm with the given stats. -/
def initial (ibStat bwStat : Option Stat) : Endpoint :=
  { reqs := fun _ => .zero, qpIndex := 0, fatalErrorCount := 0, devFatalErrorCount := fun _ => 0,
    sizesFifo := fun _ _ => 0, posted := [], log := [], cqs := fun _ => [], ibStat := ibStat,
    bwStat := bwStat }

theorem initial_fresh (ibStat bwStat : Option Stat) : (initial ibStat bwStat).Fresh :=
  ⟨rfl, rfl, rfl, rfl, rfl, rfl, rfl, rfl⟩

end Endpoint

end NcclExts.Unet
