import NcclExts.Unet.Capacity
import NcclExts.Unet.Linked
import NcclExts.Unet.Pairing

/-!
# The keys of work requests

A work request names the memory it reads by a local key and the memory it writes by a
remote key, and each key is good on one device only. The arrays of keys are indexed by
the local device of a queue pair for memory of this side, and by the remote device it is
connected to for memory of the other side. The key of the other side's sizes FIFO is
the exception: it is looked up by the local device.
-/

namespace NcclExts.Unet

open NcclExts.Foundation NcclExts.Ucommd

/-- The keys registered on the devices of one side. -/
structure Registry where
  lkeys : Dev → List UInt32
  rkeys : Dev → List UInt32

/-- If a work request transfers bytes, its local key is registered on the near device and
its remote key on the far one. -/
def IbvSendWr.Keyed (near far : Registry) (nearDev farDev : Dev) (wr : IbvSendWr) : Prop :=
  ∀ sge, wr.sge = some sge → sge.lkey ∈ near.lkeys nearDev ∧ wr.rkey ∈ far.rkeys farDev

/-- Every work request of a posting is keyed for the devices its queue pair connects; the
queue pair that flushes a device is connected to itself. -/
def Posting.Keyed (near far : Registry) (nearQps farQps : Nat → NcclIbQp) (posting : Posting) :
    Prop :=
  ∀ wr ∈ posting.chain,
    match posting.qp with
    | .data q => wr.Keyed near far (nearQps q).devIndex (farQps q).devIndex
    | .gpuFlush dev => wr.Keyed near near dev dev

/-- The two ends have the devices, the queue pairs and the remote keys that connecting
left in their comms. -/
structure Established (h : Handshake) (ends : Ends) : Prop where
  sendDevs : ends.send.ndevs = h.connector.ndevs
  recvDevs : ends.recv.ndevs = h.acceptor.ndevs
  sendCount : ends.send.nqps = h.sendComm.nqps.toNat
  recvCount : ends.recv.nqps = h.recvComm.nqps.toNat
  sendQps : ∀ q, (ends.send.qps q).devIndex.val = (h.sendComm.qps q).devIndex
  recvQps : ∀ q, (ends.recv.qps q).devIndex.val = (h.recvComm.qps q).devIndex
  sendRemote : ∀ q, q < ends.send.nqps →
    ((ends.send.qps q).remDevIdx.val : Int) = (h.sendComm.qps q).remDevIdx
  recvRemote : ∀ q, q < ends.recv.nqps →
    ((ends.recv.qps q).remDevIdx.val : Int) = (h.recvComm.qps q).remDevIdx
  sizesRkeys : ∀ dev : Dev, dev.val < h.sendComm.nRemDevs →
    ends.send.sizesRkeys dev = (h.sendComm.remDevs dev).fifoRkey
  fifoRkeys : ∀ dev : Dev, dev.val < h.recvComm.nRemDevs →
    ends.recv.fifoRkeys dev = (h.recvComm.remDevs dev).fifoRkey

/-- What connecting registered: the FIFO of each side with its remote key, the local
copies of the other side's FIFO, and the flush memory. -/
structure ConnectRegisters (h : Handshake) (ends : Ends) (sender receiver : Registry) : Prop where
  fifo : ∀ dev : Dev, dev.val < h.connector.ndevs → h.connector.fifoRkey dev ∈ sender.rkeys dev
  sizesFifo : ∀ dev : Dev, dev.val < h.acceptor.ndevs →
    h.acceptor.fifoRkey dev ∈ receiver.rkeys dev
  sizesCopy : ∀ dev : Dev, dev.val < h.connector.ndevs →
    ends.send.sizesLkeys dev ∈ sender.lkeys dev
  fifoCopy : ∀ dev : Dev, dev.val < h.acceptor.ndevs →
    ends.recv.fifoLkeys dev ∈ receiver.lkeys dev
  flush : ∀ dev : Dev, dev.val < h.acceptor.ndevs →
    ends.recv.flushLkeys dev ∈ receiver.lkeys dev

/-- The memory handles of a call are registered on every device of the comm. -/
def HandlesRegistered (ends : Ends) (sender receiver : Registry) : ConnEvent → Prop
  | .isend _ _ _ lkeys => ∀ dev : Dev, dev.val < ends.send.ndevs → lkeys dev ∈ sender.lkeys dev
  | .irecv recvs | .iflush recvs =>
    ∀ recv ∈ recvs, ∀ dev : Dev, dev.val < ends.recv.ndevs → recv.rkeys dev ∈ receiver.rkeys dev
  | _ => True

instance (ends : Ends) (sender receiver : Registry) (event : ConnEvent) :
    Decidable (HandlesRegistered ends sender receiver event) := by
  cases event <;> unfold HandlesRegistered <;> infer_instance

/-- How many receives the sender's next slot groups. -/
def Connection.nextGroup (c : Connection) : Nat :=
  (c.send.fifo (c.send.fifoHead % maxRequests) 0).nreqs

/-- A send with this tag posts a message: it has a receive in the next slot, and every
other receive there has its send. -/
def Connection.Posts (c : Connection) (tag : Int32) : Prop :=
  (matching c.send (c.send.fifoHead % maxRequests) c.nextGroup tag).any fun r =>
    (List.range c.nextGroup).all fun r' =>
      r' = r || (c.send.fifoReqs (c.send.fifoHead % maxRequests) r').isSome

instance (c : Connection) (tag : Int32) : Decidable (c.Posts tag) :=
  inferInstanceAs (Decidable (_ = true))

/-- A send posts a group only on queue pairs with the same device index at both ends. -/
def SizesAligned (ends : Ends) (c : Connection) : ConnEvent → Prop
  | .isend _ _ tag _ => c.Posts tag → 1 < c.nextGroup →
    ∀ q ∈ roundRobin ends.send.nqps c.send.ep.qpIndex ends.send.perMessage,
      (ends.send.qps q).devIndex = (ends.send.qps q).remDevIdx
  | _ => True

instance (ends : Ends) (c : Connection) (event : ConnEvent) :
    Decidable (SizesAligned ends c event) := by
  cases event <;> unfold SizesAligned <;> infer_instance

/-- Every work request that either end posted carries the keys of its devices. -/
structure KeysValid (ends : Ends) (sender receiver : Registry) (c : Connection) : Prop where
  sent : ∀ posting ∈ c.send.ep.log,
    posting.Keyed sender receiver ends.send.qps ends.recv.qps
  received : ∀ posting ∈ c.recv.ep.log,
    posting.Keyed receiver sender ends.recv.qps ends.send.qps

/-! ## The devices of a queue pair -/

/-- A side that counts queue pairs has one for each device. -/
theorem Side.ndevs_le_numQps (side : Side) (some : 0 < side.numQps) :
    side.ndevs ≤ side.numQps := by
  have atMostTwo := side.atMostTwo
  have someDev := side.someDev
  obtain one | two : side.ndevs = 1 ∨ side.ndevs = 2 := by omega
  · omega
  · simp only [Side.numQps, Side.nqps, wrapInt, two, Int.bmod] at some ⊢
    split at some <;> split <;> omega

section

variable {h : Handshake} {ends : Ends}

/-- Each end of a queue pair knows the device of the other. -/
theorem Established.sendPeer (established : Established h ends)
    (count : h.connector.numQps = h.acceptor.numQps) (fits : h.connector.numQps ≤ maxQps)
    {q : Nat} (inside : q < h.connector.numQps) :
    (ends.send.qps q).remDevIdx = (ends.recv.qps q).devIndex := by
  have remote := established.sendRemote q (established.sendCount ▸ inside)
  have told := (h.answer_qpInfo (count ▸ inside) (Nat.lt_of_lt_of_le inside fits)).2
  have near : (h.sendComm.qps q).remDevIdx = h.acceptor.devIndex q := by
    rw [← told]
    exact congrArg ConnectedQp.remDevIdx (setupQp_value h.connector h.answer false q)
  have far : (h.recvComm.qps q).devIndex = h.acceptor.devIndex q :=
    congrArg ConnectedQp.devIndex (setupQp_value h.acceptor h.request (q = 0) q)
  apply Fin.ext
  rw [established.recvQps q, far]
  exact Int.ofNat.inj (remote.trans near)

theorem Established.recvPeer (established : Established h ends)
    (count : h.connector.numQps = h.acceptor.numQps) (fits : h.connector.numQps ≤ maxQps)
    {q : Nat} (inside : q < h.connector.numQps) :
    (ends.recv.qps q).remDevIdx = (ends.send.qps q).devIndex := by
  have recvCount : ends.recv.nqps = h.acceptor.numQps := established.recvCount
  have remote := established.recvRemote q (by omega)
  have told := (h.request_qpInfo inside (Nat.lt_of_lt_of_le inside fits)).2
  have near : (h.recvComm.qps q).remDevIdx = h.connector.devIndex q := by
    rw [← told]
    exact congrArg ConnectedQp.remDevIdx (setupQp_value h.acceptor h.request (q = 0) q)
  have far : (h.sendComm.qps q).devIndex = h.connector.devIndex q :=
    congrArg ConnectedQp.devIndex (setupQp_value h.connector h.answer false q)
  apply Fin.ext
  rw [established.sendQps q, far]
  exact Int.ofNat.inj (remote.trans near)

/-- A side whose product of counts is an `int` has as many queue pairs on each device. -/
theorem Side.numQps_eq (side : Side) {qpsPerConn : Nat} (isCount : side.qpsPerConn = qpsPerConn)
    (small : qpsPerConn < 2 ^ 30) : side.numQps = qpsPerConn * side.ndevs := by
  have atMostTwo := side.atMostTwo
  have someDev := side.someDev
  obtain one | two : side.ndevs = 1 ∨ side.ndevs = 2 := by omega
  · simp only [Side.numQps, Side.nqps, wrapInt, isCount, one, Int.bmod]
    split <;> omega
  · simp only [Side.numQps, Side.nqps, wrapInt, isCount, two, Int.bmod]
    split <;> omega

/-- Both comms that connecting leaves are striped. -/
theorem Established.striped (established : Established h ends) {qpsPerConn qpsPerConn' : Nat}
    (sendCount : h.connector.qpsPerConn = qpsPerConn)
    (recvCount : h.acceptor.qpsPerConn = qpsPerConn') (some : 0 < qpsPerConn)
    (some' : 0 < qpsPerConn') (small : qpsPerConn < 2 ^ 30) (small' : qpsPerConn' < 2 ^ 30) :
    ends.send.Striped qpsPerConn ∧ ends.recv.Striped qpsPerConn' := by
  have near (q : Nat) : (h.sendComm.qps q).devIndex = h.connector.devIndex q :=
    congrArg ConnectedQp.devIndex (setupQp_value h.connector h.answer false q)
  have far (q : Nat) : (h.recvComm.qps q).devIndex = h.acceptor.devIndex q :=
    congrArg ConnectedQp.devIndex (setupQp_value h.acceptor h.request (q = 0) q)
  constructor
  · refine ⟨some, ?_, fun q => ?_⟩
    · rw [established.sendCount, established.sendDevs]
      exact h.connector.numQps_eq sendCount small
    · rw [established.sendQps, near, Side.devIndex_eq, established.sendDevs]
  · refine ⟨some', ?_, fun q => ?_⟩
    · rw [established.recvCount, established.recvDevs]
      exact h.acceptor.numQps_eq recvCount small'
    · rw [established.recvQps, far, Side.devIndex_eq, established.recvDevs]

/-- The remote keys of the FIFOs are those of the other side's devices. -/
theorem Established.fifoRkey (established : Established h ends) {dev : Dev}
    (inside : dev.val < h.connector.ndevs) :
    ends.recv.fifoRkeys dev = h.connector.fifoRkey dev := by
  rw [established.fifoRkeys dev inside]
  have info : (h.request.devs dev.val).fifoRkey = h.connector.fifoRkey dev := by
    simp only [Handshake.request, connectMeta]
    rw [if_pos ⟨Int.natCast_nonneg _, Int.ofNat_lt.mpr inside⟩]
    unfold NcclIbDevInfo.withoutGid
    split <;> rfl
  exact info

theorem Established.sizesRkey (established : Established h ends) {dev : Dev}
    (inside : dev.val < h.acceptor.ndevs) :
    ends.send.sizesRkeys dev = h.acceptor.fifoRkey dev := by
  rw [established.sizesRkeys dev inside]
  have info := congrArg NcclIbDevInfo.fifoRkey (h.answer_devs inside)
  exact info

end

/-! ## The chains of a message -/

section

variable {setup : SendSetup} {near far : Registry} {farQps : Nat → NcclIbQp}

@[simp] theorem closing_keyed (wrId : Nat) (immData : UInt32) (nearDev farDev : Dev)
    (wr : IbvSendWr) :
    (closing wrId immData wr).Keyed near far nearDev farDev ↔ wr.Keyed near far nearDev farDev :=
  Iff.rfl

/-- The keys of a message are good on a queue pair: those of its sends, of the receives
they answer, and of the sizes when it is a group. -/
structure MessageKeyed (setup : SendSetup) (near far : Registry) (farQps : Nat → NcclIbQp)
    (reqs : ReqId → NcclIbRequest) (cursors : List Cursor) (q : Nat) : Prop where
  sends : ∀ cursor ∈ cursors, (reqs cursor.req).lkeys (setup.qps q).devIndex ∈
    near.lkeys (setup.qps q).devIndex
  recvs : ∀ cursor ∈ cursors, cursor.recv.rkeys (setup.qps q).remDevIdx ∈
    far.rkeys (farQps q).devIndex
  sizes : 1 < cursors.length →
    setup.sizesLkeys (setup.qps q).devIndex ∈ near.lkeys (setup.qps q).devIndex ∧
      setup.sizesRkeys (setup.qps q).devIndex ∈ far.rkeys (farQps q).devIndex

theorem MessageKeyed.chain {ep : Endpoint} {cursors : List Cursor} {q : Nat}
    (keyed : MessageKeyed setup near far farQps ep.reqs cursors q) (message : Message) :
    ∀ wr ∈ chain setup message ep (setup.qps q) cursors,
      wr.Keyed near far (setup.qps q).devIndex (farQps q).devIndex := by
  have chunks : ∀ wr ∈ cursors.map (chunkWr setup ep message.nqps (setup.qps q)),
      wr.Keyed near far (setup.qps q).devIndex (farQps q).devIndex := by
    intro wr member
    obtain ⟨cursor, inside, rfl⟩ := List.mem_map.mp member
    intro sge isSge
    simp only [chunkWr] at isSge
    split at isSge
    · simp at isSge
    · rw [← Option.some.inj isSge]
      exact ⟨keyed.sends cursor inside, keyed.recvs cursor inside⟩
  intro wr member
  simp only [Unet.chain] at member
  split at member
  · rcases List.mem_append.mp member with chunk | last
    · exact chunks wr chunk
    · rw [List.mem_singleton.mp last, closing_keyed]
      intro sge isSge
      simp only [trailer] at isSge ⊢
      split at isSge
      next group =>
        rw [← Option.some.inj isSge, if_pos group]
        exact keyed.sizes group
      next => simp at isSge
  · rcases List.mem_append.mp member with chunk | last
    · exact chunks wr (List.mem_of_mem_dropLast chunk)
    · obtain ⟨chunk, isLast, rfl⟩ := Option.map_eq_some_iff.mp (Option.mem_toList.mp last)
      rw [closing_keyed]
      exact chunks chunk (List.mem_of_getLast? isLast)

/-- The next chunks of a message have the keys of the chunks before them. -/
theorem MessageKeyed.advance {ep : Endpoint} {cursors : List Cursor} {q : Nat}
    (keyed : MessageKeyed setup near far farQps ep.reqs cursors q) {reqs : ReqId → NcclIbRequest}
    (same : ∀ i, (reqs i).lkeys = (ep.reqs i).lkeys) (nqps : Nat) :
    MessageKeyed setup near far farQps reqs (cursors.map (Cursor.advance setup ep nqps)) q := by
  refine ⟨?_, ?_, ?_⟩
  · intro cursor member
    obtain ⟨cursor, inside, rfl⟩ := List.mem_map.mp member
    have lkeys := same cursor.req
    simp only [Cursor.advance, lkeys]
    exact keyed.sends cursor inside
  · intro cursor member
    obtain ⟨cursor, inside, rfl⟩ := List.mem_map.mp member
    exact keyed.recvs cursor inside
  · rw [List.length_map]
    exact keyed.sizes

variable (near far farQps) in
/-- The postings of a message are keyed when its keys are good on each queue pair. -/
theorem postChunks_keyed (message : Message) (count : Nat) (cursors : List Cursor)
    (totalSize : UInt64) (ep : Endpoint)
    (keyed : ∀ q ∈ roundRobin setup.nqps ep.qpIndex count,
      MessageKeyed setup near far farQps ep.reqs cursors q) :
    ∀ posting ∈ (postChunks setup message count cursors totalSize ep).2.log,
      posting ∈ ep.log ∨ posting.Keyed near far setup.qps farQps := by
  induction count generalizing cursors totalSize ep with
  | zero => exact fun posting member => Or.inl member
  | succ count ih =>
    have offsets := advanceOffsets_only setup message.nqps
      (ep.postSignaled (messagePosting setup message ep.qpIndex cursors.length
        (chain setup message ep (setup.qps ep.qpIndex) cursors))) cursors
    have log : (advanceOffsets setup message.nqps (ep.postSignaled (messagePosting setup message
        ep.qpIndex cursors.length (chain setup message ep (setup.qps ep.qpIndex) cursors)))
        cursors).log = ep.log ++ [messagePosting setup message ep.qpIndex cursors.length
          (chain setup message ep (setup.qps ep.qpIndex) cursors)] :=
      congrArg Endpoint.log offsets.rest
    have lkeys (i : ReqId) := congrArg NcclIbRequest.lkeys (offsets.reqs i)
    have here := keyed ep.qpIndex List.mem_cons_self
    have later := ih (cursors.map (Cursor.advance setup ep message.nqps))
      (totalSize + chunkBytes setup ep message.nqps cursors)
      { advanceOffsets setup message.nqps (ep.postSignaled (messagePosting setup message ep.qpIndex
          cursors.length (chain setup message ep (setup.qps ep.qpIndex) cursors))) cursors with
        qpIndex := (ep.qpIndex + 1) % setup.nqps }
      (fun q inside => (keyed q (List.mem_cons_of_mem _ inside)).advance lkeys message.nqps)
    intro posting member
    rcases later posting member with earlier | later
    · have posted : posting ∈ ep.log ++ [messagePosting setup message ep.qpIndex cursors.length
          (chain setup message ep (setup.qps ep.qpIndex) cursors)] := by
        rw [← log]
        exact earlier
      rcases List.mem_append.mp posted with before | this
      · exact Or.inl before
      · rw [List.mem_singleton.mp this]
        exact Or.inr (here.chain message)
    · exact Or.inr later

end

/-! ## Runs -/

/-- Two ends whose queue pairs know each other's devices and whose own keys are good. -/
structure EndsKeyed (ends : Ends) (sender receiver : Registry) : Prop where
  ctsQps : ends.recv.ndevs ≤ ends.send.nqps
  sendPeer : ∀ q, q < ends.send.nqps → (ends.send.qps q).remDevIdx = (ends.recv.qps q).devIndex
  recvPeer : ∀ q, q < ends.send.nqps → (ends.recv.qps q).remDevIdx = (ends.send.qps q).devIndex
  sizesRkeys : ∀ dev : Dev, dev.val < ends.recv.ndevs →
    ends.send.sizesRkeys dev ∈ receiver.rkeys dev
  sizesLkeys : ∀ dev : Dev, dev.val < ends.send.ndevs →
    ends.send.sizesLkeys dev ∈ sender.lkeys dev
  fifoRkeys : ∀ dev : Dev, dev.val < ends.send.ndevs → ends.recv.fifoRkeys dev ∈ sender.rkeys dev
  fifoLkeys : ∀ dev : Dev, dev.val < ends.recv.ndevs →
    ends.recv.fifoLkeys dev ∈ receiver.lkeys dev
  flushLkeys : ∀ dev : Dev, dev.val < ends.recv.ndevs →
    ends.recv.flushLkeys dev ∈ receiver.lkeys dev

theorem Established.keyed {h : Handshake} {ends : Ends} {sender receiver : Registry}
    (established : Established h ends) (registers : ConnectRegisters h ends sender receiver)
    (count : h.connector.numQps = h.acceptor.numQps) (fits : h.connector.numQps ≤ maxQps) :
    EndsKeyed ends sender receiver := by
  have sendCount : ends.send.nqps = h.connector.numQps := established.sendCount
  have sendDevs := established.sendDevs
  have recvDevs := established.recvDevs
  constructor
  · have some := ends.send.someQp
    have devs := h.acceptor.ndevs_le_numQps (by omega)
    omega
  · intro q inside
    exact established.sendPeer count fits (sendCount ▸ inside)
  · intro q inside
    exact established.recvPeer count fits (sendCount ▸ inside)
  · intro dev inside
    rw [recvDevs] at inside
    rw [established.sizesRkey inside]
    exact registers.sizesFifo dev inside
  · intro dev inside
    exact registers.sizesCopy dev (sendDevs ▸ inside)
  · intro dev inside
    rw [sendDevs] at inside
    rw [established.fifoRkey inside]
    exact registers.fifo dev inside
  · intro dev inside
    exact registers.fifoCopy dev (recvDevs ▸ inside)
  · intro dev inside
    exact registers.flush dev (recvDevs ▸ inside)

/-- The keys that went into a connection are good, and so are those that came out. -/
structure KeysOk (ends : Ends) (sender receiver : Registry) (c : Connection) : Prop
    extends KeysValid ends sender receiver c where
  announced : ∀ call, ∀ recv ∈ c.calls call, ∀ dev : Dev, dev.val < ends.recv.ndevs →
    recv.rkeys dev ∈ receiver.rkeys dev
  matched : ∀ slot r i, c.send.fifoReqs slot r = some i → ∀ dev : Dev,
    dev.val < ends.send.ndevs → (c.send.ep.reqs i).lkeys dev ∈ sender.lkeys dev

section

variable {ends : Ends} {sender receiver : Registry} {c : Connection}

theorem KeysOk.fresh (fresh : c.Fresh) : KeysOk ends sender receiver c := by
  obtain ⟨send, recv, history, _, _, _⟩ := fresh
  obtain ⟨sendBase, _, fifoReqs, _, _⟩ := send
  have sendLog : c.send.ep.log = [] := sendBase.2.2.2.2.2.2.1
  have recvLog : c.recv.ep.log = [] := recv.1.2.2.2.2.2.2.1
  refine ⟨⟨?_, ?_⟩, ?_, ?_⟩
  · simp [sendLog]
  · simp [recvLog]
  · simp [Connection.calls, history]
  · simp [fifoReqs]

/-- What changes nothing that keys depend on keeps them. -/
theorem KeysOk.kept (ok : KeysOk ends sender receiver c) {after : Connection}
    (sendLog : after.send.ep.log = c.send.ep.log) (recvLog : after.recv.ep.log = c.recv.ep.log)
    (history : after.history = c.history) (fifoReqs : after.send.fifoReqs = c.send.fifoReqs)
    (lkeys : ∀ i, (after.send.ep.reqs i).lkeys = (c.send.ep.reqs i).lkeys) :
    KeysOk ends sender receiver after := by
  refine ⟨⟨?_, ?_⟩, ?_, ?_⟩
  · rw [sendLog]
    exact ok.sent
  · rw [recvLog]
    exact ok.received
  · have calls : after.calls = c.calls := by
      unfold Connection.calls
      rw [history]
    rw [calls]
    exact ok.announced
  · intro slot r i taken dev inside
    rw [lkeys]
    rw [fifoReqs] at taken
    exact ok.matched slot r i taken dev inside

/-- A hit takes the keys of its memory handle. -/
theorem KeysOk.hit (ok : KeysOk ends sender receiver c) {r : Nat} {i : ReqId}
    {recv : NcclIbSendFifo} {data : Int} {size : Int32} {lkeys : Dev → UInt32}
    (handle : ∀ dev : Dev, dev.val < ends.send.ndevs → lkeys dev ∈ sender.lkeys dev)
    {slot r' : Nat} {j : ReqId}
    (taken : (c.send.hit ends.send c.calls data size lkeys r i recv).fifoReqs slot r' = some j)
    (dev : Dev) (inside : dev.val < ends.send.ndevs) :
    ((c.send.hit ends.send c.calls data size lkeys r i recv).ep.reqs j).lkeys dev ∈
      sender.lkeys dev := by
  have rows := place_fifoReqs ends.send
    (c.send.withIbStat (c.send.ep.countIb unetIbFifoRecvCount).ibStat)
    (c.calls c.send.fifoHead).length r i lkeys (clip size recv) data slot r'
  rw [SendComm.hit, rows] at taken
  by_cases same : j = i
  · subst same
    have self := place_req_self ends.send
      (c.send.withIbStat (c.send.ep.countIb unetIbFifoRecvCount).ibStat)
      (c.calls c.send.fifoHead).length r j lkeys (clip size recv) data
    rw [SendComm.hit, self]
    simp only [sendRequest, inside, if_true]
    exact handle dev inside
  · have other := place_req_other ends.send
      (c.send.withIbStat (c.send.ep.countIb unetIbFifoRecvCount).ibStat)
      (c.calls c.send.fifoHead).length r lkeys (clip size recv) data same
    rw [SendComm.hit, other]
    split at taken
    · exact absurd (Option.some.inj taken).symm same
    · exact ok.matched slot r' j taken dev inside

/-- A hit that fills its slot posts. -/
theorem Hit.posts {tag : Int32} {r : Nat} {i : ReqId} {recv : NcclIbSendFifo}
    (hit : Hit c.calls c.send tag r i recv) (group : c.nextGroup = (c.calls c.send.fifoHead).length)
    {setup : SendSetup} {data : Int} {size : Int32} {lkeys : Dev → UInt32} {reqs : List ReqId}
    {first : ReqId}
    (full : Full c.calls (c.send.hit setup c.calls data size lkeys r i recv) reqs first) :
    c.Posts tag := by
  have length : reqs.length = (c.calls c.send.fifoHead).length := full.length
  simp only [Connection.Posts, group, hit.found, Option.any_some, List.all_eq_true, List.mem_range,
    Bool.or_eq_true, decide_eq_true_eq]
  intro r' below
  by_cases same : r' = r
  · exact Or.inl same
  · right
    have row := full.rows r' (by omega)
    have taken := place_fifoReqs setup
      (c.send.withIbStat (c.send.ep.countIb unetIbFifoRecvCount).ibStat)
      (c.calls c.send.fifoHead).length r i lkeys (clip size recv) data
      (c.send.fifoHead % maxRequests) r'
    rw [if_neg (fun both => same both.2)] at taken
    have before : c.send.fifoReqs (c.send.fifoHead % maxRequests) r' = reqs[r']? :=
      taken.symm.trans row
    rw [before, List.getElem?_eq_getElem (by omega)]
    rfl

/-- The keys of a message whose sends are matched to what was announced. -/
theorem KeysOk.message (keyed : EndsKeyed ends sender receiver) {comm : SendComm} {calls : Calls}
    (announced : ∀ call, ∀ recv ∈ calls call, ∀ dev : Dev, dev.val < ends.recv.ndevs →
      recv.rkeys dev ∈ receiver.rkeys dev)
    (matched : ∀ slot r i, comm.fifoReqs slot r = some i → ∀ dev : Dev,
      dev.val < ends.send.ndevs → (comm.ep.reqs i).lkeys dev ∈ sender.lkeys dev)
    {reqs : List ReqId} {first : ReqId} (full : Full calls comm reqs first)
    (lands : ∀ r, r < (calls comm.fifoHead).length →
      (calls comm.fifoHead)[r]? = some (comm.fifo (comm.fifoHead % maxRequests) r))
    {q : Nat} (inside : q < ends.send.nqps)
    (aligned : 1 < reqs.length → (ends.send.qps q).devIndex = (ends.send.qps q).remDevIdx) :
    MessageKeyed ends.send sender receiver ends.recv.qps comm.ep.reqs
      (cursorsOf comm (comm.fifoHead % maxRequests) reqs) q := by
  have onSend := ends.send.onDevs q
  have onRecv := ends.recv.onDevs q
  refine ⟨?_, ?_, ?_⟩
  · intro cursor member
    obtain ⟨r, below, rfl⟩ := List.mem_mapIdx.mp member
    exact matched _ r _ (full.taken (List.getElem?_eq_getElem below)) _ onSend
  · intro cursor member
    obtain ⟨r, below, rfl⟩ := List.mem_mapIdx.mp member
    rw [keyed.sendPeer q inside]
    exact announced _ _ (List.mem_of_getElem? (lands r (full.length ▸ below))) _ onRecv
  · rw [cursorsOf_length]
    intro group
    refine ⟨keyed.sizesLkeys _ onSend, ?_⟩
    rw [aligned group, keyed.sendPeer q inside]
    exact keyed.sizesRkeys _ onRecv

/-- A send keeps the keys, when it does not post the sizes of a group askew. -/
theorem KeysOk.isend (keyed : EndsKeyed ends sender receiver) (linked : Linked ends c)
    (ok : KeysOk ends sender receiver c) {data : Int} {size tag : Int32} {lkeys : Dev → UInt32}
    {request : Option ReqId} {send : SendComm}
    (effect : IsendEffect ends.send c.calls c.send data size tag lkeys request send)
    (handle : ∀ dev : Dev, dev.val < ends.send.ndevs → lkeys dev ∈ sender.lkeys dev)
    (aligned : SizesAligned ends c (.isend data size tag lkeys)) (pairs : List Match) :
    KeysOk ends sender receiver { c with send := send, matched := pairs } := by
  cases effect with
  | nothing _ => exact ok.kept rfl rfl rfl rfl (fun _ => rfl)
  | @matched r i recv hit missing =>
    refine ⟨⟨ok.sent, ok.received⟩, ok.announced, ?_⟩
    intro slot r' j taken dev inside
    exact ok.hit handle taken dev inside
  | @posted r i recv hit reqs first full =>
    have emptied := full.emptied (linked.sendOk.hit linked.announced hit data size lkeys)
    have group : c.nextGroup = (c.calls c.send.fifoHead).length :=
      (linked.sendOk.arrived linked.announced hit.stamp).2
    have length : reqs.length = (c.calls c.send.fifoHead).length := full.length
    refine ⟨⟨?_, ok.received⟩, ok.announced, ?_⟩
    · intro posting member
      rw [SendComm.post_log] at member
      have message := postChunks_keyed sender receiver ends.recv.qps _ _ _ _ _
        (fun q taken => ?_) posting member
      · exact message.elim (ok.sent posting) id
      · exact KeysOk.message keyed ok.announced
          (fun slot r' j taken => ok.hit handle taken) full hit.lands
          (roundRobin_lt linked.sendOk.inside q taken)
          (fun many => aligned (hit.posts group full) (by omega) q taken)
    · intro slot r' j taken
      rw [emptied] at taken
      exact absurd taken (by simp)

/-- A receive call keeps the keys. -/
theorem KeysOk.irecv (keyed : EndsKeyed ends sender receiver) (linked : Linked ends c)
    (ok : KeysOk ends sender receiver c) {recvs : List RecvArg} {i : ReqId} {recv : RecvComm}
    (received : Received ends.recv c.recv recvs i recv)
    (handles : ∀ arg ∈ recvs, ∀ dev : Dev, dev.val < ends.recv.ndevs →
      arg.rkeys dev ∈ receiver.rkeys dev) :
    KeysOk ends sender receiver (c.receive recv recvs.length) := by
  refine ⟨⟨ok.sent, ?_⟩, ?_, ok.matched⟩
  · intro posting member
    have log : posting ∈ recv.ep.log := member
    rw [received.log] at log
    rcases List.mem_append.mp log with before | new
    · exact ok.received posting before
    · rcases List.mem_append.mp new with empty | cts
      · obtain ⟨q, _, rfl⟩ := List.mem_map.mp empty
        simp [Posting.Keyed, recvPosting]
      · rw [List.mem_singleton.mp cts]
        intro wr inChain sge isSge
        rw [List.mem_singleton.mp inChain] at isSge ⊢
        have isSge : (ctsWr ends.recv (c.recv.fifoTail % maxRequests) recvs.length
          (ends.recv.qps c.recv.devIndex) (decide (c.recv.Signaled ends.recv)) i).sge = some sge :=
          isSge
        rw [← Option.some.inj isSge]
        have inside : c.recv.devIndex < ends.send.nqps :=
          Nat.lt_of_lt_of_le linked.recvOk.devInside keyed.ctsQps
        refine ⟨keyed.fifoLkeys _ (ends.recv.onDevs _), ?_⟩
        have peer := keyed.recvPeer _ inside
        simp only [ctsWr, peer]
        exact keyed.fifoRkeys _ (ends.send.onDevs _)
  · intro call entry member dev inside
    by_cases here : call = c.history.length
    · subst here
      rw [receive_calls_self] at member
      obtain ⟨r, inRange, rfl⟩ := List.mem_map.mp member
      have below := List.mem_range.mp inRange
      rw [received.elems, stage, Function.update_self, List.getElem?_eq_getElem below]
      simp only [announce, inside, if_true]
      exact handles _ (List.getElem_mem below) dev inside
    · rw [receive_calls_other recv recvs.length here] at member
      exact ok.announced call entry member dev inside

/-- A flush adds the reads of one of its receives. -/
theorem ncclIbIflush_log {setup : RecvSetup} {comm after : RecvComm} {recvs : List RecvArg}
    {result : NcclResult} {request : Option ReqId}
    (called : ncclIbIflush setup comm recvs = .returned result request after) :
    ∀ posting ∈ after.ep.log, posting ∈ comm.ep.log ∨ ∃ recv ∈ recvs, ∃ i, ∃ dev ∈ setup.devices,
      posting = flushPosting setup recv comm.fifoTail i dev := by
  simp only [ncclIbIflush] at called
  split at called
  · obtain ⟨_, _, rfl⟩ := CallOutcome.returned.inj called
    exact fun posting member => Or.inl member
  next last isLast =>
    have among : last ∈ recvs := (List.mem_filter.mp (List.mem_of_getLast? isLast)).1
    split at called
    · obtain ⟨_, _, rfl⟩ := CallOutcome.returned.inj called
      exact fun posting member => Or.inl member
    · split at called
      · obtain ⟨_, _, rfl⟩ := CallOutcome.returned.inj called
        exact fun posting member => Or.inl member
      next i ep got =>
        obtain ⟨_, rfl⟩ := Endpoint.ncclIbGetRequest_some got
        obtain ⟨_, _, rfl⟩ := CallOutcome.returned.inj called
        have posted := postFlushes_posted setup last comm.fifoTail i setup.devices
          ((comm.ep.setReq i (Endpoint.cleared (comm.ep.reqs i))).mapReq i
            (fun req => { req with type := .flush }))
        have log := congrArg Endpoint.log posted.rest
        intro posting member
        have member := log ▸ member
        rcases List.mem_append.mp member with before | new
        · exact Or.inl before
        · obtain ⟨dev, inside, rfl⟩ := List.mem_map.mp new
          exact Or.inr ⟨last, among, i, dev, inside, rfl⟩

/-- A flush keeps the keys. -/
theorem KeysOk.iflush (keyed : EndsKeyed ends sender receiver) (ok : KeysOk ends sender receiver c)
    {recvs : List RecvArg} {result : NcclResult} {request : Option ReqId} {recv : RecvComm}
    (called : ncclIbIflush ends.recv c.recv recvs = .returned result request recv)
    (handles : ∀ arg ∈ recvs, ∀ dev : Dev, dev.val < ends.recv.ndevs →
      arg.rkeys dev ∈ receiver.rkeys dev) :
    KeysOk ends sender receiver { c with recv := recv } := by
  refine ⟨⟨ok.sent, ?_⟩, ok.announced, ok.matched⟩
  intro posting member
  rcases ncclIbIflush_log called posting member with before | ⟨arg, among, i, dev, onDev, rfl⟩
  · exact ok.received posting before
  · have inside : dev.val < ends.recv.ndevs := by simpa [CommSetup.devices] using onDev
    intro wr inChain sge isSge
    rw [List.mem_singleton.mp inChain] at isSge ⊢
    rw [← Option.some.inj isSge]
    exact ⟨keyed.flushLkeys dev inside, handles arg among dev inside⟩

/-- One step keeps the keys. -/
theorem KeysOk.step (keyed : EndsKeyed ends sender receiver) (linked : Linked ends c)
    (ok : KeysOk ends sender receiver c) {event : ConnEvent} {after : Connection}
    (handles : HandlesRegistered ends sender receiver event) (aligned : SizesAligned ends c event)
    (stepped : ConnStep ends c event after) : KeysOk ends sender receiver after := by
  cases stepped with
  | sent effect => exact ok.isend keyed linked effect handles aligned _
  | sendCompleted completed =>
    obtain ⟨posting, _, rfl⟩ := Option.map_eq_some_iff.mp completed
    exact ok.kept rfl rfl rfl rfl (fun _ => rfl)
  | sendWaits settles accounted =>
    have kept := settles.kept linked.sendOk.accounted
    refine ok.kept kept.log rfl rfl rfl (fun i => ?_)
    have lkeys := congrArg NcclIbRequest.lkeys (kept.reqs i)
    exact lkeys
  | @sendDone i settled settles accounted inUse finished =>
    have kept := settles.kept linked.sendOk.accounted
    refine ok.kept kept.log rfl rfl rfl (fun j => ?_)
    have lkeys := congrArg NcclIbRequest.lkeys (kept.reqs j)
    by_cases same : j = i
    · subst same
      simpa [Endpoint.ncclIbFreeRequest, Endpoint.setReq] using lkeys
    · simpa [Endpoint.ncclIbFreeRequest, Endpoint.setReq, same] using lkeys
  | refused => exact ok
  | received _ _ _ received => exact ok.irecv keyed linked received handles
  | flushed called _ => exact ok.iflush keyed called handles
  | recvCompleted _ completed =>
    obtain ⟨posting, _, rfl⟩ := Option.map_eq_some_iff.mp completed
    exact ok.kept rfl rfl rfl rfl (fun _ => rfl)
  | recvWaits settles accounted =>
    exact ok.kept rfl (settles.kept linked.recvOk.accounted).log rfl rfl (fun _ => rfl)
  | recvDone settles accounted _ _ =>
    exact ok.kept rfl (settles.kept linked.recvOk.accounted).log rfl rfl (fun _ => rfl)
  | landed _ => exact ok.kept rfl rfl rfl rfl (fun _ => rfl)
  | delivered _ _ completed =>
    obtain ⟨sizesFifo, middle, taken, rfl⟩ := deliver_complete completed
    obtain ⟨posting, _, rfl⟩ := Option.map_eq_some_iff.mp taken
    exact ok.kept rfl rfl rfl rfl (fun _ => rfl)

end

/-- Where both sides have the same number of devices, every queue pair is aligned. -/
theorem Established.sizesAligned {h : Handshake} {ends : Ends} (established : Established h ends)
    (count : h.connector.numQps = h.acceptor.numQps) (fits : h.connector.numQps ≤ maxQps)
    (sameDevs : h.connector.ndevs = h.acceptor.ndevs) {c : Connection} (linked : Linked ends c)
    (event : ConnEvent) : SizesAligned ends c event := by
  cases event with
  | isend data size tag lkeys =>
    intro _ _ q taken
    have inside : q < h.connector.numQps := by
      have sendCount : ends.send.nqps = h.connector.numQps := established.sendCount
      exact sendCount ▸ roundRobin_lt linked.sendOk.inside q taken
    have near : (h.sendComm.qps q).devIndex = h.connector.devIndex q :=
      congrArg ConnectedQp.devIndex (setupQp_value h.connector h.answer false q)
    have far : (h.recvComm.qps q).devIndex = h.acceptor.devIndex q :=
      congrArg ConnectedQp.devIndex (setupQp_value h.acceptor h.request (q = 0) q)
    apply Fin.ext
    rw [established.sendPeer count fits inside, established.sendQps, established.recvQps, near, far,
      Side.devIndex_eq, Side.devIndex_eq, sameDevs]
  | _ => exact True.intro

/-- Between sides with the same number of devices every run posts groups aligned. -/
theorem reaches_of_sameDevs {h : Handshake} {ends : Ends} (established : Established h ends)
    (count : h.connector.numQps = h.acceptor.numQps) (fits : h.connector.numQps ≤ maxQps)
    (sameDevs : h.connector.ndevs = h.acceptor.ndevs) {sender receiver : Registry} {c : Connection}
    (reached : (connection ends).Reaches
      (fun _ event => HandlesRegistered ends sender receiver event) c) :
    (connection ends).Reaches (fun c event =>
      HandlesRegistered ends sender receiver event ∧ SizesAligned ends c event) c := by
  induction reached with
  | start first => exact .start first
  | next before handles stepped ih =>
    exact ih.next ⟨handles, established.sizesAligned count fits sameDevs
      (connection_linked before) _⟩ stepped

/-- Between sides with the same number of queue pairs, in every run that calls with
registered memory and posts groups on aligned queue pairs, every work request carries a
local key of the device its queue pair lives on and a remote key of the device it is
connected to. -/
theorem key_validity (h : Handshake) (ends : Ends) (sender receiver : Registry)
    (count : h.connector.numQps = h.acceptor.numQps) (fits : h.connector.numQps ≤ maxQps)
    (established : Established h ends) (registers : ConnectRegisters h ends sender receiver)
    (c : Connection)
    (reached : (connection ends).Reaches (fun c event =>
      HandlesRegistered ends sender receiver event ∧ SizesAligned ends c event) c) :
    KeysValid ends sender receiver c := by
  have keyed := established.keyed registers count fits
  have ok : KeysOk ends sender receiver c := by
    induction reached with
    | start first => exact KeysOk.fresh first
    | next before allowed stepped ih =>
      have linked := connection_linked before
      exact ih.step keyed linked allowed.1 allowed.2 (linked.connStep stepped)
  exact ok.toKeysValid

/-- One device with two queue pairs connects to two devices with one each. -/
def Handshake.oneToTwo : Handshake :=
  { connector := .sample 1 2 true (fun _ => 5) Nat.zero_lt_one oneDev_le
    acceptor := .sample 2 1 true (fun _ => 5) Nat.zero_lt_two twoDevs_le
    connectStack := .stack, acceptStack := .stack }

/-- The ends that connecting leaves; every message is split over both queue pairs. -/
def Ends.oneToTwo : Ends :=
  { send :=
      { ndevs := 1, nqps := 2, qps := fun q => ⟨0, Fin.ofNat 2 q⟩, splitDataOnQps := true
        asyncEvents := true, ready := true, someDev := Nat.zero_lt_one, atMostTwo := oneDev_le
        someQp := Nat.zero_lt_two, onDevs := fun _ => Nat.one_pos, peerRank := 1, ar := false
        arThreshold := 8192, sizesLkeys := fun _ => 5
        sizesRkeys := fun dev => UInt32.ofNat (100 + dev), narrow := wrapInt }
    recv :=
      { ndevs := 2, nqps := 2, qps := fun q => ⟨Fin.ofNat 2 q, 0⟩, splitDataOnQps := true
        asyncEvents := true, ready := true, someDev := Nat.zero_lt_two, atMostTwo := twoDevs_le
        someQp := Nat.zero_lt_two, onDevs := onTwoDevs, fifoRkeys := fun _ => 100
        fifoLkeys := fun _ => 6, flushEnabled := true, flushLkeys := fun _ => 7 }
    inline := false }

/-- What is registered on the sender: the copy of the sizes, a buffer, and the FIFO. -/
def Registry.sender : Registry :=
  { lkeys := fun _ => [5, 9], rkeys := fun dev => [UInt32.ofNat (100 + dev)] }

/-- What is registered on the receiver: the copy of the FIFO, the flush memory, a buffer,
and the sizes FIFO. -/
def Registry.receiver : Registry :=
  { lkeys := fun _ => [6, 7]
    rkeys := fun dev => [UInt32.ofNat (50 + dev), UInt32.ofNat (100 + dev)] }

theorem Established.oneToTwo : Established .oneToTwo .oneToTwo := by
  have send (q : Nat) : (Handshake.oneToTwo.sendComm.qps q).devIndex = 0 := by
    refine (congrArg ConnectedQp.devIndex (setupQp_value _ _ false q)).trans ?_
    rw [Side.devIndex_eq]
    exact Nat.mod_one q
  have recv (q : Nat) : (Handshake.oneToTwo.recvComm.qps q).devIndex = q % 2 := by
    refine (congrArg ConnectedQp.devIndex (setupQp_value _ _ (q = 0) q)).trans ?_
    exact Side.devIndex_eq _ q
  constructor
  · rfl
  · rfl
  · decide
  · decide
  · exact fun q => (send q).symm
  · exact fun q => (recv q).symm
  all_goals decide

theorem ConnectRegisters.oneToTwo :
    ConnectRegisters .oneToTwo .oneToTwo .sender .receiver := by
  constructor <;> decide

/-- A message of one send over both queue pairs, and a flush: all keys are good. -/
theorem key_validity_oneSend : KeysValid .oneToTwo .sender .receiver
    (((connection .oneToTwo).replay .initial [.irecv [.buffer 3], .landCts 0,
      .isend 65536 80 3 (fun _ => 9), .iflush [.buffer 3]]).get (by decide)) :=
  have start : (connection .oneToTwo).Reaches (fun c event =>
      HandlesRegistered .oneToTwo .sender .receiver event ∧ SizesAligned .oneToTwo c event)
      .initial := .start Connection.initial_fresh
  key_validity .oneToTwo .oneToTwo .sender .receiver (by decide) (by decide) .oneToTwo .oneToTwo _
    (start.replay _ (by decide) (Option.some_get _).symm)

/-- A group of two sends: the sizes go to the second device of the receiver with the key
of its first one. -/
theorem key_validity_group : ¬ ∀ (h : Handshake) (ends : Ends) (sender receiver : Registry),
    h.connector.numQps = h.acceptor.numQps → h.connector.numQps ≤ maxQps → Established h ends →
    ConnectRegisters h ends sender receiver → ∀ c, (connection ends).Reaches
      (fun _ event => HandlesRegistered ends sender receiver event) c →
    KeysValid ends sender receiver c := by
  intro alwaysValid
  have start : (connection .oneToTwo).Reaches (fun _ event =>
      HandlesRegistered .oneToTwo .sender .receiver event) .initial :=
    .start Connection.initial_fresh
  have reached := start.replay [.irecv [.buffer 1, .buffer 2], .landCts 0, .landCts 0,
    .isend 65536 80 1 (fun _ => 9), .isend 65664 80 2 (fun _ => 9)] (by decide)
    (Option.some_get (by decide)).symm
  have valid := alwaysValid .oneToTwo .oneToTwo .sender .receiver (by decide) (by decide) .oneToTwo
    .oneToTwo _ reached
  have sizes := valid.sent (_ : Posting) (List.mem_of_getElem? (i := 1) rfl) _
    (List.mem_of_getLast? rfl) _ rfl
  exact absurd sizes.2 (by decide)

end NcclExts.Unet
