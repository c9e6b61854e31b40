import NcclExts.Foundation.RoundRobin
import NcclExts.Unet.Comm

/-!
# Posting a message

A message answers one receive of the peer, which may group up to eight receives. When
every one of them is matched by a send, the message is posted: on each of the queue
pairs that carry it goes one chain of writes, one chunk of each send, ending in a
write with immediate that names all sends and wakes the receiver.

Arithmetic on `int` goes through `narrow`: the identity gives exact arithmetic, and
`wrapInt` the wrapping one of the machine.
-/

namespace NcclExts.Unet

open NcclExts.Foundation NcclExts.Ucommd

/-- `struct ncclIbSendFifo`: one receive of a group, as the peer announces it. -/
structure NcclIbSendFifo where
  addr : Nat
  size : Int32
  rkeys : Dev → UInt32
  nreqs : Nat
  tag : UInt32
  idx : Nat
deriving DecidableEq

def NcclIbSendFifo.zero : NcclIbSendFifo :=
  { addr := 0, size := 0, rkeys := fun _ => 0, nreqs := 0, tag := 0, idx := 0 }

/-- What connecting leaves in a send comm and the data path only reads: the rank of the
peer, the adaptive routing flag and threshold, and the keys of the two ends of the
sizes FIFO. -/
structure SendSetup extends CommSetup where
  peerRank : Int32
  ar : Bool
  arThreshold : Int
  sizesLkeys : Dev → UInt32
  sizesRkeys : Dev → UInt32
  narrow : Int → Int

/-- The wrapping of 32-bit `int` arithmetic. -/
def wrapInt (value : Int) : Int := value.bmod (2 ^ 32)

/-- `struct ncclIbSendComm`; `elems` are the rows of the local end of the sizes FIFO. -/
structure SendComm where
  ep : Endpoint
  fifo : Nat → Nat → NcclIbSendFifo
  fifoReqs : Nat → Nat → Option ReqId
  fifoHead : Nat
  elems : Nat → Nat → Int32

/-- `DIVUP`. -/
def divUp (narrow : Int → Int) (x y : Int) : Int := (narrow (narrow (x + y) - 1)).tdiv y

/-- The bytes of one send that one queue pair carries, a multiple of 128. -/
def chunkSize (narrow : Int → Int) (size : Int) (nqps : Nat) : Int :=
  narrow (divUp narrow (divUp narrow size nqps) 128 * 128)

/-- Where the posting of one send of a message stands: its request, the receive it
answers, and the local and remote addresses of its next chunk. -/
structure Cursor where
  req : ReqId
  recv : NcclIbSendFifo
  addr : Int
  remote : Int

/-- `std::min(size - offset, chunkSize)`. -/
def chunkLength (narrow : Int → Int) (req : NcclIbRequest) (nqps : Nat) : Int :=
  min (narrow (req.size.toInt - req.offset)) (chunkSize narrow req.size.toInt nqps)

/-- The write of one send's next chunk on a queue pair; an empty chunk transfers
nothing. -/
def chunkWr (setup : SendSetup) (ep : Endpoint) (nqps : Nat) (qp : NcclIbQp) (cursor : Cursor) :
    IbvSendWr :=
  let req := ep.reqs cursor.req
  let length := chunkLength setup.narrow req nqps
  { wrId := 0
    opcode := .rdmaWrite
    signaled := false
    remoteAddr := .user cursor.remote
    rkey := cursor.recv.rkeys qp.remDevIdx
    sge := if length ≤ 0 then none else
      some ⟨.user cursor.addr, length, req.lkeys qp.devIndex⟩
    immData := 0 }

/-- The write with immediate that ends a chain. -/
def closing (wrId : Nat) (immData : UInt32) (wr : IbvSendWr) : IbvSendWr :=
  { wr with wrId := wrId, opcode := .rdmaWriteWithImm, signaled := true, immData := immData }

/-- The write of the sizes of a group, or the empty write behind the data of an
adaptively routed send. -/
def trailer (setup : SendSetup) (slot nreqs : Nat) (qp : NcclIbQp) : IbvSendWr :=
  { wrId := 0
    opcode := .rdmaWrite
    signaled := false
    remoteAddr := if nreqs > 1 then .sizesRow slot else .user 0
    rkey := if nreqs > 1 then setup.sizesRkeys qp.devIndex else 0
    sge := if nreqs > 1 then
      some ⟨.sizesRow slot, nreqs * 4, setup.sizesLkeys qp.devIndex⟩ else none
    immData := 0 }

/-- What stays the same over the queue pairs of one message. -/
structure Message where
  slot : Nat
  nqps : Nat
  wrId : Nat
  immData : UInt32
  trailed : Bool
  group : Nat

/-- The chain of one queue pair: the chunks, of which the last closes the chain unless
a trailer follows. -/
def chain (setup : SendSetup) (message : Message) (ep : Endpoint) (qp : NcclIbQp)
    (cursors : List Cursor) : List IbvSendWr :=
  let wrs := cursors.map (chunkWr setup ep message.nqps qp)
  let close := closing message.wrId message.immData
  if message.trailed then wrs ++ [close (trailer setup message.slot cursors.length qp)]
  else wrs.dropLast ++ (wrs.getLast?.map close).toList

/-- The bytes of the next chunks of a message. -/
def chunkBytes (setup : SendSetup) (ep : Endpoint) (nqps : Nat) (cursors : List Cursor) : UInt64 :=
  cursors.foldl (fun total cursor =>
    let length := chunkLength setup.narrow (ep.reqs cursor.req) nqps
    if length ≤ 0 then total else total + UInt64.ofInt length) 0

/-- `offset += chunkSize` for the sends of a message. -/
def advanceOffsets (setup : SendSetup) (nqps : Nat) (ep : Endpoint) (cursors : List Cursor) :
    Endpoint :=
  cursors.foldl (fun ep cursor =>
    let req := ep.reqs cursor.req
    ep.setReq cursor.req { req with
      offset := setup.narrow (req.offset + chunkSize setup.narrow req.size.toInt nqps) }) ep

/-- Move the addresses of a send to its next chunk. -/
def Cursor.advance (setup : SendSetup) (ep : Endpoint) (nqps : Nat) (cursor : Cursor) : Cursor :=
  let chunk := chunkSize setup.narrow (ep.reqs cursor.req).size.toInt nqps
  { cursor with addr := cursor.addr + chunk, remote := cursor.remote + chunk }

/-- The posting of a message on one queue pair. -/
def messagePosting (setup : SendSetup) (message : Message) (q members : Nat)
    (wrs : List IbvSendWr) : Posting :=
  { qp := .data q, dev := (setup.qps q).devIndex, kind := .data, wrId := message.wrId,
    chain := wrs, members := members, group := message.group }

/-- The loop over the queue pairs of a message, for the given number of them, with the
bytes posted so far. -/
def postChunks (setup : SendSetup) (message : Message) :
    Nat → List Cursor → UInt64 → Endpoint → UInt64 × Endpoint
  | 0, _, totalSize, ep => (totalSize, ep)
  | count + 1, cursors, totalSize, ep =>
    let q := ep.qpIndex
    let wrs := chain setup message ep (setup.qps q) cursors
    let totalSize := totalSize + chunkBytes setup ep message.nqps cursors
    let cursors' := cursors.map (Cursor.advance setup ep message.nqps)
    let ep := ep.postSignaled (messagePosting setup message q cursors.length wrs)
    let ep := advanceOffsets setup message.nqps ep cursors
    postChunks setup message count cursors' totalSize
      { ep with qpIndex := (q + 1) % setup.nqps }

/-- The sends matched to the receives of a slot; `none` while one is missing. -/
def matchedReqs (comm : SendComm) (slot nreqs : Nat) : Option (List ReqId) :=
  (List.range nreqs).mapM (comm.fifoReqs slot)

/-- Write the sizes of a group into the local row of its slot. -/
def writeSizes (comm : SendComm) (slot : Nat) (reqs : List ReqId) : SendComm :=
  { comm with
    elems := Function.update comm.elems slot (fun r =>
      match reqs[r]? with
      | some req => (comm.ep.reqs req).size
      | none => comm.elems slot r) }

/-- The message of a slot whose receives are all matched. -/
def messageOf (setup : SendSetup) (comm : SendComm) (slot nreqs : Nat) (reqs : List ReqId)
    (firstSize : Int32) : Message :=
  { slot := slot
    nqps := setup.perMessage
    wrId := packReqs reqs
    immData := if nreqs = 1 then firstSize.toUInt32 else 0
    trailed := nreqs > 1 ∨ (setup.ar ∧ firstSize.toInt > setup.arThreshold)
    group := comm.fifoHead }

/-- The sends of a slot before their first chunk. -/
def cursorsOf (comm : SendComm) (slot : Nat) (reqs : List ReqId) : List Cursor :=
  reqs.mapIdx fun r req =>
    Cursor.mk req (comm.fifo slot r) (comm.ep.reqs req).data (comm.fifo slot r).addr

/-- Write the sizes of a group and post its message. -/
def sendMessage (setup : SendSetup) (comm : SendComm) (slot nreqs : Nat) (reqs : List ReqId)
    (firstSize : Int32) : SendComm :=
  let comm := if nreqs = 1 then comm else writeSizes comm slot reqs
  let message := messageOf setup comm slot nreqs reqs firstSize
  let (totalSize, ep) :=
    postChunks setup message setup.perMessage (cursorsOf comm slot reqs) 0 comm.ep
  { comm with
    ep := { ep with ibStat := ep.ibStat.map (fun stat => stat.add unetIbTxBytes totalSize) } }

/-- `ncclIbMultiSend`; `none` when a receive of the slot has no send yet. -/
def ncclIbMultiSend (setup : SendSetup) (comm : SendComm) (slot : Nat) :
    Option (NcclResult × SendComm) :=
  let nreqs := (comm.fifo slot 0).nreqs
  if nreqs > maxRecvs then some (.ncclInternalError, comm)
  else
    (matchedReqs comm slot nreqs).bind fun reqs =>
      reqs.head?.map fun first =>
        (.ncclSuccess, sendMessage setup comm slot nreqs reqs (comm.ep.reqs first).size)

/-! ## What posting a message does -/

/-- Only the offsets of requests changed. -/
structure OffsetsOnly (ep after : Endpoint) : Prop where
  rest : after = { ep with reqs := after.reqs }
  reqs : ∀ i, after.reqs i = { ep.reqs i with offset := (after.reqs i).offset }

theorem OffsetsOnly.refl (ep : Endpoint) : OffsetsOnly ep ep := ⟨rfl, fun _ => rfl⟩

theorem OffsetsOnly.trans {first second third : Endpoint} (sooner : OffsetsOnly first second)
    (later : OffsetsOnly second third) : OffsetsOnly first third := by
  refine ⟨?_, fun i => ?_⟩
  · rw [later.rest, sooner.rest]
  · rw [later.reqs i, sooner.reqs i]

theorem advanceOffsets_only (setup : SendSetup) (nqps : Nat) (ep : Endpoint)
    (cursors : List Cursor) : OffsetsOnly ep (advanceOffsets setup nqps ep cursors) := by
  unfold advanceOffsets
  induction cursors generalizing ep with
  | nil => exact OffsetsOnly.refl ep
  | cons cursor rest ih =>
    rw [List.foldl_cons]
    refine OffsetsOnly.trans ⟨rfl, fun i => ?_⟩ (ih _)
    by_cases same : i = cursor.req
    · subst same
      simp [Endpoint.setReq]
    · simp [Endpoint.setReq, same]

/-- The part of a posting that does not depend on the chunks. -/
def Posting.route (posting : Posting) : Posting := { posting with chain := [] }

/-- The chain writes each send's next chunk to its receive, with the key of the receive
for the remote device of the queue pair. -/
theorem chain_getElem (setup : SendSetup) (message : Message) (ep : Endpoint) (qp : NcclIbQp)
    (cursors : List Cursor) {r : Nat} {cursor : Cursor} (placed : cursors[r]? = some cursor) :
    ∃ wr, (chain setup message ep qp cursors)[r]? = some wr ∧
      wr.remoteAddr = .user cursor.remote ∧ wr.rkey = cursor.recv.rkeys qp.remDevIdx := by
  obtain ⟨inside, isCursor⟩ := List.getElem?_eq_some_iff.mp placed
  have written : (cursors.map (chunkWr setup ep message.nqps qp))[r]? =
      some (chunkWr setup ep message.nqps qp cursor) := by
    rw [List.getElem?_map, placed]
    rfl
  obtain ⟨bound, isWr⟩ := List.getElem?_eq_some_iff.mp written
  by_cases trailed : message.trailed = true
  · refine ⟨chunkWr setup ep message.nqps qp cursor, ?_, rfl, rfl⟩
    simp only [chain, trailed, if_true]
    rw [List.getElem?_append_left bound, written]
  · simp only [chain, trailed, Bool.false_eq_true, if_false]
    by_cases last : r + 1 = (cursors.map (chunkWr setup ep message.nqps qp)).length
    · refine ⟨closing message.wrId message.immData (chunkWr setup ep message.nqps qp cursor), ?_,
        rfl, rfl⟩
      have final : (cursors.map (chunkWr setup ep message.nqps qp)).getLast? =
          some (chunkWr setup ep message.nqps qp cursor) := by
        rw [List.getLast?_eq_getElem?, ← last]
        exact written
      have position : r = (cursors.map (chunkWr setup ep message.nqps qp)).dropLast.length := by
        rw [List.length_dropLast]
        omega
      rw [final, position, List.getElem?_append_right (Nat.le_refl _)]
      simp
    · refine ⟨chunkWr setup ep message.nqps qp cursor, ?_, rfl, rfl⟩
      have inner : r < (cursors.map (chunkWr setup ep message.nqps qp)).dropLast.length := by
        rw [List.length_dropLast]
        omega
      rw [List.getElem?_append_left inner, List.getElem?_dropLast]
      rw [if_pos (by rw [List.length_dropLast] at inner; exact inner), written]

/-- How a chain ends: with a write with immediate that carries the message's immediate,
writes the sizes of a group, and writes no row otherwise. -/
structure Closes (message : Message) (nreqs : Nat) (wr : IbvSendWr) : Prop where
  opcode : wr.opcode = .rdmaWriteWithImm
  signaled : wr.signaled = true
  wrId : wr.wrId = message.wrId
  immData : wr.immData = message.immData
  group : nreqs > 1 → wr.remoteAddr = .sizesRow message.slot ∧
    ∃ lkey, wr.sge = some ⟨.sizesRow message.slot, nreqs * 4, lkey⟩
  alone : ¬ nreqs > 1 → ∃ addr, wr.remoteAddr = .user addr

/-- A chain is plain writes to user memory and the write that closes it. -/
theorem chain_closes (setup : SendSetup) (message : Message) (ep : Endpoint) (qp : NcclIbQp)
    (cursors : List Cursor) (some : cursors ≠ [])
    (trailed : cursors.length > 1 → message.trailed = true) :
    ∃ front last, chain setup message ep qp cursors = front ++ [last] ∧
      (∀ wr ∈ front, ∃ addr, wr.remoteAddr = .user addr ∧ wr.opcode = .rdmaWrite) ∧
      Closes message cursors.length last := by
  have plain : ∀ wr ∈ cursors.map (chunkWr setup ep message.nqps qp),
      ∃ addr, wr.remoteAddr = .user addr ∧ wr.opcode = .rdmaWrite := by
    intro wr member
    obtain ⟨cursor, _, rfl⟩ := List.mem_map.mp member
    exact ⟨cursor.remote, rfl, rfl⟩
  by_cases isTrailed : message.trailed = true
  · refine ⟨_, _, by simp only [chain, isTrailed, if_true]; rfl, plain, rfl, rfl, rfl, rfl, ?_, ?_⟩
    · intro group
      simp [closing, trailer, group]
    · intro alone
      exact ⟨0, by simp [closing, trailer, alone]⟩
  · have alone : ¬ cursors.length > 1 := fun group => isTrailed (trailed group)
    obtain ⟨cursor, rfl⟩ : ∃ cursor, cursors = [cursor] := by
      cases cursors with
      | nil => exact absurd rfl some
      | cons cursor rest =>
        cases rest with
        | nil => exact ⟨cursor, rfl⟩
        | cons _ _ => simp at alone
    refine ⟨[], _, by simp only [chain, isTrailed, Bool.false_eq_true, if_false]; rfl,
      by simp, rfl, rfl, rfl, rfl, ?_, ?_⟩
    · intro group
      exact absurd group alone
    · intro _
      exact ⟨cursor.remote, rfl⟩

/-- The effect of the loop over the queue pairs: one posting on each of the next queue
pairs, that carries the next chunk of every send. -/
structure PostedChunks (setup : SendSetup) (message : Message) (count : Nat)
    (cursors : List Cursor) (ep after : Endpoint) (postings : List Posting) : Prop where
  posted : after.posted = ep.posted ++ postings
  log : after.log = ep.log ++ postings
  routes : postings.map Posting.route = (roundRobin setup.nqps ep.qpIndex count).map
    (fun q => messagePosting setup message q cursors.length [])
  writes : ∀ (j : Nat) (posting : Posting), postings[j]? = some posting →
    ∀ (r : Nat) (cursor : Cursor), cursors[r]? = some cursor →
    ∃ (q : Nat) (wr : IbvSendWr), posting.qp = .data q ∧ posting.chain[r]? = some wr ∧
      wr.remoteAddr = .user (cursor.remote +
        j * chunkSize setup.narrow (ep.reqs cursor.req).size.toInt message.nqps) ∧
      wr.rkey = cursor.recv.rkeys (setup.qps q).remDevIdx
  chains : ∀ posting ∈ postings, ∃ (before : Endpoint) (qp : NcclIbQp) (cursors' : List Cursor),
    posting.chain = chain setup message before qp cursors' ∧ cursors'.length = cursors.length
  reqs : ∀ i, after.reqs i = { ep.reqs i with offset := (after.reqs i).offset }
  qpIndex : after.qpIndex = roundEnd setup.nqps ep.qpIndex count
  rest : after = { ep with
    reqs := after.reqs, posted := after.posted, log := after.log, qpIndex := after.qpIndex }

theorem postChunks_posted (setup : SendSetup) (message : Message) (count : Nat)
    (cursors : List Cursor) (totalSize : UInt64) (ep : Endpoint)
    (inside : ep.qpIndex < setup.nqps) :
    ∃ postings, PostedChunks setup message count cursors ep
      (postChunks setup message count cursors totalSize ep).2 postings := by
  induction count generalizing cursors totalSize ep with
  | zero =>
    refine ⟨[], by simp [postChunks], by simp [postChunks], rfl, by simp, by simp,
      fun _ => rfl, ?_, rfl⟩
    exact (roundEnd_zero inside).symm
  | succ count ih =>
    have offsets := advanceOffsets_only setup message.nqps
      (ep.postSignaled (messagePosting setup message ep.qpIndex cursors.length
        (chain setup message ep (setup.qps ep.qpIndex) cursors))) cursors
    obtain ⟨postings, later⟩ := ih (cursors.map (Cursor.advance setup ep message.nqps))
      (totalSize + chunkBytes setup ep message.nqps cursors)
      { advanceOffsets setup message.nqps (ep.postSignaled (messagePosting setup message ep.qpIndex
          cursors.length (chain setup message ep (setup.qps ep.qpIndex) cursors))) cursors with
        qpIndex := (ep.qpIndex + 1) % setup.nqps }
      (Nat.mod_lt _ setup.someQp)
    have sizes (i : ReqId) := congrArg NcclIbRequest.size (offsets.reqs i)
    refine ⟨messagePosting setup message ep.qpIndex cursors.length
      (chain setup message ep (setup.qps ep.qpIndex) cursors) :: postings,
      ?_, ?_, ?_, ?_, ?_, ?_, ?_, ?_⟩
    · rw [postChunks, later.posted, offsets.rest]
      simp [Endpoint.postSignaled]
    · rw [postChunks, later.log, offsets.rest]
      simp [Endpoint.postSignaled]
    · simp only [List.map_cons, roundRobin, later.routes, List.length_map]
      rfl
    · intro j posting placed r cursor isCursor
      cases j with
      | zero =>
        have same : messagePosting setup message ep.qpIndex cursors.length
            (chain setup message ep (setup.qps ep.qpIndex) cursors) = posting := by
          simpa using placed
        obtain ⟨wr, inChain, remote, key⟩ :=
          chain_getElem setup message ep (setup.qps ep.qpIndex) cursors isCursor
        refine ⟨ep.qpIndex, wr, by rw [← same]; rfl, by rw [← same]; exact inChain, ?_, key⟩
        rw [remote]
        simp
      | succ j =>
        have advanced : (cursors.map (Cursor.advance setup ep message.nqps))[r]? =
            some (cursor.advance setup ep message.nqps) := by
          rw [List.getElem?_map, isCursor]
          rfl
        obtain ⟨q, wr, onQueue, inChain, remote, key⟩ :=
          later.writes j posting (by simpa using placed) r _ advanced
        refine ⟨q, wr, onQueue, inChain, ?_, key⟩
        rw [remote, sizes]
        simp only [Cursor.advance, Endpoint.postSignaled]
        congr 1
        push_cast
        ring
    · intro posting member
      rcases List.mem_cons.mp member with rfl | member
      · exact ⟨ep, setup.qps ep.qpIndex, cursors, rfl, rfl⟩
      · obtain ⟨before, qp, cursors', same, length⟩ := later.chains posting member
        exact ⟨before, qp, cursors', same, by rw [length, List.length_map]⟩
    · intro i
      rw [postChunks, later.reqs i, offsets.reqs i]
      rfl
    · rw [postChunks, later.qpIndex]
      exact roundEnd_succ _ _ _
    · rw [postChunks, later.rest, offsets.rest]
      rfl

@[simp] theorem cursorsOf_length (comm : SendComm) (slot : Nat) (reqs : List ReqId) :
    (cursorsOf comm slot reqs).length = reqs.length := by
  simp [cursorsOf]

theorem cursorsOf_getElem {comm : SendComm} {slot r : Nat} {reqs : List ReqId} {req : ReqId}
    (placed : reqs[r]? = some req) :
    (cursorsOf comm slot reqs)[r]? =
      some ⟨req, comm.fifo slot r, (comm.ep.reqs req).data, (comm.fifo slot r).addr⟩ := by
  simp [cursorsOf, placed]

/-- The names of a posting do not depend on its chain. -/
theorem Posting.names_of_route {posting other : Posting} (same : posting.route = other) :
    posting.names = other.names ∧ posting.dev = other.dev ∧ posting.kind = other.kind ∧
      posting.members = other.members ∧ posting.group = other.group ∧ posting.qp = other.qp := by
  subst same
  exact ⟨rfl, rfl, rfl, rfl, rfl, rfl⟩

/-- A partial function that is defined all over a list maps it. -/
theorem mapM_of_map {α β : Type} {f : α → Option β} {items : List α} {images : List β}
    (defined : items.map f = images.map some) : items.mapM f = some images := by
  induction items generalizing images with
  | nil =>
    have none : images = [] := by simpa using defined.symm
    simp [none]
  | cons item rest ih =>
    cases images with
    | nil => simp at defined
    | cons image more =>
      simp only [List.map_cons, List.cons.injEq] at defined
      simp [List.mapM_cons, defined.1, ih defined.2]

/-- Matched sends, one for each receive of a slot. -/
theorem matchedReqs_some {comm : SendComm} {slot nreqs : Nat}
    (all : ∀ r, r < nreqs → comm.fifoReqs slot r ≠ none) :
    ∃ reqs, matchedReqs comm slot nreqs = some reqs ∧ reqs.length = nreqs ∧
      ∀ r, r < nreqs → comm.fifoReqs slot r = reqs[r]? := by
  refine ⟨(List.range nreqs).map (fun r => (comm.fifoReqs slot r).getD 0), ?_, by simp, ?_⟩
  · apply mapM_of_map
    rw [List.map_map]
    apply List.map_congr_left
    intro r member
    obtain ⟨req, isReq⟩ := Option.ne_none_iff_exists'.mp (all r (List.mem_range.mp member))
    simp [isReq]
  · intro r below
    obtain ⟨req, isReq⟩ := Option.ne_none_iff_exists'.mp (all r below)
    simp [isReq, below]

/-- A slot whose few receives all have their send is posted. -/
theorem ncclIbMultiSend_matched (setup : SendSetup) (comm : SendComm) {slot nreqs : Nat}
    (announced : (comm.fifo slot 0).nreqs = nreqs) (some : 0 < nreqs) (few : nreqs ≤ maxRecvs)
    (all : ∀ r, r < nreqs → comm.fifoReqs slot r ≠ none) :
    ∃ reqs first, reqs.length = nreqs ∧ reqs[0]? = Option.some first ∧
      (∀ r, r < nreqs → comm.fifoReqs slot r = reqs[r]?) ∧
      ncclIbMultiSend setup comm slot = Option.some (.ncclSuccess,
        sendMessage setup comm slot nreqs reqs (comm.ep.reqs first).size) := by
  obtain ⟨reqs, isMatched, length, rows⟩ := matchedReqs_some all
  cases reqs with
  | nil =>
    simp only [List.length_nil] at length
    omega
  | cons first rest =>
    refine ⟨first :: rest, first, length, rfl, rows, ?_⟩
    have notMany : ¬ nreqs > maxRecvs := Nat.not_lt.mpr few
    simp only [ncclIbMultiSend, announced, notMany, if_false, isMatched, Option.bind_some,
      List.head?_cons, Option.map_some]

/-- Every posting of a message names its sends. -/
theorem PostedChunks.naming {setup : SendSetup} {message : Message} {count : Nat}
    {cursors : List Cursor} {ep after : Endpoint} {postings : List Posting}
    (posted : PostedChunks setup message count cursors ep after postings) {posting : Posting}
    (member : posting ∈ postings) :
    ∃ q, posting.qp = .data q ∧ posting.dev = (setup.qps q).devIndex ∧ posting.kind = .data ∧
      posting.members = cursors.length ∧ posting.group = message.group ∧
      posting.names = (List.range cursors.length).map (reqAt message.wrId) := by
  have routed : posting.route ∈ postings.map Posting.route := List.mem_map_of_mem member
  rw [posted.routes] at routed
  obtain ⟨q, _, same⟩ := List.mem_map.mp routed
  obtain ⟨names, dev, kind, members, group, qp⟩ := Posting.names_of_route same.symm
  exact ⟨q, qp, dev, kind, members, group, names⟩

end NcclExts.Unet
