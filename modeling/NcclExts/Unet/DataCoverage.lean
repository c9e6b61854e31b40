import NcclExts.Foundation.Interleaving
import NcclExts.Unet.ChunkRange
import NcclExts.Unet.Connection

/-!
# The data of a message

The chains of a message are executed in order on each queue pair, and in any order on
different ones. Whatever the order is, every send is written once, each byte to its own
offset, as long as the arithmetic of the chunks is exact. What the chains carry besides
is one write with immediate each, and the sizes of a group with it; sending the data
ahead of the write with immediate changes neither what is written nor what completes.
-/

namespace NcclExts.Unet

open NcclExts.Foundation

/-! ## Executing a chain -/

/-- The bytes of user memory that a work request copies: from where, and to where. -/
def IbvSendWr.transfers (wr : IbvSendWr) : List (Int × Int) :=
  match wr.remoteAddr, wr.sge with
  | .user remote, some ⟨.user addr, length, _⟩ =>
    (List.range length.toNat).map fun (k : Nat) => (addr + k, remote + k)
  | _, _ => []

/-- The memory of the receiver: user memory, and the rows of the sizes FIFO. -/
@[ext]
structure RemoteMemory where
  user : Int → UInt8
  sizesFifo : Nat → Nat → Int32

/-- The write of a group's sizes into its row. -/
def IbvSendWr.landRow (elems : Nat → Nat → Int32) (wr : IbvSendWr)
    (rows : Nat → Nat → Int32) : Nat → Nat → Int32 :=
  match wr.remoteAddr, wr.sge with
  | .sizesRow slot, some ⟨.sizesRow source, length, _⟩ =>
    Function.update rows slot fun r =>
      if (r : Int) * 4 < length then elems source r else rows slot r
  | _, _ => rows

/-- A work request is executed: it copies user memory, or the local row of the sizes. -/
def RemoteMemory.execute (source : Int → UInt8) (elems : Nat → Nat → Int32)
    (memory : RemoteMemory) (wr : IbvSendWr) : RemoteMemory :=
  { user := writeAll memory.user (wr.transfers.map fun byte => (byte.2, source byte.1))
    sizesFifo := wr.landRow elems memory.sizesFifo }

/-- Work requests are executed in order. -/
def RemoteMemory.executeAll (source : Int → UInt8) (elems : Nat → Nat → Int32)
    (memory : RemoteMemory) (order : List IbvSendWr) : RemoteMemory :=
  order.foldl (RemoteMemory.execute source elems) memory

/-- The rows land as they do when a message is delivered. -/
theorem landRow_eq_landSizes (elems : Nat → Nat → Int32) (wr : IbvSendWr) (ep : Endpoint) :
    (Connection.landSizes elems wr ep).sizesFifo = wr.landRow elems ep.sizesFifo := by
  obtain ⟨_, _, _, remote, _, sge, _⟩ := wr
  cases remote <;> rcases sge with _ | ⟨addr, _, _⟩
  all_goals try cases addr
  all_goals rfl

/-! ## Exact arithmetic -/

/-- Narrowing changes no value of the chunk computation of a send. -/
structure Exact (narrow : Int → Int) (size : Int) (nqps : Nat) : Prop where
  chunk : chunkSize narrow size nqps = chunkSize id size nqps
  left : ∀ j : Nat, j < nqps →
    narrow (size - j * chunkSize id size nqps) = size - j * chunkSize id size nqps
  offset : ∀ j : Nat, j < nqps → narrow (j * chunkSize id size nqps + chunkSize id size nqps) =
    j * chunkSize id size nqps + chunkSize id size nqps

theorem Exact.of_id (size : Int) (nqps : Nat) : Exact id size nqps :=
  ⟨rfl, fun _ _ => rfl, fun _ _ => rfl⟩

/-- The arithmetic of the machine is exact where the chunks fit. -/
theorem ChunksFit.exact {size : Int} {nqps : Nat} (fits : ChunksFit size nqps)
    (some : 0 < nqps) (few : nqps ≤ maxQps) (nonneg : 0 ≤ size) (small : size < 2 ^ 31) :
    Exact wrapInt size nqps := by
  have chunked := fits.chunk some few nonneg small
  obtain ⟨sum, sum', high, _⟩ := (checkedChunk_eq_some some nonneg).mp chunked
  have last := (chunks_end_iff some nonneg).mpr fits.1
  have least := chunkSize_nonneg some nonneg
  have share := divUp_nonneg (by omega : (0 : Int) < nqps) nonneg
  have rounded {x y : Int} (positive : 0 < y) (nonneg : 0 ≤ x) (room : x + y < 2 ^ 31) :
      divUp wrapInt x y = divUp id x y := by
    have sum : wrapInt (x + y) = x + y := wrapInt_of_bounds (by omega) room
    rw [divUp, sum, wrapInt_of_bounds (by omega) (by omega)]
    rfl
  have within {j : Nat} (inside : j < nqps) :
      0 ≤ (j : Int) * chunkSize id size nqps ∧
        j * chunkSize id size nqps + chunkSize id size nqps < 2 ^ 31 := by
    have next : (j + 1 : Int) * chunkSize id size nqps ≤ nqps * chunkSize id size nqps :=
      Int.mul_le_mul_of_nonneg_right (by omega) least
    rw [Int.add_mul, Int.one_mul] at next
    exact ⟨Int.mul_nonneg (by omega) least, by omega⟩
  refine ⟨?_, fun j inside => ?_, fun j inside => ?_⟩
  · rw [chunkSize, rounded (by omega) nonneg sum, rounded (by omega) share sum']
    rw [chunkSize_eq] at high least ⊢
    exact wrapInt_of_bounds (by omega) high
  · have bounds := within inside
    exact wrapInt_of_bounds (by omega) (by omega)
  · have bounds := within inside
    exact wrapInt_of_bounds (by omega) (by omega)

/-! ## The chunks of one posting -/

/-- A send's place on the given queue pair of its message. -/
def Cursor.movedBy (reqs : ReqId → NcclIbRequest) (nqps j : Nat) (cursor : Cursor) : Cursor :=
  let chunk := chunkSize id (reqs cursor.req).size.toInt nqps
  { cursor with addr := cursor.addr + j * chunk, remote := cursor.remote + j * chunk }

/-- The sends of a message after so many queue pairs: only their offsets moved. -/
structure AtChunk (nqps : Nat) (reqs : ReqId → NcclIbRequest) (cursors : List Cursor) (j : Nat)
    (ep : Endpoint) : Prop where
  others : ∀ i, ep.reqs i = { reqs i with offset := (ep.reqs i).offset }
  offsets : ∀ cursor ∈ cursors,
    (ep.reqs cursor.req).offset = j * chunkSize id (reqs cursor.req).size.toInt nqps

/-- The bytes of a send that one queue pair carries. -/
def Cursor.share (reqs : ReqId → NcclIbRequest) (nqps j : Nat) (cursor : Cursor) :
    List (Int × Int) :=
  (piece (reqs cursor.req).size.toInt.toNat
    (chunkSize id (reqs cursor.req).size.toInt nqps).toNat j).map
      fun (k : Nat) => (cursor.addr + k, cursor.remote + k)

section

variable {setup : SendSetup} {message : Message} {reqs : ReqId → NcclIbRequest}
  {cursors : List Cursor}

/-- A chunk is what is left of the send, at most one chunk long. -/
theorem AtChunk.length {j : Nat} {ep : Endpoint}
    (place : AtChunk message.nqps reqs cursors j ep) {cursor : Cursor} (member : cursor ∈ cursors)
    (exact : Exact setup.narrow (reqs cursor.req).size.toInt message.nqps)
    (inside : j < message.nqps) :
    chunkLength setup.narrow (ep.reqs cursor.req) message.nqps =
      min ((reqs cursor.req).size.toInt -
          j * chunkSize id (reqs cursor.req).size.toInt message.nqps)
        (chunkSize id (reqs cursor.req).size.toInt message.nqps) := by
  rw [chunkLength, place.offsets cursor member, place.others cursor.req]
  simp only [exact.chunk, exact.left j inside]

/-- The work request of a send carries its share. -/
theorem chunkWr_transfers {j : Nat} {ep : Endpoint} (qp : NcclIbQp)
    (place : AtChunk message.nqps reqs cursors j ep) {cursor : Cursor} (member : cursor ∈ cursors)
    (exact : Exact setup.narrow (reqs cursor.req).size.toInt message.nqps)
    (inside : j < message.nqps) (nonneg : 0 ≤ (reqs cursor.req).size.toInt) :
    (chunkWr setup ep message.nqps qp (cursor.movedBy reqs message.nqps j)).transfers =
      cursor.share reqs message.nqps j := by
  have length := place.length member exact inside
  have least := chunkSize_nonneg (by omega : 0 < message.nqps) nonneg
  obtain ⟨width, isWidth⟩ := Int.eq_ofNat_of_zero_le least
  obtain ⟨bytes, isBytes⟩ := Int.eq_ofNat_of_zero_le nonneg
  have start : ((j * width : Nat) : Int) = j * width := by push_cast; rfl
  have sameReq : (cursor.movedBy reqs message.nqps j).req = cursor.req := rfl
  rw [isBytes] at isWidth length
  rw [isWidth] at length
  unfold chunkWr
  simp only [sameReq, length]
  by_cases empty : min ((bytes : Int) - j * width) width ≤ 0
  · have none : min width (bytes - j * width) = 0 := by omega
    simp [IbvSendWr.transfers, empty, Cursor.share, piece, isWidth, isBytes, none]
  · have count : (min ((bytes : Int) - j * width) width).toNat = min width (bytes - j * width) := by
      omega
    simp only [empty, if_false, IbvSendWr.transfers, count, Cursor.share, piece, isWidth, isBytes,
      Int.toNat_natCast, Cursor.movedBy]
    rw [List.range'_eq_map_range, List.map_map]
    apply List.map_congr_left
    intro k _
    simp only [Function.comp_apply, Prod.mk.injEq]
    push_cast
    exact ⟨Int.add_assoc .., Int.add_assoc ..⟩

end

/-! ## The chain of one posting -/

@[simp] theorem closing_transfers (wrId : Nat) (immData : UInt32) (wr : IbvSendWr) :
    (closing wrId immData wr).transfers = wr.transfers := rfl

/-- A trailer copies no user memory. -/
@[simp] theorem trailer_transfers (setup : SendSetup) (slot nreqs : Nat) (qp : NcclIbQp) :
    (trailer setup slot nreqs qp).transfers = [] := by
  unfold IbvSendWr.transfers trailer
  by_cases many : nreqs > 1 <;> simp [many]

/-- What a chain copies is what the chunks copy, one after the other. -/
theorem chain_transfers (setup : SendSetup) (message : Message) (ep : Endpoint) (qp : NcclIbQp)
    (cursors : List Cursor) :
    (chain setup message ep qp cursors).map IbvSendWr.transfers =
      cursors.map (fun cursor => (chunkWr setup ep message.nqps qp cursor).transfers) ++
        if message.trailed then [[]] else [] := by
  by_cases trailed : message.trailed = true
  · simp [chain, trailed]
  · simp only [chain, trailed, Bool.false_eq_true, if_false, List.append_nil, List.map_append]
    obtain none | ⟨front, last, same⟩ :=
      List.eq_nil_or_concat (cursors.map (chunkWr setup ep message.nqps qp))
    · have empty : cursors = [] := List.map_eq_nil_iff.mp none
      simp [empty]
    · have mapped := congrArg (List.map IbvSendWr.transfers) same
      rw [List.map_map] at mapped
      refine Eq.trans ?_ mapped.symm
      simp [same]

/-- The parts of a chain: chunks, of which one may close it, or the trailer that does. -/
theorem mem_chain {setup : SendSetup} {message : Message} {ep : Endpoint} {qp : NcclIbQp}
    {cursors : List Cursor} {wr : IbvSendWr}
    (member : wr ∈ chain setup message ep qp cursors) :
    (∃ cursor ∈ cursors, wr.sge = (chunkWr setup ep message.nqps qp cursor).sge ∧
      wr.remoteAddr = (chunkWr setup ep message.nqps qp cursor).remoteAddr) ∨
    (wr.sge = (trailer setup message.slot cursors.length qp).sge ∧
      wr.remoteAddr = (trailer setup message.slot cursors.length qp).remoteAddr) := by
  by_cases trailed : message.trailed = true
  · simp only [chain, trailed, if_true, List.mem_append, List.mem_map, List.mem_singleton]
      at member
    rcases member with ⟨cursor, inside, rfl⟩ | rfl
    · exact Or.inl ⟨cursor, inside, rfl, rfl⟩
    · exact Or.inr ⟨rfl, rfl⟩
  · simp only [chain, trailed, Bool.false_eq_true, if_false, List.mem_append, Option.mem_toList,
      Option.map_eq_some_iff] at member
    rcases member with front | ⟨last, isLast, rfl⟩
    · obtain ⟨cursor, inside, rfl⟩ := List.mem_map.mp (List.dropLast_subset _ front)
      exact Or.inl ⟨cursor, inside, rfl, rfl⟩
    · obtain ⟨cursor, inside, rfl⟩ := List.mem_map.mp (List.mem_of_getLast? isLast)
      exact Or.inl ⟨cursor, inside, rfl, rfl⟩

/-- Nothing before the end of a chain is signaled or carries an immediate. -/
theorem chain_front {setup : SendSetup} {message : Message} {ep : Endpoint} {qp : NcclIbQp}
    {cursors : List Cursor} {wr : IbvSendWr}
    (member : wr ∈ (chain setup message ep qp cursors).dropLast) :
    wr.opcode = .rdmaWrite ∧ wr.signaled = false := by
  have plain {wr : IbvSendWr} (front : wr ∈ cursors.map (chunkWr setup ep message.nqps qp)) :
      wr.opcode = .rdmaWrite ∧ wr.signaled = false := by
    obtain ⟨cursor, _, rfl⟩ := List.mem_map.mp front
    exact ⟨rfl, rfl⟩
  by_cases trailed : message.trailed = true
  · simp only [chain, trailed, if_true, List.dropLast_concat] at member
    exact plain member
  · simp only [chain, trailed, Bool.false_eq_true, if_false] at member
    obtain none | ⟨front, last, same⟩ :=
      List.eq_nil_or_concat (cursors.map (chunkWr setup ep message.nqps qp))
    · simp [none] at member
    · rw [same, List.concat_eq_append] at member plain
      simp only [List.dropLast_concat, List.getLast?_append,
        List.getLast?_singleton, Option.some_or, Option.map_some, Option.toList_some] at member
      exact plain (List.mem_append_left _ member)

/-! ## The loop over the queue pairs -/

section

variable {setup : SendSetup} {message : Message} {reqs : ReqId → NcclIbRequest}
  {cursors : List Cursor}

/-- One queue pair moves every send by its chunk. -/
theorem AtChunk.advance {j : Nat} {ep : Endpoint}
    (place : AtChunk message.nqps reqs cursors j ep) (inside : j < message.nqps)
    (distinct : (cursors.map Cursor.req).Nodup)
    (exact : ∀ cursor ∈ cursors,
      Exact setup.narrow (reqs cursor.req).size.toInt message.nqps) (posting : Posting)
    (qpIndex : Nat) :
    AtChunk message.nqps reqs cursors (j + 1)
      { advanceOffsets setup message.nqps (ep.postSignaled posting)
          (cursors.map (Cursor.movedBy reqs message.nqps j)) with qpIndex := qpIndex } := by
  have only := advanceOffsets_only setup message.nqps (ep.postSignaled posting)
    (cursors.map (Cursor.movedBy reqs message.nqps j))
  have names : (cursors.map (Cursor.movedBy reqs message.nqps j)).map Cursor.req =
      cursors.map Cursor.req := by
    rw [List.map_map]
    rfl
  constructor
  · intro i
    have moved := only.reqs i
    have before : (ep.postSignaled posting).reqs i = ep.reqs i := rfl
    rw [before, place.others i] at moved
    exact moved
  · intro cursor member
    have moved := advanceOffsets_offset setup message.nqps (ep.postSignaled posting)
      (names ▸ distinct) (List.mem_map_of_mem member)
    have sameReq : (cursor.movedBy reqs message.nqps j).req = cursor.req := rfl
    have before : (ep.postSignaled posting).reqs cursor.req = ep.reqs cursor.req := rfl
    have size := congrArg NcclIbRequest.size (place.others cursor.req)
    rw [sameReq, before, place.offsets cursor member, size, (exact cursor member).chunk,
      (exact cursor member).offset j inside] at moved
    rw [moved]
    push_cast
    rw [Int.add_mul, Int.one_mul]

/-- The chain on each queue pair is that of the sends moved there. -/
theorem postChunks_chains (distinct : (cursors.map Cursor.req).Nodup)
    (exact : ∀ cursor ∈ cursors,
      Exact setup.narrow (reqs cursor.req).size.toInt message.nqps)
    (count j : Nat) (total : j + count = message.nqps) (totalSize : UInt64) (ep : Endpoint)
    (place : AtChunk message.nqps reqs cursors j ep) :
    ∃ postings, (postChunks setup message count
          (cursors.map (Cursor.movedBy reqs message.nqps j)) totalSize ep).2.log =
        ep.log ++ postings ∧
      postings.length = count ∧
      ∀ (i : Nat) (posting : Posting), postings[i]? = some posting →
        ∃ before qp, AtChunk message.nqps reqs cursors (j + i) before ∧
          posting.chain = chain setup message before qp
            (cursors.map (Cursor.movedBy reqs message.nqps (j + i))) := by
  induction count generalizing j totalSize ep with
  | zero => exact ⟨[], by simp [postChunks], rfl, by simp⟩
  | succ count ih =>
    have moved : (cursors.map (Cursor.movedBy reqs message.nqps j)).map
        (Cursor.advance setup ep message.nqps) =
        cursors.map (Cursor.movedBy reqs message.nqps (j + 1)) := by
      rw [List.map_map]
      apply List.map_congr_left
      intro cursor member
      have size := congrArg NcclIbRequest.size (place.others cursor.req)
      have sameReq : (cursor.movedBy reqs message.nqps j).req = cursor.req := rfl
      simp only [Function.comp_apply, Cursor.advance, sameReq, size, (exact cursor member).chunk]
      simp only [Cursor.movedBy, Cursor.mk.injEq, true_and]
      push_cast
      constructor <;> ring
    obtain ⟨here, isHere⟩ : ∃ here, messagePosting setup message ep.qpIndex
        (cursors.map (Cursor.movedBy reqs message.nqps j)).length
        (chain setup message ep (setup.qps ep.qpIndex)
          (cursors.map (Cursor.movedBy reqs message.nqps j))) = here := ⟨_, rfl⟩
    obtain ⟨postings, log, length, later⟩ := ih (j + 1) (by omega)
      (totalSize + chunkBytes setup ep message.nqps
        (cursors.map (Cursor.movedBy reqs message.nqps j))) _
      (place.advance (by omega) distinct exact here ((ep.qpIndex + 1) % setup.nqps))
    refine ⟨here :: postings, ?_, ?_, ?_⟩
    · have only := advanceOffsets_only setup message.nqps (ep.postSignaled here)
        (cursors.map (Cursor.movedBy reqs message.nqps j))
      rw [postChunks, moved, isHere]
      refine log.trans ?_
      rw [congrArg Endpoint.log only.rest]
      simp [Endpoint.postSignaled]
    · rw [List.length_cons, length]
    · intro i posting placed
      cases i with
      | zero =>
        obtain rfl : here = posting := by simpa using placed
        exact ⟨ep, setup.qps ep.qpIndex, place, by rw [← isHere]; rfl⟩
      | succ i =>
        obtain ⟨before, qp, there, isChain⟩ := later i posting (by simpa using placed)
        rw [Nat.add_assoc, Nat.add_comm 1 i] at there isChain
        exact ⟨before, qp, there, isChain⟩

end

/-! ## What a message copies -/

/-- The bytes of a send: from where its data is, to where the receive wants them. -/
def Cursor.bytes (reqs : ReqId → NcclIbRequest) (cursor : Cursor) : List (Int × Int) :=
  (List.range (reqs cursor.req).size.toInt.toNat).map
    fun (k : Nat) => (cursor.addr + k, cursor.remote + k)

/-- The shares of all queue pairs are the bytes of the send, in order. -/
theorem Cursor.flatMap_share (reqs : ReqId → NcclIbRequest) {nqps : Nat} (cursor : Cursor)
    (some : 0 < nqps) (nonneg : 0 ≤ (reqs cursor.req).size.toInt) :
    (List.range nqps).flatMap (cursor.share reqs nqps) = cursor.bytes reqs := by
  have covers := chunkSize_covers some nonneg
  have least := chunkSize_nonneg some nonneg
  obtain ⟨width, isWidth⟩ := Int.eq_ofNat_of_zero_le least
  obtain ⟨bytes, isBytes⟩ := Int.eq_ofNat_of_zero_le nonneg
  rw [isBytes] at covers isWidth
  rw [isWidth] at covers
  have whole := flatMap_piece_of_le (by exact_mod_cast covers : bytes ≤ nqps * width)
  unfold Cursor.share Cursor.bytes
  rw [isBytes, isWidth, Int.toNat_natCast, Int.toNat_natCast, ← whole, List.map_flatMap]

/-- The postings of a message, by their chains. -/
structure Chained (setup : SendSetup) (message : Message) (reqs : ReqId → NcclIbRequest)
    (cursors : List Cursor) (postings : List Posting) : Prop where
  length : postings.length = message.nqps
  chains : ∀ (i : Nat) (posting : Posting), postings[i]? = some posting →
    ∃ before qp, AtChunk message.nqps reqs cursors i before ∧
      posting.chain =
        chain setup message before qp (cursors.map (Cursor.movedBy reqs message.nqps i))
  exact : ∀ cursor ∈ cursors, Exact setup.narrow (reqs cursor.req).size.toInt message.nqps
  nonneg : ∀ cursor ∈ cursors, 0 ≤ (reqs cursor.req).size.toInt

namespace Chained

variable {setup : SendSetup} {message : Message} {reqs : ReqId → NcclIbRequest}
  {cursors : List Cursor} {postings : List Posting}

/-- A chain copies the share of each send in its place, and nothing behind them. -/
theorem copies (chained : Chained setup message reqs cursors postings) {i : Nat}
    {posting : Posting} (placed : postings[i]? = some posting) :
    posting.chain.map IbvSendWr.transfers =
      cursors.map (fun cursor => cursor.share reqs message.nqps i) ++
        if message.trailed then [[]] else [] := by
  obtain ⟨before, qp, place, isChain⟩ := chained.chains i posting placed
  have inside : i < message.nqps := by
    rw [← chained.length]
    exact (List.getElem?_eq_some_iff.mp placed).1
  rw [isChain, chain_transfers, List.map_map]
  congr 1
  apply List.map_congr_left
  intro cursor member
  exact chunkWr_transfers qp place member (chained.exact cursor member) inside
    (chained.nonneg cursor member)

/-- Collecting something of every posting collects it of every index. -/
theorem flatMap_eq {α : Type} (chained : Chained setup message reqs cursors postings)
    {part : Posting → List α} {share : Nat → List α}
    (same : ∀ (i : Nat) (posting : Posting), postings[i]? = some posting →
      part posting = share i) :
    postings.flatMap part = (List.range message.nqps).flatMap share := by
  rw [List.flatMap_def, List.flatMap_def]
  congr 1
  apply List.ext_getElem
  · simp [chained.length]
  · intro i inside _
    rw [List.length_map] at inside
    rw [List.getElem_map, List.getElem_map, List.getElem_range]
    exact same i _ (List.getElem?_eq_getElem inside)

/-- In its place in the chains, each send is copied once and in order. -/
theorem copies_send (chained : Chained setup message reqs cursors postings) {r : Nat}
    {cursor : Cursor} (isCursor : cursors[r]? = some cursor) (some : 0 < message.nqps) :
    postings.flatMap (fun posting => posting.chain[r]?.toList.flatMap IbvSendWr.transfers) =
      cursor.bytes reqs := by
  have member : cursor ∈ cursors := List.mem_of_getElem? isCursor
  rw [chained.flatMap_eq, cursor.flatMap_share reqs some (chained.nonneg cursor member)]
  intro i posting placed
  have here := congrArg (fun lists => lists[r]?) (chained.copies placed)
  have inside : r < (cursors.map fun cursor => cursor.share reqs message.nqps i).length := by
    rw [List.length_map]
    exact (List.getElem?_eq_some_iff.mp isCursor).1
  simp only [List.getElem?_map, List.getElem?_append_left inside, isCursor, Option.map_some]
    at here
  obtain ⟨wr, isWr, isShare⟩ := Option.map_eq_some_iff.mp here
  simp [isWr, isShare]

/-- The chains together copy the bytes of all sends. -/
theorem copies_all (chained : Chained setup message reqs cursors postings)
    (some : 0 < message.nqps) :
    ((postings.map Posting.chain).flatten.flatMap IbvSendWr.transfers).Perm
      (cursors.flatMap (Cursor.bytes reqs)) := by
  have whole : (postings.map Posting.chain).flatten.flatMap IbvSendWr.transfers =
      (List.range message.nqps).flatMap fun i =>
        cursors.flatMap fun cursor => cursor.share reqs message.nqps i := by
    rw [← List.flatMap_def, List.flatMap_assoc]
    apply chained.flatMap_eq
    intro i posting placed
    rw [List.flatMap_def, chained.copies placed, List.flatMap_def, List.flatten_append]
    split <;> simp
  have swap : ∀ cursors : List Cursor, (∀ cursor ∈ cursors, 0 ≤ (reqs cursor.req).size.toInt) →
      ((List.range message.nqps).flatMap fun i =>
        cursors.flatMap fun cursor => cursor.share reqs message.nqps i).Perm
      (cursors.flatMap (Cursor.bytes reqs)) := by
    intro cursors nonneg
    induction cursors with
    | nil => simp
    | cons cursor rest ih =>
      have first := cursor.flatMap_share reqs some (nonneg cursor List.mem_cons_self)
      have later := ih fun other member => nonneg other (List.mem_cons_of_mem _ member)
      simp only [List.flatMap_cons]
      refine (List.flatMap_append_perm _ _ _).symm.trans ?_
      rw [first]
      exact later.append_left _
  rw [whole]
  exact swap cursors chained.nonneg

/-- A chunk starts at a multiple of 128 bytes from the start of its send. -/
theorem aligned (chained : Chained setup message reqs cursors postings) {posting : Posting}
    (member : posting ∈ postings) {wr : IbvSendWr} (inChain : wr ∈ posting.chain)
    {addr length : Int} {lkey : UInt32} (copied : wr.sge = some ⟨.user addr, length, lkey⟩) :
    ∃ cursor ∈ cursors, ∃ rows : Nat, addr = cursor.addr + 128 * rows ∧
      wr.remoteAddr = .user (cursor.remote + 128 * rows) := by
  obtain ⟨i, inside, rfl⟩ := List.getElem_of_mem member
  have bound : i < message.nqps := chained.length ▸ inside
  obtain ⟨before, qp, _, isChain⟩ := chained.chains i _ (List.getElem?_eq_getElem inside)
  rw [isChain] at inChain
  rcases mem_chain inChain with ⟨moved, isMoved, sge, remote⟩ | ⟨sge, _⟩
  · obtain ⟨cursor, isCursor, rfl⟩ := List.mem_map.mp isMoved
    have least := chunkSize_nonneg (by omega : 0 < message.nqps) (chained.nonneg cursor isCursor)
    rw [chunkSize_eq] at least
    obtain ⟨rows, isRows⟩ := Int.eq_ofNat_of_zero_le
      (by omega : 0 ≤ divUp id (divUp id (reqs cursor.req).size.toInt message.nqps) 128)
    have start : (i : Int) * chunkSize id (reqs cursor.req).size.toInt message.nqps =
        128 * (i * rows : Nat) := by
      rw [chunkSize_eq, isRows]
      push_cast
      ring
    refine ⟨cursor, isCursor, i * rows, ?_, ?_⟩
    · rw [sge, chunkWr] at copied
      split at copied
      next => simp at copied
      next =>
        obtain ⟨same, _, _⟩ := IbvSge.mk.inj (Option.some.inj copied)
        rw [← start]
        exact (LocalAddr.user.inj same).symm
    · rw [remote, chunkWr, Cursor.movedBy, start]
  · rw [sge, trailer] at copied
    split at copied
    next => simp at copied
    next => simp at copied

/-- How the chains end. -/
theorem ends (chained : Chained setup message reqs cursors postings) (some : cursors ≠ [])
    (trailed : cursors.length > 1 → message.trailed = true) {posting : Posting}
    (member : posting ∈ postings) :
    ∃ front last, posting.chain = front ++ [last] ∧
      (∀ wr ∈ front, wr.opcode = .rdmaWrite ∧ wr.signaled = false ∧
        ∃ addr, wr.remoteAddr = .user addr) ∧
      Closes message cursors.length last := by
  obtain ⟨i, inside, rfl⟩ := List.getElem_of_mem member
  obtain ⟨before, qp, _, isChain⟩ := chained.chains i _ (List.getElem?_eq_getElem inside)
  have length : (cursors.map (Cursor.movedBy reqs message.nqps i)).length = cursors.length :=
    List.length_map _
  obtain ⟨front, last, same, plain, closes⟩ := chain_closes setup message before qp
    (cursors.map (Cursor.movedBy reqs message.nqps i)) (by simpa using some)
    (by rwa [length])
  refine ⟨front, last, isChain.trans same, ?_, length ▸ closes⟩
  intro wr inFront
  obtain ⟨addr, isAddr, _⟩ := plain wr inFront
  have inDrop : wr ∈ (chain setup message before qp
      (cursors.map (Cursor.movedBy reqs message.nqps i))).dropLast := by
    rw [same, List.dropLast_concat]
    exact inFront
  obtain ⟨opcode, signaled⟩ := chain_front inDrop
  exact ⟨opcode, signaled, addr, isAddr⟩

end Chained

/-! ## Executing the chains of a message -/

theorem executeAll_user (source : Int → UInt8) (elems : Nat → Nat → Int32)
    (memory : RemoteMemory) (order : List IbvSendWr) :
    (memory.executeAll source elems order).user = writeAll memory.user
      ((order.flatMap IbvSendWr.transfers).map fun byte => (byte.2, source byte.1)) := by
  induction order generalizing memory with
  | nil => rfl
  | cons wr order ih =>
    refine (ih (memory.execute source elems wr)).trans ?_
    rw [List.flatMap_cons, List.map_append, writeAll_append]
    rfl

/-- The rows of the sizes do not depend on the rest of the memory. -/
theorem executeAll_sizesFifo (source : Int → UInt8) (elems : Nat → Nat → Int32)
    (memory : RemoteMemory) (order : List IbvSendWr) :
    (memory.executeAll source elems order).sizesFifo =
      order.foldl (fun rows wr => wr.landRow elems rows) memory.sizesFifo := by
  induction order generalizing memory with
  | nil => rfl
  | cons wr order ih => exact ih (memory.execute source elems wr)

/-- A work request to user memory leaves the rows. -/
theorem landRow_user {wr : IbvSendWr} {addr : Int} (isUser : wr.remoteAddr = .user addr)
    (elems rows : Nat → Nat → Int32) : wr.landRow elems rows = rows := by
  unfold IbvSendWr.landRow
  rw [isUser]

/-- The end of the chain of a group writes the sizes of its sends. -/
theorem landRow_sizes {wr : IbvSendWr} {slot nreqs : Nat} {lkey : UInt32}
    (isRow : wr.remoteAddr = .sizesRow slot)
    (sge : wr.sge = some ⟨.sizesRow slot, nreqs * 4, lkey⟩) (elems rows : Nat → Nat → Int32)
    {r : Nat} (inside : r < nreqs) : wr.landRow elems rows slot r = elems slot r := by
  unfold IbvSendWr.landRow
  simp only [isRow, sge, Function.update_self]
  rw [if_pos (by omega)]

/-- Once the row of a slot is written, it holds the sizes whatever is executed. -/
theorem foldl_landRow {slot nreqs : Nat} {elems : Nat → Nat → Int32} {order : List IbvSendWr}
    (parts : ∀ wr ∈ order, (∃ addr, wr.remoteAddr = .user addr) ∨
      (wr.remoteAddr = .sizesRow slot ∧ ∃ lkey, wr.sge = some ⟨.sizesRow slot, nreqs * 4, lkey⟩))
    {r : Nat} (inside : r < nreqs) {rows : Nat → Nat → Int32}
    (written : rows slot r = elems slot r ∨ ∃ wr ∈ order, wr.remoteAddr = .sizesRow slot) :
    order.foldl (fun rows wr => wr.landRow elems rows) rows slot r = elems slot r := by
  induction order generalizing rows with
  | nil =>
    obtain same | ⟨_, impossible, _⟩ := written
    · exact same
    · simp at impossible
  | cons wr order ih =>
    rw [List.foldl_cons]
    refine ih (fun other member => parts other (List.mem_cons_of_mem _ member)) ?_
    rcases parts wr List.mem_cons_self with ⟨addr, isUser⟩ | ⟨isRow, lkey, sge⟩
    · rw [landRow_user isUser]
      refine written.imp_right fun ⟨other, member, isRow⟩ => ⟨other, ?_, isRow⟩
      rcases List.mem_cons.mp member with rfl | later
      · rw [isUser] at isRow
        simp at isRow
      · exact later
    · exact Or.inl (landRow_sizes isRow sge elems rows inside)

/-! ## Messages -/

/-- The bytes of the send of a slot's receive. -/
def SendComm.sendBytes (comm : SendComm) (slot r : Nat) (req : ReqId) : List (Int × Int) :=
  (List.range (comm.ep.reqs req).size.toInt.toNat).map
    fun (k : Nat) => ((comm.ep.reqs req).data + k, (comm.fifo slot r).addr + k)

/-- The bytes of all sends of a slot. -/
def SendComm.slotBytes (comm : SendComm) (slot : Nat) (reqs : List ReqId) : List (Int × Int) :=
  (reqs.mapIdx (comm.sendBytes slot)).flatten

/-- What `ncclIbIsend` has established when it posts a slot: each of its receives, of
which there are one to eight, has a send that was not yet sent. -/
structure SlotReady (comm : SendComm) (slot : Nat) (reqs : List ReqId) : Prop where
  announced : (comm.fifo slot 0).nreqs = reqs.length
  nonempty : 1 ≤ reqs.length
  few : reqs.length ≤ maxRecvs
  matched : ∀ r, r < reqs.length → comm.fifoReqs slot r = reqs[r]?
  distinct : reqs.Nodup
  nonneg : ∀ req ∈ reqs, 0 ≤ (comm.ep.reqs req).size.toInt
  unsent : ∀ req ∈ reqs, (comm.ep.reqs req).offset = 0

/-- What executing the work requests of a message in an order amounts to. Copying names
each byte by where it is and where it goes. -/
structure Executed (setup : SendSetup) (comm after : SendComm) (slot : Nat) (reqs : List ReqId)
    (order : List IbvSendWr) : Prop where
  bytes : (order.flatMap IbvSendWr.transfers).Perm (comm.slotBytes slot reqs)
  others : ∀ source (memory : RemoteMemory), ∀ place ∉ (comm.slotBytes slot reqs).map Prod.snd,
    (memory.executeAll source after.elems order).user place = memory.user place
  landed : ((comm.slotBytes slot reqs).map Prod.snd).Nodup →
    ∀ source (memory : RemoteMemory), ∀ byte ∈ comm.slotBytes slot reqs,
      (memory.executeAll source after.elems order).user byte.2 = source byte.1
  sizes : 1 < reqs.length → ∀ source (memory : RemoteMemory) (r : Nat) (req : ReqId),
    reqs[r]? = .some req →
      (memory.executeAll source after.elems order).sizesFifo slot r = (comm.ep.reqs req).size
  alone : reqs.length = 1 → ∀ source (memory : RemoteMemory),
    (memory.executeAll source after.elems order).sizesFifo = memory.sizesFifo
  immediates : order.countP (fun wr => wr.opcode = .rdmaWriteWithImm) = setup.perMessage
  completions : order.countP (fun wr => wr.signaled) = setup.perMessage

/-- What the postings of a message do: in its place in the chains each send is copied
once, in order; chunks start at multiples of 128 bytes; no queue pair is used twice, and
its chain ends with its one write with immediate, which tells the size of a single send
and writes the sizes of a group; and all this holds in any order of execution. -/
structure Covered (setup : SendSetup) (comm after : SendComm) (slot : Nat) (reqs : List ReqId)
    (postings : List Posting) : Prop where
  sends : ∀ (r : Nat) (req : ReqId), reqs[r]? = .some req →
    postings.flatMap (fun posting => posting.chain[r]?.toList.flatMap IbvSendWr.transfers) =
      comm.sendBytes slot r req
  aligned : ∀ posting ∈ postings, ∀ wr ∈ posting.chain, ∀ addr length lkey,
    wr.sge = .some ⟨.user addr, length, lkey⟩ →
      ∃ (r : Nat) (req : ReqId) (rows : Nat), reqs[r]? = .some req ∧
        addr = (comm.ep.reqs req).data + 128 * rows ∧
        wr.remoteAddr = .user ((comm.fifo slot r).addr + 128 * rows)
  queuePairs : postings.map Posting.qp =
    (roundRobin setup.nqps comm.ep.qpIndex setup.perMessage).map QpRef.data
  once : (postings.map Posting.qp).Nodup
  ends : ∀ posting ∈ postings, ∃ front last, posting.chain = front ++ [last] ∧
    (∀ wr ∈ front, wr.opcode = .rdmaWrite ∧ wr.signaled = false) ∧
    last.opcode = .rdmaWriteWithImm ∧ last.signaled = true ∧
    (∀ req, reqs = [req] → last.immData = (comm.ep.reqs req).size.toUInt32) ∧
    (1 < reqs.length → last.remoteAddr = .sizesRow slot ∧
      ∃ lkey, last.sge = .some ⟨.sizesRow slot, reqs.length * 4, lkey⟩)
  executed : ∀ order, Interleaving (postings.map Posting.chain) order →
    Executed setup comm after slot reqs order

section

variable {setup : SendSetup} {comm : SendComm} {slot : Nat} {reqs : List ReqId}

/-- The postings of a slot are those of its sends from their start. -/
theorem SlotReady.chained (ready : SlotReady comm slot reqs) (message : Message)
    (whole : message.nqps = setup.perMessage)
    (exact : ∀ req ∈ reqs, Exact setup.narrow (comm.ep.reqs req).size.toInt setup.perMessage)
    (inside : comm.ep.qpIndex < setup.nqps) :
    ∃ postings, (postChunks setup message setup.perMessage (cursorsOf comm slot reqs) 0
          comm.ep).2.log = comm.ep.log ++ postings ∧
      Chained setup message comm.ep.reqs (cursorsOf comm slot reqs) postings ∧
      postings.map Posting.qp =
        (roundRobin setup.nqps comm.ep.qpIndex setup.perMessage).map QpRef.data := by
  have names : (cursorsOf comm slot reqs).map Cursor.req = reqs := by
    apply List.ext_getElem
    · simp
    · intro r _ _
      simp [cursorsOf]
  have named {cursor : Cursor} (member : cursor ∈ cursorsOf comm slot reqs) :
      cursor.req ∈ reqs := names ▸ List.mem_map_of_mem member
  have start : (cursorsOf comm slot reqs).map
      (Cursor.movedBy comm.ep.reqs message.nqps 0) = cursorsOf comm slot reqs := by
    refine (List.map_congr_left fun cursor _ => ?_).trans (List.map_id _)
    simp [Cursor.movedBy]
  have exact' : ∀ cursor ∈ cursorsOf comm slot reqs,
      Exact setup.narrow (comm.ep.reqs cursor.req).size.toInt message.nqps :=
    fun cursor member => whole ▸ exact cursor.req (named member)
  have place : AtChunk message.nqps comm.ep.reqs (cursorsOf comm slot reqs) 0 comm.ep := by
    refine ⟨fun _ => rfl, fun cursor member => ?_⟩
    rw [ready.unsent cursor.req (named member)]
    simp
  obtain ⟨postings, log, length, chains⟩ := postChunks_chains (names.symm ▸ ready.distinct) exact'
    setup.perMessage 0 (by rw [whole, Nat.zero_add]) 0 comm.ep place
  rw [start] at log
  obtain ⟨postings', posted⟩ := postChunks_posted setup message setup.perMessage
    (cursorsOf comm slot reqs) 0 comm.ep inside
  have same : postings' = postings := List.append_cancel_left (posted.log.symm.trans log)
  refine ⟨postings, log, ⟨length.trans whole.symm, ?_, exact', ?_⟩, ?_⟩
  · intro i posting placed
    obtain ⟨before, qp, there, isChain⟩ := chains i posting placed
    rw [Nat.zero_add] at there isChain
    exact ⟨before, qp, there, isChain⟩
  · exact fun cursor member => ready.nonneg cursor.req (named member)
  · have routes := congrArg (List.map Posting.qp) posted.routes
    rw [List.map_map, List.map_map, same] at routes
    exact routes

/-- The bytes of the sends are those of their cursors. -/
theorem cursorsOf_bytes (comm : SendComm) (slot : Nat) (reqs : List ReqId) :
    (cursorsOf comm slot reqs).flatMap (Cursor.bytes comm.ep.reqs) = comm.slotBytes slot reqs := by
  rw [List.flatMap_def, SendComm.slotBytes]
  congr 1
  apply List.ext_getElem
  · simp
  · intro r _ _
    simp [cursorsOf, Cursor.bytes, SendComm.sendBytes]

end

namespace Chained

variable {setup : SendSetup} {message : Message} {reqs : ReqId → NcclIbRequest}
  {cursors : List Cursor} {postings : List Posting} {order : List IbvSendWr}

/-- In every order one work request of each posting completes, which is the one that
carries an immediate. -/
theorem countP_last (chained : Chained setup message reqs cursors postings)
    (some : cursors ≠ []) (trailed : cursors.length > 1 → message.trailed = true)
    (runs : Interleaving (postings.map Posting.chain) order) {part : IbvSendWr → Bool}
    (plain : ∀ wr : IbvSendWr, wr.opcode = .rdmaWrite → wr.signaled = false → part wr = false)
    (last : ∀ wr : IbvSendWr, wr.opcode = .rdmaWriteWithImm → wr.signaled = true →
      part wr = true) : order.countP part = message.nqps := by
  have ones : (postings.map Posting.chain).map (List.countP part) =
      List.replicate postings.length 1 := by
    refine List.eq_replicate_iff.mpr ⟨by simp, ?_⟩
    rintro count member
    obtain ⟨_, inner, rfl⟩ := List.mem_map.mp member
    obtain ⟨posting, isPosting, rfl⟩ := List.mem_map.mp inner
    obtain ⟨front, closing, same, fronts, closes⟩ := chained.ends some trailed isPosting
    have none : front.countP part = 0 := by
      rw [List.countP_eq_zero]
      intro wr inFront
      rw [plain wr (fronts wr inFront).1 (fronts wr inFront).2.1]
      exact Bool.false_ne_true
    rw [same, List.countP_append, List.countP_singleton, none,
      last closing closes.opcode closes.signaled]
    rfl
  rw [runs.perm.countP_eq, List.countP_flatten, ones, List.sum_replicate, chained.length]
  simp

/-- In every order the sizes of a group land in its row. -/
theorem sizes (chained : Chained setup message reqs cursors postings)
    (many : cursors.length > 1) (trailed : message.trailed = true) (some : 0 < message.nqps)
    (runs : Interleaving (postings.map Posting.chain) order) (source : Int → UInt8)
    (elems : Nat → Nat → Int32) (memory : RemoteMemory) {r : Nat} (inside : r < cursors.length) :
    (memory.executeAll source elems order).sizesFifo message.slot r = elems message.slot r := by
  have nonempty : cursors ≠ [] := by
    rintro rfl
    simp at many
  have ends {posting : Posting} (member : posting ∈ postings) :=
    chained.ends nonempty (fun _ => trailed) member
  have placed {wr : IbvSendWr} : wr ∈ order ↔ ∃ posting ∈ postings, wr ∈ posting.chain := by
    rw [runs.perm.mem_iff, List.mem_flatten]
    simp
  rw [executeAll_sizesFifo]
  apply foldl_landRow ?_ inside
  · obtain ⟨first, isFirst⟩ := List.exists_mem_of_length_pos
      (by rw [chained.length]; exact some : 0 < postings.length)
    obtain ⟨front, last, same, _, closes⟩ := ends isFirst
    exact Or.inr ⟨last, placed.mpr ⟨first, isFirst, by simp [same]⟩, (closes.group many).1⟩
  · intro wr member
    obtain ⟨posting, isPosting, inChain⟩ := placed.mp member
    obtain ⟨front, last, same, fronts, closes⟩ := ends isPosting
    rw [same] at inChain
    rcases List.mem_append.mp inChain with inFront | isLast
    · exact Or.inl (fronts wr inFront).2.2
    · rw [List.mem_singleton.mp isLast]
      exact Or.inr (closes.group many)

/-- A single send leaves the rows of the sizes. -/
theorem sizes_alone (chained : Chained setup message reqs cursors postings)
    (alone : cursors.length = 1) (runs : Interleaving (postings.map Posting.chain) order)
    (source : Int → UInt8) (elems : Nat → Nat → Int32) (memory : RemoteMemory) :
    (memory.executeAll source elems order).sizesFifo = memory.sizesFifo := by
  have nonempty : cursors ≠ [] := by
    rintro rfl
    simp at alone
  have user : ∀ wr ∈ order, ∃ addr, wr.remoteAddr = .user addr := by
    intro wr member
    rw [runs.perm.mem_iff, List.mem_flatten] at member
    obtain ⟨_, isChain, inChain⟩ := member
    obtain ⟨posting, isPosting, rfl⟩ := List.mem_map.mp isChain
    obtain ⟨front, last, same, fronts, closes⟩ :=
      chained.ends nonempty (by omega) isPosting
    rw [same] at inChain
    rcases List.mem_append.mp inChain with inFront | isLast
    · exact (fronts wr inFront).2.2
    · rw [List.mem_singleton.mp isLast]
      exact closes.alone (by omega)
  rw [executeAll_sizesFifo]
  clear runs
  induction order generalizing memory with
  | nil => rfl
  | cons wr order ih =>
    obtain ⟨addr, isUser⟩ := user wr List.mem_cons_self
    rw [List.foldl_cons, landRow_user isUser]
    exact ih memory fun other member => user other (List.mem_cons_of_mem _ member)

end Chained

section

variable {setup : SendSetup} {comm after : SendComm} {slot : Nat} {reqs : List ReqId}
  {message : Message} {postings : List Posting}

/-- Executing the chains of a message, whatever the order is. -/
theorem SlotReady.executed (ready : SlotReady comm slot reqs)
    (chained : Chained setup message comm.ep.reqs (cursorsOf comm slot reqs) postings)
    (whole : message.nqps = setup.perMessage) (isSlot : message.slot = slot)
    (trailed : 1 < reqs.length → message.trailed = true)
    (rows : 1 < reqs.length → ∀ (r : Nat) (req : ReqId), reqs[r]? = some req →
      after.elems slot r = (comm.ep.reqs req).size)
    {order : List IbvSendWr} (runs : Interleaving (postings.map Posting.chain) order) :
    Executed setup comm after slot reqs order := by
  have positive : 0 < message.nqps := whole ▸ setup.perMessage_positive
  have length := cursorsOf_length comm slot reqs
  have some := ready.nonempty
  have nonempty : cursorsOf comm slot reqs ≠ [] := by
    intro none
    rw [none, List.length_nil] at length
    omega
  have bytes : (order.flatMap IbvSendWr.transfers).Perm (comm.slotBytes slot reqs) :=
    cursorsOf_bytes comm slot reqs ▸
      (runs.perm.flatMap_right _).trans (chained.copies_all positive)
  have writes (source : Int → UInt8) := bytes.map fun byte => (byte.2, source byte.1)
  have places (source : Int → UInt8) (copies : List (Int × Int)) :
      (copies.map fun byte => (byte.2, source byte.1)).map Prod.fst = copies.map Prod.snd := by
    rw [List.map_map]
    rfl
  refine ⟨bytes, ?_, ?_, ?_, ?_, ?_, ?_⟩
  · intro source memory place unwritten
    rw [executeAll_user]
    apply writeAll_of_notMem
    rw [((writes source).map Prod.fst).mem_iff, places]
    exact unwritten
  · intro distinct source memory byte member
    have copied : (byte.2, source byte.1) ∈
        (comm.slotBytes slot reqs).map fun byte => (byte.2, source byte.1) :=
      List.mem_map.mpr ⟨byte, member, rfl⟩
    rw [executeAll_user, writeAll_perm (writes source)]
    · exact writeAll_of_mem (by rw [places]; exact distinct) copied
    · rw [((writes source).map Prod.fst).nodup_iff, places]
      exact distinct
  · intro many source memory r req isReq
    have inside := (List.getElem?_eq_some_iff.mp isReq).1
    rw [← rows many r req isReq, ← isSlot]
    exact chained.sizes (by omega) (trailed many) positive runs source after.elems memory
      (by omega)
  · intro alone source memory
    exact chained.sizes_alone (by omega) runs source after.elems memory
  · rw [← whole]
    refine chained.countP_last nonempty (by rwa [length]) runs ?_ ?_
    · intro wr opcode _
      simp [opcode]
    · intro wr opcode _
      simp [opcode]
  · rw [← whole]
    exact chained.countP_last nonempty (by rwa [length]) runs (fun _ _ silent => silent)
      fun _ _ signaled => signaled

/-- Posting a slot that is ready. -/
theorem SlotReady.multiSend (setup : SendSetup) (ready : SlotReady comm slot reqs) :
    ∃ first rest, reqs = first :: rest ∧ ncclIbMultiSend setup comm slot =
      some (.ncclSuccess,
        sendMessage setup comm slot reqs.length reqs (comm.ep.reqs first).size) := by
  have all : ∀ r, r < reqs.length → comm.fifoReqs slot r ≠ none := by
    intro r inside
    rw [ready.matched r inside, List.getElem?_eq_getElem inside]
    simp
  obtain ⟨reqs', first, length, isFirst, rows, posted⟩ :=
    ncclIbMultiSend_matched setup comm ready.announced ready.nonempty ready.few all
  have same : reqs' = reqs := by
    apply List.ext_getElem? fun r => ?_
    by_cases inside : r < reqs.length
    · rw [← rows r inside, ready.matched r inside]
    · rw [List.getElem?_eq_none (by omega), List.getElem?_eq_none (by omega)]
  subst same
  obtain ⟨rest, isRest⟩ : ∃ rest, reqs' = first :: rest := by
    cases reqs' with
    | nil => simp at isFirst
    | cons other rest =>
      obtain rfl : other = first := by simpa using isFirst
      exact ⟨rest, rfl⟩
  exact ⟨first, rest, isRest, posted⟩

/-- What a slot's message leaves of the log and of the rows. -/
theorem sendMessage_log (setup : SendSetup) (comm : SendComm) (slot : Nat) (reqs : List ReqId)
    (firstSize : Int32) :
    (sendMessage setup comm slot reqs.length reqs firstSize).ep.log =
      (postChunks setup (messageOf setup comm slot reqs.length reqs firstSize) setup.perMessage
        (cursorsOf comm slot reqs) 0 comm.ep).2.log := by
  unfold sendMessage
  split <;> rfl

theorem sendMessage_elems (setup : SendSetup) (comm : SendComm) (slot : Nat)
    {reqs : List ReqId} (firstSize : Int32) (many : 1 < reqs.length) {r : Nat} {req : ReqId}
    (isReq : reqs[r]? = some req) :
    (sendMessage setup comm slot reqs.length reqs firstSize).elems slot r =
      (comm.ep.reqs req).size := by
  unfold sendMessage
  rw [if_neg (by omega)]
  simp [writeSizes, isReq]

/-- Where the arithmetic of the chunks is exact, the message of a slot that is ready
covers its sends. -/
theorem SlotReady.covered (setup : SendSetup) (ready : SlotReady comm slot reqs)
    (exact : ∀ req ∈ reqs, Exact setup.narrow (comm.ep.reqs req).size.toInt setup.perMessage)
    (inside : comm.ep.qpIndex < setup.nqps) (devs : setup.ndevs ≤ setup.nqps) :
    ∃ after postings, ncclIbMultiSend setup comm slot = some (.ncclSuccess, after) ∧
      after.ep.log = comm.ep.log ++ postings ∧ Covered setup comm after slot reqs postings := by
  obtain ⟨first, rest, isFirst, posted⟩ := ready.multiSend setup
  have length := cursorsOf_length comm slot reqs
  have some := ready.nonempty
  have nonempty : cursorsOf comm slot reqs ≠ [] := by
    intro none
    rw [none, List.length_nil] at length
    omega
  have few : setup.perMessage ≤ setup.nqps := by
    unfold CommSetup.perMessage
    split
    · exact Nat.le_refl _
    · exact devs
  obtain ⟨postings, log, chained, routes⟩ := ready.chained
    (messageOf setup comm slot reqs.length reqs (comm.ep.reqs first).size) rfl exact inside
  have trailed : 1 < reqs.length →
      (messageOf setup comm slot reqs.length reqs (comm.ep.reqs first).size).trailed = true :=
    fun many => decide_eq_true (Or.inl many)
  refine ⟨_, postings, posted, (sendMessage_log setup comm slot reqs _).trans log,
    ?_, ?_, routes, ?_, ?_, ?_⟩
  · exact fun r req isReq => chained.copies_send (cursorsOf_getElem isReq) setup.perMessage_positive
  · intro posting member wr inChain addr bytes lkey copied
    obtain ⟨cursor, isCursor, rows, start, remote⟩ := chained.aligned member inChain copied
    obtain ⟨r, placed⟩ := List.getElem?_of_mem isCursor
    obtain ⟨below, _⟩ := List.getElem?_eq_some_iff.mp placed
    have isReq : reqs[r]? = Option.some reqs[r] := List.getElem?_eq_getElem (length ▸ below)
    rw [cursorsOf_getElem isReq, Option.some.injEq] at placed
    rw [← placed] at start remote
    exact ⟨r, _, rows, isReq, start, remote⟩
  · rw [routes]
    refine (roundRobin_nodup inside few).map ?_
    exact fun _ _ same => QpRef.data.inj same
  · intro posting member
    obtain ⟨front, last, same, fronts, closes⟩ :=
      chained.ends nonempty (by rwa [length]) member
    refine ⟨front, last, same, fun wr inFront => ⟨(fronts wr inFront).1, (fronts wr inFront).2.1⟩,
      closes.opcode, closes.signaled, ?_, ?_⟩
    · rintro req rfl
      obtain rfl : req = first := (List.cons.inj isFirst).1
      exact closes.immData
    · intro many
      rw [length] at closes
      exact closes.group many
  · intro order runs
    refine ready.executed chained rfl rfl trailed ?_ runs
    exact fun many r req isReq => sendMessage_elems setup comm slot _ many isReq

end

/-! ## Adaptive routing -/

/-- The same setup with another adaptive routing flag and threshold. -/
def SendSetup.withAr (setup : SendSetup) (ar : Bool) (arThreshold : Int) : SendSetup :=
  { setup with ar := ar, arThreshold := arThreshold }

/-- Adaptive routing is no matter of the loop. -/
theorem postChunks_withAr (setup : SendSetup) (ar : Bool) (arThreshold : Int)
    (message : Message) (count : Nat) (cursors : List Cursor) (totalSize : UInt64)
    (ep : Endpoint) :
    postChunks (setup.withAr ar arThreshold) message count cursors totalSize ep =
      postChunks setup message count cursors totalSize ep := by
  induction count generalizing cursors totalSize ep with
  | zero => rfl
  | succ count ih => exact ih _ _ _

section

variable {setup : SendSetup} {comm : SendComm} {slot : Nat} {reqs : List ReqId}

/-- Groups are posted without regard to adaptive routing. -/
theorem sendMessage_withAr (setup : SendSetup) (ar : Bool) (arThreshold : Int) (comm : SendComm)
    (slot : Nat) (reqs : List ReqId) {nreqs : Nat} (firstSize : Int32) (many : 1 < nreqs) :
    sendMessage (setup.withAr ar arThreshold) comm slot nreqs reqs firstSize =
      sendMessage setup comm slot nreqs reqs firstSize := by
  have message (comm : SendComm) :
      messageOf (setup.withAr ar arThreshold) comm slot nreqs reqs firstSize =
        messageOf setup comm slot nreqs reqs firstSize := by
    unfold messageOf
    congr 1
    simp [many]
  unfold sendMessage
  simp only [message, postChunks_withAr]
  rfl

/-- A single send goes to different places. -/
theorem SendComm.slotBytes_nodup (comm : SendComm) (slot : Nat) {reqs : List ReqId}
    (alone : reqs.length = 1) : ((comm.slotBytes slot reqs).map Prod.snd).Nodup := by
  obtain ⟨req, rfl⟩ := List.length_eq_one_iff.mp alone
  have places : (comm.slotBytes slot [req]).map Prod.snd =
      (List.range (comm.ep.reqs req).size.toInt.toNat).map
        fun (k : Nat) => ((comm.fifo slot 0).addr : Int) + k := by
    simp [SendComm.slotBytes, SendComm.sendBytes]
  rw [places]
  refine List.nodup_range.map ?_
  intro k k' same
  have same : ((comm.fifo slot 0).addr : Int) + k = (comm.fifo slot 0).addr + k' := same
  omega

/-- Whatever order the chains of a message are executed in, the chains that it would have
with another adaptive routing have an order that leaves the same memory. -/
theorem SlotReady.withAr (ready : SlotReady comm slot reqs)
    (exact : ∀ req ∈ reqs, Exact setup.narrow (comm.ep.reqs req).size.toInt setup.perMessage)
    (inside : comm.ep.qpIndex < setup.nqps) (devs : setup.ndevs ≤ setup.nqps)
    {after : SendComm} {postings : List Posting}
    (posted : ncclIbMultiSend setup comm slot = some (.ncclSuccess, after))
    (log : after.ep.log = comm.ep.log ++ postings)
    (covered : Covered setup comm after slot reqs postings) (ar : Bool) (arThreshold : Int) :
    ∃ after' postings',
      ncclIbMultiSend (setup.withAr ar arThreshold) comm slot = some (.ncclSuccess, after') ∧
      after'.ep.log = comm.ep.log ++ postings' ∧
      Covered (setup.withAr ar arThreshold) comm after' slot reqs postings' ∧
      ∀ order, Interleaving (postings.map Posting.chain) order →
        ∃ order', Interleaving (postings'.map Posting.chain) order' ∧
          ∀ source (memory : RemoteMemory), memory.executeAll source after'.elems order' =
            memory.executeAll source after.elems order := by
  obtain ⟨after', postings', posted', log', covered'⟩ :=
    ready.covered (setup.withAr ar arThreshold) exact inside devs
  refine ⟨after', postings', posted', log', covered', ?_⟩
  intro order runs
  by_cases many : 1 < reqs.length
  · obtain ⟨first, rest, isFirst, sent⟩ := ready.multiSend setup
    obtain ⟨first', rest', isFirst', sent'⟩ :=
      ready.multiSend (setup.withAr ar arThreshold)
    obtain rfl : first = first' := (List.cons.inj (isFirst.symm.trans isFirst')).1
    rw [sendMessage_withAr _ _ _ _ _ _ _ many, ← sent, posted', posted] at sent'
    obtain rfl : after' = after := by simpa using sent'
    obtain rfl : postings' = postings := List.append_cancel_left (log'.symm.trans log)
    exact ⟨order, runs, fun _ _ => rfl⟩
  · have alone : reqs.length = 1 := by
      have nonempty := ready.nonempty
      omega
    refine ⟨_, .sequential _, ?_⟩
    intro source memory
    have executed := covered.executed order runs
    have executed' := covered'.executed _ (.sequential _)
    have users : ((postings'.map Posting.chain).flatten.flatMap IbvSendWr.transfers).Perm
        (order.flatMap IbvSendWr.transfers) := executed'.bytes.trans executed.bytes.symm
    have distinct := comm.slotBytes_nodup slot alone
    have rows := executed.alone alone source memory
    have rows' := executed'.alone alone source memory
    have user := executeAll_user source after.elems memory order
    have user' := executeAll_user source after'.elems memory (postings'.map Posting.chain).flatten
    rw [writeAll_perm (users.map _), ← user] at user'
    · exact RemoteMemory.ext user' (rows'.trans rows.symm)
    · rw [List.map_map]
      exact (executed'.bytes.map Prod.snd).nodup_iff.mpr distinct

end

/-- The message of a slot that is ready copies each byte of its sends once, whatever
order its chains are executed in, and with another adaptive routing too. -/
theorem multi_send_coverage (setup : SendSetup) (exactly : setup.narrow = id)
    (devs : setup.ndevs ≤ setup.nqps) (comm : SendComm) (slot : Nat) (reqs : List ReqId)
    (inside : comm.ep.qpIndex < setup.nqps) (ready : SlotReady comm slot reqs) :
    ∃ after postings, ncclIbMultiSend setup comm slot = some (.ncclSuccess, after) ∧
      after.ep.log = comm.ep.log ++ postings ∧ Covered setup comm after slot reqs postings ∧
      ∀ ar arThreshold, ∃ after' postings',
        ncclIbMultiSend (setup.withAr ar arThreshold) comm slot =
          some (.ncclSuccess, after') ∧
        after'.ep.log = comm.ep.log ++ postings' ∧
        Covered (setup.withAr ar arThreshold) comm after' slot reqs postings' ∧
        ∀ order, Interleaving (postings.map Posting.chain) order →
          ∃ order', Interleaving (postings'.map Posting.chain) order' ∧
            ∀ source (memory : RemoteMemory), memory.executeAll source after'.elems order' =
              memory.executeAll source after.elems order := by
  have exact : ∀ req ∈ reqs,
      Exact setup.narrow (comm.ep.reqs req).size.toInt setup.perMessage := by
    intro req _
    rw [exactly]
    exact .of_id _ _
  obtain ⟨after, postings, posted, log, covered⟩ := ready.covered setup exact inside devs
  exact ⟨after, postings, posted, log, covered,
    ready.withAr exact inside devs posted log covered⟩

/-- Two receives of the next slot have their sends. -/
def SendComm.ofTwo : SendComm :=
  { SendComm.initial with
    ep := { Endpoint.initial none none with
      reqs := fun i => { NcclIbRequest.zero with
        type := .send, nreqs := 2, size := if i = 0 then 100 else 300
        data := if i = 0 then 65536 else 70000 } }
    fifo := fun _ r => { NcclIbSendFifo.zero with addr := 4096 + 1024 * r, size := 512, nreqs := 2 }
    fifoReqs := fun slot r => if slot = 0 then [(0 : ReqId), 1][r]? else none }

theorem multi_send_coverage_ofTwo : ∃ after postings,
    ncclIbMultiSend { twoDevices.send with narrow := id } .ofTwo 0 =
      some (.ncclSuccess, after) ∧
    after.ep.log = SendComm.ofTwo.ep.log ++ postings ∧
    Covered { twoDevices.send with narrow := id } .ofTwo after 0 [0, 1] postings := by
  have ready : SlotReady .ofTwo 0 [0, 1] := by
    constructor <;> decide +kernel
  obtain ⟨after, postings, posted, log, covered, _⟩ := multi_send_coverage
    { twoDevices.send with narrow := id } rfl (by decide) .ofTwo 0 [0, 1] (by decide) ready
  exact ⟨after, postings, posted, log, covered⟩

/-- In the machine the same holds of sends whose chunks fit. -/
theorem SlotReady.covered_wrapInt (setup : SendSetup) (machine : setup.narrow = wrapInt)
    (few : setup.perMessage ≤ maxQps) {comm : SendComm} {slot : Nat} {reqs : List ReqId}
    (ready : SlotReady comm slot reqs)
    (fits : ∀ req ∈ reqs, ChunksFit (comm.ep.reqs req).size.toInt setup.perMessage)
    (inside : comm.ep.qpIndex < setup.nqps) (devs : setup.ndevs ≤ setup.nqps) :
    ∃ after postings, ncclIbMultiSend setup comm slot = some (.ncclSuccess, after) ∧
      after.ep.log = comm.ep.log ++ postings ∧ Covered setup comm after slot reqs postings := by
  refine ready.covered setup (fun req member => ?_) inside devs
  rw [machine]
  exact (fits req member).exact setup.perMessage_positive few (ready.nonneg req member)
    (Int32.toInt_lt _)

/-- In a reachable comm whose next slot has all of its sends, the slot is ready. -/
theorem SlotReady.of_full {setup : SendSetup} {calls : Calls} {comm : SendComm}
    {reqs : List ReqId} {first : ReqId} (full : Full calls comm reqs first)
    (ok : SendOk setup calls comm) (announced : ∀ call, Announced call (calls call))
    (landed : (comm.fifo (comm.fifoHead % maxRequests) 0).nreqs = reqs.length)
    (unsent : ∀ slot r i, comm.fifoReqs slot r = some i → (comm.ep.reqs i).offset = 0)
    (nonneg : ∀ i ∈ reqs, 0 ≤ (comm.ep.reqs i).size.toInt) :
    SlotReady comm (comm.fifoHead % maxRequests) reqs := by
  refine ⟨landed, full.some, ?_, full.rows, full.distinct ok, nonneg, ?_⟩
  · have few := (announced comm.fifoHead).few
    have length := full.length
    omega
  · intro i member
    obtain ⟨r, isReq⟩ := List.getElem?_of_mem member
    exact unsent _ r i (full.taken isReq)

end NcclExts.Unet
