import NcclExts.Foundation.Copies
import NcclExts.Unet.SourceImages

/-!
# The memory behind a connection

Two machines have a connection between them, and a memory each. While messages are under way
the programs store to both memories. The network places bytes of a message any time after it
was posted, in any order and any number of times; when a message arrives it places all of
them. What it places are bytes of the sender's memory of that time. Outside of buffers of
receives in use nothing is ever placed. Where the programs keep off the buffers of requests in
use, the buffers of a receive that is done hold the bytes that the matched sends had when they
were called.
-/

namespace NcclExts.Unet

open NcclExts.Foundation NcclExts.Ucommd

/-- The buffer of an announced receive. -/
def NcclIbSendFifo.span (recv : NcclIbSendFifo) : Span := ⟨recv.addr, recv.size.toInt⟩

/-- The buffer that a receive is called with. -/
def RecvArg.span (recv : RecvArg) : Span := ⟨recv.data, recv.size.toInt⟩

namespace Connection

/-- The receives of a call are still for a request in use. -/
def Live (c : Connection) (call : Nat) : Prop :=
  ∃ i, (c.recv.ep.reqs i).type = .recv ∧ c.callOf i = some call

/-- The buffers of the receives in use. -/
def recvBuffers (c : Connection) : List Span :=
  (List.finRange 256).flatMap fun i =>
    if (c.recv.ep.reqs i).type = .recv then
      (c.callOf i).elim [] fun call => (c.calls call).map NcclIbSendFifo.span
    else []

/-- The buffers of the sends in use, as far as they are sent. -/
def sendBuffers (c : Connection) : List Span :=
  ((List.finRange 256).filter fun i => (c.send.ep.reqs i).type ≠ .unused).map fun i =>
    ⟨(c.send.ep.reqs i).data, (c.send.ep.reqs i).size.toInt⟩

/-- The messages on a queue pair that were posted and have not arrived. -/
def leftOn (c : Connection) (q : Nat) : List Posting := (c.writesOn q).drop (c.delivered q)

/-- The bytes that a step of the connection places. -/
def arriving (c : Connection) : ConnEvent → List (Int × Int)
  | .deliver q => (c.leftOn q)[0]?.elim [] Posting.copies
  | _ => []

/-- The buffers of a receive call are apart from one another and from those in use. -/
def FreshBuffers (c : Connection) : ConnEvent → Prop
  | .irecv recvs => recvs.Pairwise (fun recv other => recv.span.Apart other.span) ∧
      ∀ recv ∈ recvs, ∀ span ∈ c.recvBuffers, recv.span.Apart span
  | _ => True

end Connection

/-- A connection, and the memories of its two machines. -/
structure Machines where
  conn : Connection
  sender : Int → UInt8
  receiver : Int → UInt8

inductive MachineEvent where
  | conn (event : ConnEvent)
  | places (q position : Nat) (bytes : List Nat)
  | senderStores (addr : Int) (byte : UInt8)
  | receiverStores (addr : Int) (byte : UInt8)

namespace Machines

/-- Bytes are placed in the memory of the receiver. -/
def place (m : Machines) (copies : List (Int × Int)) : Machines :=
  { m with receiver := copyAll m.sender m.receiver copies }

def step (ends : Ends) (m : Machines) : MachineEvent → Option Machines
  | .conn event => (m.conn.step ends event).map fun conn =>
    { m.place (m.conn.arriving event) with conn := conn }
  | .places q position bytes => (m.conn.leftOn q)[position]?.map fun posting =>
    m.place (bytes.filterMap fun k => posting.copies[k]?)
  | .senderStores addr byte => some { m with sender := Function.update m.sender addr byte }
  | .receiverStores addr byte => some { m with receiver := Function.update m.receiver addr byte }

end Machines

/-- What the sends that a step matches find in the memory of the sender. -/
def newSourceImages (m : Machines) (event : MachineEvent) (after : Machines) : List SourceImage :=
  match event with
  | .conn event => m.conn.newImages m.sender event after.conn
  | _ => []

/-- The two machines, and what the matched sends found in the memory of the sender. -/
abbrev Exchange := Noted Machines SourceImage

/-- All runs of two machines with a connection. -/
def exchanging (ends : Ends) : System Exchange MachineEvent :=
  recording
    { starts := fun m => m.conn.Fresh
      step := Machines.step ends }
    newSourceImages

/-- Sends fit; what else the programs and the network do does not matter. -/
def SendsFit (setup : SendSetup) : MachineEvent → Prop
  | .conn event => Sendable setup event
  | _ => True

/-- Sends fit, queue pairs are reliable, receives have buffers of their own, and nobody
stores to buffers of requests in use. -/
def Disciplined (setup : SendSetup) (m : Machines) : MachineEvent → Prop
  | .conn event => Sendable setup event ∧ m.conn.Acknowledged event ∧ m.conn.FreshBuffers event
  | .places .. => True
  | .senderStores addr _ => ∀ span ∈ m.conn.sendBuffers, ¬ span.Holds addr
  | .receiverStores addr _ => ∀ span ∈ m.conn.recvBuffers, ¬ span.Holds addr

theorem Disciplined.sendsFit {setup : SendSetup} {m : Machines} {event : MachineEvent}
    (disciplined : Disciplined setup m event) : SendsFit setup event := by
  cases event with
  | conn event => exact disciplined.1
  | places | senderStores | receiverStores => trivial

/-! ## The connection of a run -/

/-- What is known of the connection in every run. -/
structure Known (setup : ConnSetup) (c : Connection) (images : List SourceImage) : Prop where
  linked : Linked setup.toEnds c
  scheduled : Scheduled setup c
  answered : Answered setup.send c
  called : Called c
  sourced : Sourced setup.send c (images.map SourceImage.source)

namespace Known

variable {setup : ConnSetup} {c : Connection} {images : List SourceImage}

theorem recorded (known : Known setup c images) : images.map SourceImage.made = c.matched := by
  rw [← known.sourced.matched, List.map_map]
  rfl

/-- The image of a send is of one receive, which was announced. -/
theorem isRecv (known : Known setup c images) {image : SourceImage} (member : image ∈ images) :
    ∃ recv, (c.calls image.made.call)[image.made.r]? = some recv ∧
      recv.tag = image.made.tag.toUInt32 :=
  known.answered.real image.made (known.recorded ▸ List.mem_map_of_mem member)

/-- A receive has at most one image. -/
theorem distinct (known : Known setup c images) :
    (images.map fun image => image.made.place).Nodup := by
  have places := known.answered.distinct
  rw [← known.recorded, List.map_map] at places
  exact places

theorem unique (known : Known setup c images) {image other : SourceImage}
    (member : image ∈ images) (member' : other ∈ images)
    (same : image.made.place = other.made.place) : image = other :=
  List.inj_on_of_nodup_map known.distinct member member' same

/-- A message that has not arrived is for a call whose request is in use. -/
theorem live (known : Known setup c images) {q : Nat} {posting : Posting}
    (left : posting ∈ c.leftOn q) : c.Live posting.group := by
  obtain ⟨j, placed⟩ := List.getElem?_of_mem left
  rw [Connection.leftOn, List.getElem?_drop] at placed
  obtain ⟨receive, posted, isRecv, group⟩ :=
    known.scheduled.receive_posted placed (Nat.le_add_right _ _)
  have named := known.linked.recvOk.accounted.named receive.dev receive
    (Endpoint.posted_waiting posted)
  refine ⟨receive.request, ?_, group ▸ known.called.current receive posted isRecv⟩
  rw [named.typed receive.request named.first, of_decide_eq_true isRecv]
  rfl

end Known

/-- The bytes of a matched send go from its buffer to the buffer of its receive. -/
theorem SourceImage.mem_copies {calls : Calls} {image : SourceImage} {recv : NcclIbSendFifo}
    (isRecv : (calls image.made.call)[image.made.r]? = some recv) {copy : Int × Int} :
    copy ∈ Match.copies calls image.source ↔
      ∃ k : Nat, k < (image.made.clipped calls).toInt.toNat ∧
        copy = (image.data + k, (recv.addr : Int) + k) := by
  have addr : ((calls image.made.call).getD image.made.r .zero).addr = recv.addr := by
    rw [List.getD_eq_getElem?_getD, isRecv, Option.getD_some]
  simp only [Match.copies, SourceImage.source, addr, List.mem_map, List.mem_range]
  exact exists_congr fun k => and_congr_right fun _ => eq_comm

/-- They stay inside of that buffer. -/
theorem SourceImage.inside {calls : Calls} {image : SourceImage} {recv : NcclIbSendFifo}
    (isRecv : (calls image.made.call)[image.made.r]? = some recv) {k : Nat}
    (below : k < (image.made.clipped calls).toInt.toNat) : recv.span.Holds (recv.addr + k) := by
  have clipped : (image.made.clipped calls).toInt ≤ recv.size.toInt := by
    rw [Match.clipped, List.getD_eq_getElem?_getD, isRecv, Option.getD_some, clip]
    split
    next => exact Int.le_refl _
    next notLarger =>
      rw [gt_iff_lt, Int32.lt_iff_toInt_lt] at notLarger
      omega
  simp only [Span.Holds, NcclIbSendFifo.span]
  omega

/-- The buffers in use are those of the calls in use. -/
theorem Connection.mem_recvBuffers {c : Connection} {call : Nat} {recv : NcclIbSendFifo}
    (live : c.Live call) (isRecv : recv ∈ c.calls call) : recv.span ∈ c.recvBuffers := by
  obtain ⟨i, type, isCall⟩ := live
  refine List.mem_flatMap.mpr ⟨i, List.mem_finRange i, ?_⟩
  rw [if_pos type, isCall]
  exact List.mem_map_of_mem isRecv

/-- A request in use has its buffer among those in use. -/
theorem Connection.mem_sendBuffers {c : Connection} {i : ReqId}
    (inUse : (c.send.ep.reqs i).type ≠ .unused) :
    ⟨(c.send.ep.reqs i).data, (c.send.ep.reqs i).size.toInt⟩ ∈ c.sendBuffers :=
  List.mem_map.mpr ⟨i, List.mem_filter.mpr ⟨List.mem_finRange i, decide_eq_true inUse⟩, rfl⟩

/-! ## What a step of the connection does to calls and messages -/

section

variable {setup : ConnSetup} {c after : Connection} {event : ConnEvent}

/-- A step leaves the calls that were made. -/
theorem ConnStep.calls (stepped : ConnStep setup.toEnds c event after) {call : Nat}
    (made : call < c.history.length) : after.calls call = c.calls call := by
  cases stepped with
  | @received recvs i recv => exact receive_calls_other recv _ (Nat.ne_of_lt made)
  | sent | sendCompleted | sendWaits | sendDone | refused | flushed | recvCompleted | recvWaits
  | recvDone | landed | delivered => rfl

/-- A message that has arrived had arrived before, or is the one that is delivered. -/
theorem ConnStep.arrived (linked : Linked setup.toEnds c) (scheduled : Scheduled setup c)
    (stepped : ConnStep setup.toEnds c event after) {q : Nat} {posting : Posting}
    (arrived : posting ∈ (after.writesOn q).take (after.delivered q)) :
    posting ∈ (c.writesOn q).take (c.delivered q) ∨
      event = .deliver q ∧ (c.leftOn q)[0]? = some posting := by
  have same {settled : Endpoint} (settles : Endpoint.Settles c.send.ep settled) :
      settled.log = c.send.ep.log := (settles.kept linked.sendOk.accounted).log
  cases stepped with
  | @sent data size tag lkeys request send effect =>
    left
    cases effect with
    | nothing => exact arrived
    | matched => exact arrived
    | posted hit full =>
      obtain ⟨postings, sent⟩ := SendComm.post_sent
        (linked.sendOk.hit linked.announced hit data size lkeys).inside full.isFirst
      simp only [Connection.writesOn, sent.log, List.filter_append] at arrived
      have arrived : posting ∈ (c.writesOn q ++ postings.filter (Posting.OnQp q)).take
          (c.delivered q) := arrived
      rw [List.take_append_of_le_length (scheduled.arrived q)] at arrived
      exact arrived
  | sendCompleted completed =>
    obtain ⟨_, _, rfl⟩ := Option.map_eq_some_iff.mp completed
    exact .inl arrived
  | sendWaits settles _ =>
    simp only [Connection.writesOn, same settles] at arrived
    exact .inl arrived
  | sendDone settles _ _ _ =>
    simp only [Connection.writesOn, Endpoint.ncclIbFreeRequest, Endpoint.setReq, same settles]
      at arrived
    exact .inl arrived
  | received | refused | flushed | recvCompleted | recvWaits | recvDone | landed =>
    exact .inl arrived
  | @delivered q' position write ep next =>
    have arrived : posting ∈ (c.writesOn q).take
        (Function.update c.delivered q' (c.delivered q' + 1) q) := arrived
    by_cases here : q = q'
    · subst here
      rw [Function.update_self, List.take_add_one, next] at arrived
      rcases List.mem_append.mp arrived with before | now
      · exact .inl before
      · obtain rfl : posting = write := by simpa using now
        refine .inr ⟨rfl, ?_⟩
        rw [Connection.leftOn, List.getElem?_drop]
        exact next
    · rw [Function.update_of_ne here] at arrived
      exact .inl arrived

/-- A call is in use that was, or that the step makes. -/
theorem ConnStep.live (linked : Linked setup.toEnds c)
    (stepped : ConnStep setup.toEnds c event after) {call : Nat} (live : after.Live call) :
    c.Live call ∨ (∃ recvs, event = .irecv recvs) ∧ call = c.history.length := by
  obtain ⟨j, type, isCall⟩ := live
  rcases linked.recvKept stepped with kept | ⟨recvs, i, recv, rfl, rfl, unused, received⟩
  · exact .inl ⟨j, kept.types j type, (lastGroup_congr kept.log j).symm.trans isCall⟩
  · rw [received.callOf] at isCall
    by_cases new : j = i
    · rw [if_pos new, Option.some.injEq] at isCall
      exact .inr ⟨⟨recvs, rfl⟩, isCall.symm.trans linked.tail⟩
    · rw [if_neg new] at isCall
      have type : (recv.ep.reqs j).type = .recv := type
      rw [received.others j new] at type
      exact .inl ⟨j, type, isCall⟩

/-- The buffers of a call that is made are those it was called with. -/
theorem ConnStep.buffer {recvs : List RecvArg}
    (stepped : ConnStep setup.toEnds c (.irecv recvs) after) {r : Nat} {recv : NcclIbSendFifo}
    (isRecv : (after.calls c.history.length)[r]? = some recv) :
    ∃ arg, recvs[r]? = some arg ∧ recv.span = arg.span := by
  cases stepped with
  | refused => exact absurd (Connection.made isRecv) (Nat.lt_irrefl _)
  | @received _ i recv' _ _ _ received =>
    rw [receive_calls_self] at isRecv
    have below := (List.getElem?_eq_some_iff.mp isRecv).1
    rw [announcedBy_length] at below
    have isArg := List.getElem?_eq_getElem below
    rw [announcedBy_getElem? recv' below, received.elems, Option.some.injEq] at isRecv
    refine ⟨recvs[r], isArg, ?_⟩
    rw [← isRecv]
    simp only [stage, Function.update_self, isArg]
    rfl

/-- The sends that a step matches are for the next call. -/
theorem ConnStep.newImages (stepped : ConnStep setup.toEnds c event after)
    {sender : Int → UInt8} {image : SourceImage} (new : image ∈ c.newImages sender event after) :
    image.made.call = c.send.fifoHead := by
  obtain ⟨source, isNew, rfl⟩ := List.mem_map.mp new
  cases stepped with
  | @sent data size tag lkeys request send =>
    simp only [newSources, List.drop_left] at isNew
    obtain ⟨m, isMatch, rfl⟩ := List.mem_map.mp isNew
    unfold Connection.matchOf at isMatch
    split at isMatch
    · rw [List.mem_singleton.mp isMatch]
    · exact absurd isMatch List.not_mem_nil
  | sendCompleted | sendWaits | sendDone | refused | received | flushed | recvCompleted
  | recvWaits | recvDone | landed | delivered => exact absurd isNew List.not_mem_nil

end

/-! ## Every step of the machines -/

/-- The buffers of receives in use are apart, and hold of the sends what has arrived. -/
structure Stored (m : Machines) (images : List SourceImage) : Prop where
  apart : ∀ (call r : Nat) (recv : NcclIbSendFifo) (call' r' : Nat) (recv' : NcclIbSendFifo),
    m.conn.Live call → m.conn.Live call' → (m.conn.calls call)[r]? = some recv →
    (m.conn.calls call')[r']? = some recv' → (call, r) ≠ (call', r') →
    recv.span.Apart recv'.span
  filled : ∀ image ∈ images, m.conn.Live image.made.call → ∀ q,
    ∀ posting ∈ (m.conn.writesOn q).take (m.conn.delivered q),
    posting.group = image.made.call → ∀ copy ∈ posting.copies,
    copy ∈ Match.copies m.conn.calls image.source → m.receiver copy.2 = image.image copy.1

/-- What a message copies it copies for one of the sends of its call. -/
theorem Known.lands {setup : ConnSetup} {c : Connection} {images : List SourceImage}
    (known : Known setup c images) {q : Nat} {posting : Posting} (left : posting ∈ c.leftOn q)
    {copy : Int × Int} (member : copy ∈ posting.copies) :
    ∃ image ∈ images, image.made.call = posting.group ∧
      copy ∈ Match.copies c.calls image.source := by
  have logged := (List.mem_filter.mp (List.mem_of_mem_drop left)).1
  have sent : copy ∈ promised c.calls (images.map SourceImage.source) posting.group := by
    refine (known.sourced.sent _ (known.answered.grouped posting logged)).mem_iff.mp ?_
    exact List.mem_flatMap.mpr ⟨posting, List.mem_filter.mpr ⟨logged, by simp⟩, member⟩
  obtain ⟨r, _, inRow⟩ := List.mem_flatMap.mp sent
  obtain ⟨source, kept, isCopy⟩ := List.mem_flatMap.mp inRow
  obtain ⟨inSources, place⟩ := List.mem_filter.mp kept
  obtain ⟨image, isImage, rfl⟩ := List.mem_map.mp inSources
  exact ⟨image, isImage, (Prod.mk.inj (of_decide_eq_true place)).1, isCopy⟩

namespace Stored

variable {setup : ConnSetup} {m : Machines} {images : List SourceImage}

/-- Whatever a message brings to a place of a send is what the send had for it. -/
theorem brings (stored : Stored m images) (known : Known setup m.conn images)
    (imaged : Imaged m.conn m.sender images) {q : Nat} {posting : Posting}
    (left : posting ∈ m.conn.leftOn q) {image : SourceImage} (isImage : image ∈ images)
    (live : m.conn.Live image.made.call) {copy other : Int × Int}
    (isCopy : copy ∈ Match.copies m.conn.calls image.source) (member : other ∈ posting.copies)
    (same : other.2 = copy.2) : m.sender other.1 = image.image copy.1 := by
  obtain ⟨image', isImage', group, isCopy'⟩ := known.lands left member
  obtain ⟨recv, isRecv, _⟩ := known.isRecv isImage
  obtain ⟨recv', isRecv', _⟩ := known.isRecv isImage'
  obtain ⟨k, below, rfl⟩ := (SourceImage.mem_copies isRecv).mp isCopy
  obtain ⟨k', below', rfl⟩ := (SourceImage.mem_copies isRecv').mp isCopy'
  have same : (recv'.addr : Int) + k' = recv.addr + k := same
  -- both go to one place, and the buffers are apart
  have place : image'.made.place = image.made.place := by
    by_contra differ
    have apart := stored.apart _ _ _ _ _ _ (group ▸ known.live left) live isRecv' isRecv differ
    exact apart.not_both (SourceImage.inside isRecv' below')
      (same ▸ SourceImage.inside isRecv below)
  obtain rfl := known.unique isImage' isImage place
  obtain rfl : recv' = recv := Option.some.inj (isRecv'.symm.trans isRecv)
  obtain rfl : k' = k := by omega
  have logged := (List.mem_filter.mp (List.mem_of_mem_drop left)).1
  have named : image'.made.r < posting.names.length := by
    rw [known.answered.names_length logged, ← group]
    exact (List.getElem?_eq_some_iff.mp isRecv').1
  have serves : m.conn.Serves image'.made.place posting.names[image'.made.r] :=
    .inr ⟨posting, imaged.unarrived q posting left, group.symm, List.getElem?_eq_getElem named⟩
  exact (imaged.held image' isImage' _ serves).bytes k' below'

/-- Bytes of messages that have not arrived are placed. -/
theorem placed (stored : Stored m images) (known : Known setup m.conn images)
    (imaged : Imaged m.conn m.sender images) {copies : List (Int × Int)}
    (left : ∀ copy ∈ copies, ∃ q, ∃ posting ∈ m.conn.leftOn q, copy ∈ posting.copies)
    {image : SourceImage} (isImage : image ∈ images) (live : m.conn.Live image.made.call)
    {copy : Int × Int} (isCopy : copy ∈ Match.copies m.conn.calls image.source)
    (held : m.receiver copy.2 = image.image copy.1 ∨ copy ∈ copies) :
    (m.place copies).receiver copy.2 = image.image copy.1 := by
  refine copyAll_of_all (fun other member same => ?_) (held.imp_right fun now => ⟨copy, now, rfl⟩)
  obtain ⟨q, posting, isLeft, isOther⟩ := left other member
  exact stored.brings known imaged isLeft isImage live isCopy isOther same

end Stored

/-- What arrives is of messages that had not. -/
theorem Connection.arriving_left {c : Connection} {event : ConnEvent} {copy : Int × Int}
    (member : copy ∈ c.arriving event) : ∃ q, ∃ posting ∈ c.leftOn q, copy ∈ posting.copies := by
  cases event with
  | deliver q =>
    cases next : (c.leftOn q)[0]? with
    | none =>
      rw [Connection.arriving, next] at member
      exact absurd member List.not_mem_nil
    | some posting =>
      rw [Connection.arriving, next] at member
      exact ⟨q, posting, List.mem_of_getElem? next, member⟩
  | isend | sendComplete | sendTest | irecv | iflush | recvComplete | recvTest | landCts =>
    exact absurd member List.not_mem_nil

/-- A call in use was made. -/
theorem Connection.Live.made {setup : ConnSetup} {c : Connection} {call : Nat}
    (live : c.Live call) (scheduled : Scheduled setup c) : call < c.history.length := by
  obtain ⟨i, _, isCall⟩ := live
  obtain ⟨own, inLog, isRecv, _, group⟩ := lastGroup_mem isCall
  exact group ▸ scheduled.receive_made inLog isRecv

/-- The bytes of a send are the same while its call is. -/
theorem SourceImage.copies_congr {calls more : Calls} {image : SourceImage}
    (same : more image.made.call = calls image.made.call) :
    Match.copies more image.source = Match.copies calls image.source := by
  simp only [Match.copies, Match.clipped, SourceImage.source, same]

namespace Stored

variable {setup : ConnSetup} {m : Machines} {images : List SourceImage}

/-- A receive call has buffers of its own. -/
theorem connStep_apart (stored : Stored m images) (known : Known setup m.conn images)
    {event : ConnEvent} {after : Connection} (fresh : m.conn.FreshBuffers event)
    (stepped : ConnStep setup.toEnds m.conn event after) {call r : Nat} {recv : NcclIbSendFifo}
    {call' r' : Nat} {recv' : NcclIbSendFifo} (live : after.Live call) (live' : after.Live call')
    (isRecv : (after.calls call)[r]? = some recv) (isRecv' : (after.calls call')[r']? = some recv')
    (differ : (call, r) ≠ (call', r')) : recv.span.Apart recv'.span := by
  have older {call r : Nat} {recv : NcclIbSendFifo} (live : m.conn.Live call)
      (isRecv : (after.calls call)[r]? = some recv) : (m.conn.calls call)[r]? = some recv :=
    stepped.calls (live.made known.scheduled) ▸ isRecv
  have new {call r : Nat} {recv : NcclIbSendFifo} {recvs : List RecvArg} {call' r' : Nat}
      {recv' : NcclIbSendFifo} (fresh : m.conn.FreshBuffers (.irecv recvs))
      (stepped : ConnStep setup.toEnds m.conn (.irecv recvs) after) (live : m.conn.Live call)
      (isRecv : (after.calls call)[r]? = some recv) (isNew : call' = m.conn.history.length)
      (isRecv' : (after.calls call')[r']? = some recv') : recv'.span.Apart recv.span := by
    subst isNew
    obtain ⟨arg, isArg, span⟩ := stepped.buffer isRecv'
    rw [span]
    refine fresh.2 arg (List.mem_of_getElem? isArg) _ ?_
    exact Connection.mem_recvBuffers live (List.mem_of_getElem? (older live isRecv))
  rcases stepped.live known.linked live with old | ⟨⟨recvs, rfl⟩, isNew⟩
  · rcases stepped.live known.linked live' with old' | ⟨⟨recvs, rfl⟩, isNew'⟩
    · exact stored.apart call r recv call' r' recv' old old' (older old isRecv)
        (older old' isRecv') differ
    · exact (new fresh stepped old isRecv isNew' isRecv').symm
  · rcases stepped.live known.linked live' with old' | ⟨_, isNew'⟩
    · exact new fresh stepped old' isRecv' isNew isRecv
    · subst isNew
      subst isNew'
      obtain ⟨arg, isArg, span⟩ := stepped.buffer isRecv
      obtain ⟨arg', isArg', span'⟩ := stepped.buffer isRecv'
      obtain ⟨inside, rfl⟩ := List.getElem?_eq_some_iff.mp isArg
      obtain ⟨inside', rfl⟩ := List.getElem?_eq_some_iff.mp isArg'
      have pairs := List.pairwise_iff_getElem.mp fresh.1
      rw [span, span']
      rcases Nat.lt_trichotomy r r' with before | same | behind
      · exact pairs r r' inside inside' before
      · exact absurd (congrArg _ same) differ
      · exact (pairs r' r inside' inside behind).symm

/-- Every step of the connection. -/
theorem connStep (stored : Stored m images) (known : Known setup m.conn images)
    (imaged : Imaged m.conn m.sender images) {event : ConnEvent} {after : Connection}
    (fresh : m.conn.FreshBuffers event) (stepped : ConnStep setup.toEnds m.conn event after) :
    Stored { m.place (m.conn.arriving event) with conn := after }
      (images ++ m.conn.newImages m.sender event after) := by
  refine ⟨fun _ _ _ _ _ _ => stored.connStep_apart known fresh stepped, ?_⟩
  intro image member live q posting arrived group copy inPosting isCopy
  have came := stepped.arrived known.linked known.scheduled arrived
  rcases List.mem_append.mp member with old | new
  · obtain ⟨recv, isRecv, _⟩ := known.isRecv old
    have made := Connection.made isRecv
    have live : m.conn.Live image.made.call :=
      (stepped.live known.linked live).resolve_right fun new => Nat.ne_of_lt made new.2
    have isCopy : copy ∈ Match.copies m.conn.calls image.source :=
      SourceImage.copies_congr (stepped.calls made) ▸ isCopy
    refine stored.placed known imaged (fun _ => Connection.arriving_left) old live isCopy ?_
    rcases came with before | ⟨rfl, next⟩
    · exact .inl (stored.filled image old live q posting before group copy inPosting isCopy)
    · right
      rw [Connection.arriving, next]
      exact inPosting
  · -- nothing of the next call has been posted
    have logged : posting ∈ m.conn.send.ep.log := by
      rcases came with before | ⟨_, next⟩
      · exact (List.mem_filter.mp (List.mem_of_mem_take before)).1
      · exact (List.mem_filter.mp (List.mem_of_mem_drop (List.mem_of_getElem? next))).1
    have earlier := known.answered.grouped posting logged
    rw [group, stepped.newImages new] at earlier
    exact absurd earlier (Nat.lt_irrefl _)

end Stored

/-! ## Every run -/

section

variable {setup : ConnSetup}

theorem Stored.fresh {m : Machines} (fresh : m.conn.Fresh) : Stored m [] := by
  obtain ⟨_, ⟨⟨reqs, _⟩, _⟩, _⟩ := fresh
  have none (call : Nat) : ¬ m.conn.Live call := by
    rintro ⟨i, type, _⟩
    rw [reqs] at type
    simp [NcclIbRequest.zero] at type
  exact ⟨fun call _ _ _ _ _ live => absurd live (none call), by simp⟩

/-- The connection of a run runs as without the memories. -/
theorem exchanging_transfers {x : Exchange} (reached : (exchanging setup.toEnds).Reaches
    (fun _ => SendsFit setup.send) x) :
    (transferring setup.toEnds).Reaches (fun _ => Sendable setup.send)
      ⟨x.state.conn, x.notes.map SourceImage.source⟩ := by
  induction reached with
  | start first =>
    obtain ⟨fresh, notes⟩ := first
    rw [notes]
    exact .start ⟨fresh, rfl⟩
  | @next x after event _ fit stepped ih =>
    obtain ⟨machines, within, rfl⟩ := Option.map_eq_some_iff.mp stepped
    cases event with
    | conn event =>
      obtain ⟨conn, moved, rfl⟩ := Option.map_eq_some_iff.mp within
      refine ih.next fit ?_
      have moved : (connection setup.toEnds).step x.state.conn event = some conn := moved
      simp only [transferring, recording, moved, Option.map_some, newSourceImages,
        Connection.newImages, List.map_append, List.map_map]
      simp [Function.comp_def, SourceImage.source]
    | places q position bytes =>
      obtain ⟨_, _, rfl⟩ := Option.map_eq_some_iff.mp within
      simpa [newSourceImages, Machines.place] using ih
    | senderStores addr byte =>
      obtain rfl := Option.some.inj within
      simpa [newSourceImages] using ih
    | receiverStores addr byte =>
      obtain rfl := Option.some.inj within
      simpa [newSourceImages] using ih

theorem exchanging_known (machine : setup.send.narrow = wrapInt)
    (few : setup.send.perMessage ≤ maxQps) (devs : setup.send.ndevs ≤ setup.send.nqps)
    {x : Exchange} (reached : (exchanging setup.toEnds).Reaches
      (fun _ => SendsFit setup.send) x) : Known setup x.state.conn x.notes := by
  let t : Transfer := ⟨x.state.conn, x.notes.map SourceImage.source⟩
  have transfers : (transferring setup.toEnds).Reaches
      (fun _ event => Sendable setup.send event) t := exchanging_transfers reached
  have reached : (connection setup.toEnds).Reaches (fun _ => Sendable setup.send) t.state :=
    Noted.reaches transfers
  exact ⟨connection_linked reached, connection_scheduled reached, connection_answered reached,
    connection_called reached, transferring_sourced machine few devs transfers⟩

/-- Every run keeps what the requests hold and what the receives have. -/
theorem exchanging_stored (machine : setup.send.narrow = wrapInt)
    (few : setup.send.perMessage ≤ maxQps) (devs : setup.send.ndevs ≤ setup.send.nqps)
    {x : Exchange} (reached : (exchanging setup.toEnds).Reaches
      (fun x => Disciplined setup.send x.state) x) :
    Imaged x.state.conn x.state.sender x.notes ∧ Stored x.state x.notes := by
  have perMessage : setup.send.perMessage ≤ setup.send.nqps := by
    unfold CommSetup.perMessage
    split
    · exact Nat.le_refl _
    · exact devs
  induction reached with
  | start first =>
    obtain ⟨fresh, notes⟩ := first
    rw [notes]
    exact ⟨.fresh fresh, .fresh fresh⟩
  | @next x after event before disciplined stepped ih =>
    obtain ⟨imaged, stored⟩ := ih
    have known := exchanging_known machine few devs
      (before.weaken fun _ _ => Disciplined.sendsFit)
    obtain ⟨machines, within, rfl⟩ := Option.map_eq_some_iff.mp stepped
    cases event with
    | conn event =>
      obtain ⟨conn, moved, rfl⟩ := Option.map_eq_some_iff.mp within
      have moves := known.linked.connStep moved
      obtain ⟨_, acknowledged, fresh⟩ := disciplined
      exact ⟨imaged.step known.linked known.scheduled known.answered perMessage known.recorded
        acknowledged moves, stored.connStep known imaged fresh moves⟩
    | places q position bytes =>
      obtain ⟨posting, placed, rfl⟩ := Option.map_eq_some_iff.mp within
      simp only [newSourceImages, List.append_nil]
      refine ⟨imaged, stored.apart, ?_⟩
      intro image member live q' other arrived group copy inOther isCopy
      refine stored.placed known imaged (fun copy placing => ?_) member live isCopy
        (.inl (stored.filled image member live q' other arrived group copy inOther isCopy))
      obtain ⟨k, _, isK⟩ := List.mem_filterMap.mp placing
      exact ⟨q, posting, List.mem_of_getElem? placed, List.mem_of_getElem? isK⟩
    | senderStores addr byte =>
      obtain rfl := Option.some.inj within
      simp only [newSourceImages, List.append_nil]
      refine ⟨⟨imaged.logged, imaged.unarrived, fun image member i serves => ?_⟩, stored.apart,
        stored.filled⟩
      obtain ⟨data, size, bytes⟩ := imaged.held image member i serves
      refine ⟨data, size, fun k below => ?_⟩
      have outside := disciplined _ (Connection.mem_sendBuffers (known.linked.serves_inUse serves))
      have elsewhere : image.data + k ≠ addr := by
        simp only [Span.Holds, data, size] at outside
        omega
      exact (Function.update_of_ne elsewhere _ _).trans (bytes k below)
    | receiverStores addr byte =>
      obtain rfl := Option.some.inj within
      simp only [newSourceImages, List.append_nil]
      refine ⟨imaged, stored.apart, ?_⟩
      intro image member live q other arrived group copy inOther isCopy
      have filled := stored.filled image member live q other arrived group copy inOther isCopy
      obtain ⟨recv, isRecv, _⟩ := known.isRecv member
      obtain ⟨k, below, rfl⟩ := (SourceImage.mem_copies isRecv).mp isCopy
      have outside := disciplined _
        (Connection.mem_recvBuffers live (List.mem_of_getElem? isRecv))
      have elsewhere : (recv.addr : Int) + k ≠ addr := by
        rintro rfl
        exact outside (SourceImage.inside isRecv below)
      exact (Function.update_of_ne elsewhere _ _).trans filled

end

/-! ## A receive that is done -/

/-- The buffers of a call hold the sends that were matched to its receives, as they were when
they were called. -/
def Exchange.Holds (x : Exchange) (call : Nat) : Prop :=
  ∀ (r : Nat) (recv : NcclIbSendFifo), (x.state.conn.calls call)[r]? = some recv →
    ∃ image, x.notes.filter (fun image => image.made.place = (call, r)) = [image] ∧
      recv.tag = image.made.tag.toUInt32 ∧
      ∀ k : Nat, k < (image.made.clipped x.state.conn.calls).toInt.toNat →
        x.state.receiver (recv.addr + k) = image.image (image.data + k)

/-- In every run of machines that keep off buffers in use, a test that finds a receive done
finds the bytes of its sends in its buffers. -/
theorem buffers_filled (setup : ConnSetup) (machine : setup.send.narrow = wrapInt)
    (few : setup.send.perMessage ≤ maxQps) (devs : setup.send.ndevs ≤ setup.send.nqps)
    {x : Exchange} (reached : (exchanging setup.toEnds).Reaches
      (fun x => Disciplined setup.send x.state) x) {i : ReqId} {result : NcclResult}
    {sizes : List Int32} {ep : Endpoint} (type : (x.state.conn.recv.ep.reqs i).type = .recv)
    (tested : x.state.conn.recv.ep.ncclIbTest setup.recv.asyncEvents i =
      .returned result true sizes ep) :
    ∃ call, x.state.conn.callOf i = some call ∧ x.Holds call := by
  have known := exchanging_known machine few devs
    (reached.weaken fun _ _ => Disciplined.sendsFit)
  obtain ⟨_, stored⟩ := exchanging_stored machine few devs reached
  obtain ⟨call, isCall, sent, ended⟩ :=
    known.called.done_arrived known.linked known.scheduled type tested
  refine ⟨call, isCall, fun r recv isRecv => ?_⟩
  obtain ⟨m, isMatch, place⟩ := known.answered.whole call r sent
    (List.getElem?_eq_some_iff.mp isRecv).1
  rw [← known.recorded] at isMatch
  obtain ⟨image, isImage, rfl⟩ := List.mem_map.mp isMatch
  obtain ⟨rfl, rfl⟩ := Prod.mk.inj place
  obtain ⟨recv', isRecv', tag⟩ := known.isRecv isImage
  obtain rfl : recv' = recv := Option.some.inj (isRecv'.symm.trans isRecv)
  refine ⟨image, filter_eq_singleton known.distinct isImage, tag, fun k below => ?_⟩
  have isCopy := (SourceImage.mem_copies isRecv).mpr ⟨k, below, rfl⟩
  -- some message copied the byte, and it has arrived
  have inPromised : (image.data + k, (recv'.addr : Int) + k) ∈ promised x.state.conn.calls
      (x.notes.map SourceImage.source) image.made.call := by
    have below := (List.getElem?_eq_some_iff.mp isRecv).1
    refine List.mem_flatMap.mpr ⟨image.made.r, List.mem_range.mpr below, ?_⟩
    refine List.mem_flatMap.mpr ⟨image.source, List.mem_filter.mpr ⟨?_, ?_⟩, isCopy⟩
    · exact List.mem_map_of_mem isImage
    · exact decide_eq_true rfl
  obtain ⟨posting, ofCall, copies⟩ := List.mem_flatMap.mp
    ((known.sourced.sent _ sent).mem_iff.mpr inPromised)
  obtain ⟨logged, group⟩ := List.mem_filter.mp ofCall
  have group : posting.group = image.made.call := of_decide_eq_true group
  obtain ⟨q, _, onQp⟩ := known.scheduled.write_onQp logged
  have inWrites : posting ∈ x.state.conn.writesOn q :=
    List.mem_filter.mpr ⟨logged, by rw [onQp]; simp⟩
  rw [← List.take_append_drop (x.state.conn.delivered q) (x.state.conn.writesOn q)] at inWrites
  have arrived := (List.mem_append.mp inWrites).resolve_right fun left =>
    ended q posting left group
  exact stored.filled image isImage ⟨i, type, isCall⟩ q posting arrived group _ copies isCopy

/-- In every run whose sends fit, only the receiver's own stores change a byte of its memory
that is not in a buffer of a receive in use. -/
theorem writes_confined (setup : ConnSetup) (machine : setup.send.narrow = wrapInt)
    (few : setup.send.perMessage ≤ maxQps) (devs : setup.send.ndevs ≤ setup.send.nqps)
    {x after : Exchange} (reached : (exchanging setup.toEnds).Reaches
      (fun _ => SendsFit setup.send) x) {event : MachineEvent}
    (stepped : (exchanging setup.toEnds).step x event = some after) {addr : Int}
    (changed : after.state.receiver addr ≠ x.state.receiver addr) :
    (∃ byte, event = .receiverStores addr byte) ∨
      ∃ span ∈ x.state.conn.recvBuffers, span.Holds addr := by
  have known := exchanging_known machine few devs reached
  obtain ⟨machines, within, rfl⟩ := Option.map_eq_some_iff.mp stepped
  have inBuffer {copies : List (Int × Int)}
      (left : ∀ copy ∈ copies, ∃ q, ∃ posting ∈ x.state.conn.leftOn q, copy ∈ posting.copies)
      (changed : (x.state.place copies).receiver addr ≠ x.state.receiver addr) :
      ∃ span ∈ x.state.conn.recvBuffers, span.Holds addr := by
    by_contra outside
    refine changed (copyAll_of_notMem fun copy member isAddr => outside ?_)
    obtain ⟨q, posting, isLeft, isCopy⟩ := left copy member
    obtain ⟨image, isImage, group, ofImage⟩ := known.lands isLeft isCopy
    obtain ⟨recv, isRecv, _⟩ := known.isRecv isImage
    obtain ⟨k, below, rfl⟩ := (SourceImage.mem_copies isRecv).mp ofImage
    refine ⟨recv.span, ?_, isAddr ▸ SourceImage.inside isRecv below⟩
    exact Connection.mem_recvBuffers (group ▸ known.live isLeft) (List.mem_of_getElem? isRecv)
  cases event with
  | conn event =>
    obtain ⟨conn, moved, rfl⟩ := Option.map_eq_some_iff.mp within
    exact .inr (inBuffer (fun _ => Connection.arriving_left) changed)
  | places q position bytes =>
    obtain ⟨posting, placed, rfl⟩ := Option.map_eq_some_iff.mp within
    refine .inr (inBuffer (fun copy placing => ?_) changed)
    obtain ⟨k, _, isK⟩ := List.mem_filterMap.mp placing
    exact ⟨q, posting, List.mem_of_getElem? placed, List.mem_of_getElem? isK⟩
  | senderStores addr' byte =>
    obtain rfl := Option.some.inj within
    exact absurd rfl changed
  | receiverStores addr' byte =>
    obtain rfl := Option.some.inj within
    by_cases here : addr = addr'
    · exact .inl ⟨byte, by rw [here]⟩
    · exact absurd (Function.update_of_ne here _ _) changed

instance (c : Connection) (event : ConnEvent) : Decidable (c.Acknowledged event) :=
  match event with
  | .sendComplete position =>
    inferInstanceAs (Decidable (∀ posting ∈ c.send.ep.posted[position]?, _))
  | .isend .. | .sendTest _ | .irecv _ | .iflush _ | .recvComplete _ | .recvTest _ | .landCts _
  | .deliver _ => inferInstanceAs (Decidable True)

instance (c : Connection) (event : ConnEvent) : Decidable (c.FreshBuffers event) :=
  match event with
  | .irecv recvs => inferInstanceAs (Decidable (recvs.Pairwise _ ∧ ∀ recv ∈ recvs, _))
  | .isend .. | .sendComplete _ | .sendTest _ | .iflush _ | .recvComplete _ | .recvTest _
  | .landCts _ | .deliver _ => inferInstanceAs (Decidable True)

instance (setup : SendSetup) (m : Machines) (event : MachineEvent) :
    Decidable (Disciplined setup m event) :=
  match event with
  | .conn _ => inferInstanceAs (Decidable (_ ∧ _ ∧ _))
  | .places .. => inferInstanceAs (Decidable True)
  | .senderStores _ _ => inferInstanceAs (Decidable (∀ span ∈ m.conn.sendBuffers, _))
  | .receiverStores _ _ => inferInstanceAs (Decidable (∀ span ∈ m.conn.recvBuffers, _))

/-- A group of two sends is under way, and some of its bytes are placed, one of them twice. -/
def groupUnderWay.events : List MachineEvent :=
  [.conn (.irecv [{ RecvArg.buffer 3 with size := 200 },
      { RecvArg.buffer 4 with data := 8192, size := 200 }]),
    .conn (.landCts 1), .conn (.landCts 0), .senderStores 65536 7,
    .conn (.isend 65536 250 4 (fun _ => 9)), .senderStores 65740 8,
    .conn (.isend 70000 180 3 (fun _ => 9)), .places 1 0 [3, 70, 3]]

def groupUnderWay : Exchange :=
  ((exchanging ConnSetup.twoDevices.toEnds).replay
    ⟨⟨.initial, fun addr => UInt8.ofNat addr.toNat, fun _ => 0⟩, []⟩ groupUnderWay.events).get
      (by decide +kernel)

theorem groupUnderWay_reached : (exchanging ConnSetup.twoDevices.toEnds).Reaches
    (fun x => Disciplined ConnSetup.twoDevices.send x.state) groupUnderWay :=
  have start : (exchanging ConnSetup.twoDevices.toEnds).Reaches
      (fun x => Disciplined ConnSetup.twoDevices.send x.state)
      ⟨⟨.initial, fun addr => UInt8.ofNat addr.toNat, fun _ => 0⟩, []⟩ :=
    .start ⟨Connection.initial_fresh, rfl⟩
  start.replay groupUnderWay.events (by decide +kernel) (Option.some_get _).symm

/-- Its messages arrive, and what the programs do meanwhile. -/
def groupPlaced.events : List MachineEvent :=
  [.conn (.deliver 1), .receiverStores 4300 1, .conn (.deliver 0), .conn (.sendComplete 0),
    .conn (.recvComplete 0)]

def groupPlaced : Exchange :=
  ((exchanging ConnSetup.twoDevices.toEnds).replay groupUnderWay groupPlaced.events).get
    (by decide +kernel)

theorem groupPlaced_reached : (exchanging ConnSetup.twoDevices.toEnds).Reaches
    (fun x => Disciplined ConnSetup.twoDevices.send x.state) groupPlaced :=
  groupUnderWay_reached.replay groupPlaced.events (by decide +kernel) (Option.some_get _).symm

theorem buffers_filled_groupPlaced : groupPlaced.state.receiver 8192 = 7 ∧
    ∃ call, groupPlaced.state.conn.callOf 0 = some call ∧ groupPlaced.Holds call := by
  have known : Known .twoDevices groupPlaced.state.conn groupPlaced.notes :=
    exchanging_known rfl (by decide) (by decide)
      (groupPlaced_reached.weaken fun _ _ => Disciplined.sendsFit)
  obtain ⟨done, _, _, _, _, tested, _, _, quiet⟩ := known.linked.recvOk.accounted.test true 0
  obtain rfl : done = true := quiet.mpr ⟨by decide +kernel, fun _ => rfl⟩
  exact ⟨by decide +kernel, buffers_filled .twoDevices rfl (by decide) (by decide)
    groupPlaced_reached (by decide +kernel) tested⟩

theorem writes_confined_groupUnderWay :
    ((exchanging ConnSetup.twoDevices.toEnds).step groupUnderWay (.conn (.deliver 1))).any
      (fun after => after.state.receiver 4224 = 240) = true ∧
    ((∃ byte, MachineEvent.conn (.deliver 1) = .receiverStores 4224 byte) ∨
      ∃ span ∈ groupUnderWay.state.conn.recvBuffers, span.Holds 4224) := by
  have placed : ((exchanging ConnSetup.twoDevices.toEnds).step groupUnderWay
      (.conn (.deliver 1))).any (fun after => after.state.receiver 4224 = 240) = true := by
    decide +kernel
  obtain ⟨after, stepped, isByte⟩ := Option.any_eq_true _ _ |>.mp placed
  have before : groupUnderWay.state.receiver 4224 = 0 := by decide +kernel
  refine ⟨placed, writes_confined .twoDevices rfl (by decide) (by decide)
    (groupUnderWay_reached.weaken fun _ _ => Disciplined.sendsFit) stepped ?_⟩
  rw [of_decide_eq_true isByte, before]
  decide

end NcclExts.Unet
