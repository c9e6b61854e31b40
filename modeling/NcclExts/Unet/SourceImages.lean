import NcclExts.Foundation.Recording
import NcclExts.Unet.CallRequests
import NcclExts.Unet.Delivery

/-!
# What the requests of a sender keep

A request of the sender is in use until nothing names it any more. Where a posting completes
only after its message has arrived, the messages that have not arrived name requests in use,
and these have the buffers that the matched sends were called with. A buffer that nobody
changes while its request is in use therefore holds what it held at the send, until the
last message with a part of it has arrived.
-/

namespace NcclExts.Unet

open NcclExts.Foundation NcclExts.Ucommd

/-- A matched send, the buffer it was called with, and the memory of the sender then. -/
structure SourceImage where
  made : Match
  data : Int
  image : Int → UInt8

def SourceImage.source (image : SourceImage) : Match × Int := (image.made, image.data)

namespace Connection

/-- The messages that have arrived on a queue pair. -/
def arrivedOn (c : Connection) : QpRef → List Posting
  | .data q => (c.writesOn q).take (c.delivered q)
  | .gpuFlush _ => []

/-- A reliable queue pair: what the sender has posted completes after it has arrived. -/
def Acknowledged (c : Connection) : ConnEvent → Prop
  | .sendComplete position =>
    ∀ posting ∈ c.send.ep.posted[position]?, posting ∈ c.arrivedOn posting.qp
  | _ => True

/-- The sends that a step matches, with what they find in the memory of the sender. -/
def newImages (c : Connection) (sender : Int → UInt8) (event : ConnEvent) (after : Connection) :
    List SourceImage :=
  (newSources c event after).map fun source => ⟨source.1, source.2, sender⟩

/-- The request that the bytes of a matched send come from, while some are to be sent. -/
def Serves (c : Connection) (place : Nat × Nat) (i : ReqId) : Prop :=
  place.1 = c.send.fifoHead ∧
      c.send.fifoReqs (c.send.fifoHead % maxRequests) place.2 = some i ∨
    ∃ posting ∈ c.send.ep.posted, posting.group = place.1 ∧ posting.names[place.2]? = some i

end Connection

/-- The buffer of a request holds what the memory held at the send. -/
structure Preserved (c : Connection) (sender : Int → UInt8) (image : SourceImage) (i : ReqId) :
    Prop where
  data : (c.send.ep.reqs i).data = image.data
  size : (c.send.ep.reqs i).size = image.made.clipped c.calls
  bytes : ∀ k : Nat, k < (image.made.clipped c.calls).toInt.toNat →
    sender (image.data + k) = image.image (image.data + k)

/-- Messages that have not arrived have not completed, and the requests that they and the
sends to come have their bytes from hold what they held. -/
structure Imaged (c : Connection) (sender : Int → UInt8) (images : List SourceImage) : Prop where
  logged : ∀ posting ∈ c.send.ep.posted, posting ∈ c.send.ep.log
  unarrived : ∀ q, ∀ posting ∈ (c.writesOn q).drop (c.delivered q), posting ∈ c.send.ep.posted
  held : ∀ image ∈ images, ∀ i, c.Serves image.made.place i → Preserved c sender image i

section

variable {setup : ConnSetup} {c : Connection} {sender : Int → UInt8} {images : List SourceImage}

/-! ## What is under way -/

/-- Messages on one queue pair are of different calls. -/
theorem Scheduled.writesOn_nodup (scheduled : Scheduled setup c)
    (few : setup.send.perMessage ≤ setup.send.nqps) (q : Nat) : (c.writesOn q).Nodup := by
  apply List.Nodup.of_map Posting.group
  rw [scheduled.writesOn_groups]
  exact roundsOn_nodup setup.send.someQp few _ q

/-- What has arrived is not among what has not. -/
theorem Scheduled.arrived_ne (scheduled : Scheduled setup c)
    (few : setup.send.perMessage ≤ setup.send.nqps) {q : Nat} {posting other : Posting}
    (arrived : posting ∈ c.arrivedOn posting.qp)
    (left : other ∈ (c.writesOn q).drop (c.delivered q)) : other ≠ posting := by
  rintro rfl
  have onQp : other.qp = .data q := by
    have kept := (List.mem_filter.mp (List.mem_of_mem_drop left)).2
    simpa [Posting.OnQp] using kept
  rw [onQp] at arrived
  have distinct := scheduled.writesOn_nodup few q
  rw [← List.take_append_drop (c.delivered q) (c.writesOn q), List.nodup_append] at distinct
  exact distinct.2.2 other arrived other left rfl

/-- A request that bytes are to come from is in use. -/
theorem Linked.serves_inUse (linked : Linked setup.toEnds c) {place : Nat × Nat} {i : ReqId}
    (serves : c.Serves place i) : (c.send.ep.reqs i).type ≠ .unused := by
  rcases serves with ⟨_, taken⟩ | ⟨posting, posted, _, isNamed⟩
  · rw [(linked.sendOk.matched _ _ _ taken).1]
    decide
  · have named := linked.sendOk.accounted.named posting.dev posting
      (Endpoint.posted_waiting posted)
    rw [named.typed i (List.mem_of_getElem? isNamed)]
    exact posting.kind.reqType_ne_unused

/-- A message that has not completed names a request for each receive of its call. -/
theorem Answered.names_length (answered : Answered setup.send c) {posting : Posting}
    (logged : posting ∈ c.send.ep.log) :
    posting.names.length = (c.calls posting.group).length := by
  obtain ⟨p, placed⟩ := List.getElem?_of_mem logged
  have members := (answered.answers p posting placed).2.members
  rw [Posting.names, List.length_map, List.length_range, members]

/-! ## Every step -/

namespace Imaged

theorem fresh (fresh : c.Fresh) : Imaged c sender [] := by
  obtain ⟨send, _, _, _, _, _⟩ := fresh
  obtain ⟨⟨_, _, _, _, _, posted, log, _⟩, _⟩ := send
  constructor <;> simp [posted, log, Connection.writesOn]

/-- Steps that match and post nothing; postings may have completed. -/
theorem congr (imaged : Imaged c sender images) (answered : Answered setup.send c)
    (recorded : images.map SourceImage.made = c.matched) {after : Connection}
    (extended : Extends c.calls after.calls) (fifoHead : after.send.fifoHead = c.send.fifoHead)
    (fifoReqs : after.send.fifoReqs = c.send.fifoReqs)
    (reqs : ∀ i, (after.send.ep.reqs i).data = (c.send.ep.reqs i).data ∧
      (after.send.ep.reqs i).size = (c.send.ep.reqs i).size)
    (posted : ∀ posting ∈ after.send.ep.posted, posting ∈ c.send.ep.posted)
    (log : after.send.ep.log = c.send.ep.log)
    (unarrived : ∀ q, ∀ posting ∈ (after.writesOn q).drop (after.delivered q),
      posting ∈ after.send.ep.posted) : Imaged after sender images := by
  refine ⟨fun posting member => ?_, unarrived, fun image member i serves => ?_⟩
  · rw [log]
    exact imaged.logged posting (posted posting member)
  · have before : c.Serves image.made.place i := by
      rcases serves with waits | ⟨posting, isPosted, names⟩
      · rw [fifoHead, fifoReqs] at waits
        exact .inl waits
      · exact .inr ⟨posting, posted posting isPosted, names⟩
    obtain ⟨recv, isRecv, _⟩ := answered.real image.made
      (recorded ▸ List.mem_map_of_mem member)
    obtain ⟨data, size, bytes⟩ := imaged.held image member i before
    have clipped := Match.clipped_extend extended isRecv
    refine ⟨(reqs i).1.trans data, ?_, ?_⟩
    · rw [clipped, (reqs i).2, size]
    · rw [clipped]
      exact bytes

/-- A send that finds a receive has the memory of now. -/
theorem hit (imaged : Imaged c sender images) (answered : Answered setup.send c)
    (linked : Linked setup.toEnds c) (recorded : images.map SourceImage.made = c.matched)
    {tag : Int32} {r : Nat} {i : ReqId} {recv : NcclIbSendFifo}
    (hit : Hit c.calls c.send tag r i recv) (data : Int) (size : Int32)
    (lkeys : Dev → UInt32) :
    Imaged { c with
        send := c.send.hit setup.send c.calls data size lkeys r i recv
        matched := c.matched ++ [⟨c.send.fifoHead, r, tag, size⟩] } sender
      (images ++ [⟨⟨c.send.fifoHead, r, tag, size⟩, data, sender⟩]) := by
  have rows := place_fifoReqs setup.send
    (c.send.withIbStat (c.send.ep.countIb unetIbFifoRecvCount).ibStat)
    (c.calls c.send.fifoHead).length r i lkeys (clip size recv) data
    (c.send.fifoHead % maxRequests)
  have self := place_req_self setup.send
    (c.send.withIbStat (c.send.ep.countIb unetIbFifoRecvCount).ibStat)
    (c.calls c.send.fifoHead).length r i lkeys (clip size recv) data
  have others {j : ReqId} (other : j ≠ i) := place_req_other setup.send
    (c.send.withIbStat (c.send.ep.countIb unetIbFifoRecvCount).ibStat)
    (c.calls c.send.fifoHead).length r lkeys (clip size recv) data other
  obtain ⟨_, _, sized, isData, _⟩ := sendRequest_spec setup.send lkeys
    (c.calls c.send.fifoHead).length c.send.ep.qpIndex (clip size recv) data (c.send.ep.reqs i)
  refine ⟨imaged.logged, imaged.unarrived, fun image member j serves => ?_⟩
  rcases List.mem_append.mp member with old | new
  · have isMatch : image.made ∈ c.matched := recorded ▸ List.mem_map_of_mem old
    have before : c.Serves image.made.place j := by
      rcases serves with ⟨head, taken⟩ | posted
      · have taken := (rows image.made.r).symm.trans taken
        have head : image.made.call = c.send.fifoHead := head
        have elsewhere : image.made.r ≠ r := by
          intro same
          exact answered.taken image.made isMatch head (same ▸ hit.free)
        rw [if_neg fun both => elsewhere both.2] at taken
        exact .inl ⟨head, taken⟩
      · exact .inr posted
    have other : j ≠ i := fun same => linked.serves_inUse before (same ▸ hit.unused)
    obtain ⟨isData', isSize, bytes⟩ := imaged.held image old j before
    exact ⟨(congrArg NcclIbRequest.data (others other)).trans isData',
      (congrArg NcclIbRequest.size (others other)).trans isSize, bytes⟩
  · obtain rfl := List.mem_singleton.mp new
    have isRequest : j = i := by
      rcases serves with ⟨_, taken⟩ | ⟨posting, posted, group, _⟩
      · have taken := (rows r).symm.trans taken
        rw [if_pos ⟨rfl, rfl⟩] at taken
        exact (Option.some.inj taken).symm
      · have grouped := answered.grouped posting (imaged.logged posting posted)
        exact absurd group (Nat.ne_of_lt grouped)
    subst isRequest
    have clipped : Match.clipped c.calls ⟨c.send.fifoHead, r, tag, size⟩ = clip size recv := by
      rw [Match.clipped, List.getD_eq_getElem?_getD, hit.isRecv, Option.getD_some]
    refine ⟨(congrArg NcclIbRequest.data self).trans isData, ?_, fun _ _ => rfl⟩
    exact (congrArg NcclIbRequest.size self).trans (sized.trans clipped.symm)

/-- The message of a call has its bytes from the requests that were matched. -/
theorem post (imaged : Imaged c sender images) (ok : SendOk setup.send c.calls c.send)
    (arrived : ∀ q, c.delivered q ≤ (c.writesOn q).length) {reqs : List ReqId} {first : ReqId}
    (full : Full c.calls c.send reqs first) :
    Imaged { c with send := c.send.post setup.send reqs first } sender images := by
  obtain ⟨postings, sent⟩ := SendComm.post_sent ok.inside full.isFirst
  refine ⟨fun posting member => ?_, fun q posting member => ?_, fun image member i serves => ?_⟩
  · have member : posting ∈ (c.send.post setup.send reqs first).ep.posted := member
    change posting ∈ (c.send.post setup.send reqs first).ep.log
    rw [sent.posted] at member
    rw [sent.log]
    exact List.mem_append.mpr ((List.mem_append.mp member).imp_left (imaged.logged posting))
  · have more : ({ c with send := c.send.post setup.send reqs first } : Connection).writesOn q =
        c.writesOn q ++ postings.filter (Posting.OnQp q) := by
      simp only [Connection.writesOn, sent.log, List.filter_append]
    rw [more, List.drop_append_of_le_length (arrived q)] at member
    change posting ∈ (c.send.post setup.send reqs first).ep.posted
    rw [sent.posted]
    refine List.mem_append.mpr ((List.mem_append.mp member).imp (imaged.unarrived q posting) ?_)
    exact fun new => (List.mem_filter.mp new).1
  · have before : c.Serves image.made.place i := by
      rcases serves with ⟨_, taken⟩ | ⟨posting, posted, group, names⟩
      · have taken : (c.send.post setup.send reqs first).fifoReqs _ _ = some i := taken
        rw [full.emptied ok] at taken
        exact absurd taken (by simp)
      · have posted : posting ∈ (c.send.post setup.send reqs first).ep.posted := posted
        rw [sent.posted] at posted
        rcases List.mem_append.mp posted with old | new
        · exact .inr ⟨posting, old, group, names⟩
        · obtain ⟨_, _, isReqs, isHead⟩ := sent.member new
          rw [isReqs] at names
          exact .inl ⟨group.symm.trans isHead, full.taken names⟩
    obtain ⟨data, size, bytes⟩ := imaged.held image member i before
    have offsets := sent.offsets i
    exact ⟨(congrArg NcclIbRequest.data offsets).trans data,
      (congrArg NcclIbRequest.size offsets).trans size, bytes⟩

/-- One step keeps what the requests hold. -/
theorem step (imaged : Imaged c sender images) (linked : Linked setup.toEnds c)
    (scheduled : Scheduled setup c) (answered : Answered setup.send c)
    (few : setup.send.perMessage ≤ setup.send.nqps)
    (recorded : images.map SourceImage.made = c.matched) {event : ConnEvent} {after : Connection}
    (acknowledged : c.Acknowledged event) (stepped : ConnStep setup.toEnds c event after) :
    Imaged after sender (images ++ c.newImages sender event after) := by
  have still {after : Connection} (extended : Extends c.calls after.calls)
      (fifoHead : after.send.fifoHead = c.send.fifoHead)
      (fifoReqs : after.send.fifoReqs = c.send.fifoReqs)
      (reqs : ∀ i, (after.send.ep.reqs i).data = (c.send.ep.reqs i).data ∧
        (after.send.ep.reqs i).size = (c.send.ep.reqs i).size)
      (posted : after.send.ep.posted = c.send.ep.posted)
      (log : after.send.ep.log = c.send.ep.log)
      (delivered : ∀ q, c.delivered q ≤ after.delivered q) :
      Imaged after sender (images ++ []) := by
    rw [List.append_nil]
    refine imaged.congr answered recorded extended fifoHead fifoReqs reqs
      (fun _ member => posted ▸ member) log fun q posting left => ?_
    rw [posted]
    refine imaged.unarrived q posting ?_
    have same : after.writesOn q = c.writesOn q := by
      rw [Connection.writesOn, Connection.writesOn, log]
    rw [same] at left
    exact (List.drop_sublist_drop_left _ (delivered q)).subset left
  have alike (ep : Endpoint) (i : ReqId) :
      (ep.reqs i).data = (ep.reqs i).data ∧ (ep.reqs i).size = (ep.reqs i).size := ⟨rfl, rfl⟩
  have later (q : Nat) : c.delivered q ≤ c.delivered q := Nat.le_refl _
  cases stepped with
  | @sent data size tag lkeys request send effect =>
    cases effect with
    | @nothing ibStat =>
      have none : c.newImages sender (.isend data size tag lkeys)
          { c with send := c.send.withIbStat ibStat, matched := c.matched ++ [] } = [] := by
        simp [Connection.newImages, newSources]
      rw [show c.matchOf size tag .none = [] from rfl, none]
      exact still (Extends.refl _) rfl rfl (alike _) rfl rfl later
    | @matched r i recv hit missing =>
      rw [matchOf_hit linked.sendOk linked.announced hit]
      simp only [Connection.newImages, newSources, List.drop_left, List.map_singleton]
      exact imaged.hit answered linked recorded hit data size lkeys
    | @posted r i recv hit reqs first full =>
      rw [matchOf_hit linked.sendOk linked.announced hit]
      simp only [Connection.newImages, newSources, List.drop_left, List.map_singleton]
      exact (imaged.hit answered linked recorded hit data size lkeys).post
        (linked.sendOk.hit linked.announced hit data size lkeys) scheduled.arrived full
  | @sendCompleted position ep completed =>
    obtain ⟨posting, placed, rfl⟩ := Option.map_eq_some_iff.mp completed
    change Imaged _ sender (images ++ [])
    rw [List.append_nil]
    refine imaged.congr answered recorded (Extends.refl _) rfl rfl (alike _)
      (fun _ member => List.mem_of_mem_eraseIdx member) rfl fun q other left => ?_
    have other := mem_eraseIdx_of_ne (imaged.unarrived q other left) placed
      (scheduled.arrived_ne few (acknowledged posting placed) left)
    exact other
  | @sendWaits i settled settles _ =>
    have kept := settles.kept linked.sendOk.accounted
    refine still (Extends.refl _) rfl rfl (fun j => ?_) kept.posted kept.log later
    change (settled.reqs j).data = _ ∧ (settled.reqs j).size = _
    rw [kept.reqs j]
    exact ⟨rfl, rfl⟩
  | @sendDone i settled settles _ _ _ =>
    have kept := settles.kept linked.sendOk.accounted
    refine still (Extends.refl _) rfl rfl (fun j => ?_) kept.posted kept.log later
    have same : (settled.reqs j).data = (c.send.ep.reqs j).data ∧
        (settled.reqs j).size = (c.send.ep.reqs j).size := by
      rw [kept.reqs j]
      exact ⟨rfl, rfl⟩
    by_cases freed : j = i
    · subst freed
      simpa [Endpoint.ncclIbFreeRequest, Endpoint.setReq] using same
    · simpa [Endpoint.ncclIbFreeRequest, Endpoint.setReq, freed] using same
  | refused => exact still (Extends.refl _) rfl rfl (alike _) rfl rfl later
  | @received recvs i recv _ _ _ _ =>
    exact still (receive_extends c recv recvs.length) rfl rfl (alike _) rfl rfl later
  | flushed => exact still (Extends.refl _) rfl rfl (alike _) rfl rfl later
  | recvCompleted => exact still (Extends.refl _) rfl rfl (alike _) rfl rfl later
  | recvWaits => exact still (Extends.refl _) rfl rfl (alike _) rfl rfl later
  | recvDone => exact still (Extends.refl _) rfl rfl (alike _) rfl rfl later
  | landed => exact still (Extends.refl _) rfl rfl (alike _) rfl rfl later
  | @delivered q =>
    refine still (Extends.refl _) rfl rfl (alike _) rfl rfl fun q' => ?_
    by_cases here : q' = q
    · subst here
      simp
    · simp [here]

end Imaged

end

end NcclExts.Unet
