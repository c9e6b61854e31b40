import NcclExts.Unet.Lockstep

/-!
# Which send answers which receive

Every send that gets a request is matched to one receive of the call the sender is at. The
last match of a call posts its message, whose chains write to the addresses and with the
keys that the call announced. The matches and the messages of a connection are kept here
next to the announcements, and a run relates the three.
-/

namespace NcclExts.Unet

open NcclExts.Foundation NcclExts.Ucommd

/-- The receive that a match answers: the call, and its position there. -/
def Match.place (m : Match) : Nat × Nat := (m.call, m.r)

/-- The size of a matched send, clipped to the receive. -/
def Match.clipped (calls : Calls) (m : Match) : Int32 :=
  clip m.size ((calls m.call).getD m.r .zero)

/-- What a posting of the message of a call carries, the one at a position among the
postings of the message: the receives of the call with the sizes of their matches. -/
structure Carries (setup : SendSetup) (calls : Calls) (matched : List Match) (position : Nat)
    (posting : Posting) : Prop where
  members : posting.members = (calls posting.group).length
  nonempty : 0 < posting.members
  closes : ∃ front last message, posting.chain = front ++ [last] ∧
    (∀ wr ∈ front, ∃ addr, wr.remoteAddr = .user addr ∧ wr.opcode = .rdmaWrite) ∧
    message.slot = posting.group % maxRequests ∧ Closes message posting.members last
  writes : ∀ r recv, (calls posting.group)[r]? = some recv →
    ∃ q wr m, posting.qp = .data q ∧ posting.chain[r]? = some wr ∧ m ∈ matched ∧
      m.place = (posting.group, r) ∧ wr.rkey = recv.rkeys (setup.qps q).remDevIdx ∧
      wr.remoteAddr = .user (recv.addr +
        position * chunkSize setup.narrow (m.clipped calls).toInt setup.perMessage)
  immediate : ∀ m ∈ matched, m.place = (posting.group, 0) →
    posting.immData = if posting.members = 1 then (m.clipped calls).toUInt32 else 0

/-- The sends matched so far answer announced receives, each at most one and the receives of
earlier calls all one, and the messages carry what was announced. -/
structure Answered (setup : SendSetup) (c : Connection) : Prop where
  real : ∀ m ∈ c.matched, ∃ recv, (c.calls m.call)[m.r]? = some recv ∧
    recv.tag = m.tag.toUInt32
  distinct : (c.matched.map Match.place).Nodup
  upTo : ∀ m ∈ c.matched, m.call ≤ c.send.fifoHead
  whole : ∀ call r, call < c.send.fifoHead → r < (c.calls call).length →
    ∃ m ∈ c.matched, m.place = (call, r)
  waiting : ∀ r i, c.send.fifoReqs (c.send.fifoHead % maxRequests) r = some i →
    ∃ m ∈ c.matched, m.place = (c.send.fifoHead, r) ∧
      (c.send.ep.reqs i).size = m.clipped c.calls
  taken : ∀ m ∈ c.matched, m.call = c.send.fifoHead →
    c.send.fifoReqs (c.send.fifoHead % maxRequests) m.r ≠ none
  counted : c.send.ep.log.length = setup.perMessage * c.send.fifoHead
  grouped : ∀ posting ∈ c.send.ep.log, posting.group < c.send.fifoHead
  answers : ∀ p posting, c.send.ep.log[p]? = some posting →
    posting.group = p / setup.perMessage ∧
      Carries setup c.calls c.matched (p % setup.perMessage) posting

theorem Match.clipped_extend {calls more : Calls} (extended : Extends calls more) {m : Match}
    {recv : NcclIbSendFifo} (isRecv : (calls m.call)[m.r]? = some recv) :
    m.clipped more = m.clipped calls := by
  rw [Match.clipped, Match.clipped, List.getD_eq_getElem?_getD, List.getD_eq_getElem?_getD,
    extended.getElem? isRecv, isRecv]

/-- Further calls and further matches leave a posting answering. -/
theorem Carries.extend {setup : SendSetup} {calls more : Calls} {matched newer : List Match}
    {position : Nat} {posting : Posting} (carries : Carries setup calls matched position posting)
    (extended : Extends calls more)
    (real : ∀ m ∈ matched, ∃ recv, (calls m.call)[m.r]? = some recv ∧ recv.tag = m.tag.toUInt32)
    (other : ∀ m ∈ newer, m.call ≠ posting.group) :
    Carries setup more (matched ++ newer) position posting := by
  have here : more posting.group = calls posting.group := by
    apply extended
    intro none
    have members := carries.members
    have nonempty := carries.nonempty
    rw [none, List.length_nil] at members
    omega
  refine ⟨by rw [here]; exact carries.members, carries.nonempty, carries.closes,
    ?_, ?_⟩
  · intro r recv isRecv
    rw [here] at isRecv
    obtain ⟨q, wr, m, onQp, inChain, member, place, rkey, remote⟩ :=
      carries.writes r recv isRecv
    obtain ⟨own, isOwn, _⟩ := real m member
    refine ⟨q, wr, m, onQp, inChain, List.mem_append_left _ member, place, rkey, ?_⟩
    rw [Match.clipped_extend extended isOwn]
    exact remote
  · intro m member place
    rcases List.mem_append.mp member with old | new
    · obtain ⟨own, isOwn, _⟩ := real m old
      rw [Match.clipped_extend extended isOwn]
      exact carries.immediate m old place
    · exact absurd (congrArg Prod.fst place) (other m new)

/-! ## Every step -/

/-- What the matches read of the sender. -/
structure SameMatches (c after : Connection) : Prop where
  extended : Extends c.calls after.calls
  older : ∀ call, call < c.send.fifoHead → after.calls call = c.calls call
  matched : after.matched = c.matched
  fifoHead : after.send.fifoHead = c.send.fifoHead
  fifoReqs : after.send.fifoReqs = c.send.fifoReqs
  sizes : ∀ i, (after.send.ep.reqs i).size = (c.send.ep.reqs i).size
  log : after.send.ep.log = c.send.ep.log

theorem Extends.refl (calls : Calls) : Extends calls calls := fun _ _ => rfl

section

variable {setup : SendSetup} {c : Connection}

/-- Two matches of one receive are the same. -/
theorem Answered.unique (answered : Answered setup c) {m m' : Match} (member : m ∈ c.matched)
    (member' : m' ∈ c.matched) (same : m.place = m'.place) : m = m' :=
  List.inj_on_of_nodup_map answered.distinct member member' same

theorem Answered.fresh (fresh : c.Fresh) : Answered setup c := by
  obtain ⟨send, _, _, _, _, matched⟩ := fresh
  obtain ⟨base, _, fifoReqs, head, _⟩ := send
  obtain ⟨_, _, _, _, _, _, log, _⟩ := base
  constructor <;> simp [matched, head, fifoReqs, log]

theorem Answered.congr (answered : Answered setup c) {after : Connection}
    (same : SameMatches c after) : Answered setup after := by
  refine ⟨?_, ?_, ?_, ?_, ?_, ?_, ?_, ?_, ?_⟩
  · intro m member
    rw [same.matched] at member
    obtain ⟨recv, isRecv, tagged⟩ := answered.real m member
    exact ⟨recv, same.extended.getElem? isRecv, tagged⟩
  · rw [same.matched]
    exact answered.distinct
  · intro m member
    rw [same.matched] at member
    rw [same.fifoHead]
    exact answered.upTo m member
  · intro call r earlier below
    rw [same.fifoHead] at earlier
    rw [same.older call earlier] at below
    rw [same.matched]
    exact answered.whole call r earlier below
  · intro r i isMatched
    rw [same.fifoHead, same.fifoReqs] at isMatched
    obtain ⟨m, member, place, size⟩ := answered.waiting r i isMatched
    obtain ⟨recv, isRecv, _⟩ := answered.real m member
    rw [same.matched, same.fifoHead, same.sizes]
    exact ⟨m, member, place, size.trans (Match.clipped_extend same.extended isRecv).symm⟩
  · intro m member here
    rw [same.matched] at member
    rw [same.fifoHead] at here ⊢
    rw [same.fifoReqs]
    exact answered.taken m member here
  · rw [same.log, same.fifoHead]
    exact answered.counted
  · rw [same.log, same.fifoHead]
    exact answered.grouped
  · intro p posting placed
    rw [same.log] at placed
    rw [same.matched, ← List.append_nil c.matched]
    obtain ⟨group, carries⟩ := answered.answers p posting placed
    exact ⟨group, carries.extend same.extended answered.real (by simp)⟩

/-- A hit matches its send to the receive it took. -/
theorem Answered.hit (answered : Answered setup c) (ok : SendOk setup c.calls c.send)
    {tag : Int32} {r : Nat} {i : ReqId} {recv : NcclIbSendFifo}
    (hit : Hit c.calls c.send tag r i recv) (data : Int) (size : Int32) (lkeys : Dev → UInt32) :
    Answered setup { c with
      send := c.send.hit setup c.calls data size lkeys r i recv
      matched := c.matched ++ [⟨c.send.fifoHead, r, tag, size⟩] } := by
  have rows := place_fifoReqs setup
    (c.send.withIbStat (c.send.ep.countIb unetIbFifoRecvCount).ibStat)
    (c.calls c.send.fifoHead).length r i lkeys (clip size recv) data
    (c.send.fifoHead % maxRequests)
  have here : (⟨c.send.fifoHead, r, tag, size⟩ : Match).clipped c.calls = clip size recv := by
    rw [Match.clipped, List.getD_eq_getElem?_getD, hit.isRecv]
    rfl
  refine ⟨?_, ?_, ?_, ?_, ?_, ?_, answered.counted, answered.grouped, ?_⟩
  · intro m member
    rcases List.mem_append.mp member with old | new
    · exact answered.real m old
    · rw [List.mem_singleton.mp new]
      exact ⟨recv, hit.isRecv, hit.tagged⟩
  · rw [List.map_append, List.map_singleton, List.nodup_append]
    refine ⟨answered.distinct, List.nodup_singleton _, ?_⟩
    rintro place member _ new rfl
    obtain ⟨m, old, isPlace⟩ := List.mem_map.mp member
    obtain ⟨call, isR⟩ := Prod.mk.inj (isPlace.trans (List.mem_singleton.mp new))
    refine answered.taken m old call ?_
    rw [isR]
    exact hit.free
  · intro m member
    rcases List.mem_append.mp member with old | new
    · exact answered.upTo m old
    · rw [List.mem_singleton.mp new]
      exact Nat.le_refl _
  · intro call r' earlier below
    obtain ⟨m, old, place⟩ := answered.whole call r' earlier below
    exact ⟨m, List.mem_append_left _ old, place⟩
  · intro r' j isMatched
    have isMatched := (rows r').symm.trans isMatched
    by_cases new : r' = r
    · subst new
      rw [if_pos ⟨rfl, rfl⟩] at isMatched
      obtain rfl := Option.some.inj isMatched
      refine ⟨⟨c.send.fifoHead, r', tag, size⟩,
        List.mem_append_right _ (List.mem_singleton_self _), rfl, ?_⟩
      have self := place_req_self setup
        (c.send.withIbStat (c.send.ep.countIb unetIbFifoRecvCount).ibStat)
        (c.calls c.send.fifoHead).length r' i lkeys (clip size recv) data
      refine (congrArg NcclIbRequest.size self).trans ?_
      exact (sendRequest_spec setup lkeys _ _ (clip size recv) data _).2.2.1.trans here.symm
    · rw [if_neg fun both => new both.2] at isMatched
      obtain ⟨m, old, place, sized⟩ := answered.waiting r' j isMatched
      refine ⟨m, List.mem_append_left _ old, place, ?_⟩
      have other := place_req_other setup
        (c.send.withIbStat (c.send.ep.countIb unetIbFifoRecvCount).ibStat)
        (c.calls c.send.fifoHead).length r lkeys (clip size recv) data
        (ok.matched_other hit.unused isMatched)
      exact (congrArg NcclIbRequest.size other).trans sized
  · intro m member call
    rcases List.mem_append.mp member with old | new
    · have before := answered.taken m old call
      intro none
      have none := (rows m.r).symm.trans none
      split at none
      · simp at none
      · exact before none
    · rw [List.mem_singleton.mp new]
      intro none
      have none := (rows r).symm.trans none
      rw [if_pos ⟨rfl, rfl⟩] at none
      exact absurd none (Option.some_ne_none i)
  · intro p posting placed
    obtain ⟨group, carries⟩ := answered.answers p posting placed
    refine ⟨group, carries.extend (Extends.refl _) answered.real ?_⟩
    intro m new
    rw [List.mem_singleton.mp new]
    exact Nat.ne_of_gt (answered.grouped posting (List.mem_of_getElem? placed))

/-- The postings of a message, as many as queue pairs carry it. -/
theorem Sent.length {comm after : SendComm} {reqs : List ReqId} {first : ReqId}
    {postings : List Posting} (sent : Sent setup comm reqs first after postings) :
    postings.length = setup.perMessage := by
  have lengths := congrArg List.length sent.routes
  simpa using lengths

/-- The immediate of a posting is that of its message. -/
theorem Sent.immData {comm after : SendComm} {reqs : List ReqId} {first : ReqId}
    {postings : List Posting} (sent : Sent setup comm reqs first after postings)
    {posting : Posting} (member : posting ∈ postings) :
    posting.immData =
      if reqs.length = 1 then (comm.ep.reqs first).size.toUInt32 else 0 := by
  obtain ⟨front, last, whole, _, closes⟩ := sent.closes posting member
  rw [Posting.immData, Posting.closing, whole, List.getLast?_concat, Option.map_some,
    Option.getD_some, closes.immData]
  rfl

/-- Posting a message answers its call. -/
theorem Answered.post (answered : Answered setup c) (ok : SendOk setup c.calls c.send)
    {reqs : List ReqId} {first : ReqId} (full : Full c.calls c.send reqs first)
    (lands : ∀ r, r < (c.calls c.send.fifoHead).length →
      (c.calls c.send.fifoHead)[r]? = some (c.send.fifo (c.send.fifoHead % maxRequests) r)) :
    Answered setup { c with send := c.send.post setup reqs first } := by
  obtain ⟨postings, sent⟩ := SendComm.post_sent ok.inside full.isFirst
  have found {r : Nat} {req : ReqId} (placed : reqs[r]? = some req) :=
    answered.waiting r req (full.taken placed)
  have emptied := full.emptied ok
  refine ⟨answered.real, answered.distinct, ?_, ?_, ?_, ?_, ?_, ?_, ?_⟩
  · intro m member
    have before := answered.upTo m member
    rw [sent.fifoHead]
    exact Nat.le_succ_of_le before
  · intro call r earlier below
    rw [sent.fifoHead] at earlier
    rcases Nat.lt_or_eq_of_le (Nat.le_of_lt_succ earlier) with older | rfl
    · exact answered.whole call r older below
    · have inside : r < reqs.length := full.length ▸ below
      obtain ⟨m, member, place, _⟩ := found (List.getElem?_eq_getElem inside)
      exact ⟨m, member, place⟩
  · intro r i isMatched
    exact absurd isMatched (by rw [emptied]; simp)
  · intro m member call
    have before := answered.upTo m member
    have after : m.call = c.send.fifoHead + 1 := call.trans sent.fifoHead
    omega
  · rw [sent.log, sent.fifoHead, List.length_append, answered.counted, sent.length, Nat.mul_succ]
  · intro posting member
    rw [sent.log] at member
    rw [sent.fifoHead]
    rcases List.mem_append.mp member with old | new
    · exact Nat.lt_succ_of_lt (answered.grouped posting old)
    · rw [(sent.member new).2.2.2]
      exact Nat.lt_succ_self _
  · intro p posting placed
    change posting.group = p / setup.perMessage ∧
      Carries setup c.calls c.matched (p % setup.perMessage) posting
    rw [sent.log] at placed
    rcases Nat.lt_or_ge p c.send.ep.log.length with old | new
    · rw [List.getElem?_append_left old] at placed
      exact answered.answers p posting placed
    · rw [List.getElem?_append_right new] at placed
      have member := List.mem_of_getElem? placed
      obtain ⟨_, members, _, group⟩ := sent.member member
      obtain ⟨round, position⟩ : p / setup.perMessage = c.send.fifoHead ∧
          p % setup.perMessage = p - c.send.ep.log.length := by
        obtain ⟨inside, _⟩ := List.getElem?_eq_some_iff.mp placed
        rw [sent.length] at inside
        obtain ⟨more, rfl⟩ := Nat.exists_eq_add_of_le new
        rw [Nat.add_sub_cancel_left] at inside ⊢
        rw [answered.counted, Nat.mul_add_mod, Nat.mod_eq_of_lt inside,
          Nat.mul_add_div setup.perMessage_positive, Nat.div_eq_of_lt inside]
        exact ⟨rfl, rfl⟩
      refine ⟨group.trans round.symm, ?_⟩
      refine ⟨by rw [members, group, full.length], by rw [members]; exact full.some, ?_, ?_, ?_⟩
      · obtain ⟨front, last, whole, plain, ends⟩ := sent.closes posting member
        exact ⟨front, last, _, whole, plain, by rw [group]; rfl, members ▸ ends⟩
      · intro r recv isRecv
        rw [group] at isRecv ⊢
        obtain ⟨below, _⟩ := List.getElem?_eq_some_iff.mp isRecv
        have landed := lands r below
        rw [isRecv] at landed
        have inside : r < reqs.length := full.length ▸ below
        have isReq := List.getElem?_eq_getElem inside
        obtain ⟨m, matched, place, sized⟩ := found isReq
        obtain ⟨q, wr, onQp, inChain, remote, rkey⟩ := sent.writes _ posting placed r _ isReq
        rw [← Option.some.inj landed] at remote rkey
        rw [sized, ← position] at remote
        exact ⟨q, wr, m, onQp, inChain, matched, place, rkey, remote⟩
      · intro m matched place
        obtain ⟨m', matched', place', sized⟩ := found full.isFirst
        rw [group] at place
        obtain rfl := answered.unique matched matched' (place.trans place'.symm)
        rw [sent.immData member, members, sized]

end

section

variable {setup : ConnSetup} {c : Connection}

/-- The match that a send with a hit makes. -/
theorem matchOf_hit (ok : SendOk setup.send c.calls c.send)
    (announced : ∀ call, Announced call (c.calls call)) {tag : Int32} {r : Nat} {i : ReqId}
    {recv : NcclIbSendFifo} (hit : Hit c.calls c.send tag r i recv) (size : Int32) :
    c.matchOf size tag (some i) = [⟨c.send.fifoHead, r, tag, size⟩] := by
  have nreqs := (ok.arrived announced hit.stamp).2
  simp only [Connection.matchOf, nreqs, hit.found]

/-- One step keeps the matches answering. -/
theorem Answered.step (answered : Answered setup.send c) (linked : Linked setup.toEnds c)
    (scheduled : Scheduled setup c) {event : ConnEvent} {after : Connection}
    (stepped : ConnStep setup.toEnds c event after) : Answered setup.send after := by
  have same : Extends c.calls c.calls := Extends.refl _
  cases stepped with
  | sent effect =>
    cases effect with
    | nothing =>
      exact answered.congr ⟨same, fun _ _ => rfl, List.append_nil _, rfl, rfl, fun _ => rfl, rfl⟩
    | matched hit missing =>
      rw [matchOf_hit linked.sendOk linked.announced hit]
      exact answered.hit linked.sendOk hit _ _ _
    | posted hit full =>
      rw [matchOf_hit linked.sendOk linked.announced hit]
      exact (answered.hit linked.sendOk hit _ _ _).post
        (linked.sendOk.hit linked.announced hit _ _ _) full hit.lands
  | sendCompleted completed =>
    obtain ⟨_, _, rfl⟩ := Option.map_eq_some_iff.mp completed
    exact answered.congr ⟨same, fun _ _ => rfl, rfl, rfl, rfl, fun _ => rfl, rfl⟩
  | sendWaits settles _ =>
    have kept := settles.kept linked.sendOk.accounted
    refine answered.congr ⟨same, fun _ _ => rfl, rfl, rfl, rfl, fun i => ?_, kept.log⟩
    rw [kept.reqs i]
  | @sendDone i settled settles _ _ _ =>
    have kept := settles.kept linked.sendOk.accounted
    refine answered.congr ⟨same, fun _ _ => rfl, rfl, rfl, rfl, fun j => ?_, kept.log⟩
    have size : (settled.reqs j).size = (c.send.ep.reqs j).size := by rw [kept.reqs j]
    by_cases freed : j = i
    · subst freed
      simpa [Endpoint.ncclIbFreeRequest, Endpoint.setReq] using size
    · simpa [Endpoint.ncclIbFreeRequest, Endpoint.setReq, freed] using size
  | refused => exact answered
  | @received recvs i recv _ _ _ _ =>
    refine answered.congr ⟨receive_extends c recv _, fun call earlier => ?_, rfl, rfl, rfl,
      fun _ => rfl, rfl⟩
    exact receive_calls_other recv _ (Nat.ne_of_lt (Nat.lt_of_lt_of_le earlier scheduled.head))
  | flushed => exact answered.congr ⟨same, fun _ _ => rfl, rfl, rfl, rfl, fun _ => rfl, rfl⟩
  | recvCompleted => exact answered.congr ⟨same, fun _ _ => rfl, rfl, rfl, rfl, fun _ => rfl, rfl⟩
  | recvWaits => exact answered.congr ⟨same, fun _ _ => rfl, rfl, rfl, rfl, fun _ => rfl, rfl⟩
  | recvDone => exact answered.congr ⟨same, fun _ _ => rfl, rfl, rfl, rfl, fun _ => rfl, rfl⟩
  | landed => exact answered.congr ⟨same, fun _ _ => rfl, rfl, rfl, rfl, fun _ => rfl, rfl⟩
  | delivered => exact answered.congr ⟨same, fun _ _ => rfl, rfl, rfl, rfl, fun _ => rfl, rfl⟩

/-- Every run keeps the matches answering. -/
theorem connection_answered {permitted : Connection → ConnEvent → Prop}
    (reached : (connection setup.toEnds).Reaches permitted c) : Answered setup.send c := by
  induction reached with
  | start first => exact Answered.fresh first
  | next before _ stepped ih =>
    have linked := connection_linked before
    exact ih.step linked (connection_scheduled before) (linked.connStep stepped)

end

end NcclExts.Unet
