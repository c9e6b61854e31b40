import NcclExts.Foundation.Draining
import NcclExts.Unet.CallRequests

/-!
# A connection at rest

What is under way between the two ends gets there without either of them: announcements
land, messages arrive and postings complete. Left alone, a connection comes to rest after
finitely many of these steps, and nothing is stuck then: every receive whose call was
answered tests done, every send does whose message was posted, and a send for a receive of
the next call gets a request.
-/

namespace NcclExts.Unet

open NcclExts.Foundation NcclExts.Ucommd

/-- The steps of the network and of the devices. -/
def ConnEvent.IsTransport : ConnEvent → Prop
  | .landCts _ | .deliver _ | .sendComplete _ | .recvComplete _ => True
  | _ => False

/-- What is under way: announcements, and postings that have not completed. -/
def Connection.underWay (c : Connection) : Nat :=
  c.cts.length + c.send.ep.posted.length + c.recv.ep.posted.length

/-- A test of a request succeeds and says whether it is done. -/
def Endpoint.Tests (ep : Endpoint) (asyncEvents : Bool) (i : ReqId) (done : Bool) : Prop :=
  ∃ sizes after, ep.ncclIbTest asyncEvents i = .returned .ncclSuccess done sizes after

/-- A send for a free receive of the next call gets a request, when there is one and the
receives of the call are correct. -/
def Connection.Accepts (setup : SendSetup) (c : Connection) : Prop :=
  ∀ r recv (tag : Int32), (c.calls c.send.fifoHead)[r]? = some recv → recv.tag = tag.toUInt32 →
    c.send.fifoReqs (c.send.fifoHead % maxRequests) r = none →
    (∀ recv ∈ c.calls c.send.fifoHead, ¬ recv.Incorrect) → setup.ready = true →
    (∃ i, (c.send.ep.reqs i).type = .unused) → ∀ data size lkeys, ∃ i send,
      ncclIbIsend setup c.send data size tag lkeys = .returned .ncclSuccess (some i) send

/-- Nothing is under way but the receives of calls that were not answered yet, and the
requests that are not done are those of these calls. -/
structure AtRest (setup : ConnSetup) (c : Connection) : Prop where
  landed : c.cts = []
  arrived : ∀ q, c.delivered q = (c.writesOn q).length
  completed : c.send.ep.posted = []
  pending : ∀ posting ∈ c.recv.ep.posted, posting.IsRecv = true ∧ c.send.fifoHead ≤ posting.group
  sends : ∀ i, (c.send.ep.reqs i).type ≠ .unused →
    c.send.ep.Tests setup.send.asyncEvents i (decide (¬ c.send.MatchedTo i))
  receives : ∀ i, (c.recv.ep.reqs i).type = .recv → ∃ call, c.callOf i = some call ∧
    c.recv.ep.Tests setup.recv.asyncEvents i (decide (call < c.send.fifoHead))
  flushes : ∀ i, (c.recv.ep.reqs i).type = .flush →
    c.recv.ep.Tests setup.recv.asyncEvents i true
  accepts : c.Accepts setup.send

/-! ## Every step uses something up -/

/-- A completion takes one posting. -/
theorem Endpoint.complete_posted {ep after : Endpoint} {position : Nat} {immData : UInt32}
    (completed : ep.complete position immData = some after) :
    after.posted.length < ep.posted.length := by
  obtain ⟨posting, placed, rfl⟩ := Option.map_eq_some_iff.mp completed
  obtain ⟨inside, _⟩ := List.getElem?_eq_some_iff.mp placed
  change (ep.posted.eraseIdx position).length < _
  rw [List.length_eraseIdx_of_lt inside]
  omega

theorem connection_drains (ends : Ends) :
    (connection ends).Drains ConnEvent.IsTransport Connection.underWay := by
  intro c event after isTransport stepped
  cases event with
  | landCts position =>
    obtain ⟨⟨call, r⟩, flying, rfl⟩ := Option.map_eq_some_iff.mp stepped
    obtain ⟨inside, _⟩ := List.getElem?_eq_some_iff.mp flying
    change (c.cts.eraseIdx position).length + c.send.ep.posted.length +
      c.recv.ep.posted.length < c.underWay
    rw [List.length_eraseIdx_of_lt inside, Connection.underWay]
    omega
  | sendComplete position =>
    obtain ⟨ep, completed, rfl⟩ := Option.map_eq_some_iff.mp stepped
    have less := Endpoint.complete_posted completed
    simp only [Connection.underWay]
    omega
  | recvComplete position =>
    have stepped : c.recvComplete position = some after := stepped
    unfold Connection.recvComplete at stepped
    split at stepped
    next => exact absurd stepped (by simp)
    next =>
      obtain ⟨ep, completed, rfl⟩ := Option.map_eq_some_iff.mp stepped
      have less := Endpoint.complete_posted completed
      simp only [Connection.underWay]
      omega
  | deliver q =>
    obtain ⟨write, _, rest⟩ := Option.bind_eq_some_iff.mp stepped
    obtain ⟨position, _, completes⟩ := Option.bind_eq_some_iff.mp rest
    obtain ⟨ep, completed, rfl⟩ := Option.map_eq_some_iff.mp completes
    have less := Endpoint.complete_posted completed
    rw [foldl_landSizes_rest] at less
    have less : ep.posted.length < c.recv.ep.posted.length := less
    simp only [Connection.underWay]
    omega
  | isend | sendTest | irecv | iflush | recvTest => exact absurd isTransport (fun no => no)

/-! ## When no step is left -/

/-- What a test says under the count. -/
theorem Endpoint.Accounted.tests {owed : ReqId → Dev → Nat} {ep : Endpoint}
    (accounted : ep.Accounted owed) (asyncEvents : Bool) (i : ReqId) {answer : Prop}
    [Decidable answer]
    (quiet : ((∀ posting ∈ ep.posted, i ∉ posting.names) ∧ ∀ dev, owed i dev = 0) ↔ answer) :
    ep.Tests asyncEvents i (decide answer) := by
  obtain ⟨done, sizes, settled, _, _, tested, _, _, isDone⟩ := accounted.test asyncEvents i
  have same : decide answer = done := by
    rw [Bool.eq_iff_iff, decide_eq_true_eq]
    exact (isDone.trans quiet).symm
  exact ⟨sizes, _, same ▸ tested⟩

/-- A posting that the receiver can complete is possible to complete. -/
theorem Endpoint.complete_of_lt {ep : Endpoint} {position : Nat}
    (inside : position < ep.posted.length) (immData : UInt32) :
    ∃ after, ep.complete position immData = some after := by
  rw [Endpoint.complete, List.getElem?_eq_getElem inside]
  exact ⟨_, rfl⟩

section

variable {setup : ConnSetup} {c : Connection}

/-- A message that has not arrived can. -/
theorem Scheduled.can_deliver (scheduled : Scheduled setup c) {q : Nat}
    (left : c.delivered q < (c.writesOn q).length) : ∃ after, c.deliver q = some after := by
  have pending : receivesOn c.recv.ep.posted q ≠ [] := by
    have more := Nat.lt_of_lt_of_le left (scheduled.ahead q)
    rw [scheduled.pending q, ne_eq, List.drop_eq_nil_iff]
    omega
  obtain ⟨receive, member⟩ := List.exists_mem_of_ne_nil _ pending
  obtain ⟨posted, kept⟩ := List.mem_filter.mp member
  obtain ⟨position, oldest⟩ : ∃ position, c.recv.ep.posted.findIdx?
      (fun posting => posting.IsRecv && posting.OnQp q) = some position := by
    refine Option.isSome_iff_exists.mp (List.findIdx?_isSome.trans ?_)
    exact List.any_eq_true.mpr ⟨receive, posted, kept⟩
  obtain ⟨inside, _⟩ := List.findIdx?_eq_some_iff_getElem.mp oldest
  let write := (c.writesOn q)[c.delivered q]
  let landed := write.chain.foldl
    (fun ep wr => Connection.landSizes c.send.elems wr ep) c.recv.ep
  have same : landed.posted = c.recv.ep.posted := by
    simp only [landed]
    rw [foldl_landSizes_rest]
  obtain ⟨ep, completed⟩ := Endpoint.complete_of_lt (same.symm ▸ inside) write.immData
  refine Option.isSome_iff_exists.mp ?_
  rw [Connection.deliver, List.getElem?_eq_getElem left, Option.bind_some, oldest,
    Option.bind_some, Option.isSome_map]
  exact Option.isSome_iff_exists.mpr ⟨ep, completed⟩

/-- Where every message has arrived, the receives that nothing took are of later calls. -/
theorem Scheduled.pending_later (scheduled : Scheduled setup c) (called : Called c)
    (arrived : ∀ q, c.delivered q = (c.writesOn q).length) {posting : Posting}
    (posted : posting ∈ c.recv.ep.posted) (isRecv : posting.IsRecv = true) :
    c.send.fifoHead ≤ posting.group := by
  have logged := List.mem_filter.mpr ⟨called.logged posting posted isRecv, isRecv⟩
  obtain ⟨q, _, onQp⟩ := onQp_of_key
    (scheduled.receives ▸ List.mem_map_of_mem (f := Posting.key) logged) setup.send.someQp
  have member : posting ∈ receivesOn c.recv.ep.posted q :=
    List.mem_filter.mpr ⟨posted, by rw [isRecv, onQp q]; simp⟩
  rw [scheduled.pending q, arrived q] at member
  obtain ⟨later, whole, rounds⟩ := roundsOn_later setup.send.nqps setup.send.perMessage q
    scheduled.head
  have group := List.mem_map_of_mem (f := Posting.group) member
  have length := congrArg List.length (scheduled.writesOn_groups q)
  rw [List.length_map] at length
  rw [List.map_drop, scheduled.receivesOn_groups, whole, length, List.drop_left] at group
  exact rounds _ group

/-! ## A send for the next call -/

/-- What posting when matched returns. -/
theorem postWhenMatched_returned {setup : SendSetup} {comm after : SendComm} {slot nreqs : Nat}
    {i : ReqId} {result : NcclResult} {request : Option ReqId}
    (few : (comm.fifo slot 0).nreqs ≤ maxRecvs)
    (returned : postWhenMatched setup comm slot nreqs i = .returned result request after) :
    result = .ncclSuccess ∧ request = some i := by
  unfold postWhenMatched at returned
  split at returned
  next =>
    injection returned with isResult isRequest
    exact ⟨isResult.symm, isRequest.symm⟩
  next =>
    cases sent : ncclIbMultiSend setup comm slot with
    | none =>
      rw [sent] at returned
      exact absurd returned (by simp)
    | some pair =>
      obtain ⟨posted, next⟩ := pair
      obtain rfl : posted = .ncclSuccess := by
        simp only [ncclIbMultiSend, if_neg (Nat.not_lt.mpr few)] at sent
        obtain ⟨reqs, _, mapped⟩ := Option.bind_eq_some_iff.mp sent
        obtain ⟨first, _, same⟩ := Option.map_eq_some_iff.mp mapped
        exact (Prod.mk.inj same).1.symm
      rw [sent] at returned
      injection returned with isResult isRequest
      exact ⟨isResult.symm, isRequest.symm⟩

/-- When all announcements have landed, a send for the next call gets a request. -/
theorem Linked.accepts (linked : Linked setup.toEnds c) (announcing : Announcing c)
    (landed : c.cts = []) : c.Accepts setup.send := by
  intro r recv tag isRecv tagged free correct ready unused data size lkeys
  have below := (List.getElem?_eq_some_iff.mp isRecv).1
  have lands {r' : Nat} (below : r' < (c.calls c.send.fifoHead).length) :
      (c.calls c.send.fifoHead)[r']? =
        some (c.send.fifo (c.send.fifoHead % maxRequests) r') := by
    have placed := List.getElem?_eq_getElem below
    rcases announcing.intact _ r' _ (Nat.le_refl _) placed with flying | there
    · rw [landed] at flying
      exact absurd flying List.not_mem_nil
    · rw [placed, there]
  have stamped {r' : Nat} (below : r' < (c.calls c.send.fifoHead).length) :=
    (linked.announced c.send.fifoHead).stamped _ (List.mem_of_getElem? (lands below))
  obtain ⟨idx, nreqs⟩ := stamped (Nat.lt_of_le_of_lt (Nat.zero_le r) below)
  have few := (linked.announced c.send.fifoHead).few
  have spinless : ¬ ∃ r ∈ List.range (c.calls c.send.fifoHead).length,
      r ≠ 0 ∧ (c.send.fifo (c.send.fifoHead % maxRequests) r).idx ≠ c.send.fifoHead + 1 := by
    rintro ⟨r', inRange, _, late⟩
    exact late (stamped (List.mem_range.mp inRange)).1
  have counted : ({ c.send with ep := c.send.ep.countIb unetIbFifoRecvCount } : SendComm) =
      c.send.withIbStat (c.send.ep.countIb unetIbFifoRecvCount).ibStat := rfl
  have wanted : c.send.fifo (c.send.fifoHead % maxRequests) r = recv := by
    have here := lands below
    rw [isRecv, Option.some.injEq] at here
    exact here.symm
  obtain ⟨r', found⟩ : ∃ r', matching
      (c.send.withIbStat (c.send.ep.countIb unetIbFifoRecvCount).ibStat)
      (c.send.fifoHead % maxRequests) (c.calls c.send.fifoHead).length tag = some r' := by
    refine Option.isSome_iff_exists.mp (List.find?_isSome.mpr ⟨r, List.mem_range.mpr below, ?_⟩)
    exact decide_eq_true ⟨free, (congrArg NcclIbSendFifo.tag wanted).trans tagged⟩
  have below' := List.mem_range.mp (List.mem_of_find?_eq_some found)
  have facts := List.find?_some found
  simp only [decide_eq_true_eq] at facts
  obtain ⟨free', tagged'⟩ := facts
  have right : ¬ (c.send.fifo (c.send.fifoHead % maxRequests) r').Incorrect :=
    correct _ (List.mem_of_getElem? (lands below'))
  obtain ⟨⟨i, ep⟩, got⟩ : ∃ pair, (c.send.withIbStat
      (c.send.ep.countIb unetIbFifoRecvCount).ibStat).ep.ncclIbGetRequest = some pair := by
    obtain ⟨j, isUnused⟩ := unused
    refine Option.ne_none_iff_exists'.mp fun none => ?_
    exact Endpoint.ncclIbGetRequest_none none j isUnused
  obtain ⟨isUnused, isEp⟩ := Endpoint.ncclIbGetRequest_some got
  have hit : Hit c.calls c.send tag r' i (c.send.fifo (c.send.fifoHead % maxRequests) r') :=
    ⟨lands below', idx, found, fun r' inside => lands inside, tagged', right, free', isUnused⟩
  obtain ⟨result, request, after, returned, _⟩ :=
    postWhenMatched_effect setup.send linked.announced hit data size lkeys
  have room : ((c.send.hit setup.send c.calls data size lkeys r' i
      (c.send.fifo (c.send.fifoHead % maxRequests) r')).fifo
        (c.send.fifoHead % maxRequests) 0).nreqs ≤ maxRecvs := nreqs.trans_le few
  obtain ⟨rfl, rfl⟩ := postWhenMatched_returned room returned
  refine ⟨i, after, ?_⟩
  have notReady : ¬ setup.send.ready = false := by
    rw [ready]
    exact Bool.noConfusion
  have onTime : ¬ (c.send.fifo (c.send.fifoHead % maxRequests) 0).idx ≠ c.send.fifoHead + 1 :=
    not_not.mpr idx
  have taken : (c.send.ep.countIb unetIbFifoRecvCount).ncclIbGetRequest = some (i, ep) := got
  simp only [ncclIbIsend, if_neg notReady, if_neg onTime, nreqs, if_neg (Nat.not_lt.mpr few),
    if_neg spinless, counted, found, matchSend]
  rw [if_neg right, taken]
  refine Eq.trans ?_ returned
  simp [isEp, SendComm.hit, SendComm.place, Endpoint.setReq, SendComm.withIbStat]

/-! ## At rest -/

/-- A receive names one request. -/
theorem Posting.Named.names_recv {reqs : ReqId → NcclIbRequest} {posting : Posting}
    (named : posting.Named reqs) (isRecv : posting.IsRecv = true) {i : ReqId} :
    i ∈ posting.names ↔ posting.request = i := by
  have kind : posting.kind = .recv := by simpa [Posting.IsRecv] using isRecv
  rw [named.names_single (by rw [kind]; decide), List.mem_singleton]
  exact eq_comm

/-- Where no step of the network is left, the connection is at rest. -/
theorem atRest_of_quiet {permitted : Connection → ConnEvent → Prop}
    (reached : (connection setup.toEnds).Reaches permitted c)
    (quiet : (connection setup.toEnds).Quiet ConnEvent.IsTransport c) : AtRest setup c := by
  have linked := connection_linked reached
  have scheduled := connection_scheduled reached
  have called := connection_called reached
  have landed : c.cts = [] := by
    by_contra some
    have placed := List.getElem?_eq_getElem (List.length_pos_of_ne_nil some)
    have stuck : c.landCts setup.toEnds 0 = none := quiet (.landCts 0) trivial
    rw [Connection.landCts, placed] at stuck
    exact absurd stuck (by simp)
  have completed : c.send.ep.posted = [] := by
    by_contra some
    obtain ⟨ep, completes⟩ := Endpoint.complete_of_lt (List.length_pos_of_ne_nil some) 0
    have stuck := quiet (.sendComplete 0) trivial
    simp [connection, Connection.step, completes] at stuck
  have arrived (q : Nat) : c.delivered q = (c.writesOn q).length := by
    refine Nat.le_antisymm (scheduled.arrived q) (Nat.not_lt.mp fun left => ?_)
    obtain ⟨after, delivers⟩ := scheduled.can_deliver left
    have stuck : c.deliver q = none := quiet (.deliver q) trivial
    rw [delivers] at stuck
    exact absurd stuck (by simp)
  have isRecv {posting : Posting} (posted : posting ∈ c.recv.ep.posted) :
      posting.IsRecv = true := by
    by_contra other
    obtain ⟨position, inside, rfl⟩ := List.getElem_of_mem posted
    obtain ⟨ep, completes⟩ := Endpoint.complete_of_lt inside 0
    have stuck : c.recvComplete position = none := quiet (.recvComplete position) trivial
    simp [Connection.recvComplete, List.getElem?_eq_getElem inside, other, completes] at stuck
  have later {posting : Posting} (posted : posting ∈ c.recv.ep.posted) :=
    scheduled.pending_later called arrived posted (isRecv posted)
  have named {posting : Posting} (posted : posting ∈ c.recv.ep.posted) :=
    linked.recvOk.accounted.named posting.dev posting (Endpoint.posted_waiting posted)
  refine ⟨landed, arrived, completed, fun posting posted => ⟨isRecv posted, later posted⟩,
    fun i _ => ?_, fun i type => ?_, fun i type => ?_,
    linked.accepts (connection_announcing reached) landed⟩
  · refine linked.sendOk.accounted.tests setup.send.asyncEvents i ?_
    rw [completed]
    constructor
    · rintro ⟨_, nothing⟩ ⟨r, _, taken⟩
      obtain ⟨dev, owed⟩ := linked.sendOk.matched_owed linked.announced taken
      exact owed (nothing dev)
    · intro unmatched
      exact ⟨by simp, fun dev => if_neg unmatched⟩
  · obtain ⟨call, isCall⟩ := called.calls i type
    refine ⟨call, isCall, linked.recvOk.accounted.tests setup.recv.asyncEvents i ?_⟩
    constructor
    · rintro ⟨unnamed, _⟩
      obtain ⟨own, inLog, ownRecv, request, group⟩ := lastGroup_mem isCall
      by_contra notYet
      obtain ⟨receive, posted, _, same⟩ := scheduled.waits (Nat.not_lt.mp notYet)
        (group ▸ scheduled.receive_made inLog ownRecv)
      have owner := called.one receive (called.logged receive posted (isRecv posted)) own inLog
        (isRecv posted) ownRecv (same.trans group.symm)
      exact unnamed receive posted
        (((named posted).names_recv (isRecv posted)).mpr (owner.trans request))
    · intro answered
      refine ⟨fun posting posted isNamed => ?_, fun _ => rfl⟩
      have request := ((named posted).names_recv (isRecv posted)).mp isNamed
      have current := called.current posting posted (isRecv posted)
      rw [request, isCall, Option.some.injEq] at current
      have ahead := later posted
      omega
  · change c.recv.ep.Tests setup.recv.asyncEvents i (decide True)
    refine linked.recvOk.accounted.tests setup.recv.asyncEvents i ?_
    refine iff_true_intro ⟨fun posting posted isNamed => ?_, fun _ => rfl⟩
    have typed := (named posted).typed i isNamed
    have kind : posting.kind = .recv := by simpa [Posting.IsRecv] using isRecv posted
    rw [type, kind] at typed
    exact absurd typed (by decide)

end

/-- From every state that a connection reaches, the network can take only so many steps
and comes to rest; and wherever it has no step left, the connection is at rest. -/
theorem connection_comes_to_rest (setup : ConnSetup) {c : Connection}
    (reached : (connection setup.toEnds).Reachable c) :
    (∀ events after, (∀ event ∈ events, event.IsTransport) →
      (connection setup.toEnds).replay c events = some after →
        after.underWay + events.length ≤ c.underWay ∧
          ((connection setup.toEnds).Quiet ConnEvent.IsTransport after → AtRest setup after)) ∧
      ∃ events after, (∀ event ∈ events, event.IsTransport) ∧
        (connection setup.toEnds).replay c events = some after ∧ AtRest setup after := by
  have drains := connection_drains setup.toEnds
  constructor
  · intro events after all replayed
    exact ⟨drains.bounded all replayed, atRest_of_quiet (reached.replay events replayed)⟩
  · obtain ⟨events, after, all, replayed, quiet⟩ := drains.comes_to_rest c
    exact ⟨events, after, all, replayed, atRest_of_quiet (reached.replay events replayed) quiet⟩

/-- A connection whose messages are all under way comes to rest. -/
theorem connection_comes_to_rest_halfAnswered :
    ∃ events after, (∀ event ∈ events, event.IsTransport) ∧
      (connection ConnSetup.twoDevices.toEnds).replay halfAnswered events = some after ∧
        AtRest .twoDevices after :=
  (connection_comes_to_rest .twoDevices halfAnswered_reached).2

end NcclExts.Unet
