import NcclExts.Foundation.Occupancy
import NcclExts.Unet.Connection

/-!
# Room in the queues

Nothing counts how full a queue is. A posting names requests of the pool, and a request
is named at most once on each queue pair, since a message takes no queue pair twice and
a request that is handed out again is named by nothing. So a queue pair holds at most
as many postings as the pool has requests, and their chains are no longer than twice
the sends they carry. A completion queue holds at most the events that its device's
requests wait for.
-/

namespace NcclExts.Unet

open NcclExts.Foundation NcclExts.Ucommd

/-- `max_send_wr` of a queue pair. -/
def maxSendWr : Nat := 2 * maxRequests

/-- `max_recv_wr` of a queue pair. -/
def maxRecvWr : Nat := maxRequests

/-- The number of entries a completion queue is created with. -/
def cqSize (qpsPerConn : Nat) : Nat := 2 * maxRequests * qpsPerConn

/-- A comm with at least one queue pair on each device, as many on each, in turn. -/
structure CommSetup.Striped (setup : CommSetup) (qpsPerConn : Nat) : Prop where
  some : 0 < qpsPerConn
  count : setup.nqps = qpsPerConn * setup.ndevs
  devs : ∀ q, (setup.qps q).devIndex.val = q % setup.ndevs

namespace CommSetup.Striped

variable {setup : CommSetup} {qpsPerConn : Nat}

/-- A message takes no queue pair twice. -/
theorem perMessage_le (striped : setup.Striped qpsPerConn) : setup.perMessage ≤ setup.nqps := by
  unfold perMessage
  split
  · exact Nat.le_refl _
  · rw [striped.count]
    exact Nat.le_mul_of_pos_left _ striped.some

theorem nodup (striped : setup.Striped qpsPerConn) {q : Nat} (inside : q < setup.nqps) :
    (roundRobin setup.nqps q setup.perMessage).Nodup :=
  roundRobin_nodup inside striped.perMessage_le

/-- A message takes no more queue pairs of a device than there are. -/
theorem stripes_le (striped : setup.Striped qpsPerConn) {q : Nat} (inside : q < setup.nqps)
    (dev : Dev) : stripes setup q dev ≤ qpsPerConn := by
  have among : (roundRobin setup.nqps q setup.perMessage).Subperm (List.range setup.nqps) := by
    refine (striped.nodup inside).subperm (fun q' member => ?_)
    exact List.mem_range.mpr (roundRobin_lt inside q' member)
  have same : (fun q' => decide ((setup.qps q').devIndex = dev)) =
      fun q' => decide (q' % setup.ndevs = dev.val) := by
    funext q'
    simp only [Fin.ext_iff, striped.devs]
  calc stripes setup q dev
      ≤ (List.range setup.nqps).countP (fun q' => (setup.qps q').devIndex = dev) :=
        among.countP_le _
    _ = (List.range (qpsPerConn * setup.ndevs)).countP
          (fun q' => q' % setup.ndevs = dev.val) := by rw [same, striped.count]
    _ ≤ qpsPerConn := countP_mod_le _ _ _

end CommSetup.Striped

/-! ## What is posted and was not polled -/

/-- The posting is on the queue pair and names the request. -/
def Posting.NamesOn (qp : QpRef) (i : ReqId) (posting : Posting) : Bool :=
  posting.qp = qp ∧ i ∈ posting.names

namespace Endpoint

/-- The work requests on a queue pair whose completion was not polled. Polling the
completion of a later chain retires the earlier ones too, so a send queue holds no more
than these. -/
def workOn (ep : Endpoint) (qp : QpRef) : Nat :=
  ((ep.unpolled.filter fun posting => posting.qp = qp).map fun posting =>
    posting.chain.length).sum

/-- The receives on a queue pair that are not taken. -/
def receivesOn (ep : Endpoint) (qp : QpRef) : Nat :=
  (ep.posted.filter fun posting => posting.IsRecv ∧ posting.qp = qp).length

/-- Settling takes postings away and lowers events. -/
theorem Settles.polled {owed : ReqId → Dev → Nat} {ep after : Endpoint} (settles : Settles ep after)
    (accounted : Accounted owed ep) :
    (∃ polled, ep.unpolled.Perm (polled ++ after.unpolled)) ∧
      ∀ i dev, (after.reqs i).events dev ≤ (ep.reqs i).events dev := by
  induction settles with
  | nothing => exact ⟨⟨[], List.Perm.refl _⟩, fun _ _ => Int.le_refl _⟩
  | @next ep middle after dev wc rest head handled later ih =>
    obtain ⟨settled, accountedMiddle⟩ := accounted.settle head
    have same : middle = (ep.setCq dev rest).settle dev wc := by
      rw [settled] at handled
      exact (congrArg Handled.ep handled).symm
    subst same
    obtain ⟨⟨polled, moved⟩, lower⟩ := ih accountedMiddle
    refine ⟨⟨wc.posting :: polled, (setCq_unpolled head).trans (moved.cons _)⟩, ?_⟩
    intro i other
    refine Int.le_trans (lower i other) ?_
    by_cases member : i ∈ wc.posting.names
    · by_cases here : other = dev
      · subst here
        simp [Endpoint.settle, setCq, member, NcclIbRequest.decrement]
      · simp [Endpoint.settle, setCq, member, NcclIbRequest.decrement, here]
    · simp [Endpoint.settle, setCq, member]

/-- Each request is named at most once on each queue pair by some of the postings, and
waits for no more than so many completions of a device. -/
structure Roomy (among : Posting → Bool) (most : Nat) (ep : Endpoint) : Prop where
  once : ∀ qp i, (ep.unpolled.filter among).countP (Posting.NamesOn qp i) ≤ 1
  events : ∀ i dev, (ep.reqs i).events dev ≤ most

section

variable {among : Posting → Bool} {most : Nat} {ep after : Endpoint}

theorem Roomy.fresh (fresh : ep.Fresh) : Roomy among most ep := by
  obtain ⟨reqs, _, _, _, _, posted, _, cqs⟩ := fresh
  refine ⟨?_, ?_⟩
  · simp [unpolled, posted, cqs]
  · simp [reqs, NcclIbRequest.zero]

/-- Taking postings away and lowering events leaves room. -/
theorem Roomy.drop (roomy : Roomy among most ep) (polled : List Posting)
    (dropped : ep.unpolled.Perm (polled ++ after.unpolled))
    (lower : ∀ i dev, (after.reqs i).events dev ≤ (ep.reqs i).events dev) :
    Roomy among most after := by
  constructor
  · intro qp i
    have before := roomy.once qp i
    rw [(dropped.filter among).countP_eq, List.filter_append, List.countP_append] at before
    omega
  · exact fun i dev => Int.le_trans (lower i dev) (roomy.events i dev)

theorem Roomy.complete (roomy : Roomy among most ep) {position : Nat} {immData : UInt32}
    (completed : ep.complete position immData = some after) : Roomy among most after := by
  have moved := complete_unpolled completed
  obtain ⟨posting, _, rfl⟩ := Option.map_eq_some_iff.mp completed
  exact roomy.drop [] moved.symm (fun _ _ => Int.le_refl _)

theorem Roomy.settled (roomy : Roomy among most ep) {owed : ReqId → Dev → Nat}
    (settles : Settles ep after) (accounted : Accounted owed ep) : Roomy among most after := by
  obtain ⟨⟨polled, dropped⟩, lower⟩ := settles.polled accounted
  exact roomy.drop polled dropped lower

theorem Roomy.freed (roomy : Roomy among most ep) (i : ReqId) :
    Roomy among most (ep.ncclIbFreeRequest i) := by
  refine roomy.drop [] (List.Perm.refl _) (fun j dev => ?_)
  by_cases same : j = i
  · subst same
    simp [ncclIbFreeRequest, setReq]
  · simp [ncclIbFreeRequest, setReq, same]

/-- Posting leaves room when what is posted names a request only once on a queue pair,
and none that is named already. -/
theorem Roomy.post (roomy : Roomy among most ep) {postings : List Posting}
    (posted : after.posted = ep.posted ++ postings) (cqs : after.cqs = ep.cqs)
    (once : ∀ qp i, (postings.filter among).countP (Posting.NamesOn qp i) ≤ 1)
    (new : ∀ i, (∃ posting ∈ postings, i ∈ posting.names) →
      ∀ posting ∈ ep.unpolled, i ∉ posting.names)
    (events : ∀ i dev, (after.reqs i).events dev ≤ most) : Roomy among most after := by
  refine ⟨fun qp i => ?_, events⟩
  rw [((post_unpolled posted cqs).filter among).countP_eq, List.filter_append,
    List.countP_append]
  by_cases named : ∃ posting ∈ postings, i ∈ posting.names
  · have none : (ep.unpolled.filter among).countP (Posting.NamesOn qp i) = 0 := by
      apply List.countP_eq_zero.mpr
      intro posting member
      simp [Posting.NamesOn, new i named posting (List.mem_filter.mp member).1]
    have one := once qp i
    omega
  · have none : (postings.filter among).countP (Posting.NamesOn qp i) = 0 := by
      apply List.countP_eq_zero.mpr
      intro posting member taken
      simp only [Posting.NamesOn, decide_eq_true_eq] at taken
      exact named ⟨posting, (List.mem_filter.mp member).1, taken.2⟩
    have one := roomy.once qp i
    omega

/-- An unused request is named by nothing that was not polled. -/
theorem Accounted.unnamed {owed : ReqId → Dev → Nat} (accounted : Accounted owed ep) {i : ReqId}
    (unused : (ep.reqs i).type = .unused) : ∀ posting ∈ ep.unpolled, i ∉ posting.names := by
  intro posting member named
  obtain ⟨dev, waits⟩ := mem_waiting_of_unpolled member
  have counted : 0 < ep.outstanding i dev :=
    List.countP_pos_iff.mpr ⟨posting, waits, by simpa using named⟩
  have nothing := (accounted.unused unused dev).1
  omega

end

/-! ## The bounds -/

section

variable {owed : ReqId → Dev → Nat} {most : Nat} {ep : Endpoint}

/-- The postings among some on a queue pair name at most the whole pool. -/
theorem Roomy.names_le {among : Posting → Bool} (roomy : Roomy among most ep)
    (accounted : Accounted owed ep) (qp : QpRef) :
    ((((ep.unpolled.filter among).filter fun posting => posting.qp = qp).map
      Posting.names).map List.length).sum ≤ maxRequests := by
  have bound := sum_length_le (((ep.unpolled.filter among).filter fun posting =>
    posting.qp = qp).map Posting.names) 1 ?_ ?_
  · simpa [maxRequests] using bound
  · intro item member
    obtain ⟨posting, inside, rfl⟩ := List.mem_map.mp member
    have unpolled := (List.mem_filter.mp (List.mem_filter.mp inside).1).1
    exact (accounted.unpolled unpolled).distinct
  · intro i
    have once := roomy.once qp i
    rw [List.countP_map, List.countP_filter]
    refine Nat.le_trans (Nat.le_of_eq ?_) once
    congr 1
    funext posting
    simp only [Function.comp_apply, Posting.NamesOn, Bool.decide_and]
    exact Bool.and_comm _ _

/-- Chains no longer than twice their sends fit a send queue. -/
theorem Roomy.workOn_le (roomy : Roomy (fun _ => true) most ep) (accounted : Accounted owed ep)
    (short : ∀ posting ∈ ep.unpolled, posting.chain.length ≤ 2 * posting.members) (qp : QpRef) :
    ep.workOn qp ≤ maxSendWr := by
  have names := roomy.names_le accounted qp
  rw [List.filter_true, List.map_map] at names
  have twice : ep.workOn qp ≤ ((ep.unpolled.filter fun posting => posting.qp = qp).map
      fun posting => 2 * posting.names.length).sum := by
    apply List.sum_le_sum
    intro posting member
    rw [Posting.names, List.length_map, List.length_range]
    exact short posting (List.mem_filter.mp member).1
  rw [List.sum_map_mul_left] at twice
  exact Nat.le_trans twice (Nat.mul_le_mul_left 2 names)

/-- The receives on a queue pair fit its receive queue. -/
theorem Roomy.receivesOn_le (roomy : Roomy Posting.IsRecv most ep)
    (accounted : Accounted owed ep) (qp : QpRef) : ep.receivesOn qp ≤ maxRecvWr := by
  have names := roomy.names_le accounted qp
  have some := length_le_sum (((ep.unpolled.filter Posting.IsRecv).filter fun posting =>
    posting.qp = qp).map Posting.names) (fun item member => ?_)
  · have posted : ep.receivesOn qp ≤ ((ep.unpolled.filter Posting.IsRecv).filter fun posting =>
        posting.qp = qp).length := by
      rw [List.filter_filter, unpolled, List.filter_append, List.length_append]
      refine Nat.le_trans (Nat.le_of_eq ?_) (Nat.le_add_right _ _)
      rw [receivesOn]
      congr 2
      funext posting
      rw [Bool.decide_and, Bool.and_comm]
      simp
    rw [List.length_map] at some
    exact Nat.le_trans posted (Nat.le_trans some names)
  · obtain ⟨posting, inside, rfl⟩ := List.mem_map.mp member
    have unpolled := (List.mem_filter.mp (List.mem_filter.mp inside).1).1
    exact List.length_pos_of_mem (accounted.unpolled unpolled).first

/-- A completion queue holds no more than the pool can wait for. -/
theorem Roomy.cq_le {among : Posting → Bool} (roomy : Roomy among most ep)
    (accounted : Accounted owed ep) (dev : Dev) : (ep.cqs dev).length ≤ maxRequests * most := by
  have waits (posting : Posting) (member : posting ∈ (ep.cqs dev).map IbvWc.posting) :
      posting ∈ ep.waiting dev := List.mem_append_right _ member
  have bound := sum_length_le (((ep.cqs dev).map IbvWc.posting).map Posting.names) most ?_ ?_
  · have some := length_le_sum (((ep.cqs dev).map IbvWc.posting).map Posting.names)
      (fun item member => ?_)
    · simp only [List.length_map, Fintype.card_fin] at some bound
      exact Nat.le_trans some bound
    · obtain ⟨posting, inside, rfl⟩ := List.mem_map.mp member
      exact List.length_pos_of_mem (accounted.named dev posting (waits posting inside)).first
  · intro item member
    obtain ⟨posting, inside, rfl⟩ := List.mem_map.mp member
    exact (accounted.named dev posting (waits posting inside)).distinct
  · intro i
    have counted := accounted.counted i dev
    have lower := roomy.events i dev
    have total : ep.outstanding i dev =
        (ep.posted.filter (fun posting => posting.dev = dev)).countP (fun posting =>
          i ∈ posting.names) + ((ep.cqs dev).map IbvWc.posting).countP (fun posting =>
          i ∈ posting.names) := List.countP_append ..
    have same : (((ep.cqs dev).map IbvWc.posting).map Posting.names).countP
        (fun item => i ∈ item) =
        ((ep.cqs dev).map IbvWc.posting).countP (fun posting => i ∈ posting.names) :=
      List.countP_map ..
    omega

end

end Endpoint

/-! ## A send comm -/

/-- The chain of a queue pair has a write for each send, and at most one more. -/
theorem chain_length_le (setup : SendSetup) (message : Message) (ep : Endpoint) (qp : NcclIbQp)
    (cursors : List Cursor) :
    (chain setup message ep qp cursors).length ≤ cursors.length + 1 := by
  simp only [chain]
  split
  · simp
  · cases last : (cursors.map (chunkWr setup ep message.nqps qp)).getLast? <;>
      simp [List.length_dropLast]
    omega

/-- The chains of a message are no longer than twice its sends. -/
theorem Sent.short {setup : SendSetup} {comm : SendComm} {reqs : List ReqId} {first : ReqId}
    {postings : List Posting} (inside : comm.ep.qpIndex < setup.nqps)
    (isFirst : reqs[0]? = some first)
    (sent : Sent setup comm reqs first (comm.post setup reqs first) postings) :
    ∀ posting ∈ postings, posting.chain.length ≤ 2 * posting.members := by
  obtain ⟨chunks, posted⟩ := postChunks_posted setup (comm.message setup reqs first)
    setup.perMessage (cursorsOf comm (comm.fifoHead % maxRequests) reqs) 0 comm.ep inside
  have same : postings = chunks := by
    have log := sent.log
    rw [SendComm.post_log, posted.log] at log
    exact (List.append_cancel_left log).symm
  subst same
  intro posting member
  obtain ⟨before, qp, cursors, isChain, length⟩ := posted.chains posting member
  obtain ⟨_, members, _⟩ := sent.member member
  have some : 0 < reqs.length := by
    obtain ⟨below, _⟩ := List.getElem?_eq_some_iff.mp isFirst
    exact below
  have bound := chain_length_le setup (comm.message setup reqs first) before qp cursors
  rw [cursorsOf_length] at length
  rw [isChain, members]
  omega

/-- A send comm has room: a matched send is not posted yet, and chains are short. -/
structure SendRoomy (qpsPerConn : Nat) (comm : SendComm) : Prop
    extends Endpoint.Roomy (fun _ => true) qpsPerConn comm.ep where
  unposted : ∀ slot r i, comm.fifoReqs slot r = some i →
    ∀ posting ∈ comm.ep.unpolled, i ∉ posting.names
  short : ∀ posting ∈ comm.ep.unpolled, posting.chain.length ≤ 2 * posting.members

section

variable {setup : SendSetup} {calls : Calls} {comm : SendComm} {qpsPerConn : Nat}

theorem SendRoomy.fresh (fresh : comm.Fresh) : SendRoomy qpsPerConn comm := by
  obtain ⟨base, _, fifoReqs, _, _⟩ := fresh
  refine ⟨Endpoint.Roomy.fresh base, ?_, ?_⟩
  · simp [fifoReqs]
  · obtain ⟨_, _, _, _, _, posted, _, cqs⟩ := base
    simp [Endpoint.unpolled, posted, cqs]

/-- Taking postings away leaves room. -/
theorem SendRoomy.drop (roomy : SendRoomy qpsPerConn comm) {ep : Endpoint}
    (polled : List Posting) (dropped : comm.ep.unpolled.Perm (polled ++ ep.unpolled))
    (lower : ∀ i dev, (ep.reqs i).events dev ≤ (comm.ep.reqs i).events dev) :
    SendRoomy qpsPerConn { comm with ep := ep } := by
  have before {posting : Posting} (member : posting ∈ ep.unpolled) :
      posting ∈ comm.ep.unpolled := dropped.mem_iff.mpr (List.mem_append_right _ member)
  refine ⟨roomy.toRoomy.drop polled dropped lower, ?_, ?_⟩
  · intro slot r i taken posting member
    exact roomy.unposted slot r i taken posting (before member)
  · intro posting member
    exact roomy.short posting (before member)

/-- A hit takes a request that nothing names. -/
theorem SendRoomy.hit (roomy : SendRoomy qpsPerConn comm)
    (striped : setup.toCommSetup.Striped qpsPerConn) (ok : SendOk setup calls comm) {tag : Int32}
    {r : Nat} {i : ReqId} {recv : NcclIbSendFifo} (hit : Hit calls comm tag r i recv) (data : Int)
    (size : Int32) (lkeys : Dev → UInt32) :
    SendRoomy qpsPerConn (comm.hit setup calls data size lkeys r i recv) := by
  have rows := place_fifoReqs setup (comm.withIbStat (comm.ep.countIb unetIbFifoRecvCount).ibStat)
    (calls comm.fifoHead).length r i lkeys (clip size recv) data
  have self := place_req_self setup (comm.withIbStat (comm.ep.countIb unetIbFifoRecvCount).ibStat)
    (calls comm.fifoHead).length r i lkeys (clip size recv) data
  obtain ⟨_, _, _, _, _, _, events, _⟩ := sendRequest_spec setup lkeys (calls comm.fifoHead).length
    comm.ep.qpIndex (clip size recv) data (comm.ep.reqs i)
  refine ⟨⟨roomy.once, ?_⟩, ?_, roomy.short⟩
  · intro j dev
    by_cases same : j = i
    · subst same
      rw [SendComm.hit, self]
      have few := striped.stripes_le ok.inside dev
      have waits := events dev
      exact waits ▸ Int.ofNat_le.mpr few
    · have other := place_req_other setup
        (comm.withIbStat (comm.ep.countIb unetIbFifoRecvCount).ibStat)
        (calls comm.fifoHead).length r lkeys (clip size recv) data same
      rw [SendComm.hit, other]
      exact roomy.events j dev
  · intro slot r' j taken
    rw [SendComm.hit, rows] at taken
    split at taken
    · rw [← Option.some.inj taken]
      exact ok.accounted.unnamed hit.unused
    · exact roomy.unposted slot r' j taken

/-- The postings of a message name each of its sends once on each queue pair. -/
theorem Sent.once {comm after : SendComm} {reqs : List ReqId} {first : ReqId}
    {postings : List Posting} (sent : Sent setup comm reqs first after postings)
    (striped : setup.toCommSetup.Striped qpsPerConn) (inside : comm.ep.qpIndex < setup.nqps)
    (qp : QpRef) (i : ReqId) : postings.countP (Posting.NamesOn qp i) ≤ 1 := by
  have nodup : ((roundRobin setup.nqps comm.ep.qpIndex setup.perMessage).map QpRef.data).Nodup :=
    (striped.nodup inside).map (fun _ _ same => QpRef.data.inj same)
  have routed : postings.countP (Posting.NamesOn qp i) =
      (postings.map Posting.route).countP (Posting.NamesOn qp i) := by
    rw [List.countP_map]
    rfl
  rw [routed, sent.routes, List.countP_map]
  calc (roundRobin setup.nqps comm.ep.qpIndex setup.perMessage).countP
        (Posting.NamesOn qp i ∘ fun q =>
          messagePosting setup (comm.message setup reqs first) q reqs.length [])
      ≤ (roundRobin setup.nqps comm.ep.qpIndex setup.perMessage).countP
          (fun q => QpRef.data q = qp) := by
        apply List.countP_mono_left
        intro q _ taken
        simp only [Function.comp_apply, Posting.NamesOn, decide_eq_true_eq] at taken
        exact decide_eq_true taken.1
    _ = ((roundRobin setup.nqps comm.ep.qpIndex setup.perMessage).map QpRef.data).count qp := by
        rw [List.count, List.countP_map]
        rfl
    _ ≤ 1 := List.nodup_iff_count_le_one.mp nodup qp

/-- Posting the message leaves room: its sends were not posted before. -/
theorem SendRoomy.post (roomy : SendRoomy qpsPerConn comm)
    (striped : setup.toCommSetup.Striped qpsPerConn) (ok : SendOk setup calls comm)
    {reqs : List ReqId} {first : ReqId} (full : Full calls comm reqs first) :
    SendRoomy qpsPerConn (comm.post setup reqs first) := by
  obtain ⟨postings, sent⟩ := comm.post_sent ok.inside full.isFirst
  refine ⟨roomy.toRoomy.post sent.posted sent.cqs ?_ ?_ ?_, ?_, ?_⟩
  · intro qp i
    rw [List.filter_true]
    exact sent.once striped ok.inside qp i
  · rintro i ⟨posting, member, named⟩
    rw [(sent.member member).2.2.1] at named
    obtain ⟨r, below, isReq⟩ := List.getElem_of_mem named
    refine roomy.unposted _ r i (full.taken ?_)
    rw [List.getElem?_eq_getElem below, isReq]
  · intro i dev
    rw [sent.offsets i]
    exact roomy.events i dev
  · intro slot r i taken
    rw [full.emptied ok] at taken
    exact absurd taken (by simp)
  · intro posting member
    rcases List.mem_append.mp ((Endpoint.post_unpolled sent.posted sent.cqs).mem_iff.mp member)
      with old | new
    · exact roomy.short posting old
    · exact sent.short ok.inside full.isFirst posting new

/-- One step of a send comm leaves room. -/
theorem SendRoomy.step {before after : Sending} {event : SendEvent}
    (striped : setup.toCommSetup.Striped qpsPerConn) (ok : SendOk setup calls before.comm)
    (announced : ∀ call, Announced call (calls call)) (roomy : SendRoomy qpsPerConn before.comm)
    (stepped : SendStep setup calls before event after) : SendRoomy qpsPerConn after.comm := by
  cases stepped with
  | landed landed =>
    obtain ⟨recv, _, rfl⟩ := Option.map_eq_some_iff.mp landed
    exact ⟨roomy.toRoomy, roomy.unposted, roomy.short⟩
  | @sent data size tag lkeys request comm effect =>
    cases effect with
    | nothing _ => exact ⟨⟨roomy.once, roomy.events⟩, roomy.unposted, roomy.short⟩
    | matched hit _ => exact roomy.hit striped ok hit data size lkeys
    | posted hit full =>
      exact (roomy.hit striped ok hit data size lkeys).post striped
        (ok.hit announced hit data size lkeys) full
  | completed completed =>
    have moved := Endpoint.complete_unpolled completed
    obtain ⟨posting, _, rfl⟩ := Option.map_eq_some_iff.mp completed
    exact roomy.drop [] moved.symm (fun _ _ => Int.le_refl _)
  | waits settles _ =>
    obtain ⟨⟨polled, dropped⟩, lower⟩ := settles.polled ok.accounted
    exact roomy.drop polled dropped lower
  | @done i settled settles accounted inUse finished =>
    obtain ⟨⟨polled, dropped⟩, lower⟩ := settles.polled ok.accounted
    refine (roomy.drop polled dropped lower).drop [] (List.Perm.refl _) (fun j dev => ?_)
    by_cases same : j = i
    · subst same
      simp [Endpoint.ncclIbFreeRequest, Endpoint.setReq]
    · simp [Endpoint.ncclIbFreeRequest, Endpoint.setReq, same]

/-- Every run of a send comm leaves room. -/
theorem sending_roomy (striped : setup.toCommSetup.Striped qpsPerConn)
    (announced : ∀ call, Announced call (calls call)) {state : Sending}
    (reached : (sending setup calls).Reachable state) : SendRoomy qpsPerConn state.comm := by
  induction reached with
  | start first => exact SendRoomy.fresh first.1
  | next before _ stepped ih =>
    have ok := sending_ok announced before.reachable
    exact ih.step striped ok announced (ok.sendStep announced stepped)

end

/-! ## A receive comm -/

/-- Receives posted in turn name their request once on each queue pair. -/
theorem recvPostings_once {setup : RecvSetup} {comm : RecvComm} {qpsPerConn : Nat}
    (striped : setup.toCommSetup.Striped qpsPerConn) (inside : comm.ep.qpIndex < setup.nqps)
    (i j : ReqId) (qp : QpRef) :
    (comm.recvPostings setup i).countP (Posting.NamesOn qp j) ≤ 1 := by
  have nodup : ((roundRobin setup.nqps comm.ep.qpIndex setup.perMessage).map QpRef.data).Nodup :=
    (striped.nodup inside).map (fun _ _ same => QpRef.data.inj same)
  rw [RecvComm.recvPostings, List.countP_map]
  calc (roundRobin setup.nqps comm.ep.qpIndex setup.perMessage).countP
        (Posting.NamesOn qp j ∘ fun q => recvPosting setup q comm.fifoTail i)
      ≤ (roundRobin setup.nqps comm.ep.qpIndex setup.perMessage).countP
          (fun q => QpRef.data q = qp) := by
        apply List.countP_mono_left
        intro q _ taken
        simp only [Function.comp_apply, Posting.NamesOn, decide_eq_true_eq] at taken
        exact decide_eq_true taken.1
    _ = ((roundRobin setup.nqps comm.ep.qpIndex setup.perMessage).map QpRef.data).count qp := by
        rw [List.count, List.countP_map]
        rfl
    _ ≤ 1 := List.nodup_iff_count_le_one.mp nodup qp

/-- The announcement of a call is not a receive. -/
theorem ctsPostings_filter (setup : RecvSetup) (comm : RecvComm) (nreqs : Nat) (i : ReqId) :
    (comm.ctsPostings setup nreqs i).filter Posting.IsRecv = [] := by
  apply List.filter_eq_nil_iff.mpr
  intro posting member
  rw [RecvComm.ctsPostings] at member
  split at member
  · rw [List.mem_singleton.mp member]
    simp [Posting.IsRecv, RecvComm.ctsPosting, Unet.ctsPosting]
  · simp at member

/-- A receive comm has room: a request waits for its receives and one announcement. -/
abbrev RecvRoomy (qpsPerConn : Nat) (comm : RecvComm) : Prop :=
  Endpoint.Roomy Posting.IsRecv (qpsPerConn + 1) comm.ep

section

variable {setup : RecvSetup} {comm : RecvComm} {qpsPerConn : Nat}

theorem RecvRoomy.irecv (roomy : RecvRoomy qpsPerConn comm)
    (striped : setup.toCommSetup.Striped qpsPerConn) (ok : RecvOk setup comm)
    {recvs : List RecvArg} {request : Option ReqId} {after : RecvComm}
    (effect : IrecvEffect setup comm recvs request after) : RecvRoomy qpsPerConn after := by
  cases effect with
  | nothing => exact roomy
  | @received i after unused few received =>
    refine roomy.post received.posted received.cqs ?_ ?_ ?_
    · intro qp j
      rw [List.filter_append, ctsPostings_filter, List.append_nil, List.countP_filter]
      refine Nat.le_trans (List.countP_mono_left ?_)
        (recvPostings_once striped ok.inside i j qp)
      intro posting _ both
      exact (Bool.and_eq_true_iff.mp both).1
    · rintro j ⟨posting, member, named⟩
      have same : j = i := by
        have counted := recv_naming setup comm recvs.length i j posting.dev
        by_contra other
        rw [if_neg other] at counted
        have none := List.countP_eq_zero.mp counted posting member
        simp [named] at none
      rw [same]
      exact ok.accounted.unnamed unused
    · intro j dev
      by_cases same : j = i
      · subst same
        rw [received.events dev]
        have few := striped.stripes_le ok.inside dev
        split <;> omega
      · rw [received.others j same]
        exact roomy.events j dev

theorem RecvRoomy.iflush (roomy : RecvRoomy qpsPerConn comm) (ok : RecvOk setup comm)
    {request : Option ReqId} {after : RecvComm} (effect : IflushEffect setup comm request after) :
    RecvRoomy qpsPerConn after := by
  cases effect with
  | nothing => exact roomy
  | @flushed i last ep unused flushes =>
    have posted := congrArg Endpoint.posted flushes.rest
    have cqs := congrArg Endpoint.cqs flushes.rest
    refine Endpoint.Roomy.post roomy posted cqs ?_ ?_ ?_
    · intro qp j
      have none : (setup.devices.map (flushPosting setup last comm.fifoTail i)).filter
          Posting.IsRecv = [] := by
        apply List.filter_eq_nil_iff.mpr
        intro posting member
        obtain ⟨dev, _, rfl⟩ := List.mem_map.mp member
        simp [Posting.IsRecv, flushPosting]
      rw [none]
      exact Nat.zero_le _
    · rintro j ⟨posting, member, named⟩
      obtain ⟨dev, _, rfl⟩ := List.mem_map.mp member
      have names : (flushPosting setup last comm.fifoTail i dev).names = [i] :=
        Posting.names_one rfl rfl
      rw [names] at named
      rw [List.mem_singleton.mp named]
      exact ok.accounted.unnamed unused
    · intro j dev
      by_cases same : j = i
      · subst same
        have counted := flushes.events dev
        have nodup : setup.devices.Nodup := (List.nodup_finRange 2).filter _
        have once := List.nodup_iff_count_le_one.mp nodup dev
        have start : (((comm.ep.setReq j (Endpoint.cleared (comm.ep.reqs j))).mapReq j
            (fun req => { req with type := .flush })).reqs j).events dev = 0 := by
          simp [Endpoint.mapReq, Endpoint.setReq, Endpoint.cleared]
        rw [start] at counted
        simp only [counted]
        omega
      · rw [flushes.others j same]
        have kept : ((comm.ep.setReq i (Endpoint.cleared (comm.ep.reqs i))).mapReq i
            (fun req => { req with type := .flush })).reqs j = comm.ep.reqs j := by
          simp [Endpoint.mapReq, Endpoint.setReq, same]
        rw [kept]
        exact roomy.events j dev

/-- One step of a receive comm leaves room. -/
theorem RecvRoomy.step (roomy : RecvRoomy qpsPerConn comm)
    (striped : setup.toCommSetup.Striped qpsPerConn) (ok : RecvOk setup comm) {event : RecvEvent}
    {after : RecvComm} (stepped : (receiving setup).step comm event = some after) :
    RecvRoomy qpsPerConn after := by
  cases event with
  | irecv recvs =>
    obtain ⟨result, request, next, called, effect⟩ := ncclIbIrecv_effect ok.inside recvs
    have same : some next = some after := by
      rw [← stepped]
      simp only [receiving, RecvComm.step, called, RecvComm.returned]
    exact Option.some.inj same ▸ roomy.irecv striped ok effect
  | iflush recvs =>
    obtain ⟨result, request, next, called, effect⟩ := ncclIbIflush_effect setup comm recvs
    have same : some next = some after := by
      rw [← stepped]
      simp only [receiving, RecvComm.step, called, RecvComm.returned]
    exact Option.some.inj same ▸ roomy.iflush ok effect
  | complete position immData =>
    obtain ⟨ep, completed, rfl⟩ := Option.map_eq_some_iff.mp stepped
    exact Endpoint.Roomy.complete roomy completed
  | test i =>
    have stepped : comm.test setup i = some after := stepped
    obtain ⟨done, sizes, settled, settles, accounted, result, _⟩ :=
      ok.accounted.test setup.asyncEvents i
    simp only [RecvComm.test, result] at stepped
    split at stepped
    · simp at stepped
    · rw [← Option.some.inj stepped]
      have left := Endpoint.Roomy.settled roomy settles ok.accounted
      cases done with
      | true => exact left.freed i
      | false => exact left

/-- Every run of a receive comm leaves room. -/
theorem receiving_roomy (striped : setup.toCommSetup.Striped qpsPerConn)
    (reached : (receiving setup).Reachable comm) : RecvRoomy qpsPerConn comm := by
  induction reached with
  | start first => exact Endpoint.Roomy.fresh first.1
  | next before _ stepped ih => exact ih.step striped (receiving_ok before.reachable) stepped

end

/-! ## Both kinds of comm -/

/-- In every state that a send comm or a receive comm with at least one queue pair on
each device can reach, the work on a send queue, the receives on a receive queue and the
completions on a device's queue are no more than these were created for. -/
theorem queue_capacity :
    (∀ (setup : SendSetup) (qpsPerConn : Nat), setup.toCommSetup.Striped qpsPerConn →
      ∀ calls : Calls, (∀ call, Announced call (calls call)) →
      ∀ state, (sending setup calls).Reachable state →
        (∀ qp, state.comm.ep.workOn qp ≤ maxSendWr) ∧
          ∀ dev, (state.comm.ep.cqs dev).length ≤ cqSize qpsPerConn) ∧
    (∀ (setup : RecvSetup) (qpsPerConn : Nat), setup.toCommSetup.Striped qpsPerConn →
      ∀ comm, (receiving setup).Reachable comm →
        (∀ qp, comm.ep.receivesOn qp ≤ maxRecvWr) ∧
          ∀ dev, (comm.ep.cqs dev).length ≤ cqSize qpsPerConn) := by
  constructor
  · intro setup qpsPerConn striped calls announced state reached
    have roomy := sending_roomy striped announced reached
    have accounted := (sending_ok announced reached).accounted
    refine ⟨fun qp => roomy.workOn_le accounted roomy.short qp, fun dev => ?_⟩
    have bound := roomy.cq_le accounted dev
    simp only [cqSize, maxRequests] at bound ⊢
    omega
  · intro setup qpsPerConn striped comm reached
    have roomy := receiving_roomy striped reached
    have accounted := (receiving_ok reached).accounted
    refine ⟨fun qp => Endpoint.Roomy.receivesOn_le roomy accounted qp, fun dev => ?_⟩
    have bound := Endpoint.Roomy.cq_le roomy accounted dev
    have some := striped.some
    simp only [cqSize, maxRequests] at bound ⊢
    omega

/-- One queue pair on each of two devices. -/
theorem twoDevices_striped : twoDevices.send.toCommSetup.Striped 1 :=
  ⟨by decide, rfl, fun _ => rfl⟩

/-- A group of two is posted: four writes and the sizes on each queue pair. -/
theorem queue_capacity_group :
    ((((sending twoDevices.send pairOfRecvs).replay halfMatched
      [.isend 65536 80 1 (fun _ => 9)]).get (by decide)).comm.ep.workOn (.data 0) ≤ 512) :=
  (queue_capacity.1 twoDevices.send 1 twoDevices_striped pairOfRecvs pairOfRecvs_announced _
    (halfMatched_reached.replay [.isend 65536 80 1 (fun _ => 9)] (Option.some_get _).symm)).1
      (.data 0)

end NcclExts.Unet
