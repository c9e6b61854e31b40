import NcclExts.Unet.Linked

/-!
# Queue pairs in lockstep

Both ends take the queue pairs of a connection round robin, so many for each group, and
neither tells the other where it is. The messages posted so far are therefore those of
the first groups of one common schedule, the receives posted so far are those of the
first groups of the same schedule, and the receiver is ahead. On each queue pair the
two lists of groups are prefixes of one another, and a message that arrives finds the
receive of its own group.
-/

namespace NcclExts.Unet

open NcclExts.Foundation NcclExts.Ucommd

/-- The queue pair and the group of a posting. -/
def Posting.key (posting : Posting) : QpRef × Nat := (posting.qp, posting.group)

/-- The keys of the first groups of the common schedule. -/
def keys (nqps perMessage groups : Nat) : List (QpRef × Nat) :=
  (schedule nqps perMessage groups).map fun entry => (QpRef.data entry.1, entry.2)

theorem keys_succ (nqps perMessage groups : Nat) :
    keys nqps perMessage (groups + 1) = keys nqps perMessage groups ++
      (roundRobin nqps (perMessage * groups % nqps) perMessage).map
        (fun q => (QpRef.data q, groups)) := by
  simp [keys, schedule_succ, Function.comp_def]

/-- The groups of the postings on a queue pair, where all postings follow the schedule. -/
theorem groups_onQp {postings : List Posting} {nqps perMessage groups : Nat}
    (scheduled : postings.map Posting.key = keys nqps perMessage groups) (q : Nat) :
    (postings.filter (Posting.OnQp q)).map Posting.group = roundsOn nqps perMessage groups q := by
  have onQp : Posting.OnQp q = (fun key : QpRef × Nat => decide (key.1 = .data q)) ∘ Posting.key :=
    rfl
  have groups : Posting.group = Prod.snd ∘ Posting.key := rfl
  have same : ((fun key : QpRef × Nat => decide (key.1 = .data q)) ∘
      fun entry : Nat × Nat => (QpRef.data entry.1, entry.2)) =
      fun entry : Nat × Nat => decide (entry.1 = q) := by
    funext entry
    simp
  rw [groups, ← List.map_map, onQp, ← List.filter_map, scheduled, keys, List.filter_map, same,
    List.map_map]
  rfl

/-- What both ends posted and what arrived. -/
structure Scheduled (setup : ConnSetup) (c : Connection) : Prop where
  tail : c.recv.fifoTail = c.history.length
  head : c.send.fifoHead ≤ c.history.length
  sendIndex : c.send.ep.qpIndex = setup.send.perMessage * c.send.fifoHead % setup.send.nqps
  recvIndex : c.recv.ep.qpIndex = setup.send.perMessage * c.history.length % setup.send.nqps
  writes : c.send.ep.log.map Posting.key =
    keys setup.send.nqps setup.send.perMessage c.send.fifoHead
  receives : (c.recv.ep.log.filter Posting.IsRecv).map Posting.key =
    keys setup.send.nqps setup.send.perMessage c.history.length
  arrived : ∀ q, c.delivered q ≤ (c.writesOn q).length
  pending : ∀ q, receivesOn c.recv.ep.posted q =
    (receivesOn c.recv.ep.log q).drop (c.delivered q)

theorem receivesOn_eq (postings : List Posting) (q : Nat) :
    receivesOn postings q = (postings.filter Posting.IsRecv).filter (Posting.OnQp q) := by
  rw [receivesOn, List.filter_filter]
  congr 1
  funext posting
  exact Bool.and_comm _ _

section

variable {setup : ConnSetup} {c : Connection}

theorem Scheduled.fresh (fresh : c.Fresh) : Scheduled setup c := by
  obtain ⟨send, recv, history, _, delivered, _⟩ := fresh
  obtain ⟨sendBase, _, _, sendHead, _⟩ := send
  obtain ⟨recvBase, _, recvTail, _⟩ := recv
  obtain ⟨_, sendIndex, _, _, _, _, sendLog, _⟩ := sendBase
  obtain ⟨_, recvIndex, _, _, _, recvPosted, recvLog, _⟩ := recvBase
  constructor <;> simp [history, sendHead, recvTail, sendIndex, recvIndex, sendLog, recvLog,
    recvPosted, delivered, Connection.writesOn, receivesOn, keys, schedule_zero]

/-- The groups of the messages posted on a queue pair. -/
theorem Scheduled.writesOn_groups (scheduled : Scheduled setup c) (q : Nat) :
    (c.writesOn q).map Posting.group =
      roundsOn setup.send.nqps setup.send.perMessage c.send.fifoHead q :=
  groups_onQp scheduled.writes q

/-- The groups of the receives posted on a queue pair. -/
theorem Scheduled.receivesOn_groups (scheduled : Scheduled setup c) (q : Nat) :
    (receivesOn c.recv.ep.log q).map Posting.group =
      roundsOn setup.send.nqps setup.send.perMessage c.history.length q := by
  rw [receivesOn_eq]
  exact groups_onQp scheduled.receives q

/-- On each queue pair the groups of the messages are the first of those of the
receives. -/
theorem Scheduled.lockstep (scheduled : Scheduled setup c) (q : Nat) :
    (c.writesOn q).map Posting.group <+: (receivesOn c.recv.ep.log q).map Posting.group := by
  rw [scheduled.writesOn_groups, scheduled.receivesOn_groups]
  exact roundsOn_initial scheduled.head q

theorem Scheduled.ahead (scheduled : Scheduled setup c) (q : Nat) :
    (c.writesOn q).length ≤ (receivesOn c.recv.ep.log q).length := by
  have lengths := (scheduled.lockstep q).length_le
  simpa using lengths

/-- The message and the receive of one position on a queue pair are of one group. -/
theorem Scheduled.same_group (scheduled : Scheduled setup c) {q j : Nat} {write : Posting}
    (posted : (c.writesOn q)[j]? = some write) :
    ∃ receive, (receivesOn c.recv.ep.log q)[j]? = some receive ∧
      receive.group = write.group := by
  have inWrites : ((c.writesOn q).map Posting.group)[j]? = some write.group := by
    rw [List.getElem?_map, posted]
    rfl
  obtain ⟨inside, isWrite⟩ := List.getElem?_eq_some_iff.mp inWrites
  have inReceives := List.prefix_iff_getElem?.mp (scheduled.lockstep q) j inside
  rw [isWrite, List.getElem?_map] at inReceives
  obtain ⟨receive, isReceive, same⟩ := Option.map_eq_some_iff.mp inReceives
  exact ⟨receive, isReceive, same⟩

/-- A receive call whose message is not posted has a receive that nothing took. -/
theorem Scheduled.waits (scheduled : Scheduled setup c) {call : Nat}
    (notSent : c.send.fifoHead ≤ call) (announced : call < c.history.length) :
    ∃ receive ∈ c.recv.ep.posted, receive.IsRecv ∧ receive.group = call := by
  have member := mem_roundsOn_start setup.send.nqps setup.send.perMessage_positive announced
  rw [← scheduled.receivesOn_groups] at member
  obtain ⟨receive, isReceive, isCall⟩ := List.mem_map.mp member
  generalize setup.send.perMessage * call % setup.send.nqps = q at isReceive
  obtain ⟨j, inside, isJ⟩ := List.getElem_of_mem isReceive
  -- the messages on the queue pair are of earlier groups
  have behind : (c.writesOn q).length ≤ j := by
    by_contra early
    have placed := List.getElem?_eq_getElem (Nat.not_le.mp early)
    obtain ⟨other, isOther, same⟩ := scheduled.same_group placed
    rw [List.getElem?_eq_getElem inside, isJ] at isOther
    obtain rfl := Option.some.inj isOther
    have sent : receive.group < c.send.fifoHead := by
      apply roundsOn_lt
      rw [← scheduled.writesOn_groups q, same]
      exact List.mem_map_of_mem (List.getElem_mem _)
    omega
  have left := scheduled.arrived q
  refine ⟨receive, ?_, ?_, isCall⟩
  · have pending : receive ∈ receivesOn c.recv.ep.posted q := by
      rw [scheduled.pending q]
      refine List.mem_of_getElem? (i := j - c.delivered q) ?_
      rw [List.getElem?_drop, Nat.add_sub_cancel' (Nat.le_trans left behind),
        List.getElem?_eq_getElem inside, isJ]
    exact (List.mem_filter.mp pending).1
  · have kept := (List.mem_filter.mp isReceive).2
    rw [Bool.and_eq_true] at kept
    exact kept.1

end

/-! ## Erasing from a filtered list -/

section

variable {α : Type} {p : α → Bool}

/-- Erasing an element that a filter drops. -/
theorem filter_eraseIdx_dropped {items : List α} {position : Nat} {item : α}
    (placed : items[position]? = some item) (dropped : p item = false) :
    (items.eraseIdx position).filter p = items.filter p := by
  obtain ⟨inside, rfl⟩ := List.getElem?_eq_some_iff.mp placed
  have whole : items = items.take position ++ items[position] :: items.drop (position + 1) := by
    rw [List.getElem_cons_drop, List.take_append_drop]
  conv_rhs => rw [whole]
  rw [List.eraseIdx_eq_take_drop_succ, List.filter_append, List.filter_append,
    List.filter_cons_of_neg (by simp [dropped])]

/-- Erasing the first element that a filter keeps. -/
theorem filter_eraseIdx_first {items : List α} {position : Nat}
    (first : items.findIdx? p = some position) :
    ∃ item rest, items[position]? = some item ∧ items.filter p = item :: rest ∧
      (items.eraseIdx position).filter p = rest := by
  obtain ⟨inside, kept, before⟩ := List.findIdx?_eq_some_iff_getElem.mp first
  have none : (items.take position).filter p = [] := by
    apply List.filter_eq_nil_iff.mpr
    intro item member
    obtain ⟨j, below, rfl⟩ := List.getElem_of_mem member
    rw [List.length_take] at below
    rw [List.getElem_take]
    exact before j (by omega)
  have whole : items = items.take position ++ items[position] :: items.drop (position + 1) := by
    rw [List.getElem_cons_drop, List.take_append_drop]
  refine ⟨items[position], (items.drop (position + 1)).filter p,
    List.getElem?_eq_getElem inside, ?_, ?_⟩
  · conv_lhs => rw [whole]
    rw [List.filter_append, none, List.nil_append, List.filter_cons_of_pos kept]
  · rw [List.eraseIdx_eq_take_drop_succ, List.filter_append, none, List.nil_append]

end

/-! ## Every step -/

/-- The keys of the postings of a message. -/
theorem Sent.keys {setup : SendSetup} {comm after : SendComm} {reqs : List ReqId}
    {first : ReqId} {postings : List Posting} (sent : Sent setup comm reqs first after postings) :
    postings.map Posting.key =
      (roundRobin setup.nqps comm.ep.qpIndex setup.perMessage).map
        fun q => (QpRef.data q, comm.fifoHead) := by
  have routed : Posting.key = Posting.key ∘ Posting.route := rfl
  rw [routed, ← List.map_map, sent.routes, List.map_map]
  rfl

/-- The receives among the postings of a call. -/
theorem recvPostings_isRecv (setup : RecvSetup) (comm : RecvComm) (i : ReqId) :
    (comm.recvPostings setup i).filter Posting.IsRecv = comm.recvPostings setup i := by
  rw [List.filter_eq_self]
  intro posting member
  obtain ⟨q, _, rfl⟩ := List.mem_map.mp member
  rfl

/-- An announcement is no receive. -/
theorem ctsPostings_isRecv (setup : RecvSetup) (comm : RecvComm) (nreqs : Nat) (i : ReqId) :
    (comm.ctsPostings setup nreqs i).filter Posting.IsRecv = [] := by
  unfold RecvComm.ctsPostings
  split <;> rfl

/-- The reads of a flush are no receives. -/
theorem flushPostings_isRecv (setup : RecvSetup) (last : RecvArg) (group : Nat) (i : ReqId)
    (devs : List Dev) :
    (devs.map (flushPosting setup last group i)).filter Posting.IsRecv = [] := by
  rw [List.filter_eq_nil_iff]
  intro posting member
  obtain ⟨dev, _, rfl⟩ := List.mem_map.mp member
  simp [Posting.IsRecv, flushPosting]

/-- Where the receives of a list are the same, so are those on each queue pair. -/
theorem receivesOn_congr {postings more : List Posting}
    (same : postings.filter Posting.IsRecv = more.filter Posting.IsRecv) (q : Nat) :
    receivesOn postings q = receivesOn more q := by
  rw [receivesOn_eq, receivesOn_eq, same]

/-- A message is posted only for a call that was announced. -/
theorem Hit.announced {c : Connection} {comm : SendComm} {tag : Int32} {r : Nat} {i : ReqId}
    {recv : NcclIbSendFifo} (hit : Hit c.calls comm tag r i recv) :
    comm.fifoHead < c.history.length := by
  by_contra beyond
  have isRecv := hit.isRecv
  rw [Connection.calls, List.getD_eq_getElem?_getD,
    List.getElem?_eq_none (Nat.not_lt.mp beyond)] at isRecv
  simp at isRecv

/-- What the schedule reads of the two ends. -/
structure SameSchedule (c after : Connection) : Prop where
  history : after.history = c.history
  fifoHead : after.send.fifoHead = c.send.fifoHead
  sendIndex : after.send.ep.qpIndex = c.send.ep.qpIndex
  sendLog : after.send.ep.log = c.send.ep.log
  fifoTail : after.recv.fifoTail = c.recv.fifoTail
  recvIndex : after.recv.ep.qpIndex = c.recv.ep.qpIndex
  recvLog : after.recv.ep.log.filter Posting.IsRecv = c.recv.ep.log.filter Posting.IsRecv
  posted : after.recv.ep.posted.filter Posting.IsRecv = c.recv.ep.posted.filter Posting.IsRecv
  delivered : after.delivered = c.delivered

section

variable {setup : ConnSetup} {c : Connection}

theorem Scheduled.congr (scheduled : Scheduled setup c) {after : Connection}
    (same : SameSchedule c after) : Scheduled setup after := by
  obtain ⟨tail, head, sendIndex, recvIndex, writes, receives, arrived, pending⟩ := scheduled
  have writesOn (q : Nat) : after.writesOn q = c.writesOn q := by
    rw [Connection.writesOn, Connection.writesOn, same.sendLog]
  constructor
  · rw [same.fifoTail, same.history, tail]
  · rw [same.fifoHead, same.history]
    exact head
  · rw [same.sendIndex, same.fifoHead, sendIndex]
  · rw [same.recvIndex, same.history, recvIndex]
  · rw [same.sendLog, same.fifoHead, writes]
  · rw [same.recvLog, same.history, receives]
  · intro q
    rw [same.delivered, writesOn]
    exact arrived q
  · intro q
    rw [receivesOn_congr same.posted, receivesOn_congr same.recvLog, same.delivered, pending]

/-- Posting the message of the next call takes the queue pairs that the schedule has for
it. -/
theorem Scheduled.sent (scheduled : Scheduled setup c) {comm send : SendComm}
    {reqs : List ReqId} {first : ReqId} {postings : List Posting}
    (sent : Sent setup.send comm reqs first send postings)
    (head : comm.fifoHead = c.send.fifoHead) (index : comm.ep.qpIndex = c.send.ep.qpIndex)
    (log : comm.ep.log = c.send.ep.log) (announced : comm.fifoHead < c.history.length)
    (matched : List Match) :
    Scheduled setup { c with send := send, matched := matched } := by
  have more (q : Nat) : ({ c with send := send, matched := matched } : Connection).writesOn q =
      c.writesOn q ++ postings.filter (Posting.OnQp q) := by
    simp only [Connection.writesOn, sent.log, log, List.filter_append]
  refine ⟨scheduled.tail, ?_, ?_, scheduled.recvIndex, ?_, scheduled.receives, ?_,
    scheduled.pending⟩
  · rw [sent.fifoHead]
    exact announced
  · rw [sent.qpIndex, sent.fifoHead, index, head, scheduled.sendIndex]
    exact roundEnd_round _ _ _
  · rw [sent.log, sent.fifoHead, log, List.map_append, scheduled.writes, sent.keys, index, head,
      scheduled.sendIndex, keys_succ]
  · intro q
    rw [more, List.length_append]
    exact Nat.le_add_right_of_le (scheduled.arrived q)

/-- A receive call takes the queue pairs that the schedule has for it. -/
theorem Scheduled.received (scheduled : Scheduled setup c) {recvs : List RecvArg} {i : ReqId}
    {recv : RecvComm} (received : Received setup.recv c.recv recvs i recv) :
    Scheduled setup (c.receive recv recvs.length) := by
  have logged : recv.ep.log.filter Posting.IsRecv =
      c.recv.ep.log.filter Posting.IsRecv ++ c.recv.recvPostings setup.recv i := by
    rw [received.log, List.filter_append, List.filter_append, recvPostings_isRecv]
    simp [RecvComm.ctsPosting, ctsPosting, Posting.IsRecv]
  have posted : recv.ep.posted.filter Posting.IsRecv =
      c.recv.ep.posted.filter Posting.IsRecv ++ c.recv.recvPostings setup.recv i := by
    rw [received.posted, List.filter_append, List.filter_append, recvPostings_isRecv,
      ctsPostings_isRecv, List.append_nil]
  have length : (c.receive recv recvs.length).history.length = c.history.length + 1 := by
    simp [Connection.receive]
  refine ⟨?_, ?_, scheduled.sendIndex, ?_, scheduled.writes, ?_, scheduled.arrived, ?_⟩
  · rw [length]
    exact received.fifoTail.trans (by rw [scheduled.tail])
  · rw [length]
    exact Nat.le_succ_of_le scheduled.head
  · rw [length]
    have index : recv.ep.qpIndex = _ := received.qpIndex
    rw [scheduled.recvIndex, setup.sameQps, setup.samePerMessage, roundEnd_round] at index
    exact index
  · rw [length, keys_succ, ← scheduled.receives]
    have keys : (c.recv.recvPostings setup.recv i).map Posting.key =
        (roundRobin setup.send.nqps (setup.send.perMessage * c.history.length % setup.send.nqps)
          setup.send.perMessage).map fun q => (QpRef.data q, c.history.length) := by
      rw [RecvComm.recvPostings, List.map_map, setup.sameQps, setup.samePerMessage,
        scheduled.recvIndex, scheduled.tail]
      rfl
    have logged' : (c.receive recv recvs.length).recv.ep.log.filter Posting.IsRecv = _ := logged
    rw [logged', List.map_append, keys]
  · intro q
    have before := scheduled.pending q
    have short : c.delivered q ≤ (receivesOn c.recv.ep.log q).length :=
      Nat.le_trans (scheduled.arrived q) (scheduled.ahead q)
    change receivesOn recv.ep.posted q = (receivesOn recv.ep.log q).drop (c.delivered q)
    rw [receivesOn_eq] at before ⊢
    rw [receivesOn_eq] at before short
    rw [receivesOn_eq, posted, logged, List.filter_append, List.filter_append, before,
      List.drop_append_of_le_length short]

/-- The next message of a queue pair takes the next receive. -/
theorem Scheduled.delivered (scheduled : Scheduled setup c) {q position : Nat} {write : Posting}
    {recv : RecvComm} {ep : Endpoint} {immData : UInt32}
    (next : (c.writesOn q)[c.delivered q]? = some write)
    (oldest : c.recv.ep.posted.findIdx? (fun posting => posting.IsRecv && posting.OnQp q) =
      some position)
    (completed : c.recv.ep.complete position immData = some ep)
    (tail : recv.fifoTail = c.recv.fifoTail) (posted : recv.ep.posted = ep.posted)
    (log : recv.ep.log = ep.log) (index : recv.ep.qpIndex = ep.qpIndex) :
    Scheduled setup { c with
      recv := recv
      delivered := Function.update c.delivered q (c.delivered q + 1) } := by
  obtain ⟨taken, rest, placed, kept, erased⟩ := filter_eraseIdx_first oldest
  obtain ⟨posting, isPosting, rfl⟩ := Option.map_eq_some_iff.mp completed
  obtain rfl := Option.some.inj (isPosting.symm.trans placed)
  obtain ⟨inside, _⟩ := List.getElem?_eq_some_iff.mp next
  refine ⟨tail.trans scheduled.tail, scheduled.head, scheduled.sendIndex,
    index.trans scheduled.recvIndex, scheduled.writes, ?_, ?_, ?_⟩
  · change (recv.ep.log.filter Posting.IsRecv).map Posting.key = _
    rw [log]
    exact scheduled.receives
  · intro q'
    by_cases here : q' = q
    · subst here
      change Function.update c.delivered q' (c.delivered q' + 1) q' ≤ (c.writesOn q').length
      rw [Function.update_self]
      exact inside
    · change Function.update c.delivered q (c.delivered q + 1) q' ≤ (c.writesOn q').length
      rw [Function.update_of_ne here]
      exact scheduled.arrived q'
  · intro q'
    change receivesOn recv.ep.posted q' = (receivesOn recv.ep.log q').drop
      (Function.update c.delivered q (c.delivered q + 1) q')
    rw [posted, log]
    change receivesOn (c.recv.ep.posted.eraseIdx position) q' = (receivesOn c.recv.ep.log q').drop _
    have before := scheduled.pending q'
    by_cases here : q' = q
    · subst here
      have first : receivesOn c.recv.ep.posted q' = posting :: rest := kept
      have left : receivesOn (c.recv.ep.posted.eraseIdx position) q' = rest := erased
      rw [Function.update_self, left, ← List.drop_drop, ← before, first]
      rfl
    · rw [Function.update_of_ne here, ← before]
      apply filter_eraseIdx_dropped placed
      have onQp : posting.OnQp q = true := by
        have keeps := (List.findIdx?_eq_some_iff_getElem.mp oldest).2.1
        obtain ⟨within, isTaken⟩ := List.getElem?_eq_some_iff.mp placed
        rw [isTaken] at keeps
        exact (Bool.and_eq_true _ _ ▸ keeps).2
      have other : posting.OnQp q' = false := by
        simp only [Posting.OnQp, decide_eq_true_eq, decide_eq_false_iff_not] at onQp ⊢
        rw [onQp]
        exact fun same => here (QpRef.data.inj same).symm
      rw [other, Bool.and_false]

/-- One step keeps both ends on the schedule. -/
theorem Scheduled.step (scheduled : Scheduled setup c) (linked : Linked setup.toEnds c)
    {event : ConnEvent} {after : Connection} (stepped : ConnStep setup.toEnds c event after) :
    Scheduled setup after := by
  cases stepped with
  | sent effect =>
    cases effect with
    | nothing => exact scheduled.congr ⟨rfl, rfl, rfl, rfl, rfl, rfl, rfl, rfl, rfl⟩
    | matched => exact scheduled.congr ⟨rfl, rfl, rfl, rfl, rfl, rfl, rfl, rfl, rfl⟩
    | posted hit full =>
      obtain ⟨postings, sent⟩ := SendComm.post_sent
        (linked.sendOk.hit linked.announced hit _ _ _).inside full.isFirst
      exact scheduled.sent sent rfl rfl rfl hit.announced _
  | sendCompleted completed =>
    obtain ⟨_, _, rfl⟩ := Option.map_eq_some_iff.mp completed
    exact scheduled.congr ⟨rfl, rfl, rfl, rfl, rfl, rfl, rfl, rfl, rfl⟩
  | sendWaits settles _ =>
    have kept := settles.kept linked.sendOk.accounted
    exact scheduled.congr ⟨rfl, rfl, kept.qpIndex, kept.log, rfl, rfl, rfl, rfl, rfl⟩
  | sendDone settles _ _ _ =>
    have kept := settles.kept linked.sendOk.accounted
    exact scheduled.congr ⟨rfl, rfl, kept.qpIndex, kept.log, rfl, rfl, rfl, rfl, rfl⟩
  | refused => exact scheduled
  | received _ _ _ received => exact scheduled.received received
  | flushed _ effect =>
    cases effect with
    | nothing => exact scheduled
    | flushed _ flushes =>
      have rest := flushes.rest
      refine scheduled.congr ⟨rfl, rfl, rfl, rfl, rfl, ?_, ?_, ?_, rfl⟩
      · rw [rest]
        rfl
      · rw [rest]
        simp only [List.filter_append, flushPostings_isRecv, List.append_nil]
        rfl
      · rw [rest]
        simp only [List.filter_append, flushPostings_isRecv, List.append_nil]
        rfl
  | @recvCompleted position ep notRecv completed =>
    obtain ⟨posting, placed, rfl⟩ := Option.map_eq_some_iff.mp completed
    refine scheduled.congr ⟨rfl, rfl, rfl, rfl, rfl, rfl, rfl, ?_, rfl⟩
    exact filter_eraseIdx_dropped placed (notRecv posting placed)
  | recvWaits settles _ =>
    have kept := settles.kept linked.recvOk.accounted
    exact scheduled.congr ⟨rfl, rfl, rfl, rfl, rfl, kept.qpIndex, by rw [kept.log],
      by rw [kept.posted], rfl⟩
  | recvDone settles _ _ _ =>
    have kept := settles.kept linked.recvOk.accounted
    exact scheduled.congr ⟨rfl, rfl, rfl, rfl, rfl, kept.qpIndex, congrArg _ kept.log,
      congrArg _ kept.posted, rfl⟩
  | landed => exact scheduled.congr ⟨rfl, rfl, rfl, rfl, rfl, rfl, rfl, rfl, rfl⟩
  | delivered next oldest completed =>
    obtain ⟨sizesFifo, middle, taken, rfl⟩ := deliver_complete completed
    exact scheduled.delivered next oldest taken rfl rfl rfl rfl

/-- Every run keeps both ends on the schedule. -/
theorem connection_scheduled {permitted : Connection → ConnEvent → Prop}
    (reached : (connection setup.toEnds).Reaches permitted c) : Scheduled setup c := by
  induction reached with
  | start first => exact Scheduled.fresh first
  | next before _ stepped ih =>
    have linked := connection_linked before
    exact ih.step linked (linked.connStep stepped)

end

end NcclExts.Unet
