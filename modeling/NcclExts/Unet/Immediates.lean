import NcclExts.Unet.Matching

/-!
# The immediates that receives complete with

A message takes the oldest receive of its queue pair. Both ends being in lockstep, that
receive belongs to the call that the message answers, so the completion of a receive
carries the immediate of the send that was matched to it.
-/

namespace NcclExts.Unet

open NcclExts.Foundation NcclExts.Ucommd

namespace Endpoint

/-- A test takes completions off the queues. -/
theorem Settles.queues {owed : ReqId → Dev → Nat} {ep after : Endpoint}
    (settles : Settles ep after) (accounted : Accounted owed ep) (dev : Dev) :
    ∀ wc ∈ after.cqs dev, wc ∈ ep.cqs dev := by
  refine @Settles.keeps owed (fun later => ∀ wc ∈ later.cqs dev, wc ∈ ep.cqs dev) ep after settles
    accounted ?_ fun _ member => member
  intro later dev' head rest _ queue held wc member
  apply held wc
  by_cases here : dev = dev'
  · subst here
    have left : wc ∈ rest := by simpa [Endpoint.settle, setCq] using member
    rw [queue]
    exact List.mem_cons_of_mem head left
  · simpa [Endpoint.settle, setCq, here] using member

end Endpoint

/-- Every receive that completed carries the immediate of a message of its call. -/
def Connection.Immediate (c : Connection) : Prop :=
  ∀ dev, ∀ wc ∈ c.recv.ep.cqs dev, wc.posting.IsRecv = true →
    ∃ write ∈ c.send.ep.log, write.group = wc.posting.group ∧ wc.immData = write.immData

section

variable {setup : ConnSetup} {c : Connection}

theorem Connection.Immediate.fresh (fresh : c.Fresh) : c.Immediate := by
  obtain ⟨_, ⟨base, _⟩, _⟩ := fresh
  obtain ⟨_, _, _, _, _, _, _, cqs⟩ := base
  intro dev wc member
  simp [cqs] at member

/-- Fewer completions of receives, and more messages. -/
theorem Connection.Immediate.congr {after : Connection} (immediate : c.Immediate)
    (queues : ∀ dev, ∀ wc ∈ after.recv.ep.cqs dev, wc.posting.IsRecv = true →
      wc ∈ c.recv.ep.cqs dev)
    (log : ∀ write ∈ c.send.ep.log, write ∈ after.send.ep.log) : after.Immediate := by
  intro dev wc member isRecv
  obtain ⟨write, sent, group, same⟩ := immediate dev wc (queues dev wc member isRecv) isRecv
  exact ⟨write, log write sent, group, same⟩

/-- The receive that the next message of a queue pair takes is of its call. -/
theorem Scheduled.takes (scheduled : Scheduled setup c) {q position : Nat}
    {write taken : Posting} (next : (c.writesOn q)[c.delivered q]? = some write)
    (oldest : c.recv.ep.posted.findIdx? (fun posting => posting.IsRecv && posting.OnQp q) =
      some position)
    (placed : c.recv.ep.posted[position]? = some taken) : taken.group = write.group := by
  obtain ⟨receive, isReceive, same⟩ := scheduled.same_group next
  obtain ⟨first, rest, isFirst, kept, _⟩ := filter_eraseIdx_first oldest
  obtain rfl := Option.some.inj (placed.symm.trans isFirst)
  have pending := scheduled.pending q
  have front : receivesOn c.recv.ep.posted q = taken :: rest := kept
  have head := congrArg (fun postings : List Posting => postings[0]?) (front.symm.trans pending)
  simp only [List.getElem?_cons_zero, List.getElem?_drop, Nat.add_zero, isReceive] at head
  rw [Option.some.inj head, same]

/-- One step keeps the immediates. -/
theorem Connection.Immediate.step (immediate : c.Immediate) (linked : Linked setup.toEnds c)
    (scheduled : Scheduled setup c) {event : ConnEvent} {after : Connection}
    (stepped : ConnStep setup.toEnds c event after) : after.Immediate := by
  cases stepped with
  | sent effect =>
    refine immediate.congr (fun _ _ member _ => member) ?_
    cases effect with
    | nothing => exact fun _ member => member
    | matched => exact fun _ member => member
    | posted hit full =>
      obtain ⟨postings, sent⟩ := SendComm.post_sent
        (linked.sendOk.hit linked.announced hit _ _ _).inside full.isFirst
      intro write member
      change write ∈ (SendComm.post setup.send _ _ _).ep.log
      rw [sent.log]
      exact List.mem_append_left _ member
  | sendCompleted completed =>
    obtain ⟨_, _, rfl⟩ := Option.map_eq_some_iff.mp completed
    exact immediate.congr (fun _ _ member _ => member) fun _ member => member
  | sendWaits settles _ =>
    have kept := settles.kept linked.sendOk.accounted
    exact immediate.congr (fun _ _ member _ => member) fun _ member => kept.log ▸ member
  | sendDone settles _ _ _ =>
    have kept := settles.kept linked.sendOk.accounted
    refine immediate.congr (fun _ _ member _ => member) fun write member => ?_
    change write ∈ (Endpoint.ncclIbFreeRequest _ _).log
    exact kept.log ▸ member
  | refused => exact immediate
  | received _ _ _ received =>
    refine immediate.congr (fun dev wc member _ => ?_) fun _ member => member
    have same : _ = c.recv.ep.cqs := received.cqs
    exact same ▸ member
  | flushed _ effect =>
    cases effect with
    | nothing => exact immediate
    | flushed _ flushes =>
      refine immediate.congr (fun dev wc member _ => ?_) fun _ member => member
      have same := congrArg Endpoint.cqs flushes.rest
      change wc ∈ Endpoint.cqs _ dev at member
      rw [same] at member
      exact member
  | @recvCompleted position ep notRecv completed =>
    obtain ⟨posting, placed, rfl⟩ := Option.map_eq_some_iff.mp completed
    refine immediate.congr (fun dev wc member isRecv => ?_) fun _ member => member
    by_cases here : dev = posting.dev
    · subst here
      simp only [Function.update_self] at member
      rcases List.mem_append.mp member with old | new
      · exact old
      · rw [List.mem_singleton.mp new] at isRecv
        rw [notRecv posting placed] at isRecv
        exact absurd isRecv (by decide)
    · simpa [here] using member
  | recvWaits settles _ =>
    exact immediate.congr
      (fun dev wc member _ => settles.queues linked.recvOk.accounted dev wc member)
      fun _ member => member
  | recvDone settles _ _ _ =>
    exact immediate.congr
      (fun dev wc member _ => settles.queues linked.recvOk.accounted dev wc member)
      fun _ member => member
  | landed => exact immediate.congr (fun _ _ member _ => member) fun _ member => member
  | @delivered q position write ep next oldest completed =>
    obtain ⟨sizesFifo, middle, taken, rfl⟩ := deliver_complete completed
    obtain ⟨posting, placed, rfl⟩ := Option.map_eq_some_iff.mp taken
    have group := scheduled.takes next oldest placed
    intro dev wc member isRecv
    by_cases here : dev = posting.dev
    · subst here
      simp only [Function.update_self] at member
      rcases List.mem_append.mp member with old | new
      · exact immediate _ wc old isRecv
      · rw [List.mem_singleton.mp new]
        refine ⟨write, ?_, group.symm, rfl⟩
        exact (List.mem_filter.mp (List.mem_of_getElem? next)).1
    · refine immediate dev wc ?_ isRecv
      simpa [here] using member

/-- Every run keeps the immediates. -/
theorem connection_immediate {permitted : Connection → ConnEvent → Prop}
    (reached : (connection setup.toEnds).Reaches permitted c) : c.Immediate := by
  induction reached with
  | start first => exact Connection.Immediate.fresh first
  | next before _ stepped ih =>
    have linked := connection_linked before
    exact ih.step linked (connection_scheduled before) (linked.connStep stepped)

/-- A receive that completed carries what the send that was matched to its call left in the
immediate. -/
theorem Connection.Immediate.carried (immediate : c.Immediate) (answered : Answered setup.send c)
    {dev : Dev} {wc : IbvWc} (member : wc ∈ c.recv.ep.cqs dev)
    (isRecv : wc.posting.IsRecv = true) :
    ∃ m ∈ c.matched, m.place = (wc.posting.group, 0) ∧
      wc.immData = if (c.calls wc.posting.group).length = 1 then (m.clipped c.calls).toUInt32
        else 0 := by
  obtain ⟨write, sent, group, same⟩ := immediate dev wc member isRecv
  obtain ⟨p, placed⟩ := List.getElem?_of_mem sent
  have carries := (answered.answers p write placed).2
  have some : 0 < (c.calls write.group).length := carries.members ▸ carries.nonempty
  obtain ⟨m, matched, place⟩ := answered.whole _ 0 (answered.grouped write sent) some
  rw [← group]
  refine ⟨m, matched, place, ?_⟩
  rw [same, carries.immediate m matched place, carries.members]

/-- On every queue pair the messages and the receives of one position are of one call, no more
messages than receives are posted, and a receive completes with the immediate of the send
that was matched to its call. -/
theorem queue_pair_lockstep (setup : ConnSetup) {c : Connection}
    (reached : (connection setup.toEnds).Reachable c) :
    (∀ (q j : Nat) (write receive : Posting), (c.writesOn q)[j]? = some write →
      (receivesOn c.recv.ep.log q)[j]? = some receive → write.group = receive.group) ∧
    (∀ q, (c.writesOn q).length ≤ (receivesOn c.recv.ep.log q).length) ∧
    (∀ write ∈ c.send.ep.log,
      (write.chain.filter fun wr => wr.opcode = .rdmaWriteWithImm).length = 1) ∧
    ∀ dev, ∀ wc ∈ c.recv.ep.cqs dev, wc.posting.IsRecv = true →
      (∃ write ∈ c.send.ep.log, write.group = wc.posting.group ∧ wc.immData = write.immData) ∧
      ∃ m ∈ c.matched, m.place = (wc.posting.group, 0) ∧
        wc.immData = if (c.calls wc.posting.group).length = 1 then (m.clipped c.calls).toUInt32
          else 0 := by
  have scheduled := connection_scheduled reached
  have answered := connection_answered reached
  refine ⟨?_, scheduled.ahead, ?_, ?_⟩
  · intro q j write receive isWrite isReceive
    obtain ⟨other, isOther, same⟩ := scheduled.same_group isWrite
    rw [Option.some.inj (isReceive.symm.trans isOther), same]
  · intro write member
    obtain ⟨p, placed⟩ := List.getElem?_of_mem member
    obtain ⟨front, last, _, whole, plain, _, ends⟩ := (answered.answers p write placed).2.closes
    have none : front.filter (fun wr => wr.opcode = .rdmaWriteWithImm) = [] := by
      rw [List.filter_eq_nil_iff]
      intro wr inFront
      obtain ⟨_, _, opcode⟩ := plain wr inFront
      simp [opcode]
    rw [whole, List.filter_append, none]
    simp [ends.opcode]
  · intro dev wc member isRecv
    have immediate := connection_immediate reached
    exact ⟨immediate dev wc member isRecv, immediate.carried answered member isRecv⟩

end

/-- One device with two queue pairs, which carry the messages in turn. -/
def ConnSetup.alternating : ConnSetup :=
  { send :=
      { ndevs := 1, nqps := 2, qps := fun _ => ⟨0, 0⟩, splitDataOnQps := false
        asyncEvents := true, ready := true, someDev := Nat.zero_lt_one, atMostTwo := oneDev_le
        someQp := Nat.zero_lt_two, onDevs := fun _ => Nat.one_pos, peerRank := 1, ar := false
        arThreshold := 8192, sizesLkeys := fun _ => 5, sizesRkeys := fun _ => 6
        narrow := wrapInt }
    recv :=
      { ndevs := 1, nqps := 2, qps := fun _ => ⟨0, 0⟩, splitDataOnQps := false
        asyncEvents := true, ready := true, someDev := Nat.zero_lt_one, atMostTwo := oneDev_le
        someQp := Nat.zero_lt_two, onDevs := fun _ => Nat.one_pos, fifoRkeys := fun _ => 3
        fifoLkeys := fun _ => 4, flushEnabled := true, flushLkeys := fun _ => 8 }
    inline := false, sameDevs := rfl, sameQps := rfl, sameSplit := rfl }

/-- Two receives and their sends, of which the second message arrives first. -/
def secondFirst : Connection :=
  ((connection ConnSetup.alternating.toEnds).replay .initial [.irecv [.buffer 3],
    .irecv [.buffer 4], .landCts 0, .landCts 0, .isend 65536 80 3 (fun _ => 9),
    .isend 65664 90 4 (fun _ => 9), .deliver 1]).get (by decide)

theorem secondFirst_reached : (connection ConnSetup.alternating.toEnds).Reachable secondFirst :=
  have start : (connection ConnSetup.alternating.toEnds).Reachable .initial :=
    .start Connection.initial_fresh
  start.replay _ (Option.some_get _).symm

/-- The one completion carries the size of the second send. -/
theorem queue_pair_lockstep_secondFirst :
    (secondFirst.recv.ep.cqs 0).map IbvWc.immData = [90] ∧
      ∀ wc ∈ secondFirst.recv.ep.cqs 0, wc.posting.IsRecv = true →
        ∃ m ∈ secondFirst.matched, m.place = (wc.posting.group, 0) := by
  refine ⟨by decide +kernel, fun wc member isRecv => ?_⟩
  obtain ⟨_, m, matched, place, _⟩ :=
    (queue_pair_lockstep .alternating secondFirst_reached).2.2.2 0 wc member isRecv
  exact ⟨m, matched, place⟩

end NcclExts.Unet
