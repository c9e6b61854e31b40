import NcclExts.Unet.SizesFifo

/-!
# The request of a receive call

A receive call that goes through keeps one request until the request is tested and done.
The receives of the call are posted for that request, and those that nothing took tell
which call the request is for.
-/

namespace NcclExts.Unet

open NcclExts.Foundation NcclExts.Ucommd

/-- A receive in use has a call, and the receives of a call are for one request. Those that
nothing took are in the history, and of the call that their request has now. -/
structure Called (c : Connection) : Prop where
  calls : ∀ i, (c.recv.ep.reqs i).type = .recv → ∃ call, c.callOf i = some call
  one : ∀ posting ∈ c.recv.ep.log, ∀ other ∈ c.recv.ep.log, posting.IsRecv = true →
    other.IsRecv = true → posting.group = other.group → posting.request = other.request
  logged : ∀ posting ∈ c.recv.ep.posted, posting.IsRecv = true → posting ∈ c.recv.ep.log
  current : ∀ posting ∈ c.recv.ep.posted, posting.IsRecv = true →
    c.callOf posting.request = some posting.group

/-- A step neither made nor posted a receive; requests may have been freed, and receives
taken. -/
structure RecvKept (c after : Connection) : Prop where
  types : ∀ i, (after.recv.ep.reqs i).type = .recv → (c.recv.ep.reqs i).type = .recv
  posted : ∀ posting ∈ after.recv.ep.posted, posting.IsRecv = true → posting ∈ c.recv.ep.posted
  log : after.recv.ep.log.filter Posting.IsRecv = c.recv.ep.log.filter Posting.IsRecv

/-- A posting of the schedule is on a queue pair of the connection. -/
theorem onQp_of_key {nqps perMessage groups : Nat} {posting : Posting}
    (key : posting.key ∈ keys nqps perMessage groups) (some : 0 < nqps) :
    ∃ q, q < nqps ∧ ∀ q', posting.OnQp q' = decide (q' = q) := by
  obtain ⟨entry, inSchedule, isKey⟩ := List.mem_map.mp key
  obtain ⟨round, _, inRound⟩ := List.mem_flatMap.mp inSchedule
  obtain ⟨q, onRound, rfl⟩ := List.mem_map.mp inRound
  refine ⟨q, roundRobin_lt (Nat.mod_lt _ some) q onRound, fun q' => ?_⟩
  have qp : posting.qp = .data q := (congrArg Prod.fst isKey).symm
  simp only [Posting.OnQp, qp, QpRef.data.injEq]
  exact decide_eq_decide.mpr eq_comm

section

variable {setup : ConnSetup} {c : Connection}

theorem Called.fresh (fresh : c.Fresh) : Called c := by
  obtain ⟨_, recv, _⟩ := fresh
  obtain ⟨⟨reqs, _, _, _, _, posted, log, _⟩, _⟩ := recv
  constructor <;> simp [reqs, posted, log, NcclIbRequest.zero]

/-- Only the types of the requests and the receives matter. -/
theorem Called.congr (called : Called c) {after : Connection} (kept : RecvKept c after) :
    Called after := by
  have older {posting : Posting} (member : posting ∈ after.recv.ep.log)
      (isRecv : posting.IsRecv = true) : posting ∈ c.recv.ep.log := by
    have inLog := List.mem_filter.mpr ⟨member, isRecv⟩
    rw [kept.log] at inLog
    exact (List.mem_filter.mp inLog).1
  constructor
  · intro i type
    obtain ⟨call, isCall⟩ := called.calls i (kept.types i type)
    exact ⟨call, (lastGroup_congr kept.log i).trans isCall⟩
  · intro posting member other member' isRecv isRecv' same
    exact called.one posting (older member isRecv) other (older member' isRecv') isRecv isRecv' same
  · intro posting member isRecv
    have inLog := List.mem_filter.mpr
      ⟨called.logged posting (kept.posted posting member isRecv) isRecv, isRecv⟩
    rw [← kept.log] at inLog
    exact (List.mem_filter.mp inLog).1
  · intro posting member isRecv
    exact (lastGroup_congr kept.log _).trans
      (called.current posting (kept.posted posting member isRecv) isRecv)

theorem Called.received (called : Called c) (linked : Linked setup.toEnds c)
    (scheduled : Scheduled setup c) {recvs : List RecvArg} {i : ReqId} {recv : RecvComm}
    (unused : (c.recv.ep.reqs i).type = .unused)
    (received : Received setup.recv c.recv recvs i recv) :
    Called (c.receive recv recvs.length) := by
  have sorted {posting : Posting} (member : posting ∈ recv.ep.log)
      (isRecv : posting.IsRecv = true) :
      posting ∈ c.recv.ep.log ∧ posting.group < c.recv.fifoTail ∨
        posting.request = i ∧ posting.group = c.recv.fifoTail := by
    rw [received.log] at member
    rcases List.mem_append.mp member with old | new
    · exact .inl ⟨old, scheduled.tail ▸ scheduled.receive_made old isRecv⟩
    · rcases List.mem_append.mp new with receive | cts
      · exact .inr (mem_recvPostings receive).2
      · rw [List.mem_singleton.mp cts] at isRecv
        exact absurd isRecv Bool.false_ne_true
  have pending {posting : Posting} (member : posting ∈ recv.ep.posted)
      (isRecv : posting.IsRecv = true) :
      posting ∈ c.recv.ep.posted ∨ posting ∈ c.recv.recvPostings setup.recv i := by
    rw [received.posted] at member
    rcases List.mem_append.mp member with old | new
    · exact .inl old
    · rcases List.mem_append.mp new with receive | cts
      · exact .inr receive
      · have kept := List.mem_filter.mpr ⟨cts, isRecv⟩
        rw [ctsPostings_isRecv] at kept
        exact absurd kept List.not_mem_nil
  constructor
  · intro j type
    rw [received.callOf]
    by_cases new : j = i
    · exact ⟨_, if_pos new⟩
    · have type : (recv.ep.reqs j).type = .recv := type
      rw [received.others j new] at type
      rw [if_neg new]
      exact called.calls j type
  · intro posting member other member' isRecv isRecv' same
    rcases sorted member isRecv with ⟨old, earlier⟩ | ⟨request, here⟩
    · rcases sorted member' isRecv' with ⟨old', _⟩ | ⟨_, here'⟩
      · exact called.one posting old other old' isRecv isRecv' same
      · omega
    · rcases sorted member' isRecv' with ⟨_, earlier'⟩ | ⟨request', _⟩
      · omega
      · rw [request, request']
  · intro posting member isRecv
    change posting ∈ recv.ep.log
    rw [received.log]
    rcases pending member isRecv with old | new
    · exact List.mem_append_left _ (called.logged posting old isRecv)
    · exact List.mem_append_right _ (List.mem_append_left _ new)
  · intro posting member isRecv
    rw [received.callOf]
    rcases pending member isRecv with old | new
    · have other : posting.request ≠ i := by
        intro same
        exact linked.request_inUse old (same ▸ unused)
      rw [if_neg other]
      exact called.current posting old isRecv
    · obtain ⟨_, request, group⟩ := mem_recvPostings new
      rw [if_pos request, group]

/-- Every step but a receive call that goes through keeps the receives. -/
theorem Linked.recvKept (linked : Linked setup.toEnds c) {event : ConnEvent} {after : Connection}
    (stepped : ConnStep setup.toEnds c event after) :
    RecvKept c after ∨ ∃ recvs i recv, event = .irecv recvs ∧
      after = c.receive recv recvs.length ∧ (c.recv.ep.reqs i).type = .unused ∧
      Received setup.recv c.recv recvs i recv := by
  have same {after : Connection} (recv : after.recv = c.recv) : RecvKept c after :=
    ⟨fun _ type => recv ▸ type, fun _ member _ => recv ▸ member, by rw [recv]⟩
  have settled {settled : Endpoint} (settles : Endpoint.Settles c.recv.ep settled) :
      RecvKept c { c with recv := { c.recv with ep := settled } } := by
    have kept := settles.kept linked.recvOk.accounted
    refine ⟨fun i type => ?_, fun _ member _ => kept.posted ▸ member, congrArg _ kept.log⟩
    have type : (settled.reqs i).type = .recv := type
    rw [kept.reqs i] at type
    exact type
  cases stepped with
  | sent => exact .inl (same rfl)
  | sendCompleted => exact .inl (same rfl)
  | sendWaits => exact .inl (same rfl)
  | sendDone => exact .inl (same rfl)
  | refused => exact .inl (same rfl)
  | @received recvs i recv _ unused _ received =>
    exact .inr ⟨recvs, i, recv, rfl, rfl, unused, received⟩
  | flushed _ effect =>
    left
    cases effect with
    | nothing => exact same rfl
    | @flushed i last ep unused flushes =>
      refine ⟨fun j type => ?_, fun posting member isRecv => ?_, ?_⟩
      · have type : (ep.reqs j).type = .recv := type
        have other : j ≠ i := by
          rintro rfl
          rw [flushes.fields] at type
          simp [Endpoint.mapReq, Endpoint.setReq] at type
        rw [flushes.others j other] at type
        simpa [Endpoint.mapReq, Endpoint.setReq, other] using type
      · have member : posting ∈ ep.posted := member
        rw [congrArg Endpoint.posted flushes.rest] at member
        rcases List.mem_append.mp member with old | new
        · exact old
        · have kept := List.mem_filter.mpr ⟨new, isRecv⟩
          rw [flushPostings_isRecv] at kept
          exact absurd kept List.not_mem_nil
      · change ep.log.filter Posting.IsRecv = c.recv.ep.log.filter Posting.IsRecv
        rw [congrArg Endpoint.log flushes.rest, List.filter_append, flushPostings_isRecv,
          List.append_nil]
        rfl
  | recvCompleted _ completed =>
    obtain ⟨_, _, rfl⟩ := Option.map_eq_some_iff.mp completed
    exact .inl ⟨fun _ type => type, fun _ member _ => List.mem_of_mem_eraseIdx member, rfl⟩
  | recvWaits settles _ => exact .inl (settled settles)
  | @recvDone i later settles _ _ _ =>
    have kept := settled settles
    refine .inl ⟨fun j type => kept.types j ?_, kept.posted, kept.log⟩
    change (later.reqs j).type = .recv
    by_cases freed : j = i
    · subst freed
      simp [Endpoint.ncclIbFreeRequest, Endpoint.setReq] at type
    · simpa [Endpoint.ncclIbFreeRequest, Endpoint.setReq, freed] using type
  | landed => exact .inl (same rfl)
  | delivered _ _ completed =>
    obtain ⟨_, middle, taken, rfl⟩ := deliver_complete completed
    obtain ⟨_, _, rfl⟩ := Option.map_eq_some_iff.mp taken
    exact .inl ⟨fun _ type => type, fun _ member _ => List.mem_of_mem_eraseIdx member, rfl⟩

/-- One step keeps the requests of the calls. -/
theorem Called.step (called : Called c) (linked : Linked setup.toEnds c)
    (scheduled : Scheduled setup c) {event : ConnEvent} {after : Connection}
    (stepped : ConnStep setup.toEnds c event after) : Called after := by
  rcases linked.recvKept stepped with kept | ⟨_, _, _, rfl, rfl, unused, received⟩
  · exact called.congr kept
  · exact called.received linked scheduled unused received

/-- Every run keeps the requests of the calls. -/
theorem connection_called {permitted : Connection → ConnEvent → Prop}
    (reached : (connection setup.toEnds).Reaches permitted c) : Called c := by
  induction reached with
  | start first => exact Called.fresh first
  | next before _ stepped ih =>
    have linked := connection_linked before
    exact ih.step linked (connection_scheduled before) (linked.connStep stepped)

end

end NcclExts.Unet
