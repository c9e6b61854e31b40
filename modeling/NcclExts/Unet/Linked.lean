import NcclExts.Unet.Connection

/-!
# What links the two ends

What the receive calls of a connection announced is what its sender can find in the
FIFO, and each end keeps the invariant of its own runs against it. A step of a
connection then does one of a few things, each of them the effect of one call or of
one completion at one end.
-/

namespace NcclExts.Unet

open NcclExts.Foundation NcclExts.Ucommd

/-- An entry of the FIFO or of its staging rows is empty or was announced for its slot. -/
def Landable (calls : Calls) (slot r : Nat) (entry : NcclIbSendFifo) : Prop :=
  entry = .zero ∨ ∃ call, slot = call % maxRequests ∧ (calls call)[r]? = some entry

/-- Each end keeps its invariant, and what is staged or in flight was announced. -/
structure Linked (ends : Ends) (c : Connection) : Prop where
  sendOk : SendOk ends.send c.calls c.send
  recvOk : RecvOk ends.recv c.recv
  announced : ∀ call, Announced call (c.calls call)
  tail : c.recv.fifoTail = c.history.length
  staged : ∀ slot r, Landable c.calls slot r (c.recv.elems slot r)
  flying : ∀ entry ∈ c.cts, entry.2 < (c.calls entry.1).length

/-- Calls that keep what was announced. -/
def Extends (calls more : Calls) : Prop := ∀ call, calls call ≠ [] → more call = calls call

theorem Extends.getElem? {calls more : Calls} (extended : Extends calls more) {call r : Nat}
    {entry : NcclIbSendFifo} (placed : (calls call)[r]? = some entry) :
    (more call)[r]? = some entry := by
  have some : calls call ≠ [] := by
    intro none
    simp [none] at placed
  rw [extended call some]
  exact placed

theorem Landable.extend {calls more : Calls} (extended : Extends calls more) {slot r : Nat}
    {entry : NcclIbSendFifo} (landable : Landable calls slot r entry) :
    Landable more slot r entry := by
  rcases landable with zero | ⟨call, isSlot, placed⟩
  · exact Or.inl zero
  · exact Or.inr ⟨call, isSlot, extended.getElem? placed⟩

/-- A send comm does not mind calls to come. -/
theorem SendOk.extend {setup : SendSetup} {calls more : Calls} {comm : SendComm}
    (ok : SendOk setup calls comm) (extended : Extends calls more) : SendOk setup more comm := by
  have same {slot r : Nat} (taken : comm.fifoReqs slot r ≠ none) :
      more comm.fifoHead = calls comm.fifoHead := by
    apply extended
    intro none
    have below := (ok.row slot r taken).2
    simp [none] at below
  refine ⟨ok.accounted, ok.inside, ?_, ?_, ?_, ok.injective⟩
  · intro slot r
    exact Landable.extend extended (ok.landed slot r)
  · intro slot r taken
    rw [same taken]
    exact ok.row slot r taken
  · intro slot r i taken
    rw [same (by rw [taken]; simp)]
    exact ok.matched slot r i taken

/-- An entry that can land keeps the invariant of the send comm. -/
theorem SendOk.landing {setup : SendSetup} {calls : Calls} {comm : SendComm}
    (ok : SendOk setup calls comm) {slot r : Nat} {entry : NcclIbSendFifo}
    (landable : Landable calls slot r entry) :
    SendOk setup calls { comm with
      fifo := Function.update comm.fifo slot (Function.update (comm.fifo slot) r entry) } := by
  refine ⟨ok.accounted, ok.inside, ?_, ok.row, ok.matched, ok.injective⟩
  intro slot' r'
  by_cases here : slot' = slot
  · subst here
    by_cases same : r' = r
    · subst same
      simp only [Function.update_self]
      exact landable
    · simpa [same] using ok.landed slot' r'
  · simpa [here] using ok.landed slot' r'

/-- A completed posting that was not a receive of the connection. -/
def Connection.NotRecv (c : Connection) (position : Nat) : Prop :=
  ∀ posting, c.recv.ep.posted[position]? = some posting → posting.IsRecv = false

/-- What a receive call announces, as its staging row holds it. -/
def announcedBy (recv : RecvComm) (slot n : Nat) : List NcclIbSendFifo :=
  (List.range n).map (recv.elems slot)

/-- A receive call of `n` receives went through at the receiver. -/
def Connection.receive (c : Connection) (recv : RecvComm) (n : Nat) : Connection :=
  { c with
    recv := recv
    history := c.history ++ [announcedBy recv (c.recv.fifoTail % maxRequests) n]
    cts := c.cts ++ (List.range n).map (fun r => (c.recv.fifoTail, r)) }

/-- What a step of a connection does. -/
inductive ConnStep (ends : Ends) (c : Connection) : ConnEvent → Connection → Prop
  | sent {data : Int} {size tag : Int32} {lkeys : Dev → UInt32} {request : Option ReqId}
    {send : SendComm}
    (effect : IsendEffect ends.send c.calls c.send data size tag lkeys request send) :
    ConnStep ends c (.isend data size tag lkeys)
      { c with send := send, matched := c.matched ++ c.matchOf size tag request }
  | sendCompleted {position : Nat} {ep : Endpoint}
    (completed : c.send.ep.complete position 0 = some ep) :
    ConnStep ends c (.sendComplete position) { c with send := { c.send with ep := ep } }
  | sendWaits {i : ReqId} {settled : Endpoint} (settles : Endpoint.Settles c.send.ep settled)
    (accounted : Endpoint.Accounted (c.send.owed ends.send) settled) :
    ConnStep ends c (.sendTest i) { c with send := { c.send with ep := settled } }
  | sendDone {i : ReqId} {settled : Endpoint} (settles : Endpoint.Settles c.send.ep settled)
    (accounted : Endpoint.Accounted (c.send.owed ends.send) settled)
    (inUse : (c.send.ep.reqs i).type ≠ .unused) (finished : settled.Finished i) :
    ConnStep ends c (.sendTest i)
      { c with send := { c.send with ep := settled.ncclIbFreeRequest i } }
  | refused {recvs : List RecvArg} : ConnStep ends c (.irecv recvs) c
  | received {recvs : List RecvArg} {i : ReqId} {recv : RecvComm} (some : recvs ≠ [])
    (unused : (c.recv.ep.reqs i).type = .unused) (few : recvs.length ≤ maxRecvs)
    (received : Received ends.recv c.recv recvs i recv) :
    ConnStep ends c (.irecv recvs) (c.receive recv recvs.length)
  | flushed {recvs : List RecvArg} {result : NcclResult} {request : Option ReqId}
    {recv : RecvComm} (called : ncclIbIflush ends.recv c.recv recvs = .returned result request recv)
    (effect : IflushEffect ends.recv c.recv request recv) :
    ConnStep ends c (.iflush recvs) { c with recv := recv }
  | recvCompleted {position : Nat} {ep : Endpoint} (notRecv : c.NotRecv position)
    (completed : c.recv.ep.complete position 0 = some ep) :
    ConnStep ends c (.recvComplete position) { c with recv := { c.recv with ep := ep } }
  | recvWaits {i : ReqId} {settled : Endpoint} (settles : Endpoint.Settles c.recv.ep settled)
    (accounted : Endpoint.Accounted (fun _ _ => 0) settled) :
    ConnStep ends c (.recvTest i) { c with recv := { c.recv with ep := settled } }
  | recvDone {i : ReqId} {settled : Endpoint} (settles : Endpoint.Settles c.recv.ep settled)
    (accounted : Endpoint.Accounted (fun _ _ => 0) settled)
    (inUse : (c.recv.ep.reqs i).type ≠ .unused) (finished : settled.Finished i) :
    ConnStep ends c (.recvTest i)
      { c with recv := { c.recv with ep := settled.ncclIbFreeRequest i } }
  | landed {position call r : Nat} (flying : c.cts[position]? = some (call, r)) :
    ConnStep ends c (.landCts position)
      { c with
        cts := c.cts.eraseIdx position
        send := { c.send with
          fifo := Function.update c.send.fifo (call % maxRequests)
            (Function.update (c.send.fifo (call % maxRequests)) r (c.entry ends call r)) } }
  | delivered {q position : Nat} {write : Posting} {ep : Endpoint}
    (next : (c.writesOn q)[c.delivered q]? = some write)
    (oldest : c.recv.ep.posted.findIdx? (fun posting => posting.IsRecv && posting.OnQp q) =
      some position)
    (completed : (write.chain.foldl (fun ep wr => Connection.landSizes c.send.elems wr ep)
      c.recv.ep).complete position write.immData = some ep) :
    ConnStep ends c (.deliver q)
      { c with
        recv := { c.recv with ep := ep }
        delivered := Function.update c.delivered q (c.delivered q + 1) }

section

variable {ends : Ends} {c : Connection}

/-- Every step of a linked connection does one of these things. -/
theorem Linked.connStep (linked : Linked ends c) {event : ConnEvent} {after : Connection}
    (stepped : (connection ends).step c event = some after) : ConnStep ends c event after := by
  cases event with
  | isend data size tag lkeys =>
    have stepped : c.isend ends data size tag lkeys = some after := stepped
    rcases ncclIbIsend_effect ends.send linked.sendOk.landed linked.announced data size tag
      lkeys with spins | ⟨result, request, send, called, effect⟩
    · simp [Connection.isend, spins] at stepped
    · simp only [Connection.isend, called, Option.some.injEq] at stepped
      subst stepped
      exact .sent effect
  | sendComplete position =>
    obtain ⟨ep, completed, rfl⟩ := Option.map_eq_some_iff.mp stepped
    exact .sendCompleted completed
  | sendTest i =>
    have stepped : c.sendTest ends i = some after := stepped
    obtain ⟨done, sizes, settled, settles, accounted, result, finished, waits, _⟩ :=
      linked.sendOk.accounted.test ends.send.asyncEvents i
    simp only [Connection.sendTest, result] at stepped
    split at stepped
    · simp at stepped
    · rename_i inUse
      rw [← Option.some.inj stepped]
      cases done with
      | true => exact .sendDone settles accounted inUse (finished rfl).1
      | false => exact .sendWaits settles accounted
  | irecv recvs =>
    have stepped : c.irecv ends recvs = some after := stepped
    unfold Connection.irecv at stepped
    split at stepped
    · simp at stepped
    · rename_i some
      obtain ⟨result, request, recv, called, effect⟩ :=
        ncclIbIrecv_effect linked.recvOk.inside recvs
      cases effect with
      | nothing =>
        simp only [called, Option.some.injEq] at stepped
        subst stepped
        exact .refused
      | received unused few received =>
        simp only [called, Option.some.injEq] at stepped
        subst stepped
        exact .received some unused few received
  | iflush recvs =>
    obtain ⟨recv, returned, rfl⟩ := Option.map_eq_some_iff.mp stepped
    obtain ⟨result, request, next, called, effect⟩ :=
      ncclIbIflush_effect ends.recv c.recv recvs
    rw [called, RecvComm.returned, Option.some.injEq] at returned
    subst returned
    exact .flushed called effect
  | recvComplete position =>
    have stepped : c.recvComplete position = some after := stepped
    unfold Connection.recvComplete at stepped
    split at stepped
    · simp at stepped
    · rename_i notRecv
      obtain ⟨ep, completed, rfl⟩ := Option.map_eq_some_iff.mp stepped
      refine .recvCompleted ?_ completed
      intro posting placed
      rw [placed, Option.any_some, Bool.not_eq_true] at notRecv
      exact notRecv
  | recvTest i =>
    obtain ⟨recv, tested, rfl⟩ := Option.map_eq_some_iff.mp stepped
    obtain ⟨done, sizes, settled, settles, accounted, result, finished, _⟩ :=
      linked.recvOk.accounted.test ends.recv.asyncEvents i
    simp only [RecvComm.test, result] at tested
    split at tested
    · simp at tested
    · rename_i inUse
      rw [← Option.some.inj tested]
      cases done with
      | true => exact .recvDone settles accounted inUse (finished rfl).1
      | false => exact .recvWaits settles accounted
  | landCts position =>
    obtain ⟨⟨call, r⟩, flying, rfl⟩ := Option.map_eq_some_iff.mp stepped
    exact .landed flying
  | deliver q =>
    obtain ⟨write, next, rest⟩ := Option.bind_eq_some_iff.mp stepped
    obtain ⟨position, oldest, completes⟩ := Option.bind_eq_some_iff.mp rest
    obtain ⟨ep, completed, rfl⟩ := Option.map_eq_some_iff.mp completes
    exact .delivered next oldest completed

/-! ## Landing sizes -/

/-- The sizes that land change the sizes FIFO alone. -/
theorem landSizes_rest (elems : Nat → Nat → Int32) (wr : IbvSendWr) (ep : Endpoint) :
    Connection.landSizes elems wr ep =
      { ep with sizesFifo := (Connection.landSizes elems wr ep).sizesFifo } := by
  unfold Connection.landSizes
  split <;> rfl

theorem foldl_landSizes_rest (elems : Nat → Nat → Int32) (wrs : List IbvSendWr) (ep : Endpoint) :
    wrs.foldl (fun ep wr => Connection.landSizes elems wr ep) ep =
      { ep with
        sizesFifo :=
          (wrs.foldl (fun ep wr => Connection.landSizes elems wr ep) ep).sizesFifo } := by
  induction wrs generalizing ep with
  | nil => rfl
  | cons wr rest ih =>
    rw [List.foldl_cons, ih, landSizes_rest]

/-- A delivery completes a receive, and may write sizes. -/
theorem deliver_complete {elems : Nat → Nat → Int32} {wrs : List IbvSendWr} {ep after : Endpoint}
    {position : Nat} {immData : UInt32}
    (completed : (wrs.foldl (fun ep wr => Connection.landSizes elems wr ep) ep).complete position
      immData = some after) :
    ∃ sizesFifo middle, ep.complete position immData = some middle ∧
      after = { middle with sizesFifo := sizesFifo } := by
  rw [foldl_landSizes_rest] at completed
  obtain ⟨posting, placed, rfl⟩ := Option.map_eq_some_iff.mp completed
  have placed : ep.posted[position]? = some posting := placed
  exact ⟨_, _, by rw [Endpoint.complete, placed, Option.map_some], rfl⟩

theorem RecvOk.withSizes {setup : RecvSetup} {comm : RecvComm} (ok : RecvOk setup comm)
    (sizesFifo : Nat → Nat → Int32) :
    RecvOk setup { comm with ep := { comm.ep with sizesFifo := sizesFifo } } :=
  ⟨ok.accounted.congr rfl rfl rfl rfl rfl, ok.inside, ok.devInside⟩

/-! ## A receive call announces -/

theorem announcedBy_length (recv : RecvComm) (slot n : Nat) :
    (announcedBy recv slot n).length = n := by
  simp [announcedBy]

theorem announcedBy_getElem? (recv : RecvComm) {slot n r : Nat} (below : r < n) :
    (announcedBy recv slot n)[r]? = some (recv.elems slot r) := by
  simp [announcedBy, below]

/-- A call that announces extends the calls. -/
theorem receive_extends (c : Connection) (recv : RecvComm) (n : Nat) :
    Extends c.calls (c.receive recv n).calls := by
  intro call some
  have inside : call < c.history.length := by
    by_contra outside
    apply some
    simp [Connection.calls, List.getD_eq_getElem?_getD,
      List.getElem?_eq_none (Nat.not_lt.mp outside)]
  simp [Connection.calls, Connection.receive, List.getD_eq_getElem?_getD,
    List.getElem?_append_left inside]

/-- The call itself. -/
theorem receive_calls_self (c : Connection) (recv : RecvComm) (n : Nat) :
    (c.receive recv n).calls c.history.length =
      announcedBy recv (c.recv.fifoTail % maxRequests) n := by
  simp [Connection.calls, Connection.receive, List.getD_eq_getElem?_getD]

/-- The other calls announce what they did. -/
theorem receive_calls_other {c : Connection} {call : Nat} (recv : RecvComm) (n : Nat)
    (other : call ≠ c.history.length) : (c.receive recv n).calls call = c.calls call := by
  simp only [Connection.calls, Connection.receive, List.getD_eq_getElem?_getD]
  rcases Nat.lt_trichotomy call c.history.length with inside | same | beyond
  · rw [List.getElem?_append_left inside]
  · exact absurd same other
  · rw [List.getElem?_eq_none (by rw [List.length_append, List.length_singleton]; omega),
      List.getElem?_eq_none (Nat.le_of_lt beyond)]

theorem Linked.received (linked : Linked ends c) {recvs : List RecvArg} {i : ReqId}
    {recv : RecvComm} (unused : (c.recv.ep.reqs i).type = .unused)
    (few : recvs.length ≤ maxRecvs) (received : Received ends.recv c.recv recvs i recv) :
    Linked ends (c.receive recv recvs.length) := by
  have extended := receive_extends c recv recvs.length
  have last : (c.receive recv recvs.length).calls c.recv.fifoTail =
      announcedBy recv (c.recv.fifoTail % maxRequests) recvs.length := by
    rw [linked.tail]
    exact linked.tail ▸ receive_calls_self c recv recvs.length
  refine ⟨linked.sendOk.extend extended, linked.recvOk.irecv (.received unused few received), ?_,
    ?_, ?_, ?_⟩
  · intro call
    by_cases here : call = c.recv.fifoTail
    · subst here
      rw [last]
      constructor
      · rw [announcedBy_length]
        exact few
      · intro entry member
        obtain ⟨r, inRange, rfl⟩ := List.mem_map.mp member
        have below := List.mem_range.mp inRange
        rw [announcedBy_length, received.elems, stage, Function.update_self,
          List.getElem?_eq_getElem below]
        exact ⟨rfl, rfl⟩
    · rw [receive_calls_other recv recvs.length (linked.tail ▸ here)]
      exact linked.announced call
  · simp only [Connection.receive, received.fifoTail, linked.tail, List.length_append,
      List.length_singleton]
  · intro slot r
    have elems : (c.receive recv recvs.length).recv.elems = stage ends.recv
        (c.recv.fifoTail % maxRequests) (c.recv.fifoTail + 1) recvs c.recv.elems := received.elems
    rw [elems]
    by_cases here : slot = c.recv.fifoTail % maxRequests
    · subst here
      by_cases below : r < recvs.length
      · refine Or.inr ⟨c.recv.fifoTail, rfl, ?_⟩
        rw [last, announcedBy_getElem? recv below, received.elems]
      · rw [stage, Function.update_self, List.getElem?_eq_none (Nat.not_lt.mp below)]
        exact (linked.staged _ r).extend extended
    · rw [stage, Function.update_of_ne here]
      exact (linked.staged slot r).extend extended
  · intro entry member
    rcases List.mem_append.mp member with flying | new
    · have below := linked.flying entry flying
      have some : c.calls entry.1 ≠ [] := by
        intro none
        simp [none] at below
      rw [extended entry.1 some]
      exact below
    · obtain ⟨r, inRange, rfl⟩ := List.mem_map.mp new
      rw [last, announcedBy_length]
      exact List.mem_range.mp inRange

/-! ## Every step -/

theorem Linked.fresh (fresh : c.Fresh) : Linked ends c := by
  obtain ⟨send, recv, history, cts, _, _⟩ := fresh
  have calls : c.calls = fun _ => [] := by
    funext call
    simp [Connection.calls, history]
  refine ⟨SendOk.fresh send, RecvOk.fresh recv, ?_, ?_, ?_, ?_⟩
  · intro call
    rw [calls]
    exact ⟨Nat.zero_le _, by simp⟩
  · rw [recv.2.2.1, history]
    rfl
  · intro slot r
    rw [recv.2.2.2]
    exact Or.inl rfl
  · simp [cts]

/-- What lands in the FIFO was announced for its slot. -/
theorem Linked.entry_landable (linked : Linked ends c) {call r : Nat}
    (below : r < (c.calls call).length) :
    Landable c.calls (call % maxRequests) r (c.entry ends call r) := by
  unfold Connection.entry
  split
  · refine Or.inr ⟨call, rfl, ?_⟩
    rw [List.getD_eq_getElem?_getD, List.getElem?_eq_getElem below]
    rfl
  · exact linked.staged _ r

/-- One step keeps a connection linked. -/
theorem Linked.step (linked : Linked ends c) {event : ConnEvent} {after : Connection}
    (stepped : ConnStep ends c event after) : Linked ends after := by
  cases stepped with
  | sent effect =>
    exact { linked with sendOk := linked.sendOk.isend linked.announced effect }
  | sendCompleted completed =>
    exact { linked with sendOk := linked.sendOk.complete completed }
  | sendWaits settles accounted =>
    exact { linked with sendOk := linked.sendOk.settled settles accounted }
  | sendDone settles accounted _ finished =>
    exact { linked with
      sendOk := (linked.sendOk.settled settles accounted).freed linked.announced finished }
  | refused => exact linked
  | received _ unused few received => exact linked.received unused few received
  | flushed _ effect =>
    have same : ∀ {request : Option ReqId} {recv : RecvComm},
        IflushEffect ends.recv c.recv request recv →
        recv.fifoTail = c.recv.fifoTail ∧ recv.elems = c.recv.elems := by
      intro request recv effect
      cases effect <;> exact ⟨rfl, rfl⟩
    obtain ⟨tail, elems⟩ := same effect
    exact { linked with
      recvOk := linked.recvOk.iflush effect
      tail := tail.trans linked.tail
      staged := fun slot r => by rw [elems]; exact linked.staged slot r }
  | recvCompleted _ completed =>
    exact { linked with recvOk := linked.recvOk.complete completed }
  | recvWaits settles accounted =>
    exact { linked with recvOk := linked.recvOk.settled settles accounted }
  | recvDone settles accounted _ finished =>
    exact { linked with recvOk := (linked.recvOk.settled settles accounted).freed finished }
  | landed flying =>
    have below := linked.flying _ (List.mem_of_getElem? flying)
    exact { linked with
      sendOk := linked.sendOk.landing (linked.entry_landable below)
      flying := fun entry member => linked.flying entry (List.mem_of_mem_eraseIdx member) }
  | delivered next oldest completed =>
    obtain ⟨sizesFifo, middle, taken, rfl⟩ := deliver_complete completed
    exact { linked with recvOk := (linked.recvOk.complete taken).withSizes sizesFifo }

/-- Every run keeps a connection linked. -/
theorem connection_linked {permitted : Connection → ConnEvent → Prop}
    (reached : (connection ends).Reaches permitted c) : Linked ends c := by
  induction reached with
  | start first => exact Linked.fresh first
  | next _ _ stepped ih => exact ih.step (ih.connStep stepped)

end

end NcclExts.Unet
