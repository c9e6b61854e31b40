import NcclExts.Unet.Matching

/-!
# The FIFO of announcements

Nothing tells the receiver when a slot of the sender's FIFO is free again. It announces
into the slots in turn, 256 of them, and what keeps it from running over the sender is its
own pool: a call whose message is not posted has a receive that nothing took, so its
request is in use, and the requests of different calls are different. With 256 such calls
the pool is empty, and the next call gets no request.
-/

namespace NcclExts.Unet

open NcclExts.Foundation NcclExts.Ucommd

/-- The request that a posting of a receive comm names. -/
def Posting.request (posting : Posting) : ReqId := reqAt posting.wrId 0

/-- Receives that nothing took are of one call when they are for one request. -/
def Connection.Owned (c : Connection) : Prop :=
  ∀ first ∈ c.recv.ep.posted, ∀ second ∈ c.recv.ep.posted, first.IsRecv = true →
    second.IsRecv = true → first.request = second.request → first.group = second.group

/-- The calls the sender has not come past are in flight or in the FIFO, as they were
announced, and they fit the FIFO. -/
structure Announcing (c : Connection) : Prop where
  owned : c.Owned
  window : c.history.length ≤ c.send.fifoHead + maxRequests
  once : c.cts.Nodup
  ahead : ∀ entry ∈ c.cts, c.send.fifoHead ≤ entry.1
  absent : ∀ entry ∈ c.cts,
    (c.send.fifo (entry.1 % maxRequests) entry.2).idx ≠ entry.1 + 1
  staged : ∀ call r recv, c.send.fifoHead ≤ call → (c.calls call)[r]? = some recv →
    c.recv.elems (call % maxRequests) r = recv
  intact : ∀ call r recv, c.send.fifoHead ≤ call → (c.calls call)[r]? = some recv →
    (call, r) ∈ c.cts ∨ c.send.fifo (call % maxRequests) r = recv

/-- Two calls of one window of the FIFO have different slots. -/
theorem slot_ne {head call other : Nat} (inside : head ≤ call) (below : call < head + maxRequests)
    (inside' : head ≤ other) (below' : other < head + maxRequests) (different : call ≠ other) :
    call % maxRequests ≠ other % maxRequests := by
  unfold maxRequests at *
  omega

/-- Erasing another element leaves one in place. -/
theorem mem_eraseIdx_of_ne {α : Type} {items : List α} {position : Nat} {item erased : α}
    (member : item ∈ items) (placed : items[position]? = some erased) (other : item ≠ erased) :
    item ∈ items.eraseIdx position := by
  obtain ⟨inside, isErased⟩ := List.getElem?_eq_some_iff.mp placed
  have whole := (List.getElem_cons_eraseIdx_perm inside).mem_iff.mpr member
  rw [isErased] at whole
  exact (List.mem_cons.mp whole).resolve_left other

section

variable {setup : ConnSetup} {c : Connection}

/-- A call that announced something has been made. -/
theorem Connection.made {call r : Nat} {recv : NcclIbSendFifo}
    (isRecv : (c.calls call)[r]? = some recv) : call < c.history.length := by
  by_contra beyond
  rw [Connection.calls, List.getD_eq_getElem?_getD,
    List.getElem?_eq_none (Nat.not_lt.mp beyond)] at isRecv
  simp at isRecv

/-- A receive on the queues is for a request in use. -/
theorem Linked.request_inUse (linked : Linked setup.toEnds c) {posting : Posting}
    (posted : posting ∈ c.recv.ep.posted) :
    (c.recv.ep.reqs posting.request).type ≠ .unused := by
  have waiting : posting ∈ c.recv.ep.waiting posting.dev :=
    List.mem_append_left _ (List.mem_filter.mpr ⟨posted, by simp⟩)
  have named := linked.recvOk.accounted.named posting.dev posting waiting
  have typed := named.typed posting.request named.first
  rw [typed]
  exact posting.kind.reqType_ne_unused

/-- A call gets a request only while the FIFO has room for it. -/
theorem Announcing.room (announcing : Announcing c) (linked : Linked setup.toEnds c)
    (scheduled : Scheduled setup c) {i : ReqId} (unused : (c.recv.ep.reqs i).type = .unused) :
    c.history.length < c.send.fifoHead + maxRequests := by
  by_contra full
  have exact_window := Nat.le_antisymm announcing.window (Nat.not_lt.mp full)
  -- each of the 256 calls ahead of the sender holds a request of its own
  have held (k : ReqId) : ∃ receive ∈ c.recv.ep.posted, receive.IsRecv = true ∧
      receive.group = c.send.fifoHead + k.val := by
    apply scheduled.waits (Nat.le_add_right _ _)
    have inside := k.isLt
    unfold maxRequests at exact_window
    omega
  choose receive posted isRecv group using held
  have injective : Function.Injective fun k => (receive k).request := by
    intro k k' same
    have calls := announcing.owned _ (posted k) _ (posted k') (isRecv k) (isRecv k') same
    rw [group, group] at calls
    exact Fin.ext (Nat.add_left_cancel calls)
  obtain ⟨k, rfl⟩ := (Finite.injective_iff_surjective.mp injective) i
  exact linked.request_inUse (posted k) unused

/-! ## Every step -/

theorem Announcing.fresh (fresh : c.Fresh) : Announcing c := by
  obtain ⟨⟨_, _, _, head, _⟩, ⟨⟨_, _, _, _, _, posted, _⟩, _⟩, history, cts, _⟩ := fresh
  constructor <;> simp [Connection.Owned, Connection.calls, posted, history, cts]

/-- What the announcements read of the two ends; receives may have been taken. -/
structure SameCts (c after : Connection) : Prop where
  history : after.history = c.history
  fifoHead : after.send.fifoHead = c.send.fifoHead
  fifo : after.send.fifo = c.send.fifo
  cts : after.cts = c.cts
  elems : after.recv.elems = c.recv.elems
  posted : ∀ posting ∈ after.recv.ep.posted, posting.IsRecv = true → posting ∈ c.recv.ep.posted

theorem Announcing.congr (announcing : Announcing c) {after : Connection}
    (same : SameCts c after) : Announcing after := by
  have calls : after.calls = c.calls := by
    unfold Connection.calls
    rw [same.history]
  constructor
  · intro first isFirst second isSecond firstRecv secondRecv
    exact announcing.owned first (same.posted first isFirst firstRecv) second
      (same.posted second isSecond secondRecv) firstRecv secondRecv
  · rw [same.history, same.fifoHead]
    exact announcing.window
  · rw [same.cts]
    exact announcing.once
  · rw [same.cts, same.fifoHead]
    exact announcing.ahead
  · rw [same.cts, same.fifo]
    exact announcing.absent
  · rw [calls, same.fifoHead, same.elems]
    exact announcing.staged
  · rw [calls, same.fifoHead, same.cts, same.fifo]
    exact announcing.intact

/-- The entries that a call puts in flight. -/
theorem mem_newCts {call n : Nat} {entry : Nat × Nat} :
    entry ∈ (List.range n).map (fun r => (call, r)) ↔ entry.1 = call ∧ entry.2 < n := by
  rw [List.mem_map]
  constructor
  · rintro ⟨r, inRange, rfl⟩
    exact ⟨rfl, List.mem_range.mp inRange⟩
  · rintro ⟨rfl, below⟩
    exact ⟨entry.2, List.mem_range.mpr below, rfl⟩

/-- An entry of the FIFO was announced by a call that was made, or is empty. -/
theorem Linked.idx_le (linked : Linked setup.toEnds c) (slot r : Nat) :
    (c.send.fifo slot r).idx ≤ c.history.length := by
  rcases linked.sendOk.landed slot r with zero | ⟨call, _, placed⟩
  · rw [zero]
    exact Nat.zero_le _
  · rw [((linked.announced call).stamped _ (List.mem_of_getElem? placed)).1]
    exact Connection.made placed

theorem Announcing.received (announcing : Announcing c) (linked : Linked setup.toEnds c)
    (scheduled : Scheduled setup c) {recvs : List RecvArg} {i : ReqId} {recv : RecvComm}
    (unused : (c.recv.ep.reqs i).type = .unused)
    (received : Received setup.recv c.recv recvs i recv) :
    Announcing (c.receive recv recvs.length) := by
  have room := announcing.room linked scheduled unused
  have tail := linked.tail
  have last := receive_calls_self c recv recvs.length
  have others {call : Nat} (other : call ≠ c.history.length) :=
    receive_calls_other recv recvs.length other
  have elems : recv.elems = stage setup.recv (c.recv.fifoTail % maxRequests)
      (c.recv.fifoTail + 1) recvs c.recv.elems := received.elems
  -- a call that was made before has another slot than the new one
  have apart {call r : Nat} {entry : NcclIbSendFifo} (ahead : c.send.fifoHead ≤ call)
      (isEntry : (c.calls call)[r]? = some entry) :
      call % maxRequests ≠ c.recv.fifoTail % maxRequests := by
    have made := Connection.made isEntry
    rw [tail]
    exact slot_ne ahead (by omega) scheduled.head room (Nat.ne_of_lt made)
  refine ⟨?_, ?_, ?_, ?_, ?_, ?_, ?_⟩
  · have named {posting : Posting} (member : posting ∈ recv.ep.posted)
        (isRecv : posting.IsRecv = true) : posting ∈ c.recv.ep.posted ∨
        (posting.request = i ∧ posting.group = c.recv.fifoTail) := by
      rw [received.posted] at member
      rcases List.mem_append.mp member with old | new
      · exact .inl old
      · rcases List.mem_append.mp new with receive | cts
        · obtain ⟨q, _, rfl⟩ := List.mem_map.mp receive
          exact .inr ⟨reqAt_val i, rfl⟩
        · have none := ctsPostings_isRecv setup.recv c.recv recvs.length i
          have kept := List.mem_filter.mpr ⟨cts, isRecv⟩
          rw [none] at kept
          exact absurd kept (by simp)
    intro first isFirst second isSecond firstRecv secondRecv same
    rcases named isFirst firstRecv with old | ⟨isI, group⟩
    · rcases named isSecond secondRecv with old' | ⟨isI', _⟩
      · exact announcing.owned first old second old' firstRecv secondRecv same
      · exact absurd unused (isI' ▸ same ▸ linked.request_inUse old)
    · rcases named isSecond secondRecv with old' | ⟨_, group'⟩
      · exact absurd unused (isI ▸ same ▸ linked.request_inUse old')
      · rw [group, group']
  · have length : (c.receive recv recvs.length).history.length = c.history.length + 1 := by
      simp [Connection.receive]
    rw [length]
    exact room
  · refine List.nodup_append.mpr ⟨announcing.once, ?_, ?_⟩
    · exact List.nodup_range.map fun r r' same => (Prod.mk.inj same).2
    · rintro entry flying _ new rfl
      have made : entry.1 < c.history.length := by
        have below := linked.flying entry flying
        exact Connection.made (List.getElem?_eq_getElem below)
      have here := (mem_newCts.mp new).1
      omega
  · intro entry member
    rcases List.mem_append.mp member with flying | new
    · exact announcing.ahead entry flying
    · rw [(mem_newCts.mp new).1, tail]
      exact scheduled.head
  · intro entry member
    rcases List.mem_append.mp member with flying | new
    · exact announcing.absent entry flying
    · have bound := linked.idx_le (entry.1 % maxRequests) entry.2
      rw [(mem_newCts.mp new).1, tail] at bound ⊢
      exact Nat.ne_of_lt (Nat.lt_succ_of_le bound)
  · intro call r entry ahead isEntry
    by_cases here : call = c.history.length
    · subst here
      rw [last] at isEntry
      obtain ⟨below, isStaged⟩ := List.getElem?_eq_some_iff.mp isEntry
      rw [announcedBy_length] at below
      rw [announcedBy_getElem? recv below] at isEntry
      rw [← tail]
      exact Option.some.inj isEntry
    · rw [others here] at isEntry
      change recv.elems (call % maxRequests) r = entry
      rw [elems, stage, Function.update_of_ne (apart ahead isEntry)]
      exact announcing.staged call r entry ahead isEntry
  · intro call r entry ahead isEntry
    by_cases here : call = c.history.length
    · subst here
      rw [last] at isEntry
      obtain ⟨below, _⟩ := List.getElem?_eq_some_iff.mp isEntry
      rw [announcedBy_length] at below
      exact .inl (List.mem_append_right _ (mem_newCts.mpr ⟨tail.symm, below⟩))
    · rw [others here] at isEntry
      rcases announcing.intact call r entry ahead isEntry with flying | landed
      · exact .inl (List.mem_append_left _ flying)
      · exact .inr landed

/-- An entry lands as it was announced. -/
theorem Announcing.entry_eq (announcing : Announcing c) {call r : Nat} {recv : NcclIbSendFifo}
    (ahead : c.send.fifoHead ≤ call) (isRecv : (c.calls call)[r]? = some recv) :
    c.entry setup.toEnds call r = recv := by
  unfold Connection.entry
  split
  · rw [List.getD_eq_getElem?_getD, isRecv]
    rfl
  · exact announcing.staged call r recv ahead isRecv

theorem Announcing.landed (announcing : Announcing c) (linked : Linked setup.toEnds c)
    {position call r : Nat} (flying : c.cts[position]? = some (call, r)) :
    Announcing { c with
      cts := c.cts.eraseIdx position
      send := { c.send with
        fifo := Function.update c.send.fifo (call % maxRequests)
          (Function.update (c.send.fifo (call % maxRequests)) r
            (c.entry setup.toEnds call r)) } } := by
  have member := List.mem_of_getElem? flying
  have ahead : c.send.fifoHead ≤ call := announcing.ahead _ member
  have below : r < (c.calls call).length := linked.flying _ member
  have isRecv := List.getElem?_eq_getElem below
  have entry : c.entry setup.toEnds call r = (c.calls call)[r] :=
    announcing.entry_eq ahead isRecv
  have stamp : (c.calls call)[r].idx = call + 1 :=
    ((linked.announced call).stamped _ (List.getElem_mem below)).1
  have gone : (call, r) ∉ c.cts.eraseIdx position := by
    obtain ⟨inside, isEntry⟩ := List.getElem?_eq_some_iff.mp flying
    have whole := (List.getElem_cons_eraseIdx_perm inside).nodup_iff.mpr announcing.once
    rw [isEntry] at whole
    exact (List.nodup_cons.mp whole).1
  refine ⟨announcing.owned, announcing.window, announcing.once.sublist (List.eraseIdx_sublist ..),
    ?_, ?_, announcing.staged, ?_⟩
  · intro other isOther
    exact announcing.ahead other (List.mem_of_mem_eraseIdx isOther)
  · intro other isOther
    have before := announcing.absent other (List.mem_of_mem_eraseIdx isOther)
    change (Function.update c.send.fifo (call % maxRequests) (Function.update
      (c.send.fifo (call % maxRequests)) r (c.entry setup.toEnds call r))
        (other.1 % maxRequests) other.2).idx ≠ other.1 + 1
    by_cases slot : other.1 % maxRequests = call % maxRequests
    · rw [slot, Function.update_self]
      by_cases same : other.2 = r
      · rw [same, Function.update_self, entry, stamp]
        intro called
        refine gone ?_
        have isEntry : other = (call, r) := Prod.ext (Nat.succ.inj called).symm same
        exact isEntry ▸ isOther
      · rw [Function.update_of_ne same, ← slot]
        exact before
    · rw [Function.update_of_ne slot]
      exact before
  · intro call' r' recv ahead' isRecv'
    change (call', r') ∈ c.cts.eraseIdx position ∨ Function.update c.send.fifo (call % maxRequests)
      (Function.update (c.send.fifo (call % maxRequests)) r (c.entry setup.toEnds call r))
        (call' % maxRequests) r' = recv
    have calls : (c.calls call')[r']? = some recv := isRecv'
    have ahead' : c.send.fifoHead ≤ call' := ahead'
    by_cases same : call' = call
    · subst same
      rw [Function.update_self]
      by_cases place : r' = r
      · subst place
        rw [Function.update_self, announcing.entry_eq ahead calls]
        exact .inr rfl
      · rw [Function.update_of_ne place]
        rcases announcing.intact call' r' recv ahead' calls with still | landed
        · refine .inl (mem_eraseIdx_of_ne still flying ?_)
          exact fun equal => place (Prod.mk.inj equal).2
        · exact .inr landed
    · have slots : call' % maxRequests ≠ call % maxRequests := by
        have made := Connection.made calls
        have made' := Connection.made isRecv
        have window := announcing.window
        exact slot_ne ahead' (by omega) ahead (by omega) same
      rw [Function.update_of_ne slots]
      rcases announcing.intact call' r' recv ahead' calls with still | landed
      · refine .inl (mem_eraseIdx_of_ne still flying ?_)
        exact fun equal => same (Prod.mk.inj equal).1
      · exact .inr landed

/-- Moving on to the next slot frees the slot of a call that has landed whole. -/
theorem Announcing.posted (announcing : Announcing c) (linked : Linked setup.toEnds c)
    {send : SendComm} {fifo : Nat → Nat → NcclIbSendFifo} {matched : List Match}
    (same : fifo = c.send.fifo) (head : send.fifoHead = c.send.fifoHead + 1)
    (cleared : send.fifo = Function.update fifo (c.send.fifoHead % maxRequests)
      (Function.update (fifo (c.send.fifoHead % maxRequests)) 0 NcclIbSendFifo.zero))
    (lands : ∀ r, r < (c.calls c.send.fifoHead).length → (c.calls c.send.fifoHead)[r]? =
      some (c.send.fifo (c.send.fifoHead % maxRequests) r)) :
    Announcing { c with send := send, matched := matched } := by
  subst same
  have stillLands {slot r : Nat} (other : slot ≠ c.send.fifoHead % maxRequests) :
      send.fifo slot r = c.send.fifo slot r := by
    rw [cleared, Function.update_of_ne other]
  have passed : ∀ entry ∈ c.cts, c.send.fifoHead ≠ entry.1 := by
    intro entry flying here
    have below := linked.flying entry flying
    rw [← here] at below
    have absent := announcing.absent entry flying
    rw [← here] at absent
    exact absent ((linked.announced _).stamped _ (List.mem_of_getElem? (lands _ below))).1
  refine ⟨announcing.owned, ?_, announcing.once, ?_, ?_, ?_, ?_⟩
  · have window := announcing.window
    change c.history.length ≤ send.fifoHead + maxRequests
    omega
  · intro entry flying
    have ahead := announcing.ahead entry flying
    have here := passed entry flying
    change send.fifoHead ≤ entry.1
    omega
  · intro entry flying
    have absent := announcing.absent entry flying
    change (send.fifo (entry.1 % maxRequests) entry.2).idx ≠ entry.1 + 1
    rw [cleared]
    by_cases slot : entry.1 % maxRequests = c.send.fifoHead % maxRequests
    · rw [slot] at absent ⊢
      rw [Function.update_self]
      by_cases first : entry.2 = 0
      · rw [first, Function.update_self]
        exact Nat.ne_of_lt (Nat.succ_pos _)
      · rw [Function.update_of_ne first]
        exact absent
    · rw [Function.update_of_ne slot]
      exact absent
  · intro call r recv ahead isRecv
    have ahead : send.fifoHead ≤ call := ahead
    exact announcing.staged call r recv (by omega) isRecv
  · intro call r recv ahead isRecv
    have ahead : send.fifoHead ≤ call := ahead
    have calls : (c.calls call)[r]? = some recv := isRecv
    have made := Connection.made calls
    have window := announcing.window
    have other : call % maxRequests ≠ c.send.fifoHead % maxRequests :=
      slot_ne (by omega) (by omega) (Nat.le_refl _) (by omega) (by omega)
    change (call, r) ∈ c.cts ∨ send.fifo (call % maxRequests) r = recv
    rw [stillLands other]
    exact announcing.intact call r recv (by omega) calls

/-- One step keeps the announcements in place. -/
theorem Announcing.step (announcing : Announcing c) (linked : Linked setup.toEnds c)
    (scheduled : Scheduled setup c) {event : ConnEvent} {after : Connection}
    (stepped : ConnStep setup.toEnds c event after) : Announcing after := by
  cases stepped with
  | sent effect =>
    cases effect with
    | nothing => exact announcing.congr ⟨rfl, rfl, rfl, rfl, rfl, fun _ member _ => member⟩
    | matched => exact announcing.congr ⟨rfl, rfl, rfl, rfl, rfl, fun _ member _ => member⟩
    | posted hit full =>
      obtain ⟨postings, sent⟩ := SendComm.post_sent
        (linked.sendOk.hit linked.announced hit _ _ _).inside full.isFirst
      exact announcing.posted linked rfl sent.fifoHead sent.fifo hit.lands
  | sendCompleted completed =>
    obtain ⟨_, _, rfl⟩ := Option.map_eq_some_iff.mp completed
    exact announcing.congr ⟨rfl, rfl, rfl, rfl, rfl, fun _ member _ => member⟩
  | sendWaits => exact announcing.congr ⟨rfl, rfl, rfl, rfl, rfl, fun _ member _ => member⟩
  | sendDone => exact announcing.congr ⟨rfl, rfl, rfl, rfl, rfl, fun _ member _ => member⟩
  | refused => exact announcing
  | received _ unused _ received => exact announcing.received linked scheduled unused received
  | flushed _ effect =>
    cases effect with
    | nothing => exact announcing
    | flushed _ flushes =>
      refine announcing.congr ⟨rfl, rfl, rfl, rfl, rfl, fun posting member isRecv => ?_⟩
      have posted := congrArg Endpoint.posted flushes.rest
      have member : posting ∈ Endpoint.posted _ := member
      rw [posted] at member
      rcases List.mem_append.mp member with old | new
      · exact old
      · obtain ⟨dev, _, rfl⟩ := List.mem_map.mp new
        exact absurd isRecv (by simp [Posting.IsRecv, flushPosting])
  | recvCompleted _ completed =>
    obtain ⟨_, _, rfl⟩ := Option.map_eq_some_iff.mp completed
    exact announcing.congr ⟨rfl, rfl, rfl, rfl, rfl, fun _ member _ =>
      List.mem_of_mem_eraseIdx member⟩
  | recvWaits settles _ =>
    have kept := settles.kept linked.recvOk.accounted
    exact announcing.congr ⟨rfl, rfl, rfl, rfl, rfl, fun _ member _ => kept.posted ▸ member⟩
  | recvDone settles _ _ _ =>
    have kept := settles.kept linked.recvOk.accounted
    refine announcing.congr ⟨rfl, rfl, rfl, rfl, rfl, fun posting member _ => ?_⟩
    have member : posting ∈ Endpoint.posted (Endpoint.ncclIbFreeRequest _ _) := member
    exact kept.posted ▸ member
  | landed flying => exact announcing.landed linked flying
  | delivered _ _ completed =>
    obtain ⟨sizesFifo, middle, taken, rfl⟩ := deliver_complete completed
    obtain ⟨_, _, rfl⟩ := Option.map_eq_some_iff.mp taken
    exact announcing.congr ⟨rfl, rfl, rfl, rfl, rfl, fun _ member _ =>
      List.mem_of_mem_eraseIdx member⟩

/-- Every run keeps the announcements in place. -/
theorem connection_announcing {permitted : Connection → ConnEvent → Prop}
    (reached : (connection setup.toEnds).Reaches permitted c) : Announcing c := by
  induction reached with
  | start first => exact Announcing.fresh first
  | next before _ stepped ih =>
    have linked := connection_linked before
    exact ih.step linked (connection_scheduled before) (linked.connStep stepped)

/-! ## The FIFO over whole runs -/

/-- What a send that gets a request does: it is matched to a receive of the next call that
has its tag and no send yet, and its request has its size clipped to that receive. -/
structure Takes (c : Connection) (size tag : Int32) (i : ReqId) (send : SendComm) : Prop where
  type : (send.ep.reqs i).type = .send
  place : ∃ r recv, (c.calls c.send.fifoHead)[r]? = some recv ∧ recv.tag = tag.toUInt32 ∧
    (send.ep.reqs i).size = clip size recv ∧
    c.matchOf size tag (some i) = [⟨c.send.fifoHead, r, tag, size⟩] ∧
    ∀ m ∈ c.matched, m.place ≠ (c.send.fifoHead, r)

/-- What a receive call announces, for each of its receives. -/
structure Announces (setup : RecvSetup) (tail : Nat) (recvs : List RecvArg) (recv : RecvComm) :
    Prop where
  entries : ∀ r arg, recvs[r]? = some arg →
    let entry := recv.elems (tail % maxRequests) r
    entry.addr = arg.data ∧ entry.size = arg.size ∧ entry.tag = arg.tag.toUInt32 ∧
      entry.nreqs = recvs.length ∧ entry.idx = tail + 1 ∧
      ∀ dev : Dev, dev.val < setup.ndevs → entry.rkeys dev = arg.rkeys dev

theorem Linked.takes (linked : Linked setup.toEnds c) (answered : Answered setup.send c)
    {data : Int} {size tag : Int32} {lkeys : Dev → UInt32} {result : NcclResult} {i : ReqId}
    {send : SendComm} (called : ncclIbIsend setup.send c.send data size tag lkeys =
      .returned result (some i) send) : Takes c size tag i send := by
  rcases ncclIbIsend_effect setup.send linked.sendOk.landed linked.announced data size tag lkeys
    with spins | ⟨_, request, after, returned, effect⟩
  · rw [spins] at called
    exact absurd called (by simp)
  · rw [returned] at called
    injection called with _ isRequest isAfter
    subst isAfter
    have taken {r : Nat} {i : ReqId} {recv : NcclIbSendFifo}
        (hit : Hit c.calls c.send tag r i recv) {send : SendComm}
        (fields : ∃ offset, send.ep.reqs i = { (c.send.hit setup.send c.calls data size lkeys r i
          recv).ep.reqs i with offset := offset }) : Takes c size tag i send := by
      obtain ⟨offset, fields⟩ := fields
      obtain ⟨type, _, sized, _⟩ := sendRequest_spec setup.send lkeys
        (c.calls c.send.fifoHead).length c.send.ep.qpIndex (clip size recv) data (c.send.ep.reqs i)
      have self := place_req_self setup.send
        (c.send.withIbStat (c.send.ep.countIb unetIbFifoRecvCount).ibStat)
        (c.calls c.send.fifoHead).length r i lkeys (clip size recv) data
      refine ⟨?_, r, recv, hit.isRecv, hit.tagged, ?_,
        matchOf_hit linked.sendOk linked.announced hit size, ?_⟩
      · rw [fields]
        exact (congrArg NcclIbRequest.type self).trans type
      · rw [fields]
        exact (congrArg NcclIbRequest.size self).trans sized
      · intro m member place
        obtain ⟨call, isR⟩ := Prod.mk.inj place
        exact answered.taken m member call (isR ▸ hit.free)
    cases effect with
    | nothing => exact absurd isRequest (by simp)
    | matched hit _ =>
      obtain rfl := Option.some.inj isRequest
      exact taken hit ⟨_, rfl⟩
    | posted hit full =>
      obtain rfl := Option.some.inj isRequest
      obtain ⟨postings, sent⟩ := SendComm.post_sent
        (linked.sendOk.hit linked.announced hit _ _ _).inside full.isFirst
      exact taken hit ⟨_, sent.offsets _⟩

theorem Linked.announces (linked : Linked setup.toEnds c) {recvs : List RecvArg}
    {result : NcclResult} {i : ReqId} {recv : RecvComm}
    (called : ncclIbIrecv setup.recv c.recv recvs = .returned result (some i) recv) :
    Announces setup.recv c.recv.fifoTail recvs recv := by
  obtain ⟨_, request, after, returned, effect⟩ := ncclIbIrecv_effect linked.recvOk.inside recvs
  rw [returned] at called
  injection called with _ isRequest isAfter
  subst isAfter
  cases effect with
  | nothing => exact absurd isRequest (by simp)
  | received _ _ received =>
    constructor
    intro r arg isArg
    simp only [received.elems, stage, Function.update_self, isArg, announce]
    exact ⟨trivial, trivial, trivial, trivial, trivial, fun dev known => if_pos known⟩

/-- The FIFO of announcements is safe: the receiver is at most 256 calls ahead, what the
sender has not consumed is in flight or in the FIFO as it was announced, the messages are
posted once for each call in order, when every receive of the call has exactly one send of
its tag, and they write where the call announced. -/
structure CtsSafe (setup : ConnSetup) (c : Connection) : Prop where
  behind : c.send.fifoHead ≤ c.recv.fifoTail
  window : c.recv.fifoTail ≤ c.send.fifoHead + maxRequests
  made : c.recv.fifoTail = c.history.length
  intact : ∀ call r recv, c.send.fifoHead ≤ call → (c.calls call)[r]? = some recv →
    ((call, r) ∈ c.cts ∧ c.entry setup.toEnds call r = recv) ∨
      c.send.fifo (call % maxRequests) r = recv
  posted : c.send.ep.log.map Posting.key =
    keys setup.send.nqps setup.send.perMessage c.send.fifoHead
  carries : ∀ p posting, c.send.ep.log[p]? = some posting →
    posting.group = p / setup.send.perMessage ∧
      Carries setup.send c.calls c.matched (p % setup.send.perMessage) posting
  matchedOnce : ∀ call r, call < c.send.fifoHead → r < (c.calls call).length →
    ∃! m, m ∈ c.matched ∧ m.place = (call, r)
  atMostOnce : (c.matched.map Match.place).Nodup
  tagged : ∀ m ∈ c.matched, m.call ≤ c.send.fifoHead ∧
    ∃ recv, (c.calls m.call)[m.r]? = some recv ∧ recv.tag = m.tag.toUInt32
  takes : ∀ data size tag lkeys result i send,
    ncclIbIsend setup.send c.send data size tag lkeys = .returned result (some i) send →
      Takes c size tag i send
  announces : ∀ recvs result i recv,
    ncclIbIrecv setup.recv c.recv recvs = .returned result (some i) recv →
      Announces setup.recv c.recv.fifoTail recvs recv

/-- In every run the FIFO of announcements is safe. -/
theorem cts_fifo_safety (setup : ConnSetup) {c : Connection}
    (reached : (connection setup.toEnds).Reachable c) : CtsSafe setup c := by
  have linked := connection_linked reached
  have scheduled := connection_scheduled reached
  have answered := connection_answered reached
  have announcing := connection_announcing reached
  refine ⟨?_, ?_, linked.tail, ?_, scheduled.writes, answered.answers, ?_, answered.distinct, ?_,
    fun _ _ _ _ _ _ _ called => linked.takes answered called,
    fun _ _ _ _ called => linked.announces called⟩
  · rw [linked.tail]
    exact scheduled.head
  · rw [linked.tail]
    exact announcing.window
  · intro call r recv ahead isRecv
    rcases announcing.intact call r recv ahead isRecv with flying | landed
    · exact .inl ⟨flying, announcing.entry_eq ahead isRecv⟩
    · exact .inr landed
  · intro call r earlier below
    obtain ⟨m, member, place⟩ := answered.whole call r earlier below
    refine ⟨m, ⟨member, place⟩, fun m' other => ?_⟩
    exact answered.unique other.1 member (other.2.trans place.symm)
  · intro m member
    exact ⟨answered.upTo m member, answered.real m member⟩

end

/-- Of a group of two receives the second has its send. -/
def halfAnswered : Connection :=
  ((connection ConnSetup.twoDevices.toEnds).replay .initial [.irecv [.buffer 1, .buffer 2],
    .landCts 1, .landCts 0, .isend 65536 120 2 (fun _ => 9)]).get (by decide)

theorem halfAnswered_reached : (connection ConnSetup.twoDevices.toEnds).Reachable halfAnswered :=
  have start : (connection ConnSetup.twoDevices.toEnds).Reachable .initial :=
    .start Connection.initial_fresh
  start.replay _ (Option.some_get _).symm

/-- Nothing is posted yet, and what was announced is in the FIFO. -/
theorem cts_fifo_safety_halfAnswered : halfAnswered.send.ep.log = [] ∧
    ∀ r recv, (halfAnswered.calls 0)[r]? = some recv → halfAnswered.send.fifo 0 r = recv := by
  have safe := cts_fifo_safety .twoDevices halfAnswered_reached
  refine ⟨by decide +kernel, fun r recv isRecv => ?_⟩
  rcases safe.intact 0 r recv (by decide +kernel) isRecv with ⟨flying, _⟩ | landed
  · exact absurd flying (by rw [show halfAnswered.cts = [] by decide +kernel]; simp)
  · exact landed

end NcclExts.Unet
