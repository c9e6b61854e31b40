import NcclExts.Unet.CtsFifo
import NcclExts.Unet.Immediates

/-!
# The sizes that receives report

The sizes of a receive live in a row of a ring of 256, which its call takes and clears. A
message of one send leaves its size as the immediate of a completion, a message of a group
writes the row from the row of its slot at the sender. The request of a call can stay in
use while 256 further calls come and go, and the last of them then takes the same row.
Without that, every row holds what the messages of its call carry once they have arrived.
-/

namespace NcclExts.Unet

open NcclExts.Foundation NcclExts.Ucommd

/-- The group of the last receive among some postings that is for a request. -/
def lastGroup (postings : List Posting) (i : ReqId) : Option Nat :=
  ((postings.filter fun posting => posting.IsRecv && posting.request = i).getLast?).map
    Posting.group

theorem lastGroup_append (postings more : List Posting) (i : ReqId) :
    lastGroup (postings ++ more) i = (lastGroup more i).or (lastGroup postings i) := by
  unfold lastGroup
  rw [List.filter_append, List.getLast?_append]
  cases (more.filter fun posting => posting.IsRecv && posting.request = i).getLast? <;> rfl

/-- Only the receives count. -/
theorem lastGroup_congr {postings more : List Posting}
    (same : postings.filter Posting.IsRecv = more.filter Posting.IsRecv) (i : ReqId) :
    lastGroup postings i = lastGroup more i := by
  have split (list : List Posting) :
      list.filter (fun posting => posting.IsRecv && posting.request = i) =
        (list.filter Posting.IsRecv).filter fun posting => posting.request = i := by
    rw [List.filter_filter]
    congr 1
    funext posting
    exact Bool.and_comm _ _
  rw [lastGroup, lastGroup, split, split, same]

/-- The call that a request of the receiver was handed out to last. -/
def Connection.callOf (c : Connection) (i : ReqId) : Option Nat := lastGroup c.recv.ep.log i

/-- The row of a call holds the sizes of the sends that were matched to its receives. -/
def Connection.Filled (c : Connection) (call : Nat) : Prop :=
  ∀ r, r < (c.calls call).length → ∃ m ∈ c.matched, m.place = (call, r) ∧
    c.recv.ep.sizesFifo (call % maxRequests) r = m.clipped c.calls

/-- A receive whose size is still to come: nothing took it, or its completion, which brings
the size of a single send, was not polled. -/
def Connection.Awaited (c : Connection) (posting : Posting) : Prop :=
  posting ∈ c.recv.ep.posted ∨ ((c.calls posting.group).length = 1 ∧
    ∃ dev, posting ∈ (c.recv.ep.cqs dev).map IbvWc.posting)

/-- The sender keeps the sizes of a group until its messages have arrived. -/
def Connection.Staged (c : Connection) : Prop :=
  ∀ q j write, (c.writesOn q)[j]? = some write → c.delivered q ≤ j →
    1 < (c.calls write.group).length → ∀ r, r < (c.calls write.group).length →
      ∃ m ∈ c.matched, m.place = (write.group, r) ∧
        c.send.elems (write.group % maxRequests) r = m.clipped c.calls

/-- The receives in use have rows of their own, which hold their sizes unless these are
still to come. -/
structure Sized (c : Connection) : Prop where
  calls : ∀ i, (c.recv.ep.reqs i).type = .recv → ∃ call, c.callOf i = some call ∧
    call < c.history.length ∧ (c.recv.ep.reqs i).sizes = call % maxRequests ∧
    (c.recv.ep.reqs i).nreqs = (c.calls call).length
  waits : ∀ dev, ∀ posting ∈ c.recv.ep.waiting dev, posting.IsRecv = true →
    c.callOf posting.request = some posting.group
  rows : ∀ i j, (c.recv.ep.reqs i).type = .recv → (c.recv.ep.reqs j).type = .recv →
    (c.recv.ep.reqs i).sizes = (c.recv.ep.reqs j).sizes → i = j
  filled : ∀ i, (c.recv.ep.reqs i).type = .recv → ∀ posting ∈ c.recv.ep.log,
    posting.IsRecv = true → posting.request = i → c.callOf i = some posting.group →
      c.Awaited posting ∨ c.Filled posting.group
  staged : c.Staged

/-- A receive call that gets a request finds no request in use with its row. -/
def RowFree (c : Connection) : ConnEvent → Prop
  | .irecv recvs => recvs.length ≤ maxRecvs → (∃ i, (c.recv.ep.reqs i).type = .unused) →
      ∀ i, (c.recv.ep.reqs i).type = .recv →
        (c.recv.ep.reqs i).sizes ≠ c.recv.fifoTail % maxRequests
  | _ => True

/-! ## The call of a request -/

/-- A request with a call has a receive of it. -/
theorem lastGroup_mem {postings : List Posting} {i : ReqId} {call : Nat}
    (isCall : lastGroup postings i = some call) :
    ∃ posting ∈ postings, posting.IsRecv = true ∧ posting.request = i ∧ posting.group = call := by
  obtain ⟨posting, isLast, isGroup⟩ := Option.map_eq_some_iff.mp isCall
  have kept := List.mem_filter.mp (List.mem_of_getLast? isLast)
  simp only [Bool.and_eq_true, decide_eq_true_eq] at kept
  exact ⟨posting, kept.1, kept.2.1, kept.2.2, isGroup⟩

/-- Receives for one request and of one call. -/
theorem lastGroup_of_all {postings : List Posting} {i : ReqId} {call : Nat}
    (nonempty : postings ≠ [])
    (all : ∀ posting ∈ postings, posting.IsRecv = true ∧ posting.request = i ∧
      posting.group = call) : lastGroup postings i = some call := by
  have kept : postings.filter (fun posting => posting.IsRecv && posting.request = i) =
      postings := by
    rw [List.filter_eq_self]
    intro posting member
    simp [(all posting member).1, (all posting member).2.1]
  rw [lastGroup, kept, List.getLast?_eq_some_getLast nonempty, Option.map_some,
    (all _ (List.getLast_mem nonempty)).2.2]

/-- No receive is for the request. -/
theorem lastGroup_of_none {postings : List Posting} {i : ReqId}
    (none : ∀ posting ∈ postings, posting.IsRecv = true → posting.request ≠ i) :
    lastGroup postings i = .none := by
  have dropped : postings.filter (fun posting => posting.IsRecv && posting.request = i) = [] := by
    rw [List.filter_eq_nil_iff]
    intro posting member
    simpa using none posting member
  rw [lastGroup, dropped]
  rfl

/-- A receive that a call posts. -/
theorem mem_recvPostings {setup : RecvSetup} {comm : RecvComm} {i : ReqId} {posting : Posting}
    (member : posting ∈ comm.recvPostings setup i) :
    posting.IsRecv = true ∧ posting.request = i ∧ posting.group = comm.fifoTail := by
  obtain ⟨q, _, rfl⟩ := List.mem_map.mp member
  exact ⟨rfl, reqAt_val i, rfl⟩

/-- A call becomes the call of its request, and of no other. -/
theorem lastGroup_recvPostings (setup : RecvSetup) (comm : RecvComm) (n : Nat) (i j : ReqId) :
    lastGroup (comm.recvPostings setup i ++ [comm.ctsPosting setup n i]) j =
      if j = i then some comm.fifoTail else none := by
  have noCts : lastGroup [comm.ctsPosting setup n i] j = none := rfl
  rw [lastGroup_append, noCts, Option.none_or]
  by_cases here : j = i
  · have nonempty : comm.recvPostings setup i ≠ [] := by
      have some := setup.perMessage_positive
      intro none
      have length := congrArg List.length none
      simp [RecvComm.recvPostings] at length
      omega
    rw [if_pos here, here]
    exact lastGroup_of_all nonempty fun posting member => mem_recvPostings member
  · rw [if_neg here]
    refine lastGroup_of_none fun posting member _ => ?_
    rw [(mem_recvPostings member).2.1]
    exact fun same => here same.symm

/-! ## What a message writes -/

/-- The writes of a message to user memory write no sizes. -/
theorem foldl_landSizes_user (elems : Nat → Nat → Int32) {wrs : List IbvSendWr}
    (plain : ∀ wr ∈ wrs, ∃ addr, wr.remoteAddr = .user addr) (ep : Endpoint) :
    wrs.foldl (fun ep wr => Connection.landSizes elems wr ep) ep = ep := by
  induction wrs with
  | nil => rfl
  | cons wr rest ih =>
    obtain ⟨addr, isUser⟩ := plain wr List.mem_cons_self
    have same : Connection.landSizes elems wr ep = ep := by
      simp [Connection.landSizes, isUser]
    rw [List.foldl_cons, same]
    exact ih fun other member => plain other (List.mem_cons_of_mem _ member)

/-- A message of a group writes the row of its slot; one of a single send writes none. -/
theorem Carries.lands {setup : SendSetup} {calls : Calls} {matched : List Match} {position : Nat}
    {write : Posting} (carries : Carries setup calls matched position write)
    (elems : Nat → Nat → Int32) (ep : Endpoint) :
    write.chain.foldl (fun ep wr => Connection.landSizes elems wr ep) ep =
      if 1 < (calls write.group).length then
        { ep with
          sizesFifo := Function.update ep.sizesFifo (write.group % maxRequests) fun r =>
            if r < (calls write.group).length then elems (write.group % maxRequests) r
            else ep.sizesFifo (write.group % maxRequests) r }
      else ep := by
  obtain ⟨front, last, message, whole, plain, slot, closes⟩ := carries.closes
  have quiet := foldl_landSizes_user elems (fun wr inFront => by
    obtain ⟨addr, isUser, _⟩ := plain wr inFront
    exact ⟨addr, isUser⟩) ep
  rw [whole, List.foldl_append, quiet, List.foldl_cons, List.foldl_nil, ← carries.members]
  by_cases group : 1 < write.members
  · obtain ⟨isRow, lkey, sge⟩ := closes.group group
    rw [if_pos group]
    simp only [Connection.landSizes, isRow, sge, slot]
    congr 2
    funext r
    have scaled : ((r : Int) * 4 < (write.members : Int) * 4) ↔ r < write.members := by omega
    simp only [scaled]
  · obtain ⟨addr, isUser⟩ := closes.alone group
    rw [if_neg group]
    simp [Connection.landSizes, isUser]

/-! ## Requests in use -/

section

variable {setup : ConnSetup} {c : Connection}

/-- A receive that was not polled is for a request in use, which has its call. -/
theorem Sized.owner (sized : Sized c)
    (accounted : Endpoint.Accounted (fun _ _ => 0) c.recv.ep) {dev : Dev} {posting : Posting}
    (waiting : posting ∈ c.recv.ep.waiting dev) (isRecv : posting.IsRecv = true) :
    (c.recv.ep.reqs posting.request).type = .recv ∧
      (c.recv.ep.reqs posting.request).sizes = posting.group % maxRequests ∧
      (c.recv.ep.reqs posting.request).nreqs = (c.calls posting.group).length := by
  have named := accounted.named dev posting waiting
  have type : (c.recv.ep.reqs posting.request).type = .recv := by
    rw [named.typed posting.request named.first, of_decide_eq_true isRecv]
    rfl
  obtain ⟨call, isCall, _, sizes, nreqs⟩ := sized.calls posting.request type
  rw [sized.waits dev posting waiting isRecv, Option.some.injEq] at isCall
  subst isCall
  exact ⟨type, sizes, nreqs⟩

/-- A posting that has not completed was not polled. -/
theorem Endpoint.posted_waiting {ep : Endpoint} {posting : Posting} (posted : posting ∈ ep.posted) :
    posting ∈ ep.waiting posting.dev :=
  List.mem_append_left _ (List.mem_filter.mpr ⟨posted, by simp⟩)

/-- Two receives that were not polled have rows of their own, unless they are of one call. -/
theorem Sized.apart (sized : Sized c)
    (accounted : Endpoint.Accounted (fun _ _ => 0) c.recv.ep) {dev dev' : Dev}
    {posting other : Posting} (waiting : posting ∈ c.recv.ep.waiting dev)
    (waiting' : other ∈ c.recv.ep.waiting dev') (isRecv : posting.IsRecv = true)
    (isRecv' : other.IsRecv = true)
    (slot : posting.group % maxRequests = other.group % maxRequests) :
    posting.group = other.group := by
  obtain ⟨type, sizes, _⟩ := sized.owner accounted waiting isRecv
  obtain ⟨type', sizes', _⟩ := sized.owner accounted waiting' isRecv'
  have same := sized.rows _ _ type type' (by rw [sizes, sizes', slot])
  have calls := sized.waits dev posting waiting isRecv
  rw [same, sized.waits dev' other waiting' isRecv', Option.some.injEq] at calls
  exact calls.symm

/-- A message that has not arrived has its receive among those nothing took. -/
theorem Scheduled.receive_posted (scheduled : Scheduled setup c) {q j : Nat} {write : Posting}
    (posted : (c.writesOn q)[j]? = some write) (notArrived : c.delivered q ≤ j) :
    ∃ receive ∈ c.recv.ep.posted, receive.IsRecv = true ∧ receive.group = write.group := by
  obtain ⟨receive, isReceive, group⟩ := scheduled.same_group posted
  have pending : receive ∈ receivesOn c.recv.ep.posted q := by
    rw [scheduled.pending q]
    refine List.mem_of_getElem? (i := j - c.delivered q) ?_
    rw [List.getElem?_drop, Nat.add_sub_cancel' notArrived, isReceive]
  have kept := List.mem_filter.mp pending
  rw [Bool.and_eq_true] at kept
  exact ⟨receive, kept.1, kept.2.1, group⟩

/-! ## Steps that leave the rows -/

/-- What the sizes read of the receiver; requests may have been freed, and receives taken. -/
structure SameSizes (c after : Connection) : Prop where
  history : after.history = c.history
  reqs : ∀ i, (after.recv.ep.reqs i).type = .recv → (c.recv.ep.reqs i).type = .recv ∧
    (after.recv.ep.reqs i).sizes = (c.recv.ep.reqs i).sizes ∧
    (after.recv.ep.reqs i).nreqs = (c.recv.ep.reqs i).nreqs
  log : after.recv.ep.log.filter Posting.IsRecv = c.recv.ep.log.filter Posting.IsRecv
  waiting : ∀ dev, ∀ posting ∈ after.recv.ep.waiting dev, posting.IsRecv = true →
    ∃ dev', posting ∈ c.recv.ep.waiting dev'
  filled : ∀ i, (after.recv.ep.reqs i).type = .recv → ∀ posting, posting.IsRecv = true →
    posting.request = i → c.callOf i = some posting.group →
      c.Awaited posting ∨ c.Filled posting.group →
        after.Awaited posting ∨ after.Filled posting.group

theorem Connection.calls_congr {after : Connection} (history : after.history = c.history) :
    after.calls = c.calls := by
  unfold Connection.calls
  rw [history]

theorem Sized.congr (sized : Sized c) {after : Connection} (same : SameSizes c after)
    (staged : after.Staged) : Sized after := by
  have calls := Connection.calls_congr same.history
  have callOf (i : ReqId) : after.callOf i = c.callOf i := lastGroup_congr same.log i
  refine ⟨?_, ?_, ?_, ?_, staged⟩
  · intro i type
    obtain ⟨type, sizes, nreqs⟩ := same.reqs i type
    obtain ⟨call, isCall, made, ownSizes, ownNreqs⟩ := sized.calls i type
    rw [callOf, same.history, sizes, nreqs, calls]
    exact ⟨call, isCall, made, ownSizes, ownNreqs⟩
  · intro dev posting waiting isRecv
    obtain ⟨dev', before⟩ := same.waiting dev posting waiting isRecv
    rw [callOf]
    exact sized.waits dev' posting before isRecv
  · intro i j type type' row
    obtain ⟨type, sizes, _⟩ := same.reqs i type
    obtain ⟨type', sizes', _⟩ := same.reqs j type'
    rw [sizes, sizes'] at row
    exact sized.rows i j type type' row
  · intro i type posting member isRecv request isCall
    have inLog : posting ∈ c.recv.ep.log := by
      have kept := List.mem_filter.mpr ⟨member, isRecv⟩
      rw [same.log] at kept
      exact (List.mem_filter.mp kept).1
    rw [callOf] at isCall
    exact same.filled i type posting isRecv request isCall
      (sized.filled i (same.reqs i type).1 posting inLog isRecv request isCall)

/-- More matches leave a row filled. -/
theorem Connection.Filled.mono {after : Connection} {call : Nat} (filled : c.Filled call)
    (history : after.history = c.history) (matched : ∀ m ∈ c.matched, m ∈ after.matched)
    (row : ∀ r, r < (c.calls call).length → after.recv.ep.sizesFifo (call % maxRequests) r =
      c.recv.ep.sizesFifo (call % maxRequests) r) : after.Filled call := by
  have calls := Connection.calls_congr history
  intro r below
  rw [calls] at below ⊢
  obtain ⟨m, member, place, size⟩ := filled r below
  exact ⟨m, matched m member, place, (row r below).trans size⟩

/-- A receive stays awaited while it is on the queues. -/
theorem Connection.Awaited.mono {after : Connection} {posting : Posting}
    (awaited : c.Awaited posting) (history : after.history = c.history)
    (posted : posting ∈ c.recv.ep.posted → posting ∈ after.recv.ep.posted)
    (polled : ∀ dev, posting ∈ (c.recv.ep.cqs dev).map IbvWc.posting →
      posting ∈ (after.recv.ep.cqs dev).map IbvWc.posting) : after.Awaited posting := by
  have calls := Connection.calls_congr history
  rcases awaited with waits | ⟨alone, dev, completed⟩
  · exact .inl (posted waits)
  · exact .inr ⟨by rw [calls]; exact alone, dev, polled dev completed⟩

/-- What the sender keeps for its messages reads few things. -/
theorem Connection.Staged.congr {after : Connection} (staged : c.Staged)
    (history : after.history = c.history) (matched : ∀ m ∈ c.matched, m ∈ after.matched)
    (log : after.send.ep.log = c.send.ep.log) (elems : after.send.elems = c.send.elems)
    (delivered : ∀ q, c.delivered q ≤ after.delivered q) : after.Staged := by
  have calls := Connection.calls_congr history
  intro q j write posted notArrived group r below
  rw [Connection.writesOn, log] at posted
  rw [calls] at group below ⊢
  obtain ⟨m, member, place, size⟩ :=
    staged q j write posted (Nat.le_trans (delivered q) notArrived) group r below
  exact ⟨m, matched m member, place, by rw [elems]; exact size⟩

/-- A step of the sender leaves the receiver's rows. -/
theorem Sized.sender (sized : Sized c) {after : Connection} (recv : after.recv = c.recv)
    (history : after.history = c.history) (matched : ∀ m ∈ c.matched, m ∈ after.matched)
    (staged : after.Staged) : Sized after := by
  refine sized.congr ⟨history, ?_, by rw [recv], ?_, ?_⟩ staged
  · intro i type
    rw [recv] at type ⊢
    exact ⟨type, rfl, rfl⟩
  · intro dev posting waiting _
    rw [recv] at waiting
    exact ⟨dev, waiting⟩
  · intro i _ posting _ _ _ either
    rcases either with awaited | filled
    · refine .inl (awaited.mono history ?_ ?_)
      · rw [recv]
        exact id
      · intro dev
        rw [recv]
        exact id
    · refine .inr (filled.mono history matched fun r _ => ?_)
      rw [recv]

/-! ## Posting a message -/

/-- A message of a group takes a row that no message still needs, and fills it with the sizes
of its sends. -/
theorem Sized.post (sized : Sized c) (linked : Linked setup.toEnds c)
    (scheduled : Scheduled setup c) (answered : Answered setup.send c) {comm send : SendComm}
    {reqs : List ReqId} {first : ReqId} {postings : List Posting} {matched : List Match}
    (sent : Sent setup.send comm reqs first send postings)
    (head : comm.fifoHead = c.send.fifoHead) (log : comm.ep.log = c.send.ep.log)
    (elems : comm.elems = c.send.elems) (announced : c.send.fifoHead < c.history.length)
    (length : reqs.length = (c.calls c.send.fifoHead).length)
    (member : ∀ posting ∈ postings, posting.group = c.send.fifoHead)
    (more : ∀ m ∈ c.matched, m ∈ matched)
    (found : ∀ r req, reqs[r]? = some req → ∃ m ∈ matched, m.place = (c.send.fifoHead, r) ∧
      (comm.ep.reqs req).size = m.clipped c.calls) :
    Sized { c with send := send, matched := matched } := by
  refine sized.sender rfl rfl more ?_
  intro q j write posted notArrived group r below
  have group : 1 < (c.calls write.group).length := group
  have below : r < (c.calls write.group).length := below
  have notArrived : c.delivered q ≤ j := notArrived
  change ((send.ep.log).filter (Posting.OnQp q))[j]? = some write at posted
  change ∃ m ∈ matched, m.place = (write.group, r) ∧
    send.elems (write.group % maxRequests) r = m.clipped c.calls
  rw [sent.log, log, List.filter_append] at posted
  change (c.writesOn q ++ postings.filter (Posting.OnQp q))[j]? = some write at posted
  rw [sent.elems]
  rcases Nat.lt_or_ge j (c.writesOn q).length with old | new
  · -- its receive is still posted, as is one of the call that the sender is at
    rw [List.getElem?_append_left old] at posted
    obtain ⟨m, isMatch, place, size⟩ := sized.staged q j write posted notArrived group r below
    obtain ⟨receive, waits, isRecv, isGroup⟩ := scheduled.receive_posted posted notArrived
    obtain ⟨next, waits', isRecv', isHead⟩ := scheduled.waits (Nat.le_refl _) announced
    have earlier : write.group < c.send.fifoHead :=
      answered.grouped write (List.mem_filter.mp (List.mem_of_getElem? posted)).1
    have slot : write.group % maxRequests ≠ c.send.fifoHead % maxRequests := by
      intro same
      have equal := sized.apart linked.recvOk.accounted (Endpoint.posted_waiting waits)
        (Endpoint.posted_waiting waits') isRecv isRecv' (by rw [isGroup, isHead, same])
      omega
    refine ⟨m, more m isMatch, place, ?_⟩
    split
    · rw [elems]
      exact size
    · rw [writeSizes, head]
      simp only [Function.update_of_ne slot, elems]
      exact size
  · have isNew : write ∈ postings := by
      rw [List.getElem?_append_right new] at posted
      exact (List.mem_filter.mp (List.mem_of_getElem? posted)).1
    rw [member write isNew] at group below ⊢
    have inside : r < reqs.length := length ▸ below
    obtain ⟨m, isMatch, place, size⟩ := found r reqs[r] (List.getElem?_eq_getElem inside)
    refine ⟨m, isMatch, place, ?_⟩
    rw [if_neg (by omega), writeSizes, head]
    simp only [Function.update_self, List.getElem?_eq_getElem inside]
    exact size

/-! ## Receive calls -/

/-- A receive that was posted is of a call that was made. -/
theorem Scheduled.receive_made (scheduled : Scheduled setup c) {posting : Posting}
    (member : posting ∈ c.recv.ep.log) (isRecv : posting.IsRecv = true) :
    posting.group < c.history.length := by
  have key := List.mem_map_of_mem (f := Posting.key) (List.mem_filter.mpr ⟨member, isRecv⟩)
  rw [scheduled.receives] at key
  obtain ⟨entry, _, isKey⟩ := List.mem_map.mp key
  have onQp : posting.OnQp entry.1 = true := by
    have qp := congrArg Prod.fst isKey
    exact decide_eq_true qp.symm
  apply roundsOn_lt
  rw [← scheduled.receivesOn_groups entry.1]
  exact List.mem_map_of_mem (List.mem_filter.mpr ⟨member, by rw [isRecv, onQp]; rfl⟩)

/-- Matches of a call that was made have the sizes that they had. -/
theorem Match.clipped_congr {calls more : Calls} {m : Match} {call r : Nat}
    (place : m.place = (call, r)) (same : more call = calls call) :
    m.clipped more = m.clipped calls := by
  rw [Match.clipped, Match.clipped, (Prod.mk.inj place).1, same]

/-- A receive call is the call of its request from then on, and the other requests keep
theirs. -/
theorem Received.callOf {recvs : List RecvArg} {i : ReqId} {recv : RecvComm}
    (received : Received setup.recv c.recv recvs i recv) (j : ReqId) :
    (c.receive recv recvs.length).callOf j =
      if j = i then some c.recv.fifoTail else c.callOf j := by
  change lastGroup recv.ep.log j = _
  rw [received.log, lastGroup_append, lastGroup_recvPostings]
  split
  · rfl
  · exact Option.none_or

/-- A call that finds its row free takes the row. -/
theorem Sized.received (sized : Sized c) (linked : Linked setup.toEnds c)
    (scheduled : Scheduled setup c) (answered : Answered setup.send c) {recvs : List RecvArg}
    {i : ReqId} {recv : RecvComm}
    (unused : (c.recv.ep.reqs i).type = .unused)
    (received : Received setup.recv c.recv recvs i recv)
    (free : ∀ j, (c.recv.ep.reqs j).type = .recv →
      (c.recv.ep.reqs j).sizes ≠ c.recv.fifoTail % maxRequests) :
    Sized (c.receive recv recvs.length) := by
  have tail := linked.tail
  have extended := receive_extends c recv recvs.length
  have calls {call : Nat} (made : call < c.history.length) :
      (c.receive recv recvs.length).calls call = c.calls call :=
    receive_calls_other recv recvs.length (Nat.ne_of_lt made)
  have here : ((c.receive recv recvs.length).calls c.recv.fifoTail).length = recvs.length := by
    rw [tail, receive_calls_self, announcedBy_length]
  have length : (c.receive recv recvs.length).history.length = c.history.length + 1 := by
    simp [Connection.receive]
  have callOf := received.callOf
  have older {j : ReqId} (type : (recv.ep.reqs j).type = .recv) (other : j ≠ i) :
      (c.recv.ep.reqs j).type = .recv := by
    rw [received.others j other] at type
    exact type
  have row {slot : Nat} (other : slot ≠ c.recv.fifoTail % maxRequests) :
      recv.ep.sizesFifo slot = c.recv.ep.sizesFifo slot := by
    rw [received.sizesFifo, Endpoint.clearSizes]
    simp only [Function.update_of_ne other]
  refine ⟨?_, ?_, ?_, ?_, ?_⟩
  · intro j type
    have type : (recv.ep.reqs j).type = .recv := type
    change ∃ call, (c.receive recv recvs.length).callOf j = some call ∧
      call < (c.receive recv recvs.length).history.length ∧
      (recv.ep.reqs j).sizes = call % maxRequests ∧
      (recv.ep.reqs j).nreqs = ((c.receive recv recvs.length).calls call).length
    rw [callOf, length]
    by_cases new : j = i
    · subst new
      exact ⟨_, if_pos rfl, by omega, received.sizes, by rw [here, received.nreqs]⟩
    · obtain ⟨call, isCall, made, sizes, nreqs⟩ := sized.calls j (older type new)
      rw [received.others j new]
      exact ⟨call, by rw [if_neg new, isCall], by omega, sizes, by rw [calls made, nreqs]⟩
  · intro dev posting waiting isRecv
    rw [callOf]
    have sorted : posting ∈ c.recv.ep.waiting dev ∨ posting ∈ c.recv.recvPostings setup.recv i := by
      rcases List.mem_append.mp waiting with posted | completed
      · obtain ⟨member, onDev⟩ := List.mem_filter.mp posted
        have member : posting ∈ recv.ep.posted := member
        rw [received.posted] at member
        rcases List.mem_append.mp member with old | new
        · exact .inl (List.mem_append_left _ (List.mem_filter.mpr ⟨old, onDev⟩))
        · rcases List.mem_append.mp new with receive | cts
          · exact .inr receive
          · have none := ctsPostings_isRecv setup.recv c.recv recvs.length i
            have kept := List.mem_filter.mpr ⟨cts, isRecv⟩
            rw [none] at kept
            exact absurd kept List.not_mem_nil
      · have completed : posting ∈ (recv.ep.cqs dev).map IbvWc.posting := completed
        rw [received.cqs] at completed
        exact .inl (List.mem_append_right _ completed)
    rcases sorted with old | new
    · have other : posting.request ≠ i := by
        intro same
        have type := (sized.owner linked.recvOk.accounted old isRecv).1
        rw [same, unused] at type
        exact absurd type (by decide)
      rw [if_neg other]
      exact sized.waits dev posting old isRecv
    · obtain ⟨_, request, group⟩ := mem_recvPostings new
      rw [if_pos request, group]
  · intro j k type type' sizes
    have type : (recv.ep.reqs j).type = .recv := type
    have type' : (recv.ep.reqs k).type = .recv := type'
    have sizes : (recv.ep.reqs j).sizes = (recv.ep.reqs k).sizes := sizes
    by_cases new : j = i
    · by_cases new' : k = i
      · rw [new, new']
      · rw [new, received.sizes, received.others k new'] at sizes
        exact absurd sizes.symm (free k (older type' new'))
    · by_cases new' : k = i
      · rw [new', received.sizes, received.others j new] at sizes
        exact absurd sizes (free j (older type new))
      · rw [received.others j new, received.others k new'] at sizes
        exact sized.rows j k (older type new) (older type' new') sizes
  · intro j type posting member isRecv request isCall
    have type : (recv.ep.reqs j).type = .recv := type
    have member : posting ∈ recv.ep.log := member
    rw [received.log] at member
    rw [callOf] at isCall
    by_cases new : j = i
    · -- the receives of the call were posted just now
      rw [if_pos new, Option.some.injEq] at isCall
      rcases List.mem_append.mp member with old | posted
      · have made := scheduled.receive_made old isRecv
        omega
      · refine .inl (.inl ?_)
        change posting ∈ recv.ep.posted
        rw [received.posted]
        rcases List.mem_append.mp posted with receive | cts
        · exact List.mem_append_right _ (List.mem_append_left _ receive)
        · rw [List.mem_singleton.mp cts] at isRecv
          exact absurd isRecv Bool.false_ne_true
    · rw [if_neg new] at isCall
      have old : posting ∈ c.recv.ep.log := by
        rcases List.mem_append.mp member with old | posted
        · exact old
        · rcases List.mem_append.mp posted with receive | cts
          · exact absurd (request.symm.trans (mem_recvPostings receive).2.1) new
          · rw [List.mem_singleton.mp cts] at isRecv
            exact absurd isRecv Bool.false_ne_true
      have made := scheduled.receive_made old isRecv
      obtain ⟨call, isOwn, _, sizes, _⟩ := sized.calls j (older type new)
      obtain rfl := Option.some.inj (isCall.symm.trans isOwn)
      rcases sized.filled j (older type new) posting old isRecv request isCall with awaited | filled
      · rcases awaited with waits | ⟨alone, dev, completed⟩
        · refine .inl (.inl ?_)
          change posting ∈ recv.ep.posted
          rw [received.posted]
          exact List.mem_append_left _ waits
        · refine .inl (.inr ⟨by rw [calls made]; exact alone, dev, ?_⟩)
          change posting ∈ (recv.ep.cqs dev).map IbvWc.posting
          rw [received.cqs]
          exact completed
      · refine .inr fun r below => ?_
        rw [calls made] at below
        obtain ⟨m, isMatch, place, size⟩ := filled r below
        refine ⟨m, isMatch, place, ?_⟩
        rw [Match.clipped_congr place (calls made)]
        change recv.ep.sizesFifo (posting.group % maxRequests) r = _
        rw [row (sizes ▸ free j (older type new))]
        exact size
  · intro q position write posted notArrived group r below
    have posted : (c.writesOn q)[position]? = some write := posted
    have made : write.group < c.history.length :=
      Nat.lt_of_lt_of_le (answered.grouped write
        (List.mem_filter.mp (List.mem_of_getElem? posted)).1) scheduled.head
    rw [calls made] at group below
    obtain ⟨m, isMatch, place, size⟩ :=
      sized.staged q position write posted notArrived group r below
    refine ⟨m, isMatch, place, ?_⟩
    rw [Match.clipped_congr place (calls made)]
    exact size

/-! ## Tests -/

/-- The size that a completion leaves in the row of its call. -/
theorem Endpoint.settle_sizesFifo (ep : Endpoint) (dev : Dev) (wc : IbvWc) (rest : List IbvWc) :
    ((ep.setCq dev rest).settle dev wc).sizesFifo =
      if wc.posting.IsRecv = true ∧ (ep.reqs wc.posting.request).nreqs = 1 then
        Function.update ep.sizesFifo (ep.reqs wc.posting.request).sizes
          (Function.update (ep.sizesFifo (ep.reqs wc.posting.request).sizes) 0 wc.immData.toInt32)
      else ep.sizesFifo := by
  simp only [Endpoint.settle, Posting.IsRecv, decide_eq_true_eq]
  rfl

/-- Settling the completion of a single receive fills its row. -/
theorem Sized.settle (sized : Sized c)
    (accounted : Endpoint.Accounted (fun _ _ => 0) c.recv.ep) {dev : Dev} {wc : IbvWc}
    {rest : List IbvWc} (head : c.recv.ep.cqs dev = wc :: rest)
    (carried : wc.posting.IsRecv = true → ∃ m ∈ c.matched, m.place = (wc.posting.group, 0) ∧
      wc.immData = if (c.calls wc.posting.group).length = 1 then (m.clipped c.calls).toUInt32
        else 0) :
    Sized { c with recv := { c.recv with ep := (c.recv.ep.setCq dev rest).settle dev wc } } := by
  have kept := Endpoint.Kept.settle c.recv.ep dev wc rest
  have moved := Endpoint.setCq_waiting head
  have waiting : wc.posting ∈ c.recv.ep.waiting dev :=
    List.mem_append_right _ (by rw [head]; exact List.mem_cons_self)
  have row := Endpoint.settle_sizesFifo c.recv.ep dev wc rest
  have type (i : ReqId)
      (isRecv : (((c.recv.ep.setCq dev rest).settle dev wc).reqs i).type = .recv) :
      (c.recv.ep.reqs i).type = .recv := by
    rw [kept.reqs i] at isRecv
    exact isRecv
  refine sized.congr ⟨rfl, ?_, rfl, ?_, ?_⟩
    (sized.staged.congr rfl (fun _ member => member) rfl rfl fun _ => Nat.le_refl _)
  · intro i isRecv
    refine ⟨type i isRecv, ?_, ?_⟩
    · change (((c.recv.ep.setCq dev rest).settle dev wc).reqs i).sizes = _
      rw [kept.reqs i]
    · change (((c.recv.ep.setCq dev rest).settle dev wc).reqs i).nreqs = _
      rw [kept.reqs i]
  · intro other posting member _
    refine ⟨other, (moved other).mem_iff.mpr ?_⟩
    split
    · exact List.mem_cons_of_mem _ member
    · exact member
  · intro i isRecv posting postRecv request isCall either
    have inUse := type i isRecv
    obtain ⟨call, isOwn, _, sizes, nreqs⟩ := sized.calls i inUse
    obtain rfl := Option.some.inj (isCall.symm.trans isOwn)
    by_cases own : wc.posting.IsRecv = true ∧ wc.posting.request = i
    · obtain ⟨wcRecv, isI⟩ := own
      have group : wc.posting.group = posting.group := by
        have calls := sized.waits dev wc.posting waiting wcRecv
        rw [isI, isCall, Option.some.injEq] at calls
        exact calls.symm
      by_cases alone : (c.calls posting.group).length = 1
      · obtain ⟨m, isMatch, place, immData⟩ := carried wcRecv
        refine .inr fun r below => ?_
        have below : r < (c.calls posting.group).length := below
        obtain rfl : r = 0 := by omega
        refine ⟨m, isMatch, group ▸ place, ?_⟩
        change ((c.recv.ep.setCq dev rest).settle dev wc).sizesFifo _ 0 = m.clipped c.calls
        rw [row, isI, if_pos ⟨wcRecv, nreqs.trans alone⟩, sizes, Function.update_self,
          Function.update_self, immData, group, if_pos alone]
        exact Int32.toInt32_toUInt32 _
      · rcases either with awaited | filled
        · rcases awaited with posted | ⟨single, _⟩
          · exact .inl (.inl posted)
          · exact absurd single alone
        · refine .inr (filled.mono rfl (fun _ member => member) fun r _ => ?_)
          change ((c.recv.ep.setCq dev rest).settle dev wc).sizesFifo _ r = _
          rw [row, isI, if_neg fun both => alone (nreqs.symm.trans both.2)]
    · rcases either with awaited | filled
      · refine .inl (awaited.mono rfl id fun other member => ?_)
        change posting ∈ (Function.update c.recv.ep.cqs dev rest other).map IbvWc.posting
        by_cases here : other = dev
        · subst here
          rw [head, List.map_cons] at member
          rw [Function.update_self]
          refine (List.mem_cons.mp member).resolve_left ?_
          rintro rfl
          exact own ⟨postRecv, request⟩
        · rwa [Function.update_of_ne here]
      · refine .inr (filled.mono rfl (fun _ member => member) fun r _ => ?_)
        change ((c.recv.ep.setCq dev rest).settle dev wc).sizesFifo _ r = _
        rw [row]
        split
        · -- the row that is written belongs to another request
          rename_i single
          have other := (sized.owner accounted waiting single.1).1
          have apart : posting.group % maxRequests ≠ (c.recv.ep.reqs wc.posting.request).sizes := by
            intro same
            rw [← sizes] at same
            exact own ⟨single.1, (sized.rows _ _ inUse other same).symm⟩
          rw [Function.update_of_ne apart]
        · rfl

/-- A test fills the rows of the single receives that it finds completed. -/
theorem Sized.settles (sized : Sized c) (linked : Linked setup.toEnds c)
    (answered : Answered setup.send c) (immediate : c.Immediate) {settled : Endpoint}
    (settles : Endpoint.Settles c.recv.ep settled) :
    Sized { c with recv := { c.recv with ep := settled } } := by
  have both := @Endpoint.Settles.keeps (fun _ _ => 0)
    (fun later => Sized { c with recv := { c.recv with ep := later } } ∧
      ∀ dev, ∀ wc ∈ later.cqs dev, wc ∈ c.recv.ep.cqs dev) c.recv.ep settled settles
    linked.recvOk.accounted ?_ ⟨sized, fun _ _ member => member⟩
  · exact both.1
  · intro later dev wc rest accounted head held
    refine ⟨Sized.settle held.1 accounted head fun isRecv => ?_, ?_⟩
    · have inQueue : wc ∈ c.recv.ep.cqs dev :=
        held.2 dev wc (by rw [head]; exact List.mem_cons_self)
      exact immediate.carried answered inQueue isRecv
    · intro other left member
      refine held.2 other left ?_
      by_cases here : other = dev
      · subst here
        have inRest : left ∈ rest := by simpa [Endpoint.settle, Endpoint.setCq] using member
        rw [head]
        exact List.mem_cons_of_mem _ inRest
      · simpa [Endpoint.settle, Endpoint.setCq, here] using member

/-- Freeing a request frees its row. -/
theorem Sized.free (sized : Sized c) (i : ReqId) :
    Sized { c with recv := { c.recv with ep := c.recv.ep.ncclIbFreeRequest i } } := by
  have same {j : ReqId} (type : ((c.recv.ep.ncclIbFreeRequest i).reqs j).type = .recv) :
      (c.recv.ep.ncclIbFreeRequest i).reqs j = c.recv.ep.reqs j := by
    by_cases here : j = i
    · subst here
      simp [Endpoint.ncclIbFreeRequest, Endpoint.setReq] at type
    · simp [Endpoint.ncclIbFreeRequest, Endpoint.setReq, here]
  refine sized.congr ⟨rfl, ?_, rfl, fun dev posting waiting _ => ⟨dev, waiting⟩, ?_⟩
    (sized.staged.congr rfl (fun _ member => member) rfl rfl fun _ => Nat.le_refl _)
  · intro j type
    have kept := same type
    change ((c.recv.ep.ncclIbFreeRequest i).reqs j).type = .recv at type
    change _ ∧ ((c.recv.ep.ncclIbFreeRequest i).reqs j).sizes = _ ∧
      ((c.recv.ep.ncclIbFreeRequest i).reqs j).nreqs = _
    rw [kept] at type ⊢
    exact ⟨type, rfl, rfl⟩
  · intro _ _ posting _ _ _ either
    exact either

/-! ## Messages that arrive -/

/-- A message that arrives fills the row of its group, or brings the size of a single send to
the queue of its receive. -/
theorem Sized.deliver (sized : Sized c) (linked : Linked setup.toEnds c)
    (scheduled : Scheduled setup c) (answered : Answered setup.send c) {q position : Nat}
    {write : Posting} {ep : Endpoint}
    (next : (c.writesOn q)[c.delivered q]? = some write)
    (oldest : c.recv.ep.posted.findIdx? (fun posting => posting.IsRecv && posting.OnQp q) =
      some position)
    (completed : (write.chain.foldl (fun ep wr => Connection.landSizes c.send.elems wr ep)
      c.recv.ep).complete position write.immData = some ep) :
    Sized { c with
      recv := { c.recv with ep := ep }
      delivered := Function.update c.delivered q (c.delivered q + 1) } := by
  obtain ⟨p, inLog⟩ := List.getElem?_of_mem (List.mem_filter.mp (List.mem_of_getElem? next)).1
  have lands := congrArg Endpoint.sizesFifo
    ((answered.answers p write inLog).2.lands c.send.elems c.recv.ep)
  rw [foldl_landSizes_rest] at completed
  generalize (write.chain.foldl (fun ep wr => Connection.landSizes c.send.elems wr ep)
    c.recv.ep).sizesFifo = row at completed lands
  obtain ⟨taken, placed, rfl⟩ := Option.map_eq_some_iff.mp completed
  have placed : c.recv.ep.posted[position]? = some taken := placed
  have group : taken.group = write.group := scheduled.takes next oldest placed
  have takenRecv : taken.IsRecv = true := by
    have first := (List.findIdx?_eq_some_iff_getElem.mp oldest).2.1
    obtain ⟨inside, isTaken⟩ := List.getElem?_eq_some_iff.mp placed
    rw [isTaken, Bool.and_eq_true] at first
    exact first.1
  have waiting := Endpoint.posted_waiting (List.mem_of_getElem? placed)
  obtain ⟨takenType, takenSizes, _⟩ := sized.owner linked.recvOk.accounted waiting takenRecv
  have called : c.callOf taken.request = some write.group := by
    rw [← group]
    exact sized.waits _ taken waiting takenRecv
  have others {slot : Nat} (other : slot ≠ write.group % maxRequests) :
      row slot = c.recv.ep.sizesFifo slot := by
    rw [lands]
    split
    · simp only [Function.update_of_ne other]
    · rfl
  refine sized.congr ⟨rfl, fun i type => ⟨type, rfl, rfl⟩, rfl, ?_, ?_⟩
    (sized.staged.congr rfl (fun _ member => member) rfl rfl fun q' => ?_)
  · intro dev posting member _
    refine ⟨dev, ?_⟩
    have moved := @Endpoint.complete_waiting c.recv.ep _ position write.immData
      (by rw [Endpoint.complete, placed, Option.map_some])
    exact (moved dev).mem_iff.mp member
  · intro i type posting postRecv request isCall either
    have type : (c.recv.ep.reqs i).type = .recv := type
    obtain ⟨call, isOwn, _, sizes, _⟩ := sized.calls i type
    obtain rfl := Option.some.inj (isCall.symm.trans isOwn)
    have stays (waits : posting ∈ c.recv.ep.posted) (other : posting ≠ taken) :
        posting ∈ c.recv.ep.posted.eraseIdx position := mem_eraseIdx_of_ne waits placed other
    have queued (dev : Dev) (member : posting ∈ (c.recv.ep.cqs dev).map IbvWc.posting) :
        posting ∈ (Function.update c.recv.ep.cqs taken.dev (c.recv.ep.cqs taken.dev ++
          [⟨taken, true, write.immData⟩]) dev).map IbvWc.posting := by
      by_cases here : dev = taken.dev
      · subst here
        rw [Function.update_self, List.map_append]
        exact List.mem_append_left _ member
      · rwa [Function.update_of_ne here]
    by_cases own : posting.group = write.group
    · by_cases many : 1 < (c.calls write.group).length
      · refine .inr fun r below => ?_
        have below : r < (c.calls posting.group).length := below
        rw [own] at below ⊢
        obtain ⟨m, isMatch, place, size⟩ :=
          sized.staged q _ write next (Nat.le_refl _) many r below
        refine ⟨m, isMatch, place, ?_⟩
        change row (write.group % maxRequests) r = m.clipped c.calls
        rw [lands, if_pos many]
        simp only [Function.update_self, below, if_true]
        exact size
      · rw [if_neg many] at lands
        rcases either with awaited | filled
        · rcases awaited with waits | ⟨alone, dev, member⟩
          · by_cases same : posting = taken
            · have some := (answered.answers p write inLog).2
              have positive : 0 < (c.calls write.group).length := some.members ▸ some.nonempty
              refine .inl (.inr ⟨?_, taken.dev, ?_⟩)
              · change (c.calls posting.group).length = 1
                rw [own]
                omega
              · change posting ∈ (Function.update c.recv.ep.cqs taken.dev _ taken.dev).map _
                rw [Function.update_self, List.map_append, same]
                exact List.mem_append_right _ (List.mem_singleton_self _)
            · exact .inl (.inl (stays waits same))
          · exact .inl (.inr ⟨alone, dev, queued dev member⟩)
        · refine .inr (filled.mono rfl (fun _ member => member) fun r _ => ?_)
          change row (posting.group % maxRequests) r = _
          rw [lands]
    · have apart : posting.group % maxRequests ≠ write.group % maxRequests := by
        intro same
        rw [← sizes, ← group, ← takenSizes] at same
        have isI := sized.rows i taken.request type takenType same
        rw [isI, called, Option.some.injEq] at isCall
        exact own isCall.symm
      rcases either with awaited | filled
      · refine .inl (awaited.mono rfl (fun waits => stays waits ?_) queued)
        rintro rfl
        exact own group
      · refine .inr (filled.mono rfl (fun _ member => member) fun r _ => ?_)
        change row (posting.group % maxRequests) r = _
        rw [others apart]
  · change c.delivered q' ≤ Function.update c.delivered q (c.delivered q + 1) q'
    by_cases here : q' = q
    · subst here
      rw [Function.update_self]
      exact Nat.le_succ _
    · rw [Function.update_of_ne here]

/-! ## Every step -/

theorem Sized.fresh (fresh : c.Fresh) : Sized c := by
  obtain ⟨send, recv, history, _, _, matched⟩ := fresh
  obtain ⟨base, _⟩ := recv
  obtain ⟨reqs, _, _, _, _, posted, log, cqs⟩ := base
  obtain ⟨⟨_, _, _, _, _, _, sendLog, _⟩, _⟩ := send
  constructor <;> simp [reqs, NcclIbRequest.zero, Endpoint.waiting, posted, cqs,
    Connection.Staged, Connection.writesOn, sendLog]

/-- A flush leaves the rows. -/
theorem Sized.flushed (sized : Sized c) {i : ReqId} {last : RecvArg} {group : Nat} {devs : List Dev}
    {ep : Endpoint} (flushes : FlushesPosted setup.recv last group i devs
      ((c.recv.ep.setReq i (Endpoint.cleared (c.recv.ep.reqs i))).mapReq i
        (fun req => { req with type := .flush })) ep) :
    Sized { c with recv := { c.recv with ep := ep } } := by
  have posted := congrArg Endpoint.posted flushes.rest
  have log := congrArg Endpoint.log flushes.rest
  have cqs : ep.cqs = c.recv.ep.cqs := (congrArg Endpoint.cqs flushes.rest).trans rfl
  have sizesFifo : ep.sizesFifo = c.recv.ep.sizesFifo :=
    (congrArg Endpoint.sizesFifo flushes.rest).trans rfl
  have none := flushPostings_isRecv setup.recv last group i devs
  refine sized.congr ⟨rfl, ?_, ?_, ?_, ?_⟩
    (sized.staged.congr rfl (fun _ member => member) rfl rfl fun _ => Nat.le_refl _)
  · intro j type
    have type : (ep.reqs j).type = .recv := type
    have other : j ≠ i := by
      rintro rfl
      rw [flushes.fields] at type
      simp [Endpoint.mapReq, Endpoint.setReq] at type
    have same : ep.reqs j = c.recv.ep.reqs j := by
      rw [flushes.others j other]
      simp [Endpoint.mapReq, Endpoint.setReq, other]
    change _ ∧ (ep.reqs j).sizes = _ ∧ (ep.reqs j).nreqs = _
    rw [same] at type ⊢
    exact ⟨type, rfl, rfl⟩
  · change ep.log.filter Posting.IsRecv = c.recv.ep.log.filter Posting.IsRecv
    rw [log, List.filter_append, none, List.append_nil]
    rfl
  · intro dev posting waiting isRecv
    refine ⟨dev, ?_⟩
    rcases List.mem_append.mp waiting with member | completed
    · obtain ⟨member, onDev⟩ := List.mem_filter.mp member
      have member : posting ∈ ep.posted := member
      rw [posted] at member
      rcases List.mem_append.mp member with old | new
      · exact List.mem_append_left _ (List.mem_filter.mpr ⟨old, onDev⟩)
      · have kept := List.mem_filter.mpr ⟨new, isRecv⟩
        rw [none] at kept
        exact absurd kept List.not_mem_nil
    · have completed : posting ∈ (ep.cqs dev).map IbvWc.posting := completed
      rw [cqs] at completed
      exact List.mem_append_right _ completed
  · intro _ _ posting _ _ _ either
    rcases either with awaited | filled
    · refine .inl (awaited.mono rfl (fun waits => ?_) fun dev member => ?_)
      · change posting ∈ ep.posted
        rw [posted]
        exact List.mem_append_left _ waits
      · change posting ∈ (ep.cqs dev).map IbvWc.posting
        rw [cqs]
        exact member
    · refine .inr (filled.mono rfl (fun _ member => member) fun r _ => ?_)
      change ep.sizesFifo _ r = _
      rw [sizesFifo]

/-- The completion of what is no receive leaves the rows. -/
theorem Sized.completed (sized : Sized c) {position : Nat} {immData : UInt32} {ep : Endpoint}
    (notRecv : c.NotRecv position) (completed : c.recv.ep.complete position immData = some ep) :
    Sized { c with recv := { c.recv with ep := ep } } := by
  have moved := Endpoint.complete_waiting completed
  obtain ⟨done, placed, rfl⟩ := Option.map_eq_some_iff.mp completed
  refine sized.congr ⟨rfl, fun i type => ⟨type, rfl, rfl⟩, rfl, ?_, ?_⟩
    (sized.staged.congr rfl (fun _ member => member) rfl rfl fun _ => Nat.le_refl _)
  · intro dev posting member _
    exact ⟨dev, (moved dev).mem_iff.mp member⟩
  · intro _ _ posting isRecv _ _ either
    rcases either with awaited | filled
    · refine .inl (awaited.mono rfl (fun waits => mem_eraseIdx_of_ne waits placed ?_)
        fun dev member => ?_)
      · rintro rfl
        exact absurd isRecv (by rw [notRecv posting placed]; decide)
      · change posting ∈ (Function.update c.recv.ep.cqs done.dev _ dev).map IbvWc.posting
        by_cases here : dev = done.dev
        · subst here
          rw [Function.update_self, List.map_append]
          exact List.mem_append_left _ member
        · rwa [Function.update_of_ne here]
    · exact .inr (filled.mono rfl (fun _ member => member) fun _ _ => rfl)

/-- One step keeps the sizes, when a receive call finds its row free. -/
theorem Sized.step (sized : Sized c) (linked : Linked setup.toEnds c)
    (scheduled : Scheduled setup c) (answered : Answered setup.send c) (immediate : c.Immediate)
    {event : ConnEvent} {after : Connection} (permitted : RowFree c event)
    (stepped : ConnStep setup.toEnds c event after) : Sized after := by
  have all {matched : List Match} : ∀ m ∈ c.matched, m ∈ c.matched ++ matched :=
    fun _ member => List.mem_append_left _ member
  have same : ∀ m ∈ c.matched, m ∈ c.matched := fun _ member => member
  have still : ∀ q, c.delivered q ≤ c.delivered q := fun _ => Nat.le_refl _
  cases stepped with
  | sent effect =>
    cases effect with
    | nothing => exact sized.sender rfl rfl all (sized.staged.congr rfl all rfl rfl still)
    | matched => exact sized.sender rfl rfl all (sized.staged.congr rfl all rfl rfl still)
    | posted hit full =>
      have ok := linked.sendOk.hit linked.announced hit
      obtain ⟨postings, sent⟩ := SendComm.post_sent (ok _ _ _).inside full.isFirst
      rw [matchOf_hit linked.sendOk linked.announced hit]
      have matched := answered.hit linked.sendOk hit
      refine sized.post linked scheduled answered sent rfl rfl rfl hit.announced full.length
        (fun posting member => (sent.member member).2.2.2) all fun r req placed => ?_
      exact (matched _ _ _).waiting r req (full.taken placed)
  | sendCompleted completed =>
    obtain ⟨_, _, rfl⟩ := Option.map_eq_some_iff.mp completed
    exact sized.sender rfl rfl same (sized.staged.congr rfl same rfl rfl still)
  | sendWaits settles _ =>
    have kept := settles.kept linked.sendOk.accounted
    exact sized.sender rfl rfl same (sized.staged.congr rfl same kept.log rfl still)
  | sendDone settles _ _ _ =>
    have kept := settles.kept linked.sendOk.accounted
    exact sized.sender rfl rfl same (sized.staged.congr rfl same kept.log rfl still)
  | refused => exact sized
  | @received recvs i recv _ unused few received =>
    exact sized.received linked scheduled answered unused received (permitted few ⟨i, unused⟩)
  | flushed _ effect =>
    cases effect with
    | nothing => exact sized
    | flushed _ flushes => exact sized.flushed flushes
  | recvCompleted notRecv completed => exact sized.completed notRecv completed
  | recvWaits settles _ => exact sized.settles linked answered immediate settles
  | recvDone settles _ _ _ => exact (sized.settles linked answered immediate settles).free _
  | landed => exact sized.sender rfl rfl same (sized.staged.congr rfl same rfl rfl still)
  | delivered next oldest completed =>
    exact sized.deliver linked scheduled answered next oldest completed

/-- Every run whose receive calls find their rows free keeps the sizes. -/
theorem connection_sized (reached : (connection setup.toEnds).Reaches RowFree c) : Sized c := by
  induction reached with
  | start first => exact Sized.fresh first
  | next before permitted stepped ih =>
    have linked := connection_linked before
    exact ih.step linked (connection_scheduled before) (connection_answered before)
      (connection_immediate before) permitted (linked.connStep stepped)

/-! ## The sizes over whole runs -/

/-- The receives in use have different rows, and a test that finds one done reports for each
receive of its call the size of the send that was matched to it. -/
structure SizesRight (setup : ConnSetup) (c : Connection) : Prop where
  rows : ∀ i j, (c.recv.ep.reqs i).type = .recv → (c.recv.ep.reqs j).type = .recv →
    (c.recv.ep.reqs i).sizes = (c.recv.ep.reqs j).sizes → i = j
  reported : ∀ i result sizes ep, (c.recv.ep.reqs i).type = .recv →
    c.recv.ep.ncclIbTest setup.recv.asyncEvents i = .returned result true sizes ep →
      ∃ call, c.callOf i = some call ∧ sizes.length = (c.calls call).length ∧
        ∀ r, r < (c.calls call).length → ∃ m ∈ c.matched, m.place = (call, r) ∧
          sizes[r]? = some (m.clipped c.calls)

/-- A finished receive has its row filled. -/
theorem Sized.finished (sized : Sized c)
    (accounted : Endpoint.Accounted (fun _ _ => 0) c.recv.ep) {i : ReqId} {call : Nat}
    (type : (c.recv.ep.reqs i).type = .recv) (isCall : c.callOf i = some call)
    (finished : c.recv.ep.Finished i) : c.Filled call := by
  have quiet := (accounted.finished_iff i).mp finished
  obtain ⟨posting, inLog, isRecv, request, rfl⟩ := lastGroup_mem isCall
  have polled (dev : Dev) : posting ∉ c.recv.ep.waiting dev := by
    intro waiting
    have named := (accounted.named dev posting waiting).first
    have counted : 0 < c.recv.ep.outstanding i dev :=
      List.countP_pos_iff.mpr ⟨posting, waiting, decide_eq_true (by rw [← request]; exact named)⟩
    have none := (quiet dev).1
    omega
  rcases sized.filled i type posting inLog isRecv request isCall with awaited | filled
  · rcases awaited with posted | ⟨_, dev, completed⟩
    · exact absurd (Endpoint.posted_waiting posted) (polled posting.dev)
    · exact absurd (List.mem_append_right _ completed) (polled dev)
  · exact filled

/-- In every run whose receive calls find their rows free, the receives in use have different
rows and report the sizes of their own sends. -/
theorem sizes_reported (setup : ConnSetup) {c : Connection}
    (reached : (connection setup.toEnds).Reaches RowFree c) : SizesRight setup c := by
  have sized := connection_sized reached
  have linked := connection_linked reached
  refine ⟨sized.rows, fun i result sizes ep type tested => ?_⟩
  obtain ⟨done, reported, settled, settles, accounted, called, finished, _⟩ :=
    linked.recvOk.accounted.test setup.recv.asyncEvents i
  rw [called, Endpoint.TestOutcome.returned.injEq] at tested
  obtain ⟨-, rfl, rfl, -⟩ := tested
  obtain ⟨isFinished, isReported⟩ := finished rfl
  have after := sized.settles linked (connection_answered reached) (connection_immediate reached)
    settles
  have kept := settles.kept linked.recvOk.accounted
  have type' : (settled.reqs i).type = .recv := by
    rw [kept.reqs i]
    exact type
  obtain ⟨call, isCall, _, row, nreqs⟩ := after.calls i type'
  have filled := after.finished accounted type' isCall isFinished
  have row : (settled.reqs i).sizes = call % maxRequests := row
  have nreqs : (settled.reqs i).nreqs = (c.calls call).length := nreqs
  have same : c.callOf i = some call := by
    rw [← isCall]
    change lastGroup c.recv.ep.log i = lastGroup settled.log i
    rw [kept.log]
  rw [isReported, Endpoint.reportedSizes, type', row, nreqs]
  refine ⟨call, same, by simp, fun r below => ?_⟩
  obtain ⟨m, isMatch, place, size⟩ := filled r below
  refine ⟨m, isMatch, place, ?_⟩
  have size : settled.sizesFifo (call % maxRequests) r = m.clipped c.calls := size
  simp [below, size]

end

instance (c : Connection) (event : ConnEvent) : Decidable (RowFree c event) :=
  match event with
  | .irecv recvs => inferInstanceAs (Decidable (recvs.length ≤ maxRecvs →
      (∃ i, (c.recv.ep.reqs i).type = .unused) → ∀ i, (c.recv.ep.reqs i).type = .recv →
        (c.recv.ep.reqs i).sizes ≠ c.recv.fifoTail % maxRequests))
  | .isend .. | .sendComplete _ | .sendTest _ | .iflush _ | .recvComplete _ | .recvTest _
  | .landCts _ | .deliver _ => inferInstanceAs (Decidable True)

/-- Two receives whose messages arrived, the second of which was tested. -/
def firstLeft.events : List ConnEvent :=
  [.irecv [.buffer 3], .irecv [.buffer 4], .landCts 0, .landCts 0,
    .isend 65536 80 3 (fun _ => 9), .isend 65664 90 4 (fun _ => 9), .deliver 0, .deliver 1,
    .recvComplete 0, .recvTest 1]

/-- The first of two receives is done and was not tested. -/
def firstLeft : Connection :=
  ((connection ConnSetup.alternating.toEnds).replay .initial firstLeft.events).get
    (by decide +kernel)

theorem firstLeft_reached :
    (connection ConnSetup.alternating.toEnds).Reaches RowFree firstLeft :=
  have start : (connection ConnSetup.alternating.toEnds).Reaches RowFree .initial :=
    .start Connection.initial_fresh
  start.replay firstLeft.events (by decide +kernel) (Option.some_get _).symm

/-- The first receive reports the size of its send. -/
theorem sizes_reported_firstLeft :
    SizesRight .alternating firstLeft ∧ (firstLeft.recv.ep.reqs 0).type = .recv :=
  ⟨sizes_reported .alternating firstLeft_reached, by decide +kernel⟩

/-! ## A row that is taken twice -/

/-- A receive call that finds a request posts its receives. -/
theorem ncclIbIrecv_received {setup : RecvSetup} {comm : RecvComm}
    (inside : comm.ep.qpIndex < setup.nqps) {recvs : List RecvArg} (ready : setup.ready = true)
    (few : recvs.length ≤ maxRecvs) (healthy : comm.ep.fatalErrorCount = 0) {i : ReqId}
    (unused : (comm.ep.reqs i).type = .unused) :
    ∃ j after, ncclIbIrecv setup comm recvs = .returned .ncclSuccess (some j) after ∧
      (comm.ep.reqs j).type = .unused ∧ Received setup comm recvs j after := by
  have passed : ¬ Endpoint.ncclIbStatsCheckFatalCount setup.asyncEvents
      comm.ep.fatalErrorCount ≠ .ncclSuccess := by
    simp [Endpoint.ncclIbStatsCheckFatalCount, healthy]
  cases got : comm.ep.ncclIbGetRequest with
  | none => exact absurd unused (Endpoint.ncclIbGetRequest_none got i)
  | some pair =>
    obtain ⟨j, ep⟩ := pair
    obtain ⟨isUnused, rfl⟩ := Endpoint.ncclIbGetRequest_some got
    refine ⟨j, _, ?_, isUnused, comm.receive_received setup recvs j inside⟩
    rw [ncclIbIrecv, if_neg (by simp [ready]), if_neg (Nat.not_lt.mpr few)]
    simp only [if_neg passed, got]
    rfl

/-- The requests of the receiver in use. -/
def Connection.inUse (c : Connection) : Finset ReqId :=
  Finset.univ.filter fun i => (c.recv.ep.reqs i).type ≠ .unused

/-- Some more receives were called, and the first one is still left. -/
structure StillLeft (more : Nat) (c : Connection) : Prop where
  reached : (connection ConnSetup.alternating.toEnds).Reachable c
  tail : c.recv.fifoTail = more + 2
  inUse : c.inUse.card = more + 1
  first : c.recv.ep.reqs 0 = firstLeft.recv.ep.reqs 0
  isCall : c.callOf 0 = some 0
  calls : c.calls 0 = firstLeft.calls 0
  matched : c.matched = firstLeft.matched

theorem firstLeft_stillLeft : StillLeft 0 firstLeft where
  reached := firstLeft_reached.reachable
  tail := by decide +kernel
  inUse := by
    have only : firstLeft.inUse = {0} := by
      ext i
      have isFirst : ∀ i, (firstLeft.recv.ep.reqs i).type ≠ .unused ↔ i = 0 := by decide +kernel
      simp [Connection.inUse, isFirst]
    rw [only, Finset.card_singleton]
  first := rfl
  isCall := by decide +kernel
  calls := rfl
  matched := rfl

/-- While there is a request, one more receive takes one. -/
theorem StillLeft.next {more : Nat} {c : Connection} (left : StillLeft more c)
    (room : more + 1 < 256) :
    ∃ i after, StillLeft (more + 1) after ∧ i ≠ 0 ∧ (after.recv.ep.reqs i).type = .recv ∧
      (after.recv.ep.reqs i).sizes = (more + 2) % maxRequests ∧
      after.recv.ep.sizesFifo ((more + 2) % maxRequests) 0 = 0 := by
  have linked := connection_linked left.reached
  obtain ⟨free, isFree⟩ : ∃ i, i ∉ c.inUse := by
    by_contra all
    have full : c.inUse = Finset.univ := by
      ext i
      simpa using not_not.mp fun absent => all ⟨i, absent⟩
    have count := left.inUse
    rw [full, Finset.card_univ, Fintype.card_fin] at count
    omega
  have unusedFree : (c.recv.ep.reqs free).type = .unused := by
    simpa [Connection.inUse] using isFree
  have few : [RecvArg.buffer 5].length ≤ maxRecvs := by decide
  obtain ⟨i, recv, called, unused, received⟩ := ncclIbIrecv_received linked.recvOk.inside rfl few
    linked.recvOk.accounted.healthy.1 unusedFree
  have stepped : (connection ConnSetup.alternating.toEnds).step c (.irecv [.buffer 5]) =
      some (c.receive recv [RecvArg.buffer 5].length) := by
    change c.irecv ConnSetup.alternating.toEnds [.buffer 5] = _
    rw [Connection.irecv, if_neg (List.cons_ne_nil _ _), called]
    rfl
  have tail := left.tail
  have other : i ≠ 0 := by
    rintro rfl
    rw [left.first] at unused
    exact absurd unused (by decide +kernel)
  have grown : (c.receive recv [RecvArg.buffer 5].length).inUse = insert i c.inUse := by
    ext j
    have sorted : ((c.receive recv [RecvArg.buffer 5].length).recv.ep.reqs j).type ≠ .unused ↔
        j = i ∨ (c.recv.ep.reqs j).type ≠ .unused := by
      change (recv.ep.reqs j).type ≠ .unused ↔ _
      by_cases here : j = i
      · simp [here, received.type]
      · simp [here, received.others j here]
    rw [Finset.mem_insert, Connection.inUse, Connection.inUse, Finset.mem_filter,
      Finset.mem_filter]
    simpa only [Finset.mem_univ, true_and] using sorted
  refine ⟨i, c.receive recv [RecvArg.buffer 5].length, ?_, other, received.type, ?_, ?_⟩
  · refine
      { reached := left.reached.next stepped
        tail := received.fifoTail.trans (by rw [tail])
        inUse := ?_
        first := (received.others 0 (Ne.symm other)).trans left.first
        isCall := ?_
        calls := ?_
        matched := left.matched }
    · rw [grown, Finset.card_insert_of_notMem (by simp [Connection.inUse, unused]), left.inUse]
    · rw [Received.callOf received, if_neg (Ne.symm other)]
      exact left.isCall
    · rw [receive_calls_other recv _ (by rw [← linked.tail, tail]; omega)]
      exact left.calls
  · exact received.sizes.trans (by rw [tail])
  · change recv.ep.sizesFifo _ 0 = 0
    rw [received.sizesFifo, tail, Endpoint.clearSizes]
    simp

/-- As many more receives as there are requests can be called. -/
theorem stillLeft_of_lt {more : Nat} (room : more < 256) : ∃ c, StillLeft more c := by
  induction more with
  | zero => exact ⟨firstLeft, firstLeft_stillLeft⟩
  | succ more ih =>
    obtain ⟨c, left⟩ := ih (by omega)
    obtain ⟨_, after, next, _⟩ := left.next room
    exact ⟨after, next⟩

/-- With 255 more receives, the last one takes and clears the row of the first, which is
reported to be of no size. -/
theorem sizes_astray :
    (¬ ∀ (setup : ConnSetup) (c : Connection), (connection setup.toEnds).Reachable c →
      ∀ i j, (c.recv.ep.reqs i).type = .recv → (c.recv.ep.reqs j).type = .recv →
        (c.recv.ep.reqs i).sizes = (c.recv.ep.reqs j).sizes → i = j) ∧
    ∃ c, (connection ConnSetup.alternating.toEnds).Reachable c ∧
      (∃ m ∈ c.matched, m.place = (0, 0) ∧ m.clipped c.calls = 80) ∧ c.callOf 0 = some 0 ∧
      ∃ ep, c.recv.ep.ncclIbTest true 0 = .returned .ncclSuccess true [0] ep := by
  obtain ⟨c, left⟩ := stillLeft_of_lt (show 254 < 256 by decide)
  obtain ⟨i, after, last, other, type, sizes, cleared⟩ := left.next (by decide)
  have first := last.first
  have isFirst : (firstLeft.recv.ep.reqs 0).type = .recv ∧
      (firstLeft.recv.ep.reqs 0).sizes = 0 ∧ (firstLeft.recv.ep.reqs 0).nreqs = 1 ∧
      (firstLeft.recv.ep.reqs 0).events 0 = 0 ∧ (firstLeft.recv.ep.reqs 0).events 1 = 0 := by
    decide +kernel
  rw [← first] at isFirst
  refine ⟨fun always => other ?_, after, last.reached, ?_, last.isCall, ?_⟩
  · exact always .alternating after last.reached i 0 type isFirst.1
      (by rw [sizes, isFirst.2.1]; rfl)
  · have matched : (⟨0, 0, 3, 80⟩ : Match) ∈ firstLeft.matched ∧
        (⟨0, 0, 3, 80⟩ : Match).clipped firstLeft.calls = 80 := by decide +kernel
    have same : (⟨0, 0, 3, 80⟩ : Match).clipped after.calls =
        (⟨0, 0, 3, 80⟩ : Match).clipped firstLeft.calls := Match.clipped_congr rfl last.calls
    rw [last.matched]
    exact ⟨_, matched.1, rfl, same.trans matched.2⟩
  · have healthy := (connection_linked last.reached).recvOk.accounted.healthy.1
    have finished : after.recv.ep.Finished 0 := isFirst.2.2.2
    have row : after.recv.ep.sizesFifo 0 0 = 0 := cleared
    refine ⟨after.recv.ep.ncclIbFreeRequest 0, ?_⟩
    rw [Endpoint.ncclIbTest, Endpoint.testLoop]
    simp only [Endpoint.ncclIbStatsCheckFatalCount, healthy, ne_eq, not_true_eq_false, and_false,
      if_false, finished, if_true, Endpoint.reportedSizes, isFirst.1, isFirst.2.1, isFirst.2.2.1,
      List.range_one, List.map_cons, List.map_nil, row]

end NcclExts.Unet
