import NcclExts.Foundation.System
import NcclExts.Unet.Accounting
import NcclExts.Unet.Isend

/-!
# Runs of a send comm

The peer of a send comm calls its receive function again and again; what its calls
announce reaches the FIFO in any order, entry by entry, possibly more than once. The
owner of the send comm sends and tests in any order, and postings complete in any
order.

A send that was matched is owed the completions of its message until the message is
posted, and only the sends matched to the next slot are. That count, together with
what the entries of the FIFO can be, is the invariant of these runs.
-/

namespace NcclExts.Unet

open NcclExts.Foundation NcclExts.Ucommd

/-- The receives of one call of the peer: at most eight, stamped with the number of the
call and their own number. -/
structure Announced (call : Nat) (recvs : List NcclIbSendFifo) : Prop where
  few : recvs.length ≤ maxRecvs
  stamped : ∀ recv ∈ recvs, recv.idx = call + 1 ∧ recv.nreqs = recvs.length

/-- The receives of every call of the peer. -/
abbrev Calls := Nat → List NcclIbSendFifo

/-- How many of the queue pairs that carry a message live on a device, when the first
of them is the given one. -/
def stripes (setup : CommSetup) (q : Nat) (dev : Dev) : Nat :=
  (roundRobin setup.nqps q setup.perMessage).countP (fun q => (setup.qps q).devIndex = dev)

/-- The send is matched to a receive of the next slot. -/
def SendComm.MatchedTo (comm : SendComm) (i : ReqId) : Prop :=
  ∃ r ∈ List.range maxRecvs, comm.fifoReqs (comm.fifoHead % maxRequests) r = some i

instance (comm : SendComm) (i : ReqId) : Decidable (comm.MatchedTo i) :=
  inferInstanceAs (Decidable (∃ r ∈ List.range maxRecvs, _))

/-- What a send comm owes: to each send matched to the next slot, the completions of
the message that will carry it. -/
def SendComm.owed (setup : SendSetup) (comm : SendComm) (i : ReqId) (dev : Dev) : Nat :=
  if comm.MatchedTo i then stripes setup.toCommSetup comm.ep.qpIndex dev else 0

/-- The invariant of a send comm. -/
structure SendOk (setup : SendSetup) (calls : Calls) (comm : SendComm) : Prop where
  accounted : Endpoint.Accounted (comm.owed setup) comm.ep
  inside : comm.ep.qpIndex < setup.nqps
  landed : ∀ slot r, comm.fifo slot r = .zero ∨
    ∃ call, slot = call % maxRequests ∧ (calls call)[r]? = some (comm.fifo slot r)
  row : ∀ slot r, comm.fifoReqs slot r ≠ none →
    slot = comm.fifoHead % maxRequests ∧ r < (calls comm.fifoHead).length
  matched : ∀ slot r i, comm.fifoReqs slot r = some i →
    (comm.ep.reqs i).type = .send ∧ (comm.ep.reqs i).nreqs = (calls comm.fifoHead).length
  injective : ∀ slot r r' i, comm.fifoReqs slot r = some i → comm.fifoReqs slot r' = some i →
    r = r'

/-- A send comm as connecting leaves it. -/
def SendComm.Fresh (comm : SendComm) : Prop :=
  comm.ep.Fresh ∧ comm.fifo = (fun _ _ => .zero) ∧ comm.fifoReqs = (fun _ _ => none) ∧
    comm.fifoHead = 0 ∧ comm.elems = (fun _ _ => 0)

theorem SendOk.fresh {setup : SendSetup} {calls : Calls} {comm : SendComm} (fresh : comm.Fresh) :
    SendOk setup calls comm := by
  obtain ⟨base, fifo, fifoReqs, _, _⟩ := fresh
  have owed : comm.owed setup = fun _ _ => 0 := by
    funext i dev
    have unmatched : ¬ comm.MatchedTo i := by simp [SendComm.MatchedTo, fifoReqs]
    rw [SendComm.owed, if_neg unmatched]
  refine ⟨?_, ?_, ?_, ?_, ?_, ?_⟩
  · rw [owed]
    exact Endpoint.Accounted.fresh base
  · rw [base.2.1]
    exact setup.someQp
  · simp [fifo]
  all_goals simp [fifoReqs]

/-! ## The request of a send -/

/-- Counting the completions of a message adds to each device the queue pairs of the
message that live on it, and touches nothing else but keys. -/
theorem countStripes_spec (setup : SendSetup) (lkeys : Dev → UInt32) (nEvents q : Nat)
    (req : NcclIbRequest) (dev : Dev) :
    (countStripes setup lkeys nEvents q req).events dev = req.events dev +
        (roundRobin setup.nqps q nEvents).countP (fun q => (setup.qps q).devIndex = dev) ∧
      ((countStripes setup lkeys nEvents q req).devBases dev = req.devBases dev ∨
        (countStripes setup lkeys nEvents q req).devBases dev = some dev) ∧
      ((roundRobin setup.nqps q nEvents).countP (fun q => (setup.qps q).devIndex = dev) ≠ 0 →
        (countStripes setup lkeys nEvents q req).devBases dev = some dev) := by
  induction nEvents generalizing q req with
  | zero => simp [countStripes, roundRobin]
  | succ nEvents ih =>
    obtain ⟨events, bases, based⟩ :=
      ih ((q + 1) % setup.nqps) (countStripe setup lkeys req q)
    simp only [countStripes, roundRobin, List.countP_cons, decide_eq_true_eq]
    by_cases here : (setup.qps q).devIndex = dev
    · have one : (countStripe setup lkeys req q).events dev = req.events dev + 1 := by
        simp [countStripe, Endpoint.ncclIbAddEvent, here]
      have base : (countStripe setup lkeys req q).devBases dev = some dev := by
        simp [countStripe, Endpoint.ncclIbAddEvent, here]
      rw [base, or_self] at bases
      refine ⟨?_, Or.inr bases, fun _ => bases⟩
      rw [events, one, if_pos here]
      push_cast
      omega
    · have same : (countStripe setup lkeys req q).events dev = req.events dev := by
        simp [countStripe, Endpoint.ncclIbAddEvent, Ne.symm here]
      have base : (countStripe setup lkeys req q).devBases dev = req.devBases dev := by
        simp [countStripe, Endpoint.ncclIbAddEvent, Ne.symm here]
      rw [base] at bases
      refine ⟨?_, bases, ?_⟩
      · rw [events, same, if_neg here]
        rfl
      · rw [if_neg here, Nat.add_zero]
        exact based

theorem countStripes_fields (setup : SendSetup) (lkeys : Dev → UInt32) (nEvents q : Nat)
    (req : NcclIbRequest) :
    countStripes setup lkeys nEvents q req = { req with
      events := (countStripes setup lkeys nEvents q req).events
      devBases := (countStripes setup lkeys nEvents q req).devBases
      lkeys := (countStripes setup lkeys nEvents q req).lkeys } := by
  induction nEvents generalizing q req with
  | zero => rfl
  | succ nEvents ih =>
    rw [countStripes, ih]
    rfl

/-- The request of a send waits for the completions of its message. -/
theorem sendRequest_spec (setup : SendSetup) (lkeys : Dev → UInt32) (nreqs q : Nat)
    (size : Int32) (data : Int) (req : NcclIbRequest) :
    let made := sendRequest setup lkeys nreqs q size data (Endpoint.cleared req)
    made.type = .send ∧ made.nreqs = nreqs ∧ made.size = size ∧ made.data = data ∧
      made.offset = 0 ∧ made.peerRank = setup.peerRank ∧
      (∀ dev, made.events dev = stripes setup.toCommSetup q dev) ∧
      ∀ dev, made.events dev ≠ 0 → made.devBases dev = some dev := by
  have fields := countStripes_fields setup lkeys setup.perMessage q
    { Endpoint.cleared req with
      type := .send, nreqs := nreqs, size := size, data := data, offset := 0
      peerRank := setup.peerRank }
  have spec (dev : Dev) := countStripes_spec setup lkeys setup.perMessage q
    { Endpoint.cleared req with
      type := .send, nreqs := nreqs, size := size, data := data, offset := 0
      peerRank := setup.peerRank } dev
  have events (dev : Dev) : (sendRequest setup lkeys nreqs q size data
      (Endpoint.cleared req)).events dev = stripes setup.toCommSetup q dev := by
    refine (spec dev).1.trans ?_
    simp [Endpoint.cleared, stripes]
  refine ⟨?_, ?_, ?_, ?_, ?_, ?_, events, ?_⟩
  · exact congrArg NcclIbRequest.type fields
  · exact congrArg NcclIbRequest.nreqs fields
  · exact congrArg NcclIbRequest.size fields
  · exact congrArg NcclIbRequest.data fields
  · exact congrArg NcclIbRequest.offset fields
  · exact congrArg NcclIbRequest.peerRank fields
  · intro dev waits
    refine (spec dev).2.2 ?_
    intro none
    apply waits
    rw [events dev, stripes, none]
    rfl

/-! ## Matching a send -/

/-- The state after a send took an unused request and the place of a receive. -/
def SendComm.place (setup : SendSetup) (comm : SendComm) (nreqs r : Nat) (i : ReqId)
    (lkeys : Dev → UInt32) (size : Int32) (data : Int) : SendComm :=
  { comm with
    ep := comm.ep.setReq i (sendRequest setup lkeys nreqs comm.ep.qpIndex size data
      (Endpoint.cleared (comm.ep.reqs i))) }.setFifoReq (comm.fifoHead % maxRequests) r i

section

variable {setup : SendSetup} {calls : Calls} {comm : SendComm}

theorem place_fifoReqs (setup : SendSetup) (comm : SendComm) (nreqs r : Nat) (i : ReqId)
    (lkeys : Dev → UInt32) (size : Int32) (data : Int) (slot r' : Nat) :
    (comm.place setup nreqs r i lkeys size data).fifoReqs slot r' =
      if slot = comm.fifoHead % maxRequests ∧ r' = r then some i else comm.fifoReqs slot r' := by
  by_cases here : slot = comm.fifoHead % maxRequests
  · subst here
    by_cases same : r' = r
    · subst same
      simp [SendComm.place, SendComm.setFifoReq]
    · simp [SendComm.place, SendComm.setFifoReq, same]
  · simp [SendComm.place, SendComm.setFifoReq, here]

theorem place_req_self (setup : SendSetup) (comm : SendComm) (nreqs r : Nat) (i : ReqId)
    (lkeys : Dev → UInt32) (size : Int32) (data : Int) :
    (comm.place setup nreqs r i lkeys size data).ep.reqs i =
      sendRequest setup lkeys nreqs comm.ep.qpIndex size data
        (Endpoint.cleared (comm.ep.reqs i)) := by
  simp [SendComm.place, SendComm.setFifoReq, Endpoint.setReq]

theorem place_req_other (setup : SendSetup) (comm : SendComm) (nreqs r : Nat) {i j : ReqId}
    (lkeys : Dev → UInt32) (size : Int32) (data : Int) (other : j ≠ i) :
    (comm.place setup nreqs r i lkeys size data).ep.reqs j = comm.ep.reqs j := by
  simp [SendComm.place, SendComm.setFifoReq, Endpoint.setReq, other]

/-- The send just placed, and the sends matched before, are matched. -/
theorem place_matchedTo (setup : SendSetup) (comm : SendComm) (nreqs : Nat) {r : Nat} (i : ReqId)
    (lkeys : Dev → UInt32) (size : Int32) (data : Int) (fewer : r < maxRecvs)
    (free : comm.fifoReqs (comm.fifoHead % maxRequests) r = none) (j : ReqId) :
    (comm.place setup nreqs r i lkeys size data).MatchedTo j ↔ j = i ∨ comm.MatchedTo j := by
  have rows := place_fifoReqs setup comm nreqs r i lkeys size data
    (comm.fifoHead % maxRequests)
  constructor
  · rintro ⟨r', inRange, taken⟩
    have taken := (rows r').symm.trans taken
    by_cases same : r' = r
    · rw [if_pos ⟨rfl, same⟩] at taken
      exact Or.inl (Option.some.inj taken).symm
    · rw [if_neg (fun both => same both.2)] at taken
      exact Or.inr ⟨r', inRange, taken⟩
  · rintro (rfl | ⟨r', inRange, taken⟩)
    · exact ⟨r, List.mem_range.mpr fewer, (rows r).trans (if_pos ⟨rfl, rfl⟩)⟩
    · have other : r' ≠ r := by
        rintro rfl
        rw [free] at taken
        exact absurd taken (by simp)
      exact ⟨r', inRange, (rows r').trans ((if_neg (fun both => other both.2)).trans taken)⟩

/-- A request that is in use is not the unused one. -/
theorem SendOk.matched_other (ok : SendOk setup calls comm) {i j : ReqId} {slot r : Nat}
    (unused : (comm.ep.reqs i).type = .unused) (taken : comm.fifoReqs slot r = some j) : j ≠ i := by
  rintro rfl
  have typed := (ok.matched slot r j taken).1
  rw [unused] at typed
  exact absurd typed (by decide)

/-- Matching a send to a receive of the next slot keeps the invariant: the send waits
for, and is owed, the completions of the message. -/
theorem SendOk.place (ok : SendOk setup calls comm)
    (announced : ∀ call, Announced call (calls call)) {r : Nat} {i : ReqId}
    (unused : (comm.ep.reqs i).type = .unused) (below : r < (calls comm.fifoHead).length)
    (free : comm.fifoReqs (comm.fifoHead % maxRequests) r = none) (lkeys : Dev → UInt32)
    (size : Int32) (data : Int) :
    SendOk setup calls
      (comm.place setup (calls comm.fifoHead).length r i lkeys size data) := by
  obtain ⟨typed, grouped, _, _, _, _, events, based⟩ :=
    sendRequest_spec setup lkeys (calls comm.fifoHead).length comm.ep.qpIndex size data
      (comm.ep.reqs i)
  have fewer : r < maxRecvs := Nat.lt_of_lt_of_le below (announced comm.fifoHead).few
  have rows := place_fifoReqs setup comm (calls comm.fifoHead).length r i lkeys size data
  have self := place_req_self setup comm (calls comm.fifoHead).length r i lkeys size data
  have others {j : ReqId} (other : j ≠ i) := place_req_other setup comm
    (calls comm.fifoHead).length r lkeys size data other
  have placed :=
    place_matchedTo setup comm (calls comm.fifoHead).length i lkeys size data fewer free
  have matchedSelf : (comm.place setup (calls comm.fifoHead).length r i lkeys size
      data).MatchedTo i := (placed i).mpr (Or.inl rfl)
  have matchedOther {j : ReqId} (other : j ≠ i) :
      (comm.place setup (calls comm.fifoHead).length r i lkeys size data).MatchedTo j ↔
        comm.MatchedTo j := (placed j).trans (or_iff_right other)
  refine ⟨?_, ok.inside, ok.landed, ?_, ?_, ?_⟩
  · refine ok.accounted.post [] (by simp [SendComm.place, SendComm.setFifoReq,
      Endpoint.setReq]) rfl rfl rfl ?_ (by simp) ?_ ?_ ?_
    · intro j inUse
      have other : j ≠ i := by
        rintro rfl
        exact inUse unused
      rw [others other]
      exact ⟨rfl, rfl⟩
    · intro j dev
      by_cases same : j = i
      · subst same
        have nothing := (ok.accounted.unused unused dev).1
        rw [self, events dev, nothing, SendComm.owed, if_pos matchedSelf]
        simp [Endpoint.naming, SendComm.place, SendComm.setFifoReq, Endpoint.setReq]
      · have counted := ok.accounted.counted j dev
        rw [others same, counted]
        simp only [SendComm.owed, matchedOther same]
        simp [Endpoint.naming, SendComm.place, SendComm.setFifoReq, Endpoint.setReq]
    · intro j isUnused dev
      have other : j ≠ i := by
        rintro rfl
        rw [self, typed] at isUnused
        exact absurd isUnused (by decide)
      rw [others other] at isUnused ⊢
      exact ok.accounted.idle j isUnused dev
    · intro j dev waits
      by_cases same : j = i
      · subst same
        rw [self] at waits ⊢
        exact based dev waits
      · rw [others same] at waits ⊢
        exact ok.accounted.based j dev waits
  · intro slot r' taken
    rw [rows] at taken
    split at taken
    · rename_i here
      exact ⟨here.1, here.2 ▸ below⟩
    · exact ok.row slot r' taken
  · intro slot r' j taken
    rw [rows] at taken
    split at taken
    · have same : i = j := Option.some.inj taken
      subst same
      rw [self]
      exact ⟨typed, grouped⟩
    · rw [others (ok.matched_other unused taken)]
      exact ok.matched slot r' j taken
  · intro slot r' r'' j first second
    rw [rows] at first second
    by_cases here : slot = comm.fifoHead % maxRequests ∧ r' = r
    · by_cases there : slot = comm.fifoHead % maxRequests ∧ r'' = r
      · exact here.2.trans there.2.symm
      · rw [if_pos here] at first
        rw [if_neg there] at second
        exact absurd (Option.some.inj first).symm (ok.matched_other unused second)
    · by_cases there : slot = comm.fifoHead % maxRequests ∧ r'' = r
      · rw [if_neg here] at first
        rw [if_pos there] at second
        exact absurd (Option.some.inj second).symm (ok.matched_other unused first)
      · rw [if_neg here] at first
        rw [if_neg there] at second
        exact ok.injective slot r' r'' j first second

end

/-! ## Posting the message -/

/-- Post the message of the next slot and move on. -/
def SendComm.post (setup : SendSetup) (comm : SendComm) (reqs : List ReqId) (first : ReqId) :
    SendComm :=
  (sendMessage setup comm (comm.fifoHead % maxRequests) reqs.length reqs
    (comm.ep.reqs first).size).nextSlot (comm.fifoHead % maxRequests)

/-- The message that the next slot is answered by. -/
def SendComm.message (setup : SendSetup) (comm : SendComm) (reqs : List ReqId) (first : ReqId) :
    Message :=
  messageOf setup comm (comm.fifoHead % maxRequests) reqs.length reqs (comm.ep.reqs first).size

/-- What posting a message leaves behind. -/
structure Sent (setup : SendSetup) (comm : SendComm) (reqs : List ReqId) (first : ReqId)
    (after : SendComm) (postings : List Posting) : Prop where
  posted : after.ep.posted = comm.ep.posted ++ postings
  log : after.ep.log = comm.ep.log ++ postings
  routes : postings.map Posting.route =
    (roundRobin setup.nqps comm.ep.qpIndex setup.perMessage).map
      (fun q => messagePosting setup (comm.message setup reqs first) q reqs.length [])
  writes : ∀ (j : Nat) (posting : Posting), postings[j]? = some posting →
    ∀ (r : Nat) (req : ReqId), reqs[r]? = some req →
    ∃ (q : Nat) (wr : IbvSendWr), posting.qp = .data q ∧ posting.chain[r]? = some wr ∧
      wr.remoteAddr = .user ((comm.fifo (comm.fifoHead % maxRequests) r).addr +
        j * chunkSize setup.narrow (comm.ep.reqs req).size.toInt setup.perMessage) ∧
      wr.rkey = (comm.fifo (comm.fifoHead % maxRequests) r).rkeys (setup.qps q).remDevIdx
  closes : ∀ posting ∈ postings, ∃ front last, posting.chain = front ++ [last] ∧
    (∀ wr ∈ front, ∃ addr, wr.remoteAddr = .user addr ∧ wr.opcode = .rdmaWrite) ∧
    Closes (comm.message setup reqs first) reqs.length last
  offsets : ∀ i, after.ep.reqs i = { comm.ep.reqs i with offset := (after.ep.reqs i).offset }
  qpIndex : after.ep.qpIndex = roundEnd setup.nqps comm.ep.qpIndex setup.perMessage
  cqs : after.ep.cqs = comm.ep.cqs
  fatalErrorCount : after.ep.fatalErrorCount = comm.ep.fatalErrorCount
  devFatalErrorCount : after.ep.devFatalErrorCount = comm.ep.devFatalErrorCount
  bwStat : after.ep.bwStat = comm.ep.bwStat
  ibStat : after.ep.ibStat = comm.ep.ibStat.map (fun stat => stat.add unetIbTxBytes
    (postChunks setup (comm.message setup reqs first) setup.perMessage
      (cursorsOf comm (comm.fifoHead % maxRequests) reqs) 0 comm.ep).1)
  fifo : after.fifo = Function.update comm.fifo (comm.fifoHead % maxRequests)
    (Function.update (comm.fifo (comm.fifoHead % maxRequests)) 0 NcclIbSendFifo.zero)
  fifoReqs : after.fifoReqs =
    Function.update comm.fifoReqs (comm.fifoHead % maxRequests) (fun _ => none)
  fifoHead : after.fifoHead = comm.fifoHead + 1
  elems : after.elems = if reqs.length = 1 then comm.elems else
    (writeSizes comm (comm.fifoHead % maxRequests) reqs).elems

theorem SendComm.post_sent {setup : SendSetup} {comm : SendComm} {reqs : List ReqId}
    {first : ReqId} (inside : comm.ep.qpIndex < setup.nqps) (isFirst : reqs[0]? = some first) :
    ∃ postings, Sent setup comm reqs first (comm.post setup reqs first) postings := by
  obtain ⟨postings, posted⟩ := postChunks_posted setup (comm.message setup reqs first)
    setup.perMessage (cursorsOf comm (comm.fifoHead % maxRequests) reqs) 0 comm.ep inside
  have ep : (comm.post setup reqs first).ep =
      { (postChunks setup (comm.message setup reqs first) setup.perMessage
          (cursorsOf comm (comm.fifoHead % maxRequests) reqs) 0 comm.ep).2 with
        ibStat := (postChunks setup (comm.message setup reqs first) setup.perMessage
          (cursorsOf comm (comm.fifoHead % maxRequests) reqs) 0 comm.ep).2.ibStat.map
            (fun stat => stat.add unetIbTxBytes
              (postChunks setup (comm.message setup reqs first) setup.perMessage
                (cursorsOf comm (comm.fifoHead % maxRequests) reqs) 0 comm.ep).1) } := by
    simp only [SendComm.post, sendMessage, SendComm.nextSlot, SendComm.message]
    split <;> rfl
  have rest := posted.rest
  refine ⟨postings, ?_, ?_, ?_, ?_, ?_, ?_, ?_, ?_, ?_, ?_, ?_, ?_, ?_, ?_, ?_, ?_⟩
  · rw [ep]
    exact posted.posted
  · rw [ep]
    exact posted.log
  · rw [posted.routes, cursorsOf_length]
  · intro j posting placed r req isReq
    obtain ⟨q, wr, onQueue, inChain, remote, key⟩ :=
      posted.writes j posting placed r _ (cursorsOf_getElem isReq)
    exact ⟨q, wr, onQueue, inChain, remote, key⟩
  · intro posting member
    obtain ⟨before, qp, cursors', same, length⟩ := posted.chains posting member
    rw [cursorsOf_length] at length
    have nonempty : cursors' ≠ [] := by
      intro none
      rw [none, List.length_nil] at length
      rw [List.length_eq_zero_iff.mp length.symm] at isFirst
      simp at isFirst
    have trailed : cursors'.length > 1 → (comm.message setup reqs first).trailed = true := by
      intro group
      rw [length] at group
      simp [SendComm.message, messageOf, group]
    have closes := chain_closes setup (comm.message setup reqs first) before qp cursors' nonempty
      trailed
    rw [← same, length] at closes
    exact closes
  · intro i
    rw [ep]
    exact posted.reqs i
  · rw [ep]
    exact posted.qpIndex
  · rw [ep]
    have kept := congrArg Endpoint.cqs rest
    exact kept
  · rw [ep]
    have kept := congrArg Endpoint.fatalErrorCount rest
    exact kept
  · rw [ep]
    have kept := congrArg Endpoint.devFatalErrorCount rest
    exact kept
  · rw [ep]
    have kept := congrArg Endpoint.bwStat rest
    exact kept
  · rw [ep]
    have kept := congrArg Endpoint.ibStat rest
    exact congrArg (Option.map _) kept
  all_goals
    simp only [SendComm.post, sendMessage, SendComm.nextSlot]
    split <;> rfl

/-- The history of a send comm after posting a message. -/
theorem SendComm.post_log (setup : SendSetup) (comm : SendComm) (reqs : List ReqId)
    (first : ReqId) : (comm.post setup reqs first).ep.log =
      (postChunks setup (comm.message setup reqs first) setup.perMessage
        (cursorsOf comm (comm.fifoHead % maxRequests) reqs) 0 comm.ep).2.log := by
  simp only [SendComm.post, sendMessage, SendComm.nextSlot, SendComm.message]
  split <;> rfl

/-- Postings of a message, one for each of the given queue pairs. -/
def Routed (setup : SendSetup) (message : Message) (reqs : List ReqId) (qps : List Nat)
    (postings : List Posting) : Prop :=
  postings.map Posting.route = qps.map fun q => messagePosting setup message q reqs.length []

namespace Routed

variable {setup : SendSetup} {message : Message} {reqs : List ReqId} {qps : List Nat}
  {postings : List Posting}

/-- They name its sends on the devices of the queue pairs. -/
theorem naming (routed : Routed setup message reqs qps postings)
    (word : message.wrId = packReqs reqs) (i : ReqId) (dev : Dev) :
    Endpoint.naming postings i dev =
      if i ∈ reqs then qps.countP (fun q => (setup.qps q).devIndex = dev) else 0 := by
  have routes : Endpoint.naming postings i dev =
      (postings.map Posting.route).countP
        (fun posting => decide (posting.dev = dev ∧ i ∈ posting.names)) := by
    rw [List.countP_map]
    rfl
  have names (q : Nat) : (messagePosting setup message q reqs.length []).names = reqs := by
    simp only [Posting.names, messagePosting, word]
    exact map_reqAt_packReqs reqs
  have counted : (fun posting : Posting => decide (posting.dev = dev ∧ i ∈ posting.names)) ∘
      (fun q => messagePosting setup message q reqs.length []) =
      fun q => decide ((setup.qps q).devIndex = dev ∧ i ∈ reqs) := by
    funext q
    simp only [Function.comp_apply, names]
    rfl
  rw [routes, show postings.map Posting.route = _ from routed, List.countP_map, counted]
  by_cases member : i ∈ reqs
  · simp only [member, and_true, if_true]
  · simp only [member, and_false, if_false, decide_false, List.countP_false]
    rfl

/-- Each of them names all its sends. -/
theorem member (routed : Routed setup message reqs qps postings)
    (word : message.wrId = packReqs reqs) {posting : Posting} (member : posting ∈ postings) :
    posting.kind = .data ∧ posting.members = reqs.length ∧ posting.names = reqs ∧
      posting.group = message.group := by
  have inside : posting.route ∈ postings.map Posting.route := List.mem_map_of_mem member
  rw [show postings.map Posting.route = _ from routed] at inside
  obtain ⟨q, _, same⟩ := List.mem_map.mp inside
  obtain ⟨names, _, kind, members, group, _⟩ := Posting.names_of_route same.symm
  refine ⟨kind, members, names.trans ?_, group⟩
  simp only [Posting.names, messagePosting, word]
  exact map_reqAt_packReqs reqs

/-- Sends of a message that are all different, and know how many they are, are named by
each of its postings. -/
theorem named (routed : Routed setup message reqs qps postings)
    (word : message.wrId = packReqs reqs) (some : 0 < reqs.length) (distinct : reqs.Nodup)
    {pool : ReqId → NcclIbRequest}
    (typed : ∀ i ∈ reqs, (pool i).type = .send ∧ (pool i).nreqs = reqs.length)
    {posting : Posting} (member : posting ∈ postings) : posting.Named pool := by
  obtain ⟨kind, members, names, _⟩ := routed.member word member
  refine ⟨by rw [members]; exact some, by rw [names]; exact distinct, ?_, ?_,
    fun other => absurd kind other⟩
  · intro i inside
    rw [names] at inside
    rw [kind]
    exact (typed i inside).1
  · intro _ i inside
    rw [names] at inside
    rw [members]
    exact (typed i inside).2

end Routed

/-- The postings of a message name its sends on the devices of its queue pairs. -/
theorem Sent.naming {setup : SendSetup} {comm after : SendComm} {reqs : List ReqId}
    {first : ReqId} {postings : List Posting} (sent : Sent setup comm reqs first after postings)
    (i : ReqId) (dev : Dev) :
    Endpoint.naming postings i dev =
      if i ∈ reqs then stripes setup.toCommSetup comm.ep.qpIndex dev else 0 :=
  Routed.naming sent.routes rfl i dev

/-- The members of the postings of a message. -/
theorem Sent.member {setup : SendSetup} {comm after : SendComm} {reqs : List ReqId}
    {first : ReqId} {postings : List Posting} (sent : Sent setup comm reqs first after postings)
    {posting : Posting} (member : posting ∈ postings) :
    posting.kind = .data ∧ posting.members = reqs.length ∧ posting.names = reqs ∧
      posting.group = comm.fifoHead :=
  Routed.member sent.routes rfl member

section

variable {setup : SendSetup} {calls : Calls} {comm : SendComm}

/-- Every receive of the next slot has its send, in order. -/
structure Full (calls : Calls) (comm : SendComm) (reqs : List ReqId) (first : ReqId) : Prop where
  length : reqs.length = (calls comm.fifoHead).length
  isFirst : reqs[0]? = some first
  rows : ∀ r, r < reqs.length → comm.fifoReqs (comm.fifoHead % maxRequests) r = reqs[r]?

namespace Full

variable {reqs : List ReqId} {first : ReqId}

theorem taken (full : Full calls comm reqs first) {r : Nat} {i : ReqId}
    (placed : reqs[r]? = some i) : comm.fifoReqs (comm.fifoHead % maxRequests) r = some i := by
  obtain ⟨below, _⟩ := List.getElem?_eq_some_iff.mp placed
  rw [full.rows r below, placed]

/-- The sends of a full slot are the matched ones. -/
theorem matchedTo_iff (full : Full calls comm reqs first) (ok : SendOk setup calls comm)
    (announced : ∀ call, Announced call (calls call)) (i : ReqId) :
    comm.MatchedTo i ↔ i ∈ reqs := by
  have few := (announced comm.fifoHead).few
  have length := full.length
  constructor
  · rintro ⟨r, _, isMatched⟩
    have below := (ok.row _ r (by rw [isMatched]; simp)).2
    rw [full.rows r (by omega)] at isMatched
    exact List.mem_of_getElem? isMatched
  · intro member
    obtain ⟨r, below, isReq⟩ := List.getElem_of_mem member
    refine ⟨r, List.mem_range.mpr (by omega), full.taken ?_⟩
    rw [List.getElem?_eq_getElem below, isReq]

theorem distinct (full : Full calls comm reqs first) (ok : SendOk setup calls comm) :
    reqs.Nodup := by
  rw [List.nodup_iff_injective_getElem]
  intro r r' same
  apply Fin.ext
  have same : reqs[r] = reqs[r'] := same
  refine ok.injective _ r r' reqs[r] (full.taken (List.getElem?_eq_getElem r.isLt))
    (full.taken ?_)
  rw [same]
  exact List.getElem?_eq_getElem r'.isLt

theorem typed (full : Full calls comm reqs first) (ok : SendOk setup calls comm) {i : ReqId}
    (member : i ∈ reqs) :
    (comm.ep.reqs i).type = .send ∧ (comm.ep.reqs i).nreqs = reqs.length := by
  obtain ⟨r, below, isReq⟩ := List.getElem_of_mem member
  rw [full.length]
  refine ok.matched _ r i (full.taken ?_)
  rw [List.getElem?_eq_getElem below, isReq]

theorem some (full : Full calls comm reqs first) : 0 < reqs.length := by
  obtain ⟨below, _⟩ := List.getElem?_eq_some_iff.mp full.isFirst
  exact below

/-- Posting the message empties the slots. -/
theorem emptied (full : Full calls comm reqs first) (ok : SendOk setup calls comm)
    (slot r : Nat) : (comm.post setup reqs first).fifoReqs slot r = none := by
  obtain ⟨postings, sent⟩ := comm.post_sent ok.inside full.isFirst
  rw [sent.fifoReqs]
  by_cases here : slot = comm.fifoHead % maxRequests
  · subst here
    simp
  · rw [Function.update_of_ne here]
    by_contra taken
    exact here (ok.row slot r taken).1

theorem unmatched (full : Full calls comm reqs first) (ok : SendOk setup calls comm)
    (i : ReqId) : ¬ (comm.post setup reqs first).MatchedTo i := by
  rintro ⟨r, _, isMatched⟩
  rw [full.emptied ok] at isMatched
  exact absurd isMatched (by simp)

end Full

/-- Posting the message of a slot whose receives all have their send keeps the
invariant: what was owed is now posted. -/
theorem SendOk.post (ok : SendOk setup calls comm)
    (announced : ∀ call, Announced call (calls call)) {reqs : List ReqId} {first : ReqId}
    (full : Full calls comm reqs first) : SendOk setup calls (comm.post setup reqs first) := by
  obtain ⟨postings, sent⟩ := comm.post_sent ok.inside full.isFirst
  have nothing : (comm.post setup reqs first).owed setup = fun _ _ => 0 := by
    funext i dev
    rw [SendComm.owed, if_neg (full.unmatched ok i)]
  refine ⟨?_, ?_, ?_, ?_, ?_, ?_⟩
  · rw [nothing]
    refine ok.accounted.post _ sent.posted sent.cqs sent.fatalErrorCount sent.devFatalErrorCount
      ?_ ?_ ?_ ?_ ?_
    · intro i _
      rw [sent.offsets i]
      exact ⟨rfl, rfl⟩
    · intro posting member
      refine Routed.named sent.routes rfl full.some (full.distinct ok) (fun i inside => ?_) member
      rw [sent.offsets i]
      exact full.typed ok inside
    · intro i dev
      have counted := ok.accounted.counted i dev
      rw [sent.offsets i]
      simp only [counted, sent.naming i dev, SendComm.owed, full.matchedTo_iff ok announced i,
        Nat.add_zero]
    · intro i unused dev
      rw [sent.offsets i] at unused ⊢
      exact ok.accounted.idle i unused dev
    · intro i dev waits
      rw [sent.offsets i] at waits ⊢
      exact ok.accounted.based i dev waits
  · rw [sent.qpIndex]
    exact Nat.mod_lt _ setup.someQp
  · intro slot r
    rw [sent.fifo]
    by_cases here : slot = comm.fifoHead % maxRequests
    · subst here
      rw [Function.update_self]
      by_cases start : r = 0
      · subst start
        exact Or.inl (Function.update_self _ _ _)
      · rw [Function.update_of_ne start]
        exact ok.landed _ r
    · rw [Function.update_of_ne here]
      exact ok.landed slot r
  · intro slot r taken
    exact absurd (full.emptied ok slot r) taken
  · intro slot r i taken
    rw [full.emptied ok] at taken
    exact absurd taken (by simp)
  · intro slot r r' i taken
    rw [full.emptied ok] at taken
    exact absurd taken (by simp)

/-! ## What a send does -/

/-- Every entry of the FIFO is zero, or one of a call of the peer in its place. -/
def SendComm.Landed (calls : Calls) (comm : SendComm) : Prop :=
  ∀ slot r, comm.fifo slot r = .zero ∨
    ∃ call, slot = call % maxRequests ∧ (calls call)[r]? = some (comm.fifo slot r)

/-- The entries of the next slot are the receives of the next call of the peer, once
they carry its number. -/
theorem SendComm.Landed.arrived (landed : comm.Landed calls)
    (announced : ∀ call, Announced call (calls call)) {r : Nat}
    (stamp : (comm.fifo (comm.fifoHead % maxRequests) r).idx = comm.fifoHead + 1) :
    (calls comm.fifoHead)[r]? = some (comm.fifo (comm.fifoHead % maxRequests) r) ∧
      (comm.fifo (comm.fifoHead % maxRequests) r).nreqs = (calls comm.fifoHead).length := by
  rcases landed (comm.fifoHead % maxRequests) r with zero | ⟨call, _, placed⟩
  · rw [zero] at stamp
    simp [NcclIbSendFifo.zero] at stamp
  · obtain ⟨idx, nreqs⟩ := (announced call).stamped _ (List.mem_of_getElem? placed)
    have same : call = comm.fifoHead := by omega
    subst same
    exact ⟨placed, nreqs⟩

theorem SendOk.arrived (ok : SendOk setup calls comm)
    (announced : ∀ call, Announced call (calls call)) {r : Nat}
    (stamp : (comm.fifo (comm.fifoHead % maxRequests) r).idx = comm.fifoHead + 1) :
    (calls comm.fifoHead)[r]? = some (comm.fifo (comm.fifoHead % maxRequests) r) ∧
      (comm.fifo (comm.fifoHead % maxRequests) r).nreqs = (calls comm.fifoHead).length :=
  SendComm.Landed.arrived ok.landed announced stamp

/-- The comm with another ib stat. -/
def SendComm.withIbStat (comm : SendComm) (ibStat : Option Stat) : SendComm :=
  { comm with ep := { comm.ep with ibStat := ibStat } }

theorem SendOk.withIbStat (ok : SendOk setup calls comm) (ibStat : Option Stat) :
    SendOk setup calls (comm.withIbStat ibStat) :=
  ⟨ok.accounted.congr rfl rfl rfl rfl rfl, ok.inside, ok.landed, ok.row, ok.matched,
    ok.injective⟩

/-- A send found a receive of the next call that has its tag and no send yet. -/
structure Hit (calls : Calls) (comm : SendComm) (tag : Int32) (r : Nat) (i : ReqId)
    (recv : NcclIbSendFifo) : Prop where
  isRecv : (calls comm.fifoHead)[r]? = some recv
  stamp : (comm.fifo (comm.fifoHead % maxRequests) 0).idx = comm.fifoHead + 1
  found : matching comm (comm.fifoHead % maxRequests) (calls comm.fifoHead).length tag = some r
  lands : ∀ r', r' < (calls comm.fifoHead).length →
    (calls comm.fifoHead)[r']? = some (comm.fifo (comm.fifoHead % maxRequests) r')
  tagged : recv.tag = tag.toUInt32
  correct : ¬ recv.Incorrect
  free : comm.fifoReqs (comm.fifoHead % maxRequests) r = none
  unused : (comm.ep.reqs i).type = .unused

/-- The state after a hit: the send has its request and the place of the receive. -/
def SendComm.hit (setup : SendSetup) (calls : Calls) (comm : SendComm) (data : Int)
    (size : Int32) (lkeys : Dev → UInt32) (r : Nat) (i : ReqId) (recv : NcclIbSendFifo) :
    SendComm :=
  (comm.withIbStat (comm.ep.countIb unetIbFifoRecvCount).ibStat).place setup
    (calls comm.fifoHead).length r i lkeys (clip size recv) data

/-- The effects of a send: nothing but a count, a match, or a match that completes the
slot and posts its message. -/
inductive IsendEffect (setup : SendSetup) (calls : Calls) (comm : SendComm) (data : Int)
    (size tag : Int32) (lkeys : Dev → UInt32) : Option ReqId → SendComm → Prop
  | nothing {ibStat : Option Stat}
    (counted : ibStat = comm.ep.ibStat ∨ ibStat = (comm.ep.countIb unetIbFifoRecvCount).ibStat) :
    IsendEffect setup calls comm data size tag lkeys none (comm.withIbStat ibStat)
  | matched {r : Nat} {i : ReqId} {recv : NcclIbSendFifo} (hit : Hit calls comm tag r i recv)
    (missing : ∃ r', r' < (calls comm.fifoHead).length ∧
      (comm.hit setup calls data size lkeys r i recv).fifoReqs
        (comm.fifoHead % maxRequests) r' = none) :
    IsendEffect setup calls comm data size tag lkeys (some i)
      (comm.hit setup calls data size lkeys r i recv)
  | posted {r : Nat} {i : ReqId} {recv : NcclIbSendFifo} (hit : Hit calls comm tag r i recv)
    {reqs : List ReqId} {first : ReqId}
    (full : Full calls (comm.hit setup calls data size lkeys r i recv) reqs first) :
    IsendEffect setup calls comm data size tag lkeys (some i)
      ((comm.hit setup calls data size lkeys r i recv).post setup reqs first)

/-- After a hit the send posts the message when its match was the last one missing. -/
theorem postWhenMatched_effect (setup : SendSetup)
    (announced : ∀ call, Announced call (calls call)) {tag : Int32} {r : Nat} {i : ReqId}
    {recv : NcclIbSendFifo} (hit : Hit calls comm tag r i recv) (data : Int) (size : Int32)
    (lkeys : Dev → UInt32) :
    ∃ result request after,
      postWhenMatched setup (comm.hit setup calls data size lkeys r i recv)
        (comm.fifoHead % maxRequests) (calls comm.fifoHead).length i =
          .returned result request after ∧
      IsendEffect setup calls comm data size tag lkeys request after := by
  by_cases missing : ∃ r' ∈ List.range (calls comm.fifoHead).length,
      (comm.hit setup calls data size lkeys r i recv).fifoReqs
        (comm.fifoHead % maxRequests) r' = none
  · refine ⟨_, _, _, by rw [postWhenMatched, if_pos missing], .matched hit ?_⟩
    obtain ⟨r', inRange, none⟩ := missing
    exact ⟨r', List.mem_range.mp inRange, none⟩
  · have some : 0 < (calls comm.fifoHead).length := by
      obtain ⟨below, _⟩ := List.getElem?_eq_some_iff.mp hit.isRecv
      omega
    have announcedHere := (announced comm.fifoHead).stamped _
      (List.mem_of_getElem? (hit.lands 0 some))
    obtain ⟨reqs, first, length, isFirst, rows, posted⟩ :=
      ncclIbMultiSend_matched setup (comm.hit setup calls data size lkeys r i recv)
        announcedHere.2 some (announced _).few
        (fun r' below none => missing ⟨r', List.mem_range.mpr below, none⟩)
    have same : (comm.hit setup calls data size lkeys r i recv).post setup reqs first =
        (sendMessage setup (comm.hit setup calls data size lkeys r i recv)
          (comm.fifoHead % maxRequests) (calls comm.fifoHead).length reqs
          ((comm.hit setup calls data size lkeys r i recv).ep.reqs first).size).nextSlot
            (comm.fifoHead % maxRequests) := by
      rw [SendComm.post, length]
      rfl
    refine ⟨.ncclSuccess, Option.some i,
      (comm.hit setup calls data size lkeys r i recv).post setup reqs first, ?_,
      .posted hit ⟨length, isFirst, fun r' below => rows r' (length ▸ below)⟩⟩
    rw [postWhenMatched, if_neg missing, posted, same]

/-- A send has one of these effects, unless it spins; it never faults. -/
theorem ncclIbIsend_effect (setup : SendSetup) (isLanded : comm.Landed calls)
    (announced : ∀ call, Announced call (calls call)) (data : Int) (size tag : Int32)
    (lkeys : Dev → UInt32) :
    ncclIbIsend setup comm data size tag lkeys = .spins ∨
      ∃ result request after,
        ncclIbIsend setup comm data size tag lkeys = .returned result request after ∧
        IsendEffect setup calls comm data size tag lkeys request after := by
  have same : comm.withIbStat comm.ep.ibStat = comm := rfl
  by_cases ready : setup.ready = false
  · refine Or.inr ⟨.ncclInternalError, none, comm, by rw [ncclIbIsend, if_pos ready], ?_⟩
    exact same ▸ .nothing (Or.inl rfl)
  by_cases stamp : (comm.fifo (comm.fifoHead % maxRequests) 0).idx ≠ comm.fifoHead + 1
  · refine Or.inr ⟨.ncclSuccess, none, comm,
      by simp only [ncclIbIsend, if_neg ready, if_pos stamp], ?_⟩
    exact same ▸ .nothing (Or.inl rfl)
  have isStamp := not_not.mp stamp
  obtain ⟨firstRecv, nreqs⟩ := isLanded.arrived announced isStamp
  have few : ¬ (calls comm.fifoHead).length > maxRecvs := Nat.not_lt.mpr (announced _).few
  by_cases spinning : ∃ r ∈ List.range (calls comm.fifoHead).length,
      r ≠ 0 ∧ (comm.fifo (comm.fifoHead % maxRequests) r).idx ≠ comm.fifoHead + 1
  · left
    simp only [ncclIbIsend, if_neg ready, if_neg stamp, nreqs, if_neg few, if_pos spinning]
  right
  have lands : ∀ r', r' < (calls comm.fifoHead).length →
      (calls comm.fifoHead)[r']? = some (comm.fifo (comm.fifoHead % maxRequests) r') := by
    intro r' below
    by_cases start : r' = 0
    · rw [start]
      exact firstRecv
    · refine (isLanded.arrived announced ?_).1
      by_contra late
      exact spinning ⟨r', List.mem_range.mpr below, start, late⟩
  have counted : ({ comm with ep := comm.ep.countIb unetIbFifoRecvCount } : SendComm) =
      comm.withIbStat (comm.ep.countIb unetIbFifoRecvCount).ibStat := rfl
  simp only [ncclIbIsend, if_neg ready, if_neg stamp, nreqs, if_neg few, if_neg spinning, counted]
  cases found : matching (comm.withIbStat (comm.ep.countIb unetIbFifoRecvCount).ibStat)
      (comm.fifoHead % maxRequests) (calls comm.fifoHead).length tag with
  | none => exact ⟨_, _, _, rfl, .nothing (Or.inr rfl)⟩
  | some r =>
    have below : r < (calls comm.fifoHead).length :=
      List.mem_range.mp (List.mem_of_find?_eq_some found)
    have facts := List.find?_some found
    simp only [decide_eq_true_eq] at facts
    obtain ⟨free, tagged⟩ := facts
    have isRecv := lands r below
    simp only [matchSend]
    by_cases incorrect : (comm.fifo (comm.fifoHead % maxRequests) r).Incorrect
    · exact ⟨_, _, _, if_pos incorrect, .nothing (Or.inr rfl)⟩
    · have taken : ¬ ((comm.withIbStat (comm.ep.countIb unetIbFifoRecvCount).ibStat).fifo
          (comm.fifoHead % maxRequests) r).Incorrect := incorrect
      rw [if_neg taken]
      cases got : (comm.withIbStat (comm.ep.countIb unetIbFifoRecvCount).ibStat).ep.ncclIbGetRequest
        with
      | none => exact ⟨_, _, _, rfl, .nothing (Or.inr rfl)⟩
      | some pair =>
        obtain ⟨i, ep⟩ := pair
        obtain ⟨unused, isEp⟩ := Endpoint.ncclIbGetRequest_some got
        have hit : Hit calls comm tag r i (comm.fifo (comm.fifoHead % maxRequests) r) :=
          ⟨isRecv, isStamp, found, lands, tagged, incorrect, free, unused⟩
        have placed : ({ comm.withIbStat (comm.ep.countIb unetIbFifoRecvCount).ibStat with
            ep := ep.setReq i (sendRequest setup lkeys (calls comm.fifoHead).length ep.qpIndex
              (clip size (comm.fifo (comm.fifoHead % maxRequests) r)) data
              (ep.reqs i)) } : SendComm).setFifoReq (comm.fifoHead % maxRequests) r i =
            comm.hit setup calls data size lkeys r i
              (comm.fifo (comm.fifoHead % maxRequests) r) := by
          simp [isEp, SendComm.hit, SendComm.place, Endpoint.setReq, SendComm.withIbStat]
        have effect := postWhenMatched_effect setup announced hit data size lkeys
        rw [← placed] at effect
        exact effect

/-- A hit keeps the invariant. -/
theorem SendOk.hit (ok : SendOk setup calls comm)
    (announced : ∀ call, Announced call (calls call)) {tag : Int32} {r : Nat} {i : ReqId}
    {recv : NcclIbSendFifo} (hit : Hit calls comm tag r i recv) (data : Int) (size : Int32)
    (lkeys : Dev → UInt32) :
    SendOk setup calls (comm.hit setup calls data size lkeys r i recv) := by
  obtain ⟨below, _⟩ := List.getElem?_eq_some_iff.mp hit.isRecv
  exact (ok.withIbStat (comm.ep.countIb unetIbFifoRecvCount).ibStat).place announced hit.unused
    below hit.free lkeys (clip size recv) data

/-- A send keeps the invariant. -/
theorem SendOk.isend (ok : SendOk setup calls comm)
    (announced : ∀ call, Announced call (calls call)) {data : Int} {size tag : Int32}
    {lkeys : Dev → UInt32} {request : Option ReqId} {after : SendComm}
    (effect : IsendEffect setup calls comm data size tag lkeys request after) :
    SendOk setup calls after := by
  cases effect with
  | @nothing ibStat counted => exact ok.withIbStat ibStat
  | matched hit missing => exact ok.hit announced hit data size lkeys
  | posted hit full => exact (ok.hit announced hit data size lkeys).post announced full

/-! ## The other steps -/

/-- An entry of a call of the peer lands in the FIFO. -/
def SendComm.land (calls : Calls) (comm : SendComm) (call r : Nat) : Option SendComm :=
  (calls call)[r]?.map fun recv =>
    { comm with
      fifo := Function.update comm.fifo (call % maxRequests)
        (Function.update (comm.fifo (call % maxRequests)) r recv) }

theorem SendOk.land (ok : SendOk setup calls comm) {call r : Nat} {after : SendComm}
    (landed : comm.land calls call r = some after) : SendOk setup calls after := by
  obtain ⟨recv, placed, rfl⟩ := Option.map_eq_some_iff.mp landed
  refine ⟨ok.accounted, ok.inside, ?_, ok.row, ok.matched, ok.injective⟩
  intro slot r'
  by_cases here : slot = call % maxRequests
  · subst here
    by_cases same : r' = r
    · subst same
      exact Or.inr ⟨call, rfl, by simp [placed]⟩
    · simpa [same] using ok.landed (call % maxRequests) r'
  · simpa [here] using ok.landed slot r'

theorem SendOk.complete (ok : SendOk setup calls comm) {position : Nat} {immData : UInt32}
    {ep : Endpoint} (completed : comm.ep.complete position immData = some ep) :
    SendOk setup calls { comm with ep := ep } := by
  have accounted := ok.accounted.complete completed
  obtain ⟨posting, _, rfl⟩ := Option.map_eq_some_iff.mp completed
  exact ⟨accounted, ok.inside, ok.landed, ok.row, ok.matched, ok.injective⟩

/-- A matched send is owed a completion. -/
theorem SendOk.matched_owed (ok : SendOk setup calls comm)
    (announced : ∀ call, Announced call (calls call)) {slot r : Nat} {i : ReqId}
    (taken : comm.fifoReqs slot r = some i) : ∃ dev, comm.owed setup i dev ≠ 0 := by
  obtain ⟨rfl, below⟩ := ok.row slot r (by rw [taken]; simp)
  have fewer : r < maxRecvs := Nat.lt_of_lt_of_le below (announced comm.fifoHead).few
  have isMatched : comm.MatchedTo i := ⟨r, List.mem_range.mpr fewer, taken⟩
  refine ⟨(setup.qps comm.ep.qpIndex).devIndex, ?_⟩
  rw [SendComm.owed, if_pos isMatched, stripes]
  apply Nat.pos_iff_ne_zero.mp
  apply List.countP_pos_iff.mpr
  refine ⟨comm.ep.qpIndex, ?_, by simp⟩
  obtain ⟨count, isCount⟩ := Nat.exists_eq_succ_of_ne_zero
    (Nat.pos_iff_ne_zero.mp setup.perMessage_positive)
  rw [isCount]
  exact List.mem_cons_self

/-- A test keeps the invariant. -/
theorem SendOk.settled (ok : SendOk setup calls comm) {settled : Endpoint}
    (settles : Endpoint.Settles comm.ep settled)
    (accounted : Endpoint.Accounted (comm.owed setup) settled) :
    SendOk setup calls { comm with ep := settled } := by
  have kept := settles.kept ok.accounted
  refine ⟨?_, ?_, ok.landed, ok.row, ?_, ok.injective⟩
  · have owed : SendComm.owed setup { comm with ep := settled } = comm.owed setup := by
      funext i dev
      simp only [SendComm.owed, kept.qpIndex]
      rfl
    rw [owed]
    exact accounted
  · rw [kept.qpIndex]
    exact ok.inside
  · intro slot r i taken
    rw [kept.reqs i]
    exact ok.matched slot r i taken

theorem SendOk.freed (ok : SendOk setup calls comm)
    (announced : ∀ call, Announced call (calls call)) {i : ReqId}
    (finished : comm.ep.Finished i) :
    SendOk setup calls { comm with ep := comm.ep.ncclIbFreeRequest i } := by
  have nothing := (ok.accounted.finished_iff i).mp finished
  refine ⟨ok.accounted.free finished, ok.inside, ok.landed, ok.row, ?_, ok.injective⟩
  intro slot r j taken
  have other : j ≠ i := by
    rintro rfl
    obtain ⟨dev, owed⟩ := ok.matched_owed announced taken
    exact owed (nothing dev).2
  simpa [Endpoint.ncclIbFreeRequest, Endpoint.setReq, other] using ok.matched slot r j taken

end

/-! ## Every run -/

/-- A send comm and the sizes its finished requests reported. -/
structure Sending where
  comm : SendComm
  finished : List Int32

inductive SendEvent where
  | announce (call r : Nat)
  | isend (data : Int) (size tag : Int32) (lkeys : Dev → UInt32)
  | complete (position : Nat)
  | test (i : ReqId)

namespace Sending

/-- A request in use is tested. -/
def test (setup : SendSetup) (sending : Sending) (i : ReqId) : Option Sending :=
  if (sending.comm.ep.reqs i).type = .unused then none
  else
    match sending.comm.ep.ncclIbTest setup.asyncEvents i with
    | .returned _ _ sizes ep =>
      some ⟨{ sending.comm with ep := ep }, sending.finished ++ sizes⟩
    | _ => none

/-- A call of the send function that returns. -/
def isend (setup : SendSetup) (sending : Sending) (data : Int) (size tag : Int32)
    (lkeys : Dev → UInt32) : Option Sending :=
  match ncclIbIsend setup sending.comm data size tag lkeys with
  | .returned _ _ comm => some { sending with comm := comm }
  | _ => none

def step (setup : SendSetup) (calls : Calls) (sending : Sending) : SendEvent → Option Sending
  | .announce call r =>
    (sending.comm.land calls call r).map fun comm => { sending with comm := comm }
  | .isend data size tag lkeys => sending.isend setup data size tag lkeys
  | .complete position =>
    (sending.comm.ep.complete position 0).map fun ep =>
      { sending with comm := { sending.comm with ep := ep } }
  | .test i => sending.test setup i

end Sending

/-- All runs of a send comm whose peer makes the given calls. -/
def sending (setup : SendSetup) (calls : Calls) : System Sending SendEvent where
  starts := fun sending => sending.comm.Fresh ∧ sending.finished = []
  step := Sending.step setup calls

section

variable {setup : SendSetup} {calls : Calls}

/-- What a step of a run does. A test settles completions, and then it leaves the
request waiting or reports its size and frees it. -/
inductive SendStep (setup : SendSetup) (calls : Calls) (before : Sending) :
    SendEvent → Sending → Prop
  | landed {call r : Nat} {comm : SendComm} (landed : before.comm.land calls call r = some comm) :
    SendStep setup calls before (.announce call r) { before with comm := comm }
  | sent {data : Int} {size tag : Int32} {lkeys : Dev → UInt32} {request : Option ReqId}
    {comm : SendComm}
    (effect : IsendEffect setup calls before.comm data size tag lkeys request comm) :
    SendStep setup calls before (.isend data size tag lkeys) { before with comm := comm }
  | completed {position : Nat} {ep : Endpoint}
    (completed : before.comm.ep.complete position 0 = some ep) :
    SendStep setup calls before (.complete position)
      { before with comm := { before.comm with ep := ep } }
  | waits {i : ReqId} {settled : Endpoint} (settles : Endpoint.Settles before.comm.ep settled)
    (accounted : Endpoint.Accounted (before.comm.owed setup) settled) :
    SendStep setup calls before (.test i)
      { before with comm := { before.comm with ep := settled } }
  | done {i : ReqId} {settled : Endpoint} (settles : Endpoint.Settles before.comm.ep settled)
    (accounted : Endpoint.Accounted (before.comm.owed setup) settled)
    (inUse : (before.comm.ep.reqs i).type ≠ .unused) (finished : settled.Finished i) :
    SendStep setup calls before (.test i)
      { comm := { before.comm with ep := settled.ncclIbFreeRequest i }
        finished := before.finished ++ settled.reportedSizes i }

theorem SendOk.sendStep (announced : ∀ call, Announced call (calls call)) {before after : Sending}
    {event : SendEvent} (ok : SendOk setup calls before.comm)
    (stepped : (sending setup calls).step before event = some after) :
    SendStep setup calls before event after := by
  cases event with
  | announce call r =>
    obtain ⟨comm, landed, rfl⟩ := Option.map_eq_some_iff.mp stepped
    exact .landed landed
  | isend data size tag lkeys =>
    have stepped : before.isend setup data size tag lkeys = some after := stepped
    rcases ncclIbIsend_effect setup ok.landed announced data size tag lkeys with
      spins | ⟨result, request, comm, called, effect⟩
    · simp [Sending.isend, spins] at stepped
    · simp only [Sending.isend, called, Option.some.injEq] at stepped
      subst stepped
      exact .sent effect
  | complete position =>
    obtain ⟨ep, completed, rfl⟩ := Option.map_eq_some_iff.mp stepped
    exact .completed completed
  | test i =>
    have stepped : before.test setup i = some after := stepped
    obtain ⟨done, sizes, settled, settles, accounted, result, finished, waits, _⟩ :=
      ok.accounted.test setup.asyncEvents i
    simp only [Sending.test, result] at stepped
    split at stepped
    · simp at stepped
    · rename_i inUse
      rw [← Option.some.inj stepped]
      cases done with
      | true =>
        rw [(finished rfl).2]
        exact .done settles accounted inUse (finished rfl).1
      | false =>
        rw [waits rfl, List.append_nil]
        exact .waits settles accounted

/-- One step keeps the invariant. -/
theorem SendOk.step (announced : ∀ call, Announced call (calls call)) {before after : Sending}
    {event : SendEvent} (ok : SendOk setup calls before.comm)
    (stepped : SendStep setup calls before event after) : SendOk setup calls after.comm := by
  cases stepped with
  | landed landed => exact ok.land landed
  | sent effect => exact ok.isend announced effect
  | completed completed => exact ok.complete completed
  | waits settles accounted => exact ok.settled settles accounted
  | done settles accounted _ finished =>
    exact (ok.settled settles accounted).freed announced finished

/-- Every run keeps the invariant. -/
theorem sending_ok (announced : ∀ call, Announced call (calls call)) {state : Sending}
    (reached : (sending setup calls).Reachable state) : SendOk setup calls state.comm := by
  induction reached with
  | start first => exact SendOk.fresh first.1
  | next _ _ stepped ih => exact ih.step announced (ih.sendStep announced stepped)

end

end NcclExts.Unet
