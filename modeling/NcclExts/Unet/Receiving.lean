import NcclExts.Foundation.System
import NcclExts.Unet.Irecv
import NcclExts.Unet.Sending

/-!
# Runs of a receive comm

A receive posts everything its request waits for within one call: an empty receive on
each of its queue pairs and, on some calls, the announcement. A receive comm owes
nothing between calls, so the count alone is the invariant of its runs.
-/

namespace NcclExts.Unet

open NcclExts.Foundation NcclExts.Ucommd

/-- The invariant of a receive comm. -/
structure RecvOk (setup : RecvSetup) (comm : RecvComm) : Prop where
  accounted : Endpoint.Accounted (fun _ _ => 0) comm.ep
  inside : comm.ep.qpIndex < setup.nqps
  devInside : comm.devIndex < setup.ndevs

/-- A receive comm as connecting leaves it. -/
def RecvComm.Fresh (comm : RecvComm) : Prop :=
  comm.ep.Fresh ∧ comm.devIndex = 0 ∧ comm.fifoTail = 0 ∧ comm.elems = (fun _ _ => .zero)

theorem RecvOk.fresh {setup : RecvSetup} {comm : RecvComm} (fresh : comm.Fresh) :
    RecvOk setup comm := by
  obtain ⟨base, devIndex, _, _⟩ := fresh
  refine ⟨Endpoint.Accounted.fresh base, ?_, ?_⟩
  · rw [base.2.1]
    exact setup.someQp
  · rw [devIndex]
    exact setup.someDev

/-! ## What a receive does -/

/-- The receives that a call posts. -/
def RecvComm.recvPostings (setup : RecvSetup) (comm : RecvComm) (i : ReqId) : List Posting :=
  (roundRobin setup.nqps comm.ep.qpIndex setup.perMessage).map
    (fun q => recvPosting setup q comm.fifoTail i)

/-- The announcement of a call asks for a completion. -/
def RecvComm.Signaled (setup : RecvSetup) (comm : RecvComm) : Prop :=
  comm.fifoTail % maxRequests = (setup.qps comm.devIndex).devIndex.val

instance (setup : RecvSetup) (comm : RecvComm) : Decidable (comm.Signaled setup) :=
  inferInstanceAs (Decidable (_ = _))

/-- The announcement that a call posts. -/
def RecvComm.ctsPosting (setup : RecvSetup) (comm : RecvComm) (nreqs : Nat) (i : ReqId) :
    Posting :=
  Unet.ctsPosting (ctsWr setup (comm.fifoTail % maxRequests) nreqs (setup.qps comm.devIndex)
    (decide (comm.Signaled setup)) i) comm.devIndex comm.fifoTail
      (setup.qps comm.devIndex).devIndex

/-- The announcement of a call, where it completes. -/
def RecvComm.ctsPostings (setup : RecvSetup) (comm : RecvComm) (nreqs : Nat) (i : ReqId) :
    List Posting :=
  if comm.Signaled setup then [comm.ctsPosting setup nreqs i] else []

/-- What a call that gets a request leaves behind. -/
structure Received (setup : RecvSetup) (comm : RecvComm) (recvs : List RecvArg) (i : ReqId)
    (after : RecvComm) : Prop where
  posted : after.ep.posted =
    comm.ep.posted ++ (comm.recvPostings setup i ++ comm.ctsPostings setup recvs.length i)
  log : after.ep.log =
    comm.ep.log ++ (comm.recvPostings setup i ++ [comm.ctsPosting setup recvs.length i])
  type : (after.ep.reqs i).type = .recv
  nreqs : (after.ep.reqs i).nreqs = recvs.length
  sizes : (after.ep.reqs i).sizes = comm.fifoTail % maxRequests
  events : ∀ dev, (after.ep.reqs i).events dev = (stripes setup.toCommSetup comm.ep.qpIndex dev +
    (if comm.Signaled setup ∧ (setup.qps comm.devIndex).devIndex = dev then 1 else 0) : Nat)
  devBases : ∀ dev, (after.ep.reqs i).events dev ≠ 0 →
    (after.ep.reqs i).devBases dev = some dev
  others : ∀ j, j ≠ i → after.ep.reqs j = comm.ep.reqs j
  qpIndex : after.ep.qpIndex = roundEnd setup.nqps comm.ep.qpIndex setup.perMessage
  cqs : after.ep.cqs = comm.ep.cqs
  fatalErrorCount : after.ep.fatalErrorCount = comm.ep.fatalErrorCount
  devFatalErrorCount : after.ep.devFatalErrorCount = comm.ep.devFatalErrorCount
  sizesFifo : after.ep.sizesFifo =
    (comm.ep.clearSizes (comm.fifoTail % maxRequests) recvs.length).sizesFifo
  devIndex : after.devIndex = (comm.devIndex + 1) % setup.ndevs
  fifoTail : after.fifoTail = comm.fifoTail + 1
  elems : after.elems =
    stage setup (comm.fifoTail % maxRequests) (comm.fifoTail + 1) recvs comm.elems

theorem postRecv_self (setup : RecvSetup) (group : Nat) (i : ReqId) (ep : Endpoint) :
    (postRecv setup group i ep).reqs i =
      Endpoint.ncclIbAddEvent (ep.reqs i) (setup.qps ep.qpIndex).devIndex := by
  simp [postRecv, Endpoint.mapReq, Endpoint.setReq, Endpoint.postSignaled]

theorem postRecv_other (setup : RecvSetup) (group : Nat) {i j : ReqId} (ep : Endpoint)
    (other : j ≠ i) : (postRecv setup group i ep).reqs j = ep.reqs j := by
  simp [postRecv, Endpoint.mapReq, Endpoint.setReq, Endpoint.postSignaled, other]

/-- The request of the receives that a loop posts. -/
structure RecvsPosted (setup : RecvSetup) (group : Nat) (i : ReqId) (count : Nat)
    (ep after : Endpoint) : Prop where
  rest : after = { ep with
    reqs := after.reqs
    posted := ep.posted ++ (roundRobin setup.nqps ep.qpIndex count).map
      (fun q => recvPosting setup q group i)
    log := ep.log ++ (roundRobin setup.nqps ep.qpIndex count).map
      (fun q => recvPosting setup q group i)
    qpIndex := roundEnd setup.nqps ep.qpIndex count }
  others : ∀ j, j ≠ i → after.reqs j = ep.reqs j
  fields : after.reqs i = { ep.reqs i with
    events := (after.reqs i).events, devBases := (after.reqs i).devBases }
  events : ∀ dev, (after.reqs i).events dev = (ep.reqs i).events dev +
    (roundRobin setup.nqps ep.qpIndex count).countP (fun q => (setup.qps q).devIndex = dev)
  devBases : ∀ dev, (ep.reqs i).devBases dev = some dev → (after.reqs i).devBases dev = some dev

theorem postRecvs_posted (setup : RecvSetup) (group : Nat) (i : ReqId) (count : Nat)
    (ep : Endpoint) (inside : ep.qpIndex < setup.nqps) :
    RecvsPosted setup group i count ep (postRecvs setup group i count ep) := by
  induction count generalizing ep with
  | zero =>
    refine ⟨?_, fun _ _ => rfl, rfl, fun _ => by simp [postRecvs, roundRobin], fun _ base => base⟩
    simp only [postRecvs, roundRobin, List.map_nil, List.append_nil, roundEnd_zero inside]
  | succ count ih =>
    have later := ih (postRecv setup group i ep) (Nat.mod_lt _ setup.someQp)
    have self := postRecv_self setup group i ep
    refine ⟨?_, ?_, ?_, ?_, ?_⟩
    · rw [postRecvs, later.rest]
      simp [postRecv, Endpoint.postSignaled, Endpoint.mapReq, Endpoint.setReq, roundRobin,
        roundEnd_succ]
    · intro j other
      rw [postRecvs, later.others j other, postRecv_other setup group ep other]
    · rw [postRecvs, later.fields, self]
      rfl
    · intro dev
      rw [postRecvs, later.events dev, self]
      have next : (postRecv setup group i ep).qpIndex = (ep.qpIndex + 1) % setup.nqps := rfl
      simp only [next, roundRobin, List.countP_cons, decide_eq_true_eq]
      by_cases here : (setup.qps ep.qpIndex).devIndex = dev
      · simp only [Endpoint.ncclIbAddEvent, here, Function.update_self, if_true]
        push_cast
        omega
      · simp [Endpoint.ncclIbAddEvent, here, Ne.symm here]
    · intro dev base
      rw [postRecvs]
      apply later.devBases
      rw [self, Endpoint.ncclIbAddEvent]
      by_cases here : dev = (setup.qps ep.qpIndex).devIndex
      · simp only [here, Function.update_self]
      · simp only [Function.update_of_ne here, base]

/-- The state after a receive took an unused request and posted for it. -/
def RecvComm.receive (setup : RecvSetup) (comm : RecvComm) (recvs : List RecvArg) (i : ReqId) :
    RecvComm :=
  ncclIbPostFifo setup { comm with
    ep := postRecvs setup comm.fifoTail i setup.perMessage
      ((comm.ep.setReq i (Endpoint.cleared (comm.ep.reqs i))).mapReq i
        (recvRequest setup recvs.length)) } recvs i

/-- The request that an announcement leaves behind. -/
def announcedRequest (setup : RecvSetup) (comm : RecvComm) (req : NcclIbRequest) :
    NcclIbRequest :=
  let req := { req with sizes := comm.fifoTail % maxRequests }
  if comm.Signaled setup then
    Endpoint.ncclIbAddEvent req (setup.qps comm.devIndex).devIndex else req

/-- What announcing a call leaves behind. -/
theorem ncclIbPostFifo_eq (setup : RecvSetup) (comm : RecvComm) (recvs : List RecvArg)
    (i : ReqId) :
    ncclIbPostFifo setup comm recvs i =
      { ep := { comm.ep with
          reqs := Function.update comm.ep.reqs i
            (announcedRequest setup comm (comm.ep.reqs i))
          sizesFifo := (comm.ep.clearSizes (comm.fifoTail % maxRequests)
            recvs.length).sizesFifo
          posted := comm.ep.posted ++ comm.ctsPostings setup recvs.length i
          log := comm.ep.log ++ [comm.ctsPosting setup recvs.length i]
          ibStat := comm.ep.ibStat.map (fun stat => stat.inc unetIbFifoPostCount) }
        devIndex := (comm.devIndex + 1) % setup.ndevs
        fifoTail := comm.fifoTail + 1
        elems := stage setup (comm.fifoTail % maxRequests) (comm.fifoTail + 1) recvs
          comm.elems } := by
  by_cases signaled : comm.Signaled setup
  · have isSlot : comm.fifoTail % maxRequests = (setup.qps comm.devIndex).devIndex.val := signaled
    simp [ncclIbPostFifo, isSlot, RecvComm.ctsPostings, RecvComm.ctsPosting, announcedRequest,
      RecvComm.Signaled, Endpoint.mapReq, Endpoint.setReq, Endpoint.clearSizes,
      Endpoint.postSignaled, Endpoint.countIb]
  · have notSlot : ¬ comm.fifoTail % maxRequests = (setup.qps comm.devIndex).devIndex.val :=
      signaled
    simp [ncclIbPostFifo, notSlot, RecvComm.ctsPostings, RecvComm.ctsPosting, announcedRequest,
      RecvComm.Signaled, Endpoint.mapReq, Endpoint.setReq, Endpoint.clearSizes,
      Endpoint.postUnsignaled, Endpoint.countIb]

theorem RecvComm.receive_received (setup : RecvSetup) (comm : RecvComm) (recvs : List RecvArg)
    (i : ReqId) (inside : comm.ep.qpIndex < setup.nqps) :
    Received setup comm recvs i (comm.receive setup recvs i) := by
  have posted := postRecvs_posted setup comm.fifoTail i setup.perMessage
    ((comm.ep.setReq i (Endpoint.cleared (comm.ep.reqs i))).mapReq i
      (recvRequest setup recvs.length)) inside
  have start : ((comm.ep.setReq i (Endpoint.cleared (comm.ep.reqs i))).mapReq i
      (recvRequest setup recvs.length)).reqs i =
      recvRequest setup recvs.length (Endpoint.cleared (comm.ep.reqs i)) := by
    simp [Endpoint.mapReq, Endpoint.setReq]
  obtain ⟨ep, isEp⟩ : ∃ ep, postRecvs setup comm.fifoTail i setup.perMessage
      ((comm.ep.setReq i (Endpoint.cleared (comm.ep.reqs i))).mapReq i
        (recvRequest setup recvs.length)) = ep := ⟨_, rfl⟩
  rw [isEp] at posted
  obtain ⟨rest, others, fields, events, bases⟩ := posted
  rw [start] at fields events bases
  rw [RecvComm.receive, isEp, ncclIbPostFifo_eq]
  have self : (announcedRequest setup { comm with ep := ep } (ep.reqs i)) =
      if comm.Signaled setup then
        Endpoint.ncclIbAddEvent { ep.reqs i with sizes := comm.fifoTail % maxRequests }
          (setup.qps comm.devIndex).devIndex
      else { ep.reqs i with sizes := comm.fifoTail % maxRequests } := rfl
  have cleared (dev : Dev) : (recvRequest setup recvs.length
      (Endpoint.cleared (comm.ep.reqs i))).events dev = 0 := rfl
  have qpIndex := congrArg Endpoint.qpIndex rest
  have cqs := congrArg Endpoint.cqs rest
  have fatal := congrArg Endpoint.fatalErrorCount rest
  have devFatal := congrArg Endpoint.devFatalErrorCount rest
  have sizesFifo := congrArg Endpoint.sizesFifo rest
  have pending := congrArg Endpoint.posted rest
  have log := congrArg Endpoint.log rest
  refine ⟨?_, ?_, ?_, ?_, ?_, ?_, ?_, ?_, qpIndex, cqs, fatal, devFatal, ?_, rfl, rfl, rfl⟩
  · rw [← List.append_assoc]
    exact congrArg (· ++ comm.ctsPostings setup recvs.length i) pending
  · rw [← List.append_assoc]
    exact congrArg (· ++ [comm.ctsPosting setup recvs.length i]) log
  · have type : (ep.reqs i).type = .recv := congrArg NcclIbRequest.type fields
    simp only [Function.update_self, self]
    split <;> simp only [Endpoint.ncclIbAddEvent, type]
  · have nreqs : (ep.reqs i).nreqs = recvs.length := congrArg NcclIbRequest.nreqs fields
    simp only [Function.update_self, self]
    split <;> simp only [Endpoint.ncclIbAddEvent, nreqs]
  · simp only [Function.update_self, self]
    split <;> simp [Endpoint.ncclIbAddEvent]
  · intro dev
    simp only [Function.update_self, self]
    have counted := events dev
    rw [cleared, Int.zero_add] at counted
    by_cases signaled : comm.Signaled setup
    · by_cases here : (setup.qps comm.devIndex).devIndex = dev
      · simp only [signaled, if_true, Endpoint.ncclIbAddEvent, here, Function.update_self,
          counted, true_and]
        rfl
      · simp only [signaled, if_true, Endpoint.ncclIbAddEvent, Function.update_of_ne (Ne.symm here),
          counted, here, and_false, if_false]
        rfl
    · simp only [signaled, if_false, counted, false_and]
      rfl
  · intro dev waits
    have onDev : dev.val < setup.ndevs := by
      by_cases here : (setup.qps comm.devIndex).devIndex = dev
      · rw [← here]
        exact setup.onDevs comm.devIndex
      · have some : 0 < (roundRobin setup.nqps comm.ep.qpIndex setup.perMessage).countP
            (fun q => decide ((setup.qps q).devIndex = dev)) := by
          apply Nat.pos_of_ne_zero
          intro none
          have counted := events dev
          rw [cleared, Int.zero_add] at counted
          apply waits
          simp only [Function.update_self, self]
          split
          · simp only [Endpoint.ncclIbAddEvent, Function.update_of_ne (Ne.symm here)]
            exact counted.trans (congrArg Nat.cast none)
          · exact counted.trans (congrArg Nat.cast none)
        obtain ⟨q, _, lives⟩ := List.countP_pos_iff.mp some
        rw [← of_decide_eq_true lives]
        exact setup.onDevs q
    have base : (ep.reqs i).devBases dev = some dev := bases dev (if_pos onDev)
    simp only [Function.update_self, self]
    split
    · by_cases here : dev = (setup.qps comm.devIndex).devIndex
      · simp only [Endpoint.ncclIbAddEvent, ← here, Function.update_self]
      · simp only [Endpoint.ncclIbAddEvent, Function.update_of_ne here, base]
    · exact base
  · intro j other
    simp only [Function.update_of_ne other, others j other]
    simp [Endpoint.mapReq, Endpoint.setReq, other]
  · exact congrArg (fun sizes : Nat → Nat → Int32 =>
      Function.update sizes (comm.fifoTail % maxRequests)
        (fun r => if r < recvs.length then 0 else sizes (comm.fifoTail % maxRequests) r))
      sizesFifo

/-- The effects of a receive call: none, or a request with everything posted for it. -/
inductive IrecvEffect (setup : RecvSetup) (comm : RecvComm) (recvs : List RecvArg) :
    Option ReqId → RecvComm → Prop
  | nothing : IrecvEffect setup comm recvs none comm
  | received {i : ReqId} {after : RecvComm} (unused : (comm.ep.reqs i).type = .unused)
    (few : recvs.length ≤ maxRecvs) (received : Received setup comm recvs i after) :
    IrecvEffect setup comm recvs (some i) after

/-- A receive call returns with one of these effects. -/
theorem ncclIbIrecv_effect {setup : RecvSetup} {comm : RecvComm}
    (inside : comm.ep.qpIndex < setup.nqps) (recvs : List RecvArg) :
    ∃ result request after, ncclIbIrecv setup comm recvs = .returned result request after ∧
      IrecvEffect setup comm recvs request after := by
  by_cases ready : setup.ready = false
  · exact ⟨_, _, _, by rw [ncclIbIrecv, if_pos ready], .nothing⟩
  by_cases many : recvs.length > maxRecvs
  · exact ⟨_, _, _, by rw [ncclIbIrecv, if_neg ready, if_pos many], .nothing⟩
  by_cases fatal : Endpoint.ncclIbStatsCheckFatalCount setup.asyncEvents
      comm.ep.fatalErrorCount ≠ .ncclSuccess
  · have called : ncclIbIrecv setup comm recvs = .returned (Endpoint.ncclIbStatsCheckFatalCount
        setup.asyncEvents comm.ep.fatalErrorCount) none comm := by
      rw [ncclIbIrecv, if_neg ready, if_neg many]
      exact if_pos fatal
    exact ⟨_, _, _, called, .nothing⟩
  have running : ¬ Endpoint.ncclIbStatsCheckFatalCount setup.asyncEvents
      comm.ep.fatalErrorCount ≠ .ncclSuccess := fatal
  simp only [ncclIbIrecv, if_neg ready, if_neg many, if_neg running]
  cases got : comm.ep.ncclIbGetRequest with
  | none => exact ⟨_, _, _, rfl, .nothing⟩
  | some pair =>
    obtain ⟨i, ep⟩ := pair
    obtain ⟨unused, rfl⟩ := Endpoint.ncclIbGetRequest_some got
    exact ⟨_, _, _, rfl, .received unused (Nat.not_lt.mp many)
      (comm.receive_received setup recvs i inside)⟩

/-- A posting of one request names it. -/
theorem Posting.names_one {posting : Posting} {i : ReqId} (word : posting.wrId = i.val)
    (one : posting.members = 1) : posting.names = [i] := by
  simp [Posting.names, one, word, reqAt_val]

/-- Empty receives name their request on the devices of their queue pairs. -/
theorem recvPosting_naming (setup : RecvSetup) (group : Nat) (i j : ReqId) (qps : List Nat)
    (dev : Dev) :
    Endpoint.naming (qps.map fun q => recvPosting setup q group i) j dev =
      if j = i then qps.countP (fun q => (setup.qps q).devIndex = dev) else 0 := by
  have names (q : Nat) : (recvPosting setup q group i).names = [i] := Posting.names_one rfl rfl
  have counted : (fun posting : Posting => decide (posting.dev = dev ∧ j ∈ posting.names)) ∘
      (fun q => recvPosting setup q group i) =
      fun q => decide ((setup.qps q).devIndex = dev ∧ j = i) := by
    funext q
    simp only [Function.comp_apply, names, List.mem_singleton]
    rfl
  rw [Endpoint.naming, List.countP_map, counted]
  by_cases same : j = i
  · simp [same]
  · simp [same]

/-- The postings of a receive call name its request: the receives on each of their
queue pairs, and the announcement where it completes. -/
theorem recv_naming (setup : RecvSetup) (comm : RecvComm) (nreqs : Nat) (i j : ReqId)
    (dev : Dev) :
    Endpoint.naming (comm.recvPostings setup i ++ comm.ctsPostings setup nreqs i) j dev =
      if j = i then stripes setup.toCommSetup comm.ep.qpIndex dev +
        (if comm.Signaled setup ∧ (setup.qps comm.devIndex).devIndex = dev then 1 else 0)
      else 0 := by
  have receives := recvPosting_naming setup comm.fifoTail i j
    (roundRobin setup.nqps comm.ep.qpIndex setup.perMessage) dev
  rw [Endpoint.naming, List.countP_append]
  rw [Endpoint.naming] at receives
  rw [RecvComm.recvPostings, receives]
  by_cases signaled : comm.Signaled setup
  · have cts : (comm.ctsPosting setup nreqs i).names = [i] := by
      apply Posting.names_one
      · simp [RecvComm.ctsPosting, Unet.ctsPosting, ctsWr, signaled]
      · rfl
    have ctsDev : (comm.ctsPosting setup nreqs i).dev = (setup.qps comm.devIndex).devIndex := rfl
    by_cases same : j = i
    · simp only [same, and_true, if_true, RecvComm.ctsPostings, signaled, true_and, if_true,
        List.countP_singleton, ctsDev, cts, List.mem_singleton, decide_eq_true_eq]
      rfl
    · simp [same, RecvComm.ctsPostings, signaled, cts]
  · by_cases same : j = i
    · simp [same, RecvComm.ctsPostings, signaled, stripes]
    · simp [same, RecvComm.ctsPostings, signaled]

/-- A posting of a single request that is not a send names it. -/
theorem Posting.Named.one {reqs : ReqId → NcclIbRequest} {posting : Posting} {i : ReqId}
    (word : posting.wrId = i.val) (one : posting.members = 1)
    (typed : (reqs i).type = posting.kind.reqType) (other : posting.kind ≠ .data) :
    posting.Named reqs := by
  have names := Posting.names_one word one
  refine ⟨by omega, by simp [names], ?_, fun isData => absurd isData other, fun _ => one⟩
  rw [names]
  intro j inside
  rw [List.mem_singleton.mp inside]
  exact typed

/-- A request taken from the unused ones keeps the count when it waits for exactly what
was posted for it. -/
theorem Endpoint.Accounted.started {ep after : Endpoint}
    (accounted : Endpoint.Accounted (fun _ _ => 0) ep) {i : ReqId} {postings : List Posting}
    (unused : (ep.reqs i).type = .unused) (inUse : (after.reqs i).type ≠ .unused)
    (others : ∀ j, j ≠ i → after.reqs j = ep.reqs j)
    (posted : after.posted = ep.posted ++ postings) (cqs : after.cqs = ep.cqs)
    (fatal : after.fatalErrorCount = ep.fatalErrorCount)
    (devFatal : after.devFatalErrorCount = ep.devFatalErrorCount)
    (named : ∀ posting ∈ postings, posting.Named after.reqs)
    (counted : ∀ dev, (after.reqs i).events dev = (Endpoint.naming postings i dev : Nat))
    (unnamed : ∀ j, j ≠ i → ∀ dev, Endpoint.naming postings j dev = 0)
    (based : ∀ dev, (after.reqs i).events dev ≠ 0 → (after.reqs i).devBases dev = some dev) :
    Endpoint.Accounted (fun _ _ => 0) after := by
  refine accounted.post postings posted cqs fatal devFatal ?_ named ?_ ?_ ?_
  · intro j used
    have other : j ≠ i := by
      rintro rfl
      exact used unused
    rw [others j other]
    exact ⟨rfl, rfl⟩
  · intro j dev
    by_cases same : j = i
    · subst same
      have nothing := (accounted.unused unused dev).1
      rw [counted dev, nothing, Nat.zero_add, Nat.add_zero]
    · rw [others j same, unnamed j same dev, accounted.counted j dev]
  · intro j isUnused dev
    have other : j ≠ i := by
      rintro rfl
      exact inUse isUnused
    rw [others j other] at isUnused ⊢
    exact accounted.idle j isUnused dev
  · intro j dev waits
    by_cases same : j = i
    · subst same
      exact based dev waits
    · rw [others j same] at waits ⊢
      exact accounted.based j dev waits

variable {setup : RecvSetup} {comm : RecvComm}

/-- A receive keeps the invariant. -/
theorem RecvOk.irecv (ok : RecvOk setup comm) {recvs : List RecvArg} {request : Option ReqId}
    {after : RecvComm} (effect : IrecvEffect setup comm recvs request after) :
    RecvOk setup after := by
  cases effect with
  | nothing => exact ok
  | @received i after unused few received =>
    refine ⟨?_, ?_, ?_⟩
    · have named : ∀ posting ∈ comm.recvPostings setup i ++ comm.ctsPostings setup recvs.length i,
          posting.Named after.ep.reqs := by
        intro posting member
        rcases List.mem_append.mp member with member | member
        · obtain ⟨q, _, rfl⟩ := List.mem_map.mp member
          exact Posting.Named.one rfl rfl received.type (by simp [recvPosting])
        · rw [RecvComm.ctsPostings] at member
          split at member
          · rename_i signaled
            rw [List.mem_singleton.mp member]
            refine Posting.Named.one ?_ rfl received.type
              (by simp [RecvComm.ctsPosting, Unet.ctsPosting])
            simp [RecvComm.ctsPosting, Unet.ctsPosting, ctsWr, signaled]
          · simp at member
      refine ok.accounted.started unused ?_ received.others received.posted received.cqs
        received.fatalErrorCount received.devFatalErrorCount named ?_ ?_ received.devBases
      · rw [received.type]
        decide
      · intro dev
        rw [recv_naming, if_pos rfl, received.events dev]
      · intro j other dev
        rw [recv_naming, if_neg other]
    · rw [received.qpIndex]
      exact Nat.mod_lt _ setup.someQp
    · rw [received.devIndex]
      exact Nat.mod_lt _ setup.someDev

/-! ## What a flush does -/

/-- What the loop over the devices of a flush leaves behind. -/
structure FlushesPosted (setup : RecvSetup) (recv : RecvArg) (group : Nat) (i : ReqId)
    (devs : List Dev) (ep after : Endpoint) : Prop where
  rest : after = { ep with
    reqs := after.reqs
    posted := ep.posted ++ devs.map (flushPosting setup recv group i)
    log := ep.log ++ devs.map (flushPosting setup recv group i) }
  others : ∀ j, j ≠ i → after.reqs j = ep.reqs j
  fields : after.reqs i = { ep.reqs i with
    events := (after.reqs i).events, devBases := (after.reqs i).devBases }
  events : ∀ dev, (after.reqs i).events dev = (ep.reqs i).events dev + devs.count dev
  devBases : ∀ dev, (ep.reqs i).devBases dev = some dev ∨ dev ∈ devs →
    (after.reqs i).devBases dev = some dev

theorem postFlushes_posted (setup : RecvSetup) (recv : RecvArg) (group : Nat) (i : ReqId)
    (devs : List Dev) (ep : Endpoint) :
    FlushesPosted setup recv group i devs ep (postFlushes setup recv group i devs ep) := by
  induction devs generalizing ep with
  | nil =>
    refine ⟨by simp [postFlushes], fun _ _ => rfl, rfl, fun _ => by simp [postFlushes], ?_⟩
    intro dev base
    simpa [postFlushes] using base
  | cons dev rest ih =>
    have later := ih (postFlush setup recv group i dev ep)
    have self : (postFlush setup recv group i dev ep).reqs i =
        Endpoint.ncclIbAddEvent (ep.reqs i) dev := by
      simp [postFlush, Endpoint.mapReq, Endpoint.setReq, Endpoint.postSignaled]
    have other {j : ReqId} (different : j ≠ i) :
        (postFlush setup recv group i dev ep).reqs j = ep.reqs j := by
      simp [postFlush, Endpoint.mapReq, Endpoint.setReq, Endpoint.postSignaled, different]
    refine ⟨?_, ?_, ?_, ?_, ?_⟩
    · rw [postFlushes, later.rest]
      simp [postFlush, Endpoint.mapReq, Endpoint.setReq, Endpoint.postSignaled]
    · intro j different
      rw [postFlushes, later.others j different, other different]
    · rw [postFlushes, later.fields, self]
      rfl
    · intro dev'
      rw [postFlushes, later.events dev', self, List.count_cons]
      by_cases here : dev = dev'
      · simp only [Endpoint.ncclIbAddEvent, here, Function.update_self, beq_self_eq_true, if_true]
        push_cast
        omega
      · simp [Endpoint.ncclIbAddEvent, here, Ne.symm here]
    · intro dev' base
      rw [postFlushes]
      apply later.devBases
      rw [self, Endpoint.ncclIbAddEvent]
      by_cases here : dev' = dev
      · left
        simp only [here, Function.update_self]
      · simp only [Function.update_of_ne here]
        rcases base with base | member
        · exact Or.inl base
        · exact Or.inr ((List.mem_cons.mp member).resolve_left here)

/-- The effects of a flush: none, or a request with a read on every device. -/
inductive IflushEffect (setup : RecvSetup) (comm : RecvComm) : Option ReqId → RecvComm → Prop
  | nothing : IflushEffect setup comm none comm
  | flushed {i : ReqId} {last : RecvArg} {ep : Endpoint}
    (unused : (comm.ep.reqs i).type = .unused)
    (flushes : FlushesPosted setup last comm.fifoTail i setup.devices
      ((comm.ep.setReq i (Endpoint.cleared (comm.ep.reqs i))).mapReq i
        (fun req => { req with type := .flush })) ep) :
    IflushEffect setup comm (some i) { comm with ep := ep }

theorem ncclIbIflush_effect (setup : RecvSetup) (comm : RecvComm) (recvs : List RecvArg) :
    ∃ result request after, ncclIbIflush setup comm recvs = .returned result request after ∧
      IflushEffect setup comm request after := by
  simp only [ncclIbIflush]
  cases (recvs.filter (fun recv => recv.size ≠ 0)).getLast? with
  | none => exact ⟨_, _, _, rfl, .nothing⟩
  | some last =>
    by_cases enabled : setup.flushEnabled = false
    · exact ⟨_, _, _, if_pos enabled, .nothing⟩
    · simp only [enabled]
      cases got : comm.ep.ncclIbGetRequest with
      | none => exact ⟨_, _, _, rfl, .nothing⟩
      | some pair =>
        obtain ⟨i, ep⟩ := pair
        obtain ⟨unused, rfl⟩ := Endpoint.ncclIbGetRequest_some got
        exact ⟨_, _, _, rfl, .flushed unused (postFlushes_posted setup last comm.fifoTail i
          setup.devices _)⟩

/-- The reads of a flush name its request on their devices. -/
theorem flushPosting_naming (setup : RecvSetup) (recv : RecvArg) (group : Nat) (i j : ReqId)
    (devs : List Dev) (dev : Dev) :
    Endpoint.naming (devs.map (flushPosting setup recv group i)) j dev =
      if j = i then devs.count dev else 0 := by
  have names (dev : Dev) : (flushPosting setup recv group i dev).names = [i] :=
    Posting.names_one rfl rfl
  have same : (fun posting : Posting => decide (posting.dev = dev ∧ j ∈ posting.names)) ∘
      flushPosting setup recv group i = fun d => decide (d = dev ∧ j = i) := by
    funext d
    simp only [Function.comp_apply, names, List.mem_singleton]
    rfl
  rw [Endpoint.naming, List.countP_map, same]
  by_cases here : j = i
  · simp only [here, and_true, if_true, List.count]
    rfl
  · simp [here]

/-- The reads of a flush on some devices keep the count. -/
theorem FlushesPosted.accounted {last : RecvArg} {group : Nat} {i : ReqId} {devs : List Dev}
    {ep after : Endpoint} (counted : Endpoint.Accounted (fun _ _ => 0) ep)
    (unused : (ep.reqs i).type = .unused)
    (flushes : FlushesPosted setup last group i devs
      ((ep.setReq i (Endpoint.cleared (ep.reqs i))).mapReq i
        (fun req => { req with type := .flush })) after) :
    Endpoint.Accounted (fun _ _ => 0) after := by
  have self : ((ep.setReq i (Endpoint.cleared (ep.reqs i))).mapReq i
      (fun req => { req with type := .flush })).reqs i =
      { Endpoint.cleared (ep.reqs i) with type := .flush } := by
    simp [Endpoint.mapReq, Endpoint.setReq]
  have others (j : ReqId) (other : j ≠ i) : after.reqs j = ep.reqs j := by
    rw [flushes.others j other]
    simp [Endpoint.mapReq, Endpoint.setReq, other]
  obtain ⟨rest, _, fields, events, bases⟩ := flushes
  rw [self] at fields events bases
  have type : (after.reqs i).type = .flush := congrArg NcclIbRequest.type fields
  have reads (dev : Dev) : (after.reqs i).events dev = devs.count dev := by
    refine (events dev).trans ?_
    exact Int.zero_add _
  have posted := congrArg Endpoint.posted rest
  have cqs := congrArg Endpoint.cqs rest
  have fatal := congrArg Endpoint.fatalErrorCount rest
  have devFatal := congrArg Endpoint.devFatalErrorCount rest
  refine counted.started unused ?_ others posted cqs fatal devFatal ?_ ?_ ?_ ?_
  · rw [type]
    decide
  · intro posting member
    obtain ⟨dev, _, rfl⟩ := List.mem_map.mp member
    exact Posting.Named.one rfl rfl type (by simp [flushPosting])
  · intro dev
    rw [flushPosting_naming, if_pos rfl, reads]
  · intro j other dev
    rw [flushPosting_naming, if_neg other]
  · intro dev waits
    refine bases dev (Or.inr (List.count_pos_iff.mp ?_))
    have waits : (devs.count dev : Int) ≠ 0 := reads dev ▸ waits
    omega

/-- A flush keeps the invariant. -/
theorem RecvOk.iflush (ok : RecvOk setup comm) {request : Option ReqId} {after : RecvComm}
    (effect : IflushEffect setup comm request after) : RecvOk setup after := by
  cases effect with
  | nothing => exact ok
  | @flushed i last ep unused flushes =>
    refine ⟨flushes.accounted ok.accounted unused, ?_, ok.devInside⟩
    have qpIndex := congrArg Endpoint.qpIndex flushes.rest
    rw [qpIndex]
    exact ok.inside

/-! ## The other steps -/

theorem RecvOk.complete (ok : RecvOk setup comm) {position : Nat} {immData : UInt32}
    {ep : Endpoint} (completed : comm.ep.complete position immData = some ep) :
    RecvOk setup { comm with ep := ep } := by
  have accounted := ok.accounted.complete completed
  obtain ⟨posting, _, rfl⟩ := Option.map_eq_some_iff.mp completed
  exact ⟨accounted, ok.inside, ok.devInside⟩

theorem RecvOk.settled (ok : RecvOk setup comm) {settled : Endpoint}
    (settles : Endpoint.Settles comm.ep settled)
    (accounted : Endpoint.Accounted (fun _ _ => 0) settled) :
    RecvOk setup { comm with ep := settled } := by
  refine ⟨accounted, ?_, ok.devInside⟩
  rw [(settles.kept ok.accounted).qpIndex]
  exact ok.inside

theorem RecvOk.freed (ok : RecvOk setup comm) {i : ReqId} (finished : comm.ep.Finished i) :
    RecvOk setup { comm with ep := comm.ep.ncclIbFreeRequest i } :=
  ⟨ok.accounted.free finished, ok.inside, ok.devInside⟩

/-! ## Every run -/

inductive RecvEvent where
  | irecv (recvs : List RecvArg)
  | iflush (recvs : List RecvArg)
  | complete (position : Nat) (immData : UInt32)
  | test (i : ReqId)

namespace RecvComm

/-- A request in use is tested. -/
def test (setup : RecvSetup) (comm : RecvComm) (i : ReqId) : Option RecvComm :=
  if (comm.ep.reqs i).type = .unused then none
  else
    match comm.ep.ncclIbTest setup.asyncEvents i with
    | .returned _ _ _ ep => some { comm with ep := ep }
    | _ => none

/-- The comm after a call that returns. -/
def returned (outcome : CallOutcome RecvComm) : Option RecvComm :=
  match outcome with
  | .returned _ _ comm => some comm
  | _ => none

def step (setup : RecvSetup) (comm : RecvComm) : RecvEvent → Option RecvComm
  | .irecv recvs => returned (ncclIbIrecv setup comm recvs)
  | .iflush recvs => returned (ncclIbIflush setup comm recvs)
  | .complete position immData =>
    (comm.ep.complete position immData).map fun ep => { comm with ep := ep }
  | .test i => comm.test setup i

end RecvComm

/-- All runs of a receive comm; a receive completes with any immediate. -/
def receiving (setup : RecvSetup) : System RecvComm RecvEvent where
  starts := RecvComm.Fresh
  step := RecvComm.step setup

/-- A test keeps the invariant. -/
theorem RecvOk.test (ok : RecvOk setup comm) {i : ReqId} {after : RecvComm}
    (tested : comm.test setup i = some after) : RecvOk setup after := by
  obtain ⟨done, sizes, settled, settles, accounted, result, finished, _⟩ :=
    ok.accounted.test setup.asyncEvents i
  simp only [RecvComm.test, result] at tested
  split at tested
  · simp at tested
  · rw [← Option.some.inj tested]
    have okSettled := ok.settled settles accounted
    cases done with
    | true => exact okSettled.freed (finished rfl).1
    | false => exact okSettled

/-- One step keeps the invariant. -/
theorem RecvOk.step (ok : RecvOk setup comm) {event : RecvEvent} {after : RecvComm}
    (stepped : (receiving setup).step comm event = some after) : RecvOk setup after := by
  cases event with
  | irecv recvs =>
    obtain ⟨result, request, next, called, effect⟩ := ncclIbIrecv_effect ok.inside recvs
    have same : some next = some after := by
      rw [← stepped]
      simp only [receiving, RecvComm.step, called, RecvComm.returned]
    exact Option.some.inj same ▸ ok.irecv effect
  | iflush recvs =>
    obtain ⟨result, request, next, called, effect⟩ := ncclIbIflush_effect setup comm recvs
    have same : some next = some after := by
      rw [← stepped]
      simp only [receiving, RecvComm.step, called, RecvComm.returned]
    exact Option.some.inj same ▸ ok.iflush effect
  | complete position immData =>
    obtain ⟨ep, completed, rfl⟩ := Option.map_eq_some_iff.mp stepped
    exact ok.complete completed
  | test i => exact ok.test stepped

/-- Every run keeps the invariant. -/
theorem receiving_ok (reached : (receiving setup).Reachable comm) : RecvOk setup comm :=
  reached.invariant (fun _ fresh => RecvOk.fresh fresh) (fun _ _ _ ok stepped => ok.step stepped)

end NcclExts.Unet
