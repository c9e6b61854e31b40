import NcclExts.Unet.Test

/-!
# Counting the completions a request waits for

For every request and device the event count is the number of postings on the device
that name the request and were not polled yet, together with what the comm still owes
it: the postings of a message whose other sends are not matched yet. Everything that a
test checks follows from this count, since a completion at the head of a queue is
itself one of the postings counted.
-/

namespace NcclExts.Unet

open NcclExts.Foundation NcclExts.Ucommd

/-- The type of the requests that a posting names. -/
def WrKind.reqType : WrKind → ReqType
  | .data => .send
  | .cts => .recv
  | .flush => .flush
  | .recv => .recv

theorem WrKind.reqType_ne_unused (kind : WrKind) : kind.reqType ≠ .unused := by
  cases kind <;> decide

/-- A posting names different requests, all of its type: the sends of one message, or
a single other request. -/
structure Posting.Named (reqs : ReqId → NcclIbRequest) (posting : Posting) : Prop where
  some : 0 < posting.members
  distinct : posting.names.Nodup
  typed : ∀ i ∈ posting.names, (reqs i).type = posting.kind.reqType
  grouped : posting.kind = .data → ∀ i ∈ posting.names, (reqs i).nreqs = posting.members
  single : posting.kind ≠ .data → posting.members = 1

namespace Posting.Named

variable {reqs after : ReqId → NcclIbRequest} {posting : Posting}

theorem first (named : posting.Named reqs) : reqAt posting.wrId 0 ∈ posting.names := by
  refine List.mem_map.mpr ⟨0, List.mem_range.mpr named.some, rfl⟩

/-- A posting that names one request names the one its word is. -/
theorem names_single (named : posting.Named reqs) (other : posting.kind ≠ .data) :
    posting.names = [reqAt posting.wrId 0] := by
  simp [Posting.names, named.single other]

/-- Requests in use that keep their type and group size keep a posting named. -/
theorem kept (named : posting.Named reqs)
    (same : ∀ i, (reqs i).type ≠ .unused →
      (after i).type = (reqs i).type ∧ (after i).nreqs = (reqs i).nreqs) :
    posting.Named after := by
  have inUse : ∀ i ∈ posting.names, (reqs i).type ≠ .unused := by
    intro i member
    rw [named.typed i member]
    exact posting.kind.reqType_ne_unused
  refine ⟨named.some, named.distinct, ?_, ?_, named.single⟩
  · intro i member
    rw [(same i (inUse i member)).1]
    exact named.typed i member
  · intro isData i member
    rw [(same i (inUse i member)).2]
    exact named.grouped isData i member

end Posting.Named

namespace Endpoint

/-- The postings on a device that were not polled: those that have not completed, and
those whose completion waits in the queue. -/
def waiting (ep : Endpoint) (dev : Dev) : List Posting :=
  ep.posted.filter (fun posting => posting.dev = dev) ++ (ep.cqs dev).map IbvWc.posting

/-- How many of them name a request. -/
def outstanding (ep : Endpoint) (i : ReqId) (dev : Dev) : Nat :=
  (ep.waiting dev).countP (fun posting => i ∈ posting.names)

/-- The count of events is right for every request and device, given what the comm
still owes. -/
structure Accounted (owed : ReqId → Dev → Nat) (ep : Endpoint) : Prop where
  counted : ∀ i dev, (ep.reqs i).events dev = (ep.outstanding i dev + owed i dev : Nat)
  idle : ∀ i, (ep.reqs i).type = .unused → ∀ dev, (ep.reqs i).events dev = 0
  named : ∀ dev, ∀ posting ∈ ep.waiting dev, posting.Named ep.reqs
  succeeded : ∀ dev, ∀ wc ∈ ep.cqs dev, wc.success = true
  based : ∀ i dev, (ep.reqs i).events dev ≠ 0 → (ep.reqs i).devBases dev = some dev
  healthy : ep.fatalErrorCount = 0 ∧ ∀ dev, ep.devFatalErrorCount dev = 0

theorem Accounted.fresh {ep : Endpoint} (fresh : ep.Fresh) : Accounted (fun _ _ => 0) ep := by
  obtain ⟨reqs, _, fatal, devFatal, _, posted, _, cqs⟩ := fresh
  have nothing (dev : Dev) : ep.waiting dev = [] := by simp [waiting, posted, cqs]
  refine ⟨?_, ?_, ?_, ?_, ?_, fatal, fun dev => by rw [devFatal]⟩
  · simp [reqs, NcclIbRequest.zero, outstanding, nothing]
  · simp [reqs, NcclIbRequest.zero]
  · simp [nothing]
  · simp [cqs]
  · simp [reqs, NcclIbRequest.zero]

/-- An unused request is named by nothing and owed nothing. -/
theorem Accounted.unused {owed : ReqId → Dev → Nat} {ep : Endpoint} (accounted : Accounted owed ep)
    {i : ReqId} (unused : (ep.reqs i).type = .unused) (dev : Dev) :
    ep.outstanding i dev = 0 ∧ owed i dev = 0 := by
  have counted := accounted.counted i dev
  rw [accounted.idle i unused dev] at counted
  omega

/-! ## Posting -/

/-- How many of some postings are on a device and name a request. -/
def naming (postings : List Posting) (i : ReqId) (dev : Dev) : Nat :=
  postings.countP (fun posting => posting.dev = dev ∧ i ∈ posting.names)

theorem outstanding_append {ep after : Endpoint} {postings : List Posting}
    (posted : after.posted = ep.posted ++ postings) (cqs : after.cqs = ep.cqs) (i : ReqId)
    (dev : Dev) : after.outstanding i dev = ep.outstanding i dev + naming postings i dev := by
  simp only [outstanding, waiting, naming, posted, cqs, List.filter_append, List.countP_append,
    List.countP_filter]
  have swapped : List.countP (fun posting => decide (i ∈ posting.names) && decide
      (posting.dev = dev)) postings =
      List.countP (fun posting => decide (posting.dev = dev ∧ i ∈ posting.names)) postings := by
    congr 1
    funext posting
    rw [Bool.decide_and, Bool.and_comm]
  omega

/-- Posting keeps the count when the events of each request grow by the postings that
name it and by what is newly owed. -/
theorem Accounted.post {owed newly : ReqId → Dev → Nat} {ep after : Endpoint}
    (accounted : Accounted owed ep) (postings : List Posting)
    (posted : after.posted = ep.posted ++ postings) (cqs : after.cqs = ep.cqs)
    (fatal : after.fatalErrorCount = ep.fatalErrorCount)
    (devFatal : after.devFatalErrorCount = ep.devFatalErrorCount)
    (same : ∀ i, (ep.reqs i).type ≠ .unused →
      (after.reqs i).type = (ep.reqs i).type ∧ (after.reqs i).nreqs = (ep.reqs i).nreqs)
    (named : ∀ posting ∈ postings, posting.Named after.reqs)
    (counted : ∀ i dev, (after.reqs i).events dev =
      (ep.outstanding i dev + naming postings i dev + newly i dev : Nat))
    (idle : ∀ i, (after.reqs i).type = .unused → ∀ dev, (after.reqs i).events dev = 0)
    (based : ∀ i dev, (after.reqs i).events dev ≠ 0 → (after.reqs i).devBases dev = some dev) :
    Accounted newly after := by
  refine ⟨?_, idle, ?_, ?_, based, ?_⟩
  · intro i dev
    rw [counted i dev, outstanding_append posted cqs]
  · intro dev posting member
    simp only [waiting, posted, cqs, List.filter_append] at member
    rcases List.mem_append.mp member with member | inQueue
    · rcases List.mem_append.mp member with old | new
      · exact (accounted.named dev posting (List.mem_append_left _ old)).kept same
      · exact named posting (List.mem_filter.mp new).1
    · exact (accounted.named dev posting (List.mem_append_right _ inQueue)).kept same
  · intro dev wc member
    exact accounted.succeeded dev wc (cqs ▸ member)
  · rw [fatal, devFatal]
    exact accounted.healthy

/-- Changes of the stats, of the sizes FIFO and of the next queue pair do not touch the
count. -/
theorem Accounted.congr {owed : ReqId → Dev → Nat} {ep after : Endpoint}
    (accounted : Accounted owed ep) (reqs : after.reqs = ep.reqs)
    (posted : after.posted = ep.posted) (cqs : after.cqs = ep.cqs)
    (fatal : after.fatalErrorCount = ep.fatalErrorCount)
    (devFatal : after.devFatalErrorCount = ep.devFatalErrorCount) : Accounted owed after := by
  refine accounted.post [] (by simp [posted]) cqs fatal devFatal ?_ (by simp) ?_ ?_ ?_
  · simp [reqs]
  · simpa [reqs, naming] using accounted.counted
  · simpa [reqs] using accounted.idle
  · simpa [reqs] using accounted.based

/-! ## Completing and settling -/

/-- A completion moves a posting to the queue of its device. -/
theorem complete_waiting {ep after : Endpoint} {position : Nat} {immData : UInt32}
    (completed : ep.complete position immData = some after) (dev : Dev) :
    (after.waiting dev).Perm (ep.waiting dev) := by
  obtain ⟨posting, placed, rfl⟩ := Option.map_eq_some_iff.mp completed
  obtain ⟨inside, isPosting⟩ := List.getElem?_eq_some_iff.mp placed
  have whole : ep.posted.Perm (posting :: ep.posted.eraseIdx position) := by
    rw [← isPosting]
    exact (List.getElem_cons_eraseIdx_perm inside).symm
  have filtered := whole.filter (fun posting => decide (posting.dev = dev))
  by_cases here : posting.dev = dev
  · subst here
    simp only [waiting, Function.update_self, List.map_append, List.map_cons, List.map_nil]
    rw [List.filter_cons_of_pos (by simp)] at filtered
    refine List.Perm.trans ?_ (List.Perm.append_right _ filtered.symm)
    rw [← List.append_assoc]
    exact (List.perm_append_singleton _ _)
  · rw [List.filter_cons_of_neg (by simpa using here)] at filtered
    simp only [waiting, Function.update_of_ne (Ne.symm here)]
    exact List.Perm.append_right _ filtered.symm

theorem Accounted.complete {owed : ReqId → Dev → Nat} {ep after : Endpoint} {position : Nat}
    {immData : UInt32} (accounted : Accounted owed ep)
    (completed : ep.complete position immData = some after) : Accounted owed after := by
  have moved := fun dev => complete_waiting completed dev
  obtain ⟨posting, _, rfl⟩ := Option.map_eq_some_iff.mp completed
  refine ⟨?_, accounted.idle, ?_, ?_, accounted.based, accounted.healthy⟩
  · intro i dev
    rw [outstanding, (moved dev).countP_eq]
    exact accounted.counted i dev
  · intro dev other member
    exact accounted.named dev other ((moved dev).mem_iff.mp member)
  · intro dev wc member
    by_cases here : dev = posting.dev
    · subst here
      simp only [Function.update_self] at member
      rcases List.mem_append.mp member with member | member
      · exact accounted.succeeded _ wc member
      · rw [List.mem_singleton.mp member]
    · simp only [Function.update_of_ne here] at member
      exact accounted.succeeded dev wc member

/-- What settling one successful completion does: the requests it names lose an event,
a message charges its first send, and the receive of one message takes its size. -/
def settle (dev : Dev) (wc : IbvWc) (ep : Endpoint) : Endpoint :=
  let req := ep.reqs (reqAt wc.posting.wrId 0)
  { ep with
    reqs := fun i => if i ∈ wc.posting.names then (ep.reqs i).decrement dev else ep.reqs i
    ibStat := ep.ibStat.map (fun stat => stat.inc unetIbCplCount)
    bwStat := if wc.posting.kind = .data then (ep.chargeCpl req.peerRank req.size).bwStat
      else ep.bwStat
    sizesFifo := if wc.posting.kind = .recv ∧ req.nreqs = 1 then
      (ep.writeSize req.sizes wc.immData).sizesFifo else ep.sizesFifo }

/-- Handling a completion whose requests all wait for it succeeds and settles it. -/
theorem handleWc_settle {ep : Endpoint} {dev : Dev} {wc : IbvWc} (success : wc.success = true)
    (named : wc.posting.Named ep.reqs)
    (waits : ∀ i ∈ wc.posting.names, 0 < (ep.reqs i).events dev) :
    ep.handleWc dev wc = ⟨.ncclSuccess, ep.settle dev wc⟩ := by
  have typed := named.typed _ named.first
  by_cases isData : wc.posting.kind = .data
  · have isSend : (ep.reqs (reqAt wc.posting.wrId 0)).type = .send := by
      rw [typed, isData]
      rfl
    have members := named.grouped isData _ named.first
    have counted : ∀ i ∈ wc.posting.names, 0 < ((ep.countIb unetIbCplCount).reqs i).events dev :=
      waits
    have settled := settleSends_success named.distinct counted
    have notRecv : ¬ wc.posting.kind = .recv := by simp [isData]
    simp only [handleWc, success, Bool.true_eq_false, if_false]
    have sends : ((ep.countIb unetIbCplCount).reqs (reqAt wc.posting.wrId 0)).type = .send := isSend
    have count : ((ep.countIb unetIbCplCount).reqs (reqAt wc.posting.wrId 0)).nreqs =
      wc.posting.members := members
    simp only [if_pos sends, count, settled, ne_eq, not_true_eq_false, if_false]
    have first : reqAt wc.posting.wrId 0 ∈ List.map (reqAt wc.posting.wrId)
      (List.range wc.posting.members) := named.first
    simp only [settle, if_pos isData, notRecv, false_and, if_false, if_pos first]
    rfl
  · have notSend : ¬ (ep.reqs (reqAt wc.posting.wrId 0)).type = .send := by
      rw [typed]
      cases kind : wc.posting.kind <;> simp_all [WrKind.reqType]
    have alone := named.names_single isData
    have written : (fun i => if i ∈ wc.posting.names then (ep.reqs i).decrement dev
        else ep.reqs i) = Function.update ep.reqs (reqAt wc.posting.wrId 0)
          ((ep.reqs (reqAt wc.posting.wrId 0)).decrement dev) := by
      funext i
      by_cases same : i = reqAt wc.posting.wrId 0
      · subst same
        simp [alone]
      · simp [alone, same]
    have notSend' : ¬ ((ep.countIb unetIbCplCount).reqs (reqAt wc.posting.wrId 0)).type = .send :=
      notSend
    simp only [handleWc, success, Bool.true_eq_false, if_false, if_neg notSend', settle, written,
      if_neg isData]
    by_cases isRecv : wc.posting.kind = .recv
    · have isRecvReq :
          ((ep.countIb unetIbCplCount).reqs (reqAt wc.posting.wrId 0)).type = .recv := by
        show (ep.reqs (reqAt wc.posting.wrId 0)).type = .recv
        rw [typed, isRecv]
        rfl
      simp only [isRecvReq, ne_eq, not_true_eq_false, if_false, isRecv, true_and]
      have same : ((ep.countIb unetIbCplCount).reqs (reqAt wc.posting.wrId 0)).nreqs =
        (ep.reqs (reqAt wc.posting.wrId 0)).nreqs := rfl
      by_cases one : (ep.reqs (reqAt wc.posting.wrId 0)).nreqs = 1
      · simp only [same, if_pos one]
        rfl
      · simp only [same, if_neg one]
        rfl
    · have plain : ¬ wc.posting.kind.wcOpcode = .recvRdmaWithImm := by
        cases kind : wc.posting.kind <;> simp_all [WrKind.wcOpcode]
      simp only [if_neg plain, isRecv, false_and, if_false]
      rfl

/-- What stays when completions are settled: everything of a request but its events,
what was posted and is not complete, and the whole history. -/
structure Kept (ep after : Endpoint) : Prop where
  reqs : ∀ i, after.reqs i = { ep.reqs i with events := (after.reqs i).events }
  posted : after.posted = ep.posted
  log : after.log = ep.log
  qpIndex : after.qpIndex = ep.qpIndex
  fatalErrorCount : after.fatalErrorCount = ep.fatalErrorCount
  devFatalErrorCount : after.devFatalErrorCount = ep.devFatalErrorCount

theorem Kept.refl (ep : Endpoint) : Kept ep ep := ⟨fun _ => rfl, rfl, rfl, rfl, rfl, rfl⟩

theorem Kept.trans {first second third : Endpoint} (sooner : Kept first second)
    (later : Kept second third) : Kept first third := by
  refine ⟨fun i => ?_, later.posted.trans sooner.posted, later.log.trans sooner.log,
    later.qpIndex.trans sooner.qpIndex, later.fatalErrorCount.trans sooner.fatalErrorCount,
    later.devFatalErrorCount.trans sooner.devFatalErrorCount⟩
  rw [later.reqs i, sooner.reqs i]

theorem Kept.settle (ep : Endpoint) (dev : Dev) (wc : IbvWc) (rest : List IbvWc) :
    Kept ep ((ep.setCq dev rest).settle dev wc) := by
  refine ⟨fun i => ?_, rfl, rfl, rfl, rfl, rfl⟩
  by_cases member : i ∈ wc.posting.names <;>
    simp [Endpoint.settle, setCq, member, NcclIbRequest.decrement]

/-- The head of a queue names requests that wait for its device. -/
theorem Accounted.head {owed : ReqId → Dev → Nat} {ep : Endpoint} (accounted : Accounted owed ep)
    {dev : Dev} {wc : IbvWc} {rest : List IbvWc} (head : ep.cqs dev = wc :: rest) :
    wc.success = true ∧ wc.posting.Named ep.reqs ∧
      ∀ i ∈ wc.posting.names, 0 < (ep.reqs i).events dev := by
  have inQueue : wc ∈ ep.cqs dev := by simp [head]
  have inWaiting : wc.posting ∈ ep.waiting dev :=
    List.mem_append_right _ (List.mem_map_of_mem inQueue)
  refine ⟨accounted.succeeded dev wc inQueue, accounted.named dev _ inWaiting, ?_⟩
  intro i member
  have counted : 0 < ep.outstanding i dev :=
    List.countP_pos_iff.mpr ⟨wc.posting, inWaiting, by simpa using member⟩
  rw [accounted.counted i dev]
  omega

/-- Taking the head of a queue takes its posting out of what is waiting. -/
theorem setCq_waiting {ep : Endpoint} {dev : Dev} {wc : IbvWc} {rest : List IbvWc}
    (head : ep.cqs dev = wc :: rest) (other : Dev) :
    (ep.waiting other).Perm
      (if other = dev then wc.posting :: (ep.setCq dev rest).waiting other
        else (ep.setCq dev rest).waiting other) := by
  by_cases here : other = dev
  · subst here
    simp only [waiting, setCq, if_true, head, Function.update_self, List.map_cons]
    exact List.perm_middle
  · simp [waiting, setCq, here]

/-- Settling the head of a queue keeps the count. -/
theorem Accounted.settle {owed : ReqId → Dev → Nat} {ep : Endpoint} (accounted : Accounted owed ep)
    {dev : Dev} {wc : IbvWc} {rest : List IbvWc} (head : ep.cqs dev = wc :: rest) :
    (ep.setCq dev rest).handleWc dev wc =
        ⟨.ncclSuccess, (ep.setCq dev rest).settle dev wc⟩ ∧
      Accounted owed ((ep.setCq dev rest).settle dev wc) := by
  obtain ⟨success, named, waits⟩ := accounted.head head
  have kept := Kept.settle ep dev wc rest
  have moved := setCq_waiting head
  refine ⟨handleWc_settle success named waits, ?_, ?_, ?_, ?_, ?_, accounted.healthy⟩
  · intro i other
    have before := accounted.counted i other
    have counts : ep.outstanding i other = ((ep.setCq dev rest).settle dev wc).outstanding i other +
        (if other = dev ∧ i ∈ wc.posting.names then 1 else 0) := by
      have total := (moved other).countP_eq (fun posting => decide (i ∈ posting.names))
      rw [outstanding, total]
      by_cases here : other = dev
      · subst here
        simp only [if_true, List.countP_cons, true_and, decide_eq_true_eq]
        rfl
      · simp only [here, false_and, if_false]
        rfl
    have events : (((ep.setCq dev rest).settle dev wc).reqs i).events other =
        (ep.reqs i).events other - (if other = dev ∧ i ∈ wc.posting.names then 1 else 0) := by
      by_cases member : i ∈ wc.posting.names
      · by_cases here : other = dev
        · subst here
          simp [Endpoint.settle, setCq, member, NcclIbRequest.decrement]
        · simp [Endpoint.settle, setCq, member, NcclIbRequest.decrement, here]
      · simp [Endpoint.settle, setCq, member]
    rw [events, before, counts]
    split <;> omega
  · intro i unused other
    have type : (ep.reqs i).type = .unused := by
      rw [kept.reqs i] at unused
      exact unused
    have absent : i ∉ wc.posting.names := by
      intro member
      have typed := named.typed i member
      rw [type] at typed
      exact wc.posting.kind.reqType_ne_unused typed.symm
    simp only [Endpoint.settle, absent, if_false]
    exact accounted.idle i type other
  · intro other posting member
    have before : posting ∈ ep.waiting other := by
      rw [(moved other).mem_iff]
      split
      · exact List.mem_cons_of_mem _ member
      · exact member
    refine (accounted.named other posting before).kept (fun i _ => ?_)
    rw [kept.reqs i]
    exact ⟨rfl, rfl⟩
  · intro other wc' member
    refine accounted.succeeded other wc' ?_
    by_cases here : other = dev
    · subst here
      simp only [Endpoint.settle, setCq, Function.update_self] at member
      rw [head]
      exact List.mem_cons_of_mem _ member
    · simpa [Endpoint.settle, setCq, here] using member
  · intro i other waiting
    have base : (((ep.setCq dev rest).settle dev wc).reqs i).devBases other =
        (ep.reqs i).devBases other := by
      rw [kept.reqs i]
    have before : (ep.reqs i).events other ≠ 0 := by
      intro zero
      have nothing : ¬ (other = dev ∧ i ∈ wc.posting.names) := by
        rintro ⟨rfl, member⟩
        have positive := waits i member
        omega
      apply waiting
      by_cases member : i ∈ wc.posting.names
      · have away : other ≠ dev := fun here => nothing ⟨here, member⟩
        simpa [Endpoint.settle, setCq, member, NcclIbRequest.decrement, away] using zero
      · simpa [Endpoint.settle, setCq, member] using zero
    rw [base]
    exact accounted.based i other before

/-! ## Testing -/

theorem Accounted.testable (owed : ReqId → Dev → Nat) : Testable (Accounted owed) where
  healthy := fun _ accounted => accounted.healthy
  based := fun _ i dev accounted waits => accounted.based i dev waits
  settled := fun _ _ _ _ accounted head => ⟨_, accounted.settle head⟩

theorem Settles.kept {owed : ReqId → Dev → Nat} {ep after : Endpoint} (settles : Settles ep after)
    (accounted : Accounted owed ep) : Kept ep after := by
  induction settles with
  | nothing => exact Kept.refl _
  | @next ep middle after dev wc rest head handled later ih =>
    obtain ⟨settled, accountedMiddle⟩ := accounted.settle head
    have same : middle = (ep.setCq dev rest).settle dev wc := by
      rw [settled] at handled
      exact (congrArg Handled.ep handled).symm
    subst same
    exact (Kept.settle ep dev wc rest).trans (ih accountedMiddle)

/-- What settling the head of a queue keeps, a test keeps. -/
theorem Settles.keeps {owed : ReqId → Dev → Nat} {holds : Endpoint → Prop} {ep after : Endpoint}
    (settles : Settles ep after) (accounted : Accounted owed ep)
    (kept : ∀ ep dev wc rest, Accounted owed ep → ep.cqs dev = wc :: rest → holds ep →
      holds ((ep.setCq dev rest).settle dev wc)) (held : holds ep) : holds after := by
  induction settles with
  | nothing => exact held
  | @next ep middle after dev wc rest head handled later ih =>
    obtain ⟨settled, accountedMiddle⟩ := accounted.settle head
    have same : middle = (ep.setCq dev rest).settle dev wc := by
      rw [settled] at handled
      exact (congrArg Handled.ep handled).symm
    subst same
    exact ih accountedMiddle (kept ep dev wc rest accounted head held)

/-- A finished request is named by nothing and owed nothing. -/
theorem Accounted.finished_iff {owed : ReqId → Dev → Nat} {ep : Endpoint}
    (accounted : Accounted owed ep) (i : ReqId) :
    ep.Finished i ↔ ∀ dev, ep.outstanding i dev = 0 ∧ owed i dev = 0 := by
  have zero := accounted.counted i 0
  have one := accounted.counted i 1
  simp only [Finished, Fin.forall_fin_two]
  omega

/-- Freeing a finished request keeps the count. -/
theorem Accounted.free {owed : ReqId → Dev → Nat} {ep : Endpoint} (accounted : Accounted owed ep)
    {i : ReqId} (finished : ep.Finished i) : Accounted owed (ep.ncclIbFreeRequest i) := by
  have unnamed (dev : Dev) : ∀ posting ∈ ep.waiting dev, i ∉ posting.names := by
    intro posting member named
    have nothing := ((accounted.finished_iff i).mp finished dev).1
    have counted : 0 < ep.outstanding i dev :=
      List.countP_pos_iff.mpr ⟨posting, member, by simpa using named⟩
    omega
  have others {j : ReqId} (different : j ≠ i) :
      (ep.ncclIbFreeRequest i).reqs j = ep.reqs j := by
    simp [ncclIbFreeRequest, setReq, different]
  have freed : (ep.ncclIbFreeRequest i).reqs i = { ep.reqs i with type := .unused } := by
    simp [ncclIbFreeRequest, setReq]
  have events (j : ReqId) : ((ep.ncclIbFreeRequest i).reqs j).events = (ep.reqs j).events := by
    by_cases same : j = i
    · rw [same, freed]
    · rw [others same]
  have bases (j : ReqId) : ((ep.ncclIbFreeRequest i).reqs j).devBases = (ep.reqs j).devBases := by
    by_cases same : j = i
    · rw [same, freed]
    · rw [others same]
  refine ⟨?_, ?_, ?_, accounted.succeeded, ?_, accounted.healthy⟩
  · intro j dev
    rw [events j]
    exact accounted.counted j dev
  · intro j unused dev
    rw [events j]
    by_cases same : j = i
    · subst same
      have counted := accounted.counted j dev
      have nothing := (accounted.finished_iff j).mp finished dev
      rw [counted]
      omega
    · rw [others same] at unused
      exact accounted.idle j unused dev
  · intro dev posting member
    have named := accounted.named dev posting member
    have different : ∀ j ∈ posting.names, j ≠ i := by
      rintro j inside rfl
      exact unnamed dev posting member inside
    refine ⟨named.some, named.distinct, ?_, ?_, named.single⟩
    · intro j inside
      rw [others (different j inside)]
      exact named.typed j inside
    · intro isData j inside
      rw [others (different j inside)]
      exact named.grouped isData j inside
  · intro j dev waits
    rw [events j] at waits
    rw [bases j]
    exact accounted.based j dev waits

/-- A test of a request under the count: it returns success; it reports done exactly
when no posting that has not completed names the request and nothing is owed to it;
and it leaves the count right. -/
theorem Accounted.test {owed : ReqId → Dev → Nat} {ep : Endpoint} (accounted : Accounted owed ep)
    (asyncEvents : Bool) (i : ReqId) :
    ∃ done sizes settled, Settles ep settled ∧ Accounted owed settled ∧
      ep.ncclIbTest asyncEvents i = .returned .ncclSuccess done sizes
        (if done then settled.ncclIbFreeRequest i else settled) ∧
      (done = true → settled.Finished i ∧ sizes = settled.reportedSizes i) ∧
      (done = false → sizes = []) ∧
      (done = true ↔ (∀ posting ∈ ep.posted, i ∉ posting.names) ∧ ∀ dev, owed i dev = 0) := by
  obtain ⟨done, sizes, settled, settles, accountedAfter, result, facts⟩ :=
    ncclIbTest_settles asyncEvents (Accounted.testable owed) accounted i
  have posted := (settles.kept accounted).posted
  refine ⟨done, sizes, settled, settles, accountedAfter, result, ?_, ?_, ?_⟩
  · intro isDone
    rw [isDone, if_pos rfl] at facts
    exact facts
  · intro notDone
    rw [notDone] at facts
    exact facts.1
  · cases done with
    | true =>
      obtain ⟨finished, _⟩ := facts
      have nothing := (accountedAfter.finished_iff i).mp finished
      refine ⟨fun _ => ⟨?_, fun dev => (nothing dev).2⟩, fun _ => rfl⟩
      intro posting member named
      have inWaiting : posting ∈ settled.waiting posting.dev := by
        refine List.mem_append_left _ (List.mem_filter.mpr ⟨posted ▸ member, by simp⟩)
      have counted : 0 < settled.outstanding i posting.dev :=
        List.countP_pos_iff.mpr ⟨posting, inWaiting, by simpa using named⟩
      have none := (nothing posting.dev).1
      omega
    | false =>
      obtain ⟨_, dev, waits, empty⟩ := facts
      refine ⟨fun isDone => absurd isDone Bool.false_ne_true, ?_⟩
      rintro ⟨unnamed, free⟩
      exfalso
      apply waits
      rw [accountedAfter.counted i dev, free dev]
      have none : settled.outstanding i dev = 0 := by
        rw [outstanding, waiting, empty, posted]
        apply List.countP_eq_zero.mpr
        intro posting member
        have inPosted : posting ∈ ep.posted := by
          simp only [List.map_nil, List.append_nil] at member
          exact (List.mem_filter.mp member).1
        simpa using unnamed posting inPosted
      rw [none]
      rfl

/-! ## What was posted and not polled -/

/-- Every posting whose completion was not polled. -/
def unpolled (ep : Endpoint) : List Posting :=
  ep.posted ++ ((ep.cqs 0).map IbvWc.posting ++ (ep.cqs 1).map IbvWc.posting)

theorem mem_waiting_of_unpolled {ep : Endpoint} {posting : Posting}
    (member : posting ∈ ep.unpolled) : ∃ dev, posting ∈ ep.waiting dev := by
  rcases List.mem_append.mp member with isPosted | inQueue
  · refine ⟨posting.dev, List.mem_append_left _ ?_⟩
    exact List.mem_filter.mpr ⟨isPosted, by simp⟩
  · rcases List.mem_append.mp inQueue with first | second
    · exact ⟨0, List.mem_append_right _ first⟩
    · exact ⟨1, List.mem_append_right _ second⟩

theorem Accounted.unpolled {owed : ReqId → Dev → Nat} {ep : Endpoint}
    (accounted : Accounted owed ep) {posting : Posting} (member : posting ∈ ep.unpolled) :
    posting.Named ep.reqs := by
  obtain ⟨dev, waits⟩ := mem_waiting_of_unpolled member
  exact accounted.named dev posting waits

/-- Posting adds to what is not polled. -/
theorem post_unpolled {ep after : Endpoint} {postings : List Posting}
    (posted : after.posted = ep.posted ++ postings) (cqs : after.cqs = ep.cqs) :
    after.unpolled.Perm (ep.unpolled ++ postings) := by
  rw [Endpoint.unpolled, Endpoint.unpolled, posted, cqs, List.append_assoc, List.append_assoc]
  exact List.Perm.append_left _ List.perm_append_comm

/-- A completion leaves what is not polled as it is, up to the order. -/
theorem complete_unpolled {ep after : Endpoint} {position : Nat} {immData : UInt32}
    (completed : ep.complete position immData = some after) :
    after.unpolled.Perm ep.unpolled := by
  obtain ⟨posting, placed, rfl⟩ := Option.map_eq_some_iff.mp completed
  obtain ⟨inside, isPosting⟩ := List.getElem?_eq_some_iff.mp placed
  have whole : ep.posted.Perm (posting :: ep.posted.eraseIdx position) := by
    rw [← isPosting]
    exact (List.getElem_cons_eraseIdx_perm inside).symm
  refine List.Perm.trans ?_ (List.Perm.append_right _ whole.symm)
  rcases Fin.exists_fin_two.mp ⟨posting.dev, rfl⟩ with here | here <;>
    simp only [unpolled, here, Function.update_self, ne_eq, Fin.reduceEq, not_false_eq_true,
      Function.update_of_ne, List.map_append, List.map_cons, List.map_nil]
  · rw [List.append_assoc, List.singleton_append, ← List.append_assoc]
    exact List.perm_middle.trans (by rw [List.append_assoc]; exact List.Perm.refl _)
  · rw [← List.append_assoc, ← List.append_assoc]
    refine (List.perm_append_singleton _ _).trans ?_
    rw [List.append_assoc, List.cons_append]

/-- Taking the head of a queue takes its posting out of what is not polled. -/
theorem setCq_unpolled {ep : Endpoint} {dev : Dev} {wc : IbvWc} {rest : List IbvWc}
    (head : ep.cqs dev = wc :: rest) :
    ep.unpolled.Perm (wc.posting :: (ep.setCq dev rest).unpolled) := by
  rcases Fin.exists_fin_two.mp ⟨dev, rfl⟩ with here | here
  · subst here
    simp only [unpolled, setCq, head, Function.update_self, ne_eq, Fin.reduceEq, not_false_eq_true,
      Function.update_of_ne, List.map_cons, List.cons_append]
    exact List.perm_middle
  · subst here
    simp only [unpolled, setCq, head, Function.update_self, ne_eq, Fin.reduceEq, not_false_eq_true,
      Function.update_of_ne, List.map_cons]
    rw [← List.append_assoc, ← List.append_assoc]
    exact List.perm_middle

end Endpoint

end NcclExts.Unet
