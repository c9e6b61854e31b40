import NcclExts.Unet.Comm

/-!
# Testing a request

A test polls the completion queues of the devices that the request still waits for,
four completions at a time, until the request waits for nothing or no completion is
there. Every completion polled on the way is settled for whatever request it names:
the sends of a message each lose one event, any other request loses its own, and a
receive of one message takes its size from the immediate.

What a test does to a comm is thus a sequence of completions, each taken from the head
of a queue and settled. An invariant that survives one such step survives a test.
-/

namespace NcclExts.Unet

open NcclExts.Foundation NcclExts.Ucommd

/-- What handling completions leaves behind. -/
structure Handled where
  result : NcclResult
  ep : Endpoint

/-- `events[i]--`. -/
def NcclIbRequest.decrement (req : NcclIbRequest) (dev : Dev) : NcclIbRequest :=
  { req with events := Function.update req.events dev (req.events dev - 1) }

namespace Endpoint

/-- The loop over the sends that a completion names, at the given bytes of its word. -/
def settleSends (wrId : Nat) (dev : Dev) : List Nat → Endpoint → Handled
  | [], ep => ⟨.ncclSuccess, ep⟩
  | j :: rest, ep =>
    let sendReq := ep.reqs (reqAt wrId j)
    if sendReq.events dev ≤ 0 then ⟨.ncclInternalError, ep⟩
    else settleSends wrId dev rest (ep.setReq (reqAt wrId j) (sendReq.decrement dev))

/-- Charge the bytes of a completed send to the counter of its peer, when there is a
bw stat. -/
def chargeCpl (ep : Endpoint) (peerRank size : Int32) : Endpoint :=
  { ep with bwStat := ep.bwStat.map (fun stat =>
      stat.add (toSizeT (unetBwCplBytesByRank peerRank)) (toSizeT size)) }

/-- `req->recv.sizes[0] = wc->imm_data`. -/
def writeSize (ep : Endpoint) (slot : Nat) (immData : UInt32) : Endpoint :=
  { ep with
    sizesFifo := Function.update ep.sizesFifo slot
      (Function.update (ep.sizesFifo slot) 0 immData.toInt32) }

/-- One polled completion in `ncclIbTest`. -/
def handleWc (dev : Dev) (wc : IbvWc) (ep : Endpoint) : Handled :=
  if wc.success = false then ⟨.ncclRemoteError, ep.countIb unetIbCplErrCount⟩
  else
    let i := reqAt wc.posting.wrId 0
    let ep := ep.countIb unetIbCplCount
    let req := ep.reqs i
    if req.type = .send then
      let settled := settleSends wc.posting.wrId dev (List.range req.nreqs) ep
      if settled.result ≠ .ncclSuccess then settled
      else
        let req := settled.ep.reqs i
        ⟨.ncclSuccess, settled.ep.chargeCpl req.peerRank req.size⟩
    else if wc.posting.kind.wcOpcode = .recvRdmaWithImm then
      if req.type ≠ .recv then ⟨.ncclInternalError, ep⟩
      else
        let ep := if req.nreqs = 1 then ep.writeSize req.sizes wc.immData else ep
        ⟨.ncclSuccess, ep.setReq i (req.decrement dev)⟩
    else ⟨.ncclSuccess, ep.setReq i (req.decrement dev)⟩

/-- The polled completions in order, up to the first error. -/
def handleWcs (dev : Dev) : List IbvWc → Endpoint → Handled
  | [], ep => ⟨.ncclSuccess, ep⟩
  | wc :: rest, ep =>
    let handled := ep.handleWc dev wc
    if handled.result ≠ .ncclSuccess then handled else handleWcs dev rest handled.ep

/-- Replace the completions of one queue. -/
def setCq (ep : Endpoint) (dev : Dev) (wcs : List IbvWc) : Endpoint :=
  { ep with cqs := Function.update ep.cqs dev wcs }

/-- What polling one device for a request leaves behind, with the number of
completions found. -/
structure Polled where
  result : NcclResult
  wrDone : Nat
  ep : Endpoint

/-- The body of the loop over the devices; `none` when the request waits for a device
it has no pointer to. -/
def pollDev (asyncEvents : Bool) (ep : Endpoint) (i : ReqId) (dev : Dev) : Option Polled :=
  if (ep.reqs i).events dev = 0 then some ⟨.ncclSuccess, 0, ep⟩
  else
    ((ep.reqs i).devBases dev).map fun base =>
      let wcs := (ep.cqs base).take 4
      let ep := ep.setCq base ((ep.cqs base).drop 4)
      if wcs = [] then ⟨.ncclSuccess, 0, ep⟩
      else
        let handled := ep.handleWcs dev wcs
        if handled.result ≠ .ncclSuccess then ⟨handled.result, wcs.length, handled.ep⟩
        else
          ⟨ncclIbStatsCheckFatalCount asyncEvents (handled.ep.devFatalErrorCount base), wcs.length,
            handled.ep⟩

/-- The outcomes of a test. A test that ran out of fuel did not return, and one that
faulted followed a null pointer. -/
inductive TestOutcome where
  | returned (result : NcclResult) (done : Bool) (sizes : List Int32) (ep : Endpoint)
  | faulted
  | outOfFuel

/-- What a test of a finished request stores through `sizes`. -/
def reportedSizes (ep : Endpoint) (i : ReqId) : List Int32 :=
  match (ep.reqs i).type with
  | .recv => (List.range (ep.reqs i).nreqs).map (ep.sizesFifo (ep.reqs i).sizes)
  | .send => [(ep.reqs i).size]
  | _ => []

/-- The request waits for nothing. -/
def Finished (ep : Endpoint) (i : ReqId) : Prop :=
  (ep.reqs i).events 0 = 0 ∧ (ep.reqs i).events 1 = 0

instance (ep : Endpoint) (i : ReqId) : Decidable (ep.Finished i) :=
  inferInstanceAs (Decidable (_ ∧ _))

/-- The loop of `ncclIbTest`. -/
def testLoop (asyncEvents : Bool) (i : ReqId) : Nat → Endpoint → TestOutcome
  | 0, _ => .outOfFuel
  | fuel + 1, ep =>
    let checked := ncclIbStatsCheckFatalCount asyncEvents ep.fatalErrorCount
    if checked ≠ .ncclSuccess then .returned checked false [] ep
    else if ep.Finished i then
      .returned .ncclSuccess true (ep.reportedSizes i) (ep.ncclIbFreeRequest i)
    else
      match ep.pollDev asyncEvents i 0 with
      | none => .faulted
      | some first =>
        if first.result ≠ .ncclSuccess then .returned first.result false [] first.ep
        else
          match first.ep.pollDev asyncEvents i 1 with
          | none => .faulted
          | some second =>
            if second.result ≠ .ncclSuccess then .returned second.result false [] second.ep
            else if first.wrDone + second.wrDone = 0 then
              .returned .ncclSuccess false [] second.ep
            else testLoop asyncEvents i fuel second.ep

/-- Completions on the two queues. -/
def pending (ep : Endpoint) : Nat := (ep.cqs 0).length + (ep.cqs 1).length

/-- `ncclIbTest`. Every round but the last takes a completion off a queue, so there
are at most one more rounds than completions. -/
def ncclIbTest (asyncEvents : Bool) (ep : Endpoint) (i : ReqId) : TestOutcome :=
  testLoop asyncEvents i (ep.pending + 1) ep

/-! ## Handling a completion -/

/-- Distinct sends that all wait for the device each lose one event. -/
theorem settleSends_success {wrId : Nat} {dev : Dev} {js : List Nat} {ep : Endpoint}
    (distinct : (js.map (reqAt wrId)).Nodup)
    (waiting : ∀ i ∈ js.map (reqAt wrId), 0 < (ep.reqs i).events dev) :
    settleSends wrId dev js ep = ⟨.ncclSuccess, { ep with
      reqs := fun i =>
        if i ∈ js.map (reqAt wrId) then (ep.reqs i).decrement dev else ep.reqs i }⟩ := by
  induction js generalizing ep with
  | nil => rfl
  | cons j rest ih =>
    obtain ⟨absent, restDistinct⟩ := List.nodup_cons.mp distinct
    have positive := waiting (reqAt wrId j) List.mem_cons_self
    have restWaiting : ∀ i ∈ rest.map (reqAt wrId),
        0 < ((ep.setReq (reqAt wrId j) ((ep.reqs (reqAt wrId j)).decrement dev)).reqs i).events
          dev := by
      intro i member
      have other : i ≠ reqAt wrId j := fun same => absent (same ▸ member)
      simp only [setReq, Function.update_of_ne other]
      exact waiting i (List.mem_cons_of_mem _ member)
    simp only [settleSends, Int.not_le.mpr positive, if_false, ih restDistinct restWaiting]
    congr 2
    funext i
    by_cases first : i = reqAt wrId j
    · subst first
      simp [setReq, absent]
    · simp [setReq, first]

theorem settleSends_setCq (wrId : Nat) (dev base : Dev) (wcs : List IbvWc) (js : List Nat)
    (ep : Endpoint) :
    settleSends wrId dev js (ep.setCq base wcs) =
      ⟨(settleSends wrId dev js ep).result, (settleSends wrId dev js ep).ep.setCq base wcs⟩ := by
  induction js generalizing ep with
  | nil => rfl
  | cons j rest ih =>
    simp only [settleSends]
    by_cases positive : (ep.reqs (reqAt wrId j)).events dev ≤ 0
    · have same : ((ep.setCq base wcs).reqs (reqAt wrId j)).events dev ≤ 0 := positive
      rw [if_pos positive, if_pos same]
    · have same : ¬ ((ep.setCq base wcs).reqs (reqAt wrId j)).events dev ≤ 0 := positive
      rw [if_neg positive, if_neg same]
      exact ih (ep.setReq (reqAt wrId j) ((ep.reqs (reqAt wrId j)).decrement dev))

/-- Handling a completion neither reads nor changes the queues. -/
theorem handleWc_setCq (ep : Endpoint) (dev base : Dev) (wc : IbvWc) (wcs : List IbvWc) :
    (ep.setCq base wcs).handleWc dev wc =
      ⟨(ep.handleWc dev wc).result, (ep.handleWc dev wc).ep.setCq base wcs⟩ := by
  have counted (counter : UInt64) :
      (ep.setCq base wcs).countIb counter = (ep.countIb counter).setCq base wcs := rfl
  have reqs (other : Endpoint) : (other.setCq base wcs).reqs = other.reqs := rfl
  simp only [handleWc, counted, settleSends_setCq, reqs]
  cases wc.success with
  | false => rfl
  | true =>
    simp only [Bool.true_eq_false, if_false]
    by_cases isSend : ((ep.countIb unetIbCplCount).reqs (reqAt wc.posting.wrId 0)).type = .send
    · simp only [if_pos isSend]
      split <;> rfl
    · simp only [if_neg isSend]
      by_cases withImm : wc.posting.kind.wcOpcode = .recvRdmaWithImm
      · simp only [if_pos withImm]
        split
        · rfl
        · split <;> rfl
      · simp only [if_neg withImm]
        rfl

theorem setCq_self (ep : Endpoint) (dev : Dev) : ep.setCq dev (ep.cqs dev) = ep := by
  simp [setCq]

theorem setCq_setCq (ep : Endpoint) (dev : Dev) (first second : List IbvWc) :
    (ep.setCq dev first).setCq dev second = ep.setCq dev second := by
  simp [setCq]

theorem handleWc_cqs (ep : Endpoint) (dev : Dev) (wc : IbvWc) :
    (ep.handleWc dev wc).ep.cqs = ep.cqs := by
  funext base
  have same := handleWc_setCq ep dev base wc (ep.cqs base)
  rw [setCq_self] at same
  have queue := congrArg (fun handled : Handled => handled.ep.cqs base) same
  simpa [setCq] using queue

/-! ## A test as a sequence of settled completions -/

/-- Completions taken from the heads of the queues and settled, one after the other. -/
inductive Settles : Endpoint → Endpoint → Prop
  | nothing (ep : Endpoint) : Settles ep ep
  | next {ep middle after : Endpoint} {dev : Dev} {wc : IbvWc} {rest : List IbvWc}
      (head : ep.cqs dev = wc :: rest)
      (handled : (ep.setCq dev rest).handleWc dev wc = ⟨.ncclSuccess, middle⟩)
      (later : Settles middle after) : Settles ep after

theorem Settles.trans {first second third : Endpoint} (sooner : Settles first second)
    (later : Settles second third) : Settles first third := by
  induction sooner with
  | nothing => exact later
  | next head handled _ ih => exact .next head handled (ih later)

/-- What a test needs of an invariant: no fatal event, a pointer to every device that
is waited for, and that settling the head of a queue succeeds and keeps it. -/
structure Testable (holds : Endpoint → Prop) : Prop where
  healthy : ∀ ep, holds ep → ep.fatalErrorCount = 0 ∧ ∀ dev, ep.devFatalErrorCount dev = 0
  based : ∀ ep i dev, holds ep → (ep.reqs i).events dev ≠ 0 →
    (ep.reqs i).devBases dev = some dev
  settled : ∀ ep dev wc rest, holds ep → ep.cqs dev = wc :: rest →
    ∃ after, (ep.setCq dev rest).handleWc dev wc = ⟨.ncclSuccess, after⟩ ∧ holds after

variable {holds : Endpoint → Prop}

/-- Handling polled completions one by one settles them one by one. -/
theorem handleWcs_settles (testable : Testable holds) {ep : Endpoint} {dev : Dev}
    {wcs rest : List IbvWc} (held : holds ep) (queue : ep.cqs dev = wcs ++ rest) :
    ∃ after, (ep.setCq dev rest).handleWcs dev wcs = ⟨.ncclSuccess, after⟩ ∧
      Settles ep after ∧ holds after ∧ after.cqs = Function.update ep.cqs dev rest := by
  induction wcs generalizing ep with
  | nil =>
    have same : ep.setCq dev rest = ep := by
      rw [← List.nil_append rest, ← queue, setCq_self]
    refine ⟨ep, by rw [same]; rfl, .nothing ep, held, ?_⟩
    exact (congrArg Endpoint.cqs same).symm
  | cons wc more ih =>
    obtain ⟨middle, handled, heldMiddle⟩ := testable.settled ep dev wc (more ++ rest) held queue
    have queues : middle.cqs = Function.update ep.cqs dev (more ++ rest) := by
      have kept := handleWc_cqs (ep.setCq dev (more ++ rest)) dev wc
      rw [handled] at kept
      exact kept
    have sooner : (ep.setCq dev rest).handleWc dev wc = ⟨.ncclSuccess, middle.setCq dev rest⟩ := by
      rw [← setCq_setCq ep dev (more ++ rest) rest, handleWc_setCq, handled]
    obtain ⟨after, remaining, settles, heldAfter, left⟩ :=
      ih heldMiddle (by rw [queues, Function.update_self])
    refine ⟨after, ?_, .next queue handled settles, heldAfter, ?_⟩
    · simp only [handleWcs, sooner, ne_eq, not_true_eq_false, if_false]
      exact remaining
    · rw [left, queues, Function.update_idem]

/-- Polling a device takes completions off its queue, and finds none only where the
request waits for none or the queue is empty. -/
theorem pollDev_settles (asyncEvents : Bool) (testable : Testable holds) {ep : Endpoint}
    (held : holds ep) (i : ReqId) (dev : Dev) :
    ∃ wrDone after, ep.pollDev asyncEvents i dev = some ⟨.ncclSuccess, wrDone, after⟩ ∧
      Settles ep after ∧ holds after ∧ after.pending + wrDone = ep.pending ∧
      (wrDone = 0 → after = ep ∧ ((ep.reqs i).events dev ≠ 0 → ep.cqs dev = [])) := by
  by_cases waits : (ep.reqs i).events dev = 0
  · exact ⟨0, ep, by simp [pollDev, waits], .nothing ep, held, rfl,
      fun _ => ⟨rfl, fun waiting => absurd waits waiting⟩⟩
  · have base := testable.based ep i dev held waits
    by_cases empty : ep.cqs dev = []
    · refine ⟨0, ep, ?_, .nothing ep, held, rfl, fun _ => ⟨rfl, fun _ => empty⟩⟩
      have same : ep.setCq dev [] = ep := by
        rw [← empty, setCq_self]
      simp only [pollDev, waits, if_false, base, Option.map_some, empty, List.take_nil,
        List.drop_nil, same, if_true]
    · have queue : ep.cqs dev = (ep.cqs dev).take 4 ++ (ep.cqs dev).drop 4 :=
        (List.take_append_drop 4 _).symm
      have some : (ep.cqs dev).take 4 ≠ [] := by
        simpa [List.take_eq_nil_iff] using empty
      obtain ⟨after, handled, settles, heldAfter, left⟩ :=
        handleWcs_settles testable held queue
      have healthy := (testable.healthy after heldAfter).2 dev
      refine ⟨((ep.cqs dev).take 4).length, after, ?_, settles, heldAfter, ?_, ?_⟩
      · simp only [pollDev, waits, if_false, base, Option.map_some, some, handled, ne_eq,
          not_true_eq_false, healthy, ncclIbStatsCheckFatalCount, and_false]
      · have total := congrArg List.length queue
        rw [List.length_append] at total
        unfold pending
        rw [left]
        rcases Fin.exists_fin_two.mp ⟨dev, rfl⟩ with rfl | rfl
        all_goals simp only [Function.update_self, ne_eq, Fin.reduceEq, not_false_eq_true,
          Function.update_of_ne]
        all_goals omega
      · intro none
        exact absurd (List.length_eq_zero_iff.mp none) some

/-- A test under such an invariant returns success. It settles completions; then it
either finds the request finished, reports its sizes and frees it, or leaves it
waiting for a device whose queue is empty. -/
theorem ncclIbTest_settles (asyncEvents : Bool) (testable : Testable holds) {ep : Endpoint}
    (held : holds ep) (i : ReqId) :
    ∃ done sizes settled, Settles ep settled ∧ holds settled ∧
      ep.ncclIbTest asyncEvents i = .returned .ncclSuccess done sizes
        (if done then settled.ncclIbFreeRequest i else settled) ∧
      (if done then settled.Finished i ∧ sizes = settled.reportedSizes i
        else sizes = [] ∧ ∃ dev, (settled.reqs i).events dev ≠ 0 ∧ settled.cqs dev = []) := by
  suffices loop : ∀ fuel (ep : Endpoint), holds ep → ep.pending < fuel →
      ∃ done sizes settled, Settles ep settled ∧ holds settled ∧
        testLoop asyncEvents i fuel ep = .returned .ncclSuccess done sizes
          (if done then settled.ncclIbFreeRequest i else settled) ∧
        (if done then settled.Finished i ∧ sizes = settled.reportedSizes i
          else sizes = [] ∧ ∃ dev, (settled.reqs i).events dev ≠ 0 ∧ settled.cqs dev = []) from
    loop (ep.pending + 1) ep held (Nat.lt_succ_self _)
  intro fuel
  induction fuel with
  | zero =>
    intro ep _ enough
    omega
  | succ fuel ih =>
    intro ep held enough
    have healthy := (testable.healthy ep held).1
    simp only [testLoop, ncclIbStatsCheckFatalCount, healthy, ne_eq, not_true_eq_false, and_false,
      if_false]
    by_cases finished : ep.Finished i
    · exact ⟨true, ep.reportedSizes i, ep, .nothing ep, held, by simp [finished],
        ⟨finished, rfl⟩⟩
    · obtain ⟨firstDone, middle, first, settlesFirst, heldMiddle, pendingFirst, nothingFirst⟩ :=
        pollDev_settles asyncEvents testable held i 0
      obtain ⟨secondDone, after, second, settlesSecond, heldAfter, pendingSecond, nothingSecond⟩ :=
        pollDev_settles asyncEvents testable heldMiddle i 1
      have settles := settlesFirst.trans settlesSecond
      simp only [finished, if_false, first, second, not_true_eq_false]
      by_cases nothing : firstDone + secondDone = 0
      · obtain ⟨rfl, emptyFirst⟩ := nothingFirst (by omega)
        obtain ⟨rfl, emptySecond⟩ := nothingSecond (by omega)
        refine ⟨false, [], after, settles, heldAfter, by simp [nothing], ?_⟩
        simp only [Bool.false_eq_true, if_false, true_and]
        by_cases waits : (after.reqs i).events 0 = 0
        · have other : (after.reqs i).events 1 ≠ 0 := fun zero => finished ⟨waits, zero⟩
          exact ⟨1, other, emptySecond other⟩
        · exact ⟨0, waits, emptyFirst waits⟩
      · obtain ⟨done, sizes, settled, settlesRest, heldSettled, result, facts⟩ :=
          ih after heldAfter (by omega)
        exact ⟨done, sizes, settled, settles.trans settlesRest, heldSettled,
          by rw [if_neg nothing]; exact result, facts⟩

end Endpoint

end NcclExts.Unet
