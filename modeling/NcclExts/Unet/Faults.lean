import NcclExts.Unet.Accounting

/-!
# Fatal events and failed completions

The async thread of a device reads its events and counts the fatal ones: an event of
the device with the device, and an event of a completion queue or a queue pair with the
comm it belongs to. Work that fails completes with an error; a test that polls such a
completion returns an error and forgets whatever it polled behind it.

To the count of completions a failure is a completion that never comes. An endpoint is
healed by taking the failed completions off its queues and putting the postings that
were lost back among the outstanding ones, so that whatever holds of every endpoint
without failures holds of the healed one.
-/

namespace NcclExts.Unet

open NcclExts.Foundation NcclExts.Ucommd

/-- The types of `ibv_async_event` that the async thread tells apart. -/
inductive IbvEventType where
  | deviceFatal
  | cqErr
  | qpFatal
  | qpReqErr
  | qpAccessErr
  | srqErr
  | pathMigErr
  | portErr
  | pathMig
  | portActive
  | sqDrained
  | lidChange
  | pkeyChange
  | smChange
  | qpLastWqeReached
  | clientReregister
  | srqLimitReached
  | commEst
  | unknown
deriving DecidableEq, Repr

/-- `struct ibv_async_event`, read by the thread of a device of the comm. The completion
queue or queue pair it names is the comm's own, or one of another comm. -/
structure IbvAsyncEvent where
  type : IbvEventType
  dev : Dev
  own : Bool
deriving DecidableEq, Repr

namespace Endpoint

/-! ## The async thread -/

/-- `ncclIbStatsFatalError`, which adds one to an `int`. -/
def ncclIbStatsFatalError (fatalErrorCount : Nat) : Nat := (fatalErrorCount + 1) % 2 ^ 32

/-- The fatal error of a completion queue or queue pair, whose context is the stats of
the comm that created it. -/
def contextFatalError (ep : Endpoint) (own : Bool) : Endpoint :=
  if own then { ep with fatalErrorCount := ncclIbStatsFatalError ep.fatalErrorCount } else ep

def ncclIbQpFatalError (ep : Endpoint) (own : Bool) : Endpoint := ep.contextFatalError own

def ncclIbCqFatalError (ep : Endpoint) (own : Bool) : Endpoint := ep.contextFatalError own

def ncclIbDevFatalError (ep : Endpoint) (dev : Dev) : Endpoint :=
  { ep with
    devFatalErrorCount := Function.update ep.devFatalErrorCount dev
      (ncclIbStatsFatalError (ep.devFatalErrorCount dev)) }

/-- One round of `ncclIbAsyncThreadMain`. -/
def ncclIbAsyncThreadMain (ep : Endpoint) (event : IbvAsyncEvent) : Endpoint :=
  match event.type with
  | .deviceFatal => ep.ncclIbDevFatalError event.dev
  | .cqErr => ep.ncclIbCqFatalError event.own
  | .qpFatal | .qpReqErr | .qpAccessErr => ep.ncclIbQpFatalError event.own
  | .srqErr => ep
  | .pathMigErr | .portErr | .pathMig | .portActive | .sqDrained | .lidChange | .pkeyChange
  | .smChange | .qpLastWqeReached | .clientReregister | .srqLimitReached => ep
  | .commEst => ep
  | .unknown => ep

/-! ## Failed completions -/

/-- The posting at a position completes with an error. -/
def fail (ep : Endpoint) (position : Nat) : Option Endpoint :=
  ep.posted[position]?.map fun posting =>
    { ep with
      posted := ep.posted.eraseIdx position
      cqs := Function.update ep.cqs posting.dev
        (ep.cqs posting.dev ++ [⟨posting, false, 0⟩]) }

/-- Work that asked for no completion completes with an error: further work of a posting
in the history. -/
def failUnsignaled (ep : Endpoint) (position : Nat) : Option Endpoint :=
  ep.log[position]?.map fun posting =>
    { ep with
      cqs := Function.update ep.cqs posting.dev
        (ep.cqs posting.dev ++ [⟨posting, false, 0⟩]) }

/-- Every completion is on the queue of the device it was posted on. -/
def Placed (ep : Endpoint) : Prop := ∀ dev, ∀ wc ∈ ep.cqs dev, wc.posting.dev = dev

/-- A completion is put at the end of the queue of its device. -/
theorem Placed.push {ep : Endpoint} (placed : ep.Placed) (wc : IbvWc) (dev : Dev) :
    ∀ other ∈ Function.update ep.cqs wc.posting.dev (ep.cqs wc.posting.dev ++ [wc]) dev,
      other.posting.dev = dev := by
  intro other member
  by_cases here : dev = wc.posting.dev
  · subst here
    rw [Function.update_self] at member
    rcases List.mem_append.mp member with before | new
    · exact placed _ other before
    · rw [List.mem_singleton.mp new]
  · rw [Function.update_of_ne here] at member
    exact placed dev other member

/-- The endpoint as it would be if what failed and what was lost were still outstanding,
nothing fatal had happened, and nobody collected stats. -/
def healed (ep : Endpoint) (lost : List Posting) : Endpoint :=
  { ep with
    fatalErrorCount := 0
    devFatalErrorCount := fun _ => 0
    posted := lost ++ ep.posted
    cqs := fun dev => (ep.cqs dev).filter IbvWc.success
    ibStat := none
    bwStat := none }

/-- The async thread writes fatal counts only. -/
theorem ncclIbAsyncThreadMain_rest (ep : Endpoint) (event : IbvAsyncEvent) :
    ep.ncclIbAsyncThreadMain event = { ep with
      fatalErrorCount := (ep.ncclIbAsyncThreadMain event).fatalErrorCount
      devFatalErrorCount := (ep.ncclIbAsyncThreadMain event).devFatalErrorCount } := by
  have context (own : Bool) : ep.contextFatalError own = { ep with
      fatalErrorCount := (ep.contextFatalError own).fatalErrorCount
      devFatalErrorCount := (ep.contextFatalError own).devFatalErrorCount } := by
    unfold contextFatalError
    split <;> rfl
  unfold ncclIbAsyncThreadMain
  split <;> first | exact context event.own | rfl

theorem ncclIbAsyncThreadMain_healed (ep : Endpoint) (event : IbvAsyncEvent)
    (lost : List Posting) : (ep.ncclIbAsyncThreadMain event).healed lost = ep.healed lost := by
  rw [ncclIbAsyncThreadMain_rest]
  rfl

/-- A failed completion is not on a healed queue. -/
theorem failed_filter (ep : Endpoint) (posting : Posting) :
    (fun dev => (Function.update ep.cqs posting.dev
      (ep.cqs posting.dev ++ [⟨posting, false, 0⟩]) dev).filter IbvWc.success) =
      fun dev => (ep.cqs dev).filter IbvWc.success := by
  funext dev
  by_cases here : dev = posting.dev
  · subst here
    simp
  · simp [here]

theorem setCq_healed (ep : Endpoint) (dev : Dev) (wcs : List IbvWc) (lost : List Posting) :
    (ep.setCq dev wcs).healed lost = (ep.healed lost).setCq dev (wcs.filter IbvWc.success) := by
  have queues : (fun other => (Function.update ep.cqs dev wcs other).filter IbvWc.success) =
      Function.update (fun other => (ep.cqs other).filter IbvWc.success) dev
        (wcs.filter IbvWc.success) := by
    funext other
    by_cases here : other = dev
    · subst here
      simp
    · simp [here]
  simp only [healed, setCq, queues]

theorem healed_head (ep : Endpoint) (dev : Dev) {wc : IbvWc} (success : wc.success = true)
    (rest : List IbvWc) (lost : List Posting) :
    ((ep.setCq dev (wc :: rest)).healed lost).cqs dev = wc :: rest.filter IbvWc.success := by
  rw [setCq_healed]
  simp [setCq, success]

theorem settleSends_healed (wrId : Nat) (dev : Dev) (js : List Nat) (ep : Endpoint)
    (lost : List Posting) :
    settleSends wrId dev js (ep.healed lost) =
      ⟨(settleSends wrId dev js ep).result, (settleSends wrId dev js ep).ep.healed lost⟩ := by
  induction js generalizing ep with
  | nil => rfl
  | cons j rest ih =>
    have reqs : (ep.healed lost).reqs = ep.reqs := rfl
    simp only [settleSends, reqs]
    by_cases positive : (ep.reqs (reqAt wrId j)).events dev ≤ 0
    · simp only [if_pos positive]
    · simp only [if_neg positive]
      exact ih (ep.setReq (reqAt wrId j) ((ep.reqs (reqAt wrId j)).decrement dev))

/-- A successful completion does to the healed endpoint what it does to the endpoint. -/
theorem handleWc_healed (ep : Endpoint) (dev : Dev) {wc : IbvWc} (success : wc.success = true)
    (lost : List Posting) :
    (ep.healed lost).handleWc dev wc =
      ⟨(ep.handleWc dev wc).result, (ep.handleWc dev wc).ep.healed lost⟩ := by
  have counted : (ep.healed lost).countIb unetIbCplCount =
      (ep.countIb unetIbCplCount).healed lost := rfl
  have reqs (other : Endpoint) : (other.healed lost).reqs = other.reqs := rfl
  simp only [handleWc, success, Bool.true_eq_false, if_false, counted, settleSends_healed, reqs]
  by_cases isSend : ((ep.countIb unetIbCplCount).reqs (reqAt wc.posting.wrId 0)).type = .send
  · simp only [if_pos isSend]
    split <;> rfl
  · simp only [if_neg isSend]
    by_cases withImm : wc.posting.kind.wcOpcode = .recvRdmaWithImm
    · simp only [if_pos withImm]
      split
      · rfl
      · split <;> rfl
    · simp only [if_neg withImm]
      rfl

/-! ## Losing completions -/

/-- The order of what is posted does not matter to the count. -/
theorem Accounted.shuffled {owed : ReqId → Dev → Nat} {ep : Endpoint}
    (accounted : Accounted owed ep) {posted : List Posting} (moved : posted.Perm ep.posted) :
    Accounted owed { ep with posted := posted } := by
  have waiting (dev : Dev) : (waiting { ep with posted := posted } dev).Perm (ep.waiting dev) :=
    (moved.filter _).append_right _
  refine ⟨?_, accounted.idle, ?_, accounted.succeeded, accounted.based, accounted.healthy⟩
  · intro i dev
    have counted := accounted.counted i dev
    rw [outstanding, ← (waiting dev).countP_eq] at counted
    exact counted
  · intro dev posting member
    exact accounted.named dev posting ((waiting dev).mem_iff.mp member)

/-- The head of a queue is lost: its posting is outstanding again. -/
def drop (ep : Endpoint) (dev : Dev) (posting : Posting) (rest : List IbvWc) : Endpoint :=
  { ep.setCq dev rest with posted := posting :: ep.posted }

/-- Losing the head of a queue keeps the count. -/
theorem Accounted.dropped {owed : ReqId → Dev → Nat} {ep : Endpoint}
    (accounted : Accounted owed ep) {dev : Dev} {wc : IbvWc} {rest : List IbvWc}
    (head : ep.cqs dev = wc :: rest) (here : wc.posting.dev = dev) :
    Accounted owed (ep.drop dev wc.posting rest) := by
  have waiting (other : Dev) : ((ep.drop dev wc.posting rest).waiting other).Perm
      (ep.waiting other) := by
    refine List.Perm.trans ?_ (setCq_waiting head other).symm
    by_cases same : other = dev
    · subst same
      simp [Endpoint.waiting, drop, setCq, here]
    · have away : ¬ wc.posting.dev = other := fun eq => same (eq.symm.trans here)
      simp [Endpoint.waiting, drop, setCq, away, same]
  refine ⟨?_, accounted.idle, ?_, ?_, accounted.based, accounted.healthy⟩
  · intro i other
    have counted := accounted.counted i other
    rw [outstanding, ← (waiting other).countP_eq] at counted
    exact counted
  · intro other posting member
    exact accounted.named other posting ((waiting other).mem_iff.mp member)
  · intro other kept member
    refine accounted.succeeded other kept ?_
    by_cases same : other = dev
    · subst same
      simp only [drop, setCq, Function.update_self] at member
      rw [head]
      exact List.mem_cons_of_mem _ member
    · simpa [drop, setCq, same] using member

/-- What an invariant needs to outlast failures: it counts completions, and it outlasts
that a posting completes, that the head of a queue is settled or lost, and that what is
outstanding is put in another order. -/
structure Resilient (holds : Endpoint → Prop) : Prop where
  accounted : ∀ ep, holds ep → ∃ owed, Accounted owed ep
  settled : ∀ ep dev wc rest, holds ep → ep.cqs dev = wc :: rest →
    holds ((ep.setCq dev rest).settle dev wc)
  dropped : ∀ ep dev wc rest, holds ep → ep.cqs dev = wc :: rest → wc.posting.dev = dev →
    holds (ep.drop dev wc.posting rest)
  shuffled : ∀ ep posted, holds ep → List.Perm posted ep.posted →
    holds { ep with posted := posted }
  completed : ∀ ep position immData after, holds ep →
    ep.complete position immData = some after → holds after

/-- The invariant holds of an endpoint once it is healed, and its completions are on the
queues they belong to. -/
structure Withstands (holds : Endpoint → Prop) (ep : Endpoint) : Prop where
  healed : ∃ lost, holds (ep.healed lost)
  placed : ep.Placed

variable {holds : Endpoint → Prop}

/-- Completions polled and forgotten are lost. -/
theorem Resilient.forget (resilient : Resilient holds) {ep : Endpoint} {dev : Dev}
    {wcs rest : List IbvWc} {lost : List Posting}
    (held : holds ((ep.setCq dev (wcs ++ rest)).healed lost))
    (placed : ∀ wc ∈ wcs, wc.posting.dev = dev) :
    ∃ lost, holds ((ep.setCq dev rest).healed lost) := by
  induction wcs generalizing lost with
  | nil => exact ⟨lost, held⟩
  | cons wc more ih =>
    have later := fun other member => placed other (List.mem_cons_of_mem wc member)
    cases success : wc.success with
    | false =>
      have same : (ep.setCq dev (wc :: more ++ rest)).healed lost =
          (ep.setCq dev (more ++ rest)).healed lost := by
        simp only [setCq_healed, List.cons_append, List.filter_cons, success, Bool.false_eq_true,
          if_false]
      rw [same] at held
      exact ih held later
    | true =>
      have head := healed_head ep dev success (more ++ rest) lost
      have dropped := resilient.dropped _ dev wc _ held head (placed wc List.mem_cons_self)
      have same : ((ep.setCq dev (wc :: more ++ rest)).healed lost).drop dev wc.posting
          ((more ++ rest).filter IbvWc.success) =
          (ep.setCq dev (more ++ rest)).healed (wc.posting :: lost) := by
        simp only [drop, setCq_healed, setCq_setCq]
        rfl
      rw [same] at dropped
      exact ih dropped later

/-- What polling a device leaves alone. -/
structure Spared (dev : Dev) (ep after : Endpoint) : Prop where
  fatalErrorCount : after.fatalErrorCount = ep.fatalErrorCount
  devFatalErrorCount : after.devFatalErrorCount = ep.devFatalErrorCount
  cqs : ∀ other, other ≠ dev → after.cqs other = ep.cqs other
  events : ∀ i other, other ≠ dev → (after.reqs i).events other = (ep.reqs i).events other

theorem Spared.refl (dev : Dev) (ep : Endpoint) : Spared dev ep ep :=
  ⟨rfl, rfl, fun _ _ => rfl, fun _ _ _ => rfl⟩

theorem Spared.trans {dev : Dev} {first second third : Endpoint}
    (sooner : Spared dev first second) (later : Spared dev second third) :
    Spared dev first third := by
  constructor
  · exact later.fatalErrorCount.trans sooner.fatalErrorCount
  · exact later.devFatalErrorCount.trans sooner.devFatalErrorCount
  · exact fun other away => (later.cqs other away).trans (sooner.cqs other away)
  · exact fun i other away => (later.events i other away).trans (sooner.events i other away)

theorem Spared.settle (dev : Dev) (wc : IbvWc) (ep : Endpoint) :
    Spared dev ep (ep.settle dev wc) := by
  refine ⟨rfl, rfl, fun _ _ => rfl, fun i other away => ?_⟩
  by_cases member : i ∈ wc.posting.names
  · simp [Endpoint.settle, member, NcclIbRequest.decrement, away]
  · simp [Endpoint.settle, member]

theorem Spared.setCq (dev : Dev) (wcs : List IbvWc) (ep : Endpoint) :
    Spared dev ep (ep.setCq dev wcs) :=
  ⟨rfl, rfl, fun other away => by simp [Endpoint.setCq, away], fun _ _ _ => rfl⟩

/-- A successful completion at the head of a queue is settled, whatever failed before. -/
theorem Resilient.head (resilient : Resilient holds) {ep : Endpoint} {dev : Dev} {wc : IbvWc}
    {rest : List IbvWc} {lost : List Posting} (success : wc.success = true)
    (held : holds ((ep.setCq dev (wc :: rest)).healed lost)) :
    (ep.setCq dev rest).handleWc dev wc =
        ⟨.ncclSuccess, (ep.setCq dev rest).settle dev wc⟩ ∧
      holds (((ep.setCq dev rest).settle dev wc).healed lost) := by
  have head := healed_head ep dev success rest lost
  obtain ⟨owed, accounted⟩ := resilient.accounted _ held
  obtain ⟨_, named, waits⟩ := accounted.head head
  have settled := resilient.settled _ dev wc _ held head
  refine ⟨handleWc_settle success named waits, ?_⟩
  have same : (((ep.setCq dev (wc :: rest)).healed lost).setCq dev
      (rest.filter IbvWc.success)).settle dev wc =
      ((ep.setCq dev rest).settle dev wc).healed lost := by
    have before : ((ep.setCq dev (wc :: rest)).healed lost).setCq dev
        (rest.filter IbvWc.success) = (ep.setCq dev rest).healed lost := by
      simp only [setCq_healed, setCq_setCq]
    have real : (ep.setCq dev rest).handleWc dev wc =
        ⟨.ncclSuccess, (ep.setCq dev rest).settle dev wc⟩ := handleWc_settle success named waits
    have ghost : ((ep.setCq dev rest).healed lost).handleWc dev wc =
        ⟨.ncclSuccess, ((ep.setCq dev rest).healed lost).settle dev wc⟩ :=
      handleWc_settle success named waits
    have done := handleWc_healed (ep.setCq dev rest) dev success lost
    rw [real] at done
    rw [before]
    exact congrArg Handled.ep (ghost.symm.trans done)
  rw [same] at settled
  exact settled

/-- Handling polled completions settles the successful ones before the first that
failed; the others are lost. -/
theorem Resilient.handleWcs (resilient : Resilient holds) {ep : Endpoint} {dev : Dev}
    {wcs rest : List IbvWc} {lost : List Posting}
    (held : holds ((ep.setCq dev (wcs ++ rest)).healed lost))
    (placed : ∀ wc ∈ wcs, wc.posting.dev = dev) :
    (∃ lost, holds (((ep.setCq dev rest).handleWcs dev wcs).ep.healed lost)) ∧
      Spared dev ep ((ep.setCq dev rest).handleWcs dev wcs).ep ∧
      ((ep.setCq dev rest).handleWcs dev wcs).ep.cqs dev = rest := by
  induction wcs generalizing ep lost with
  | nil =>
    refine ⟨⟨lost, held⟩, Spared.setCq dev rest ep, ?_⟩
    simp [Endpoint.handleWcs, setCq]
  | cons wc more ih =>
    cases success : wc.success with
    | false =>
      have failed : (ep.setCq dev rest).handleWc dev wc =
          ⟨.ncclRemoteError, (ep.setCq dev rest).countIb unetIbCplErrCount⟩ := by
        simp [handleWc, success]
      have same (lost : List Posting) : ((ep.setCq dev rest).countIb unetIbCplErrCount).healed
          lost = (ep.setCq dev rest).healed lost := rfl
      simp only [Endpoint.handleWcs, failed, ne_eq, reduceCtorEq, not_false_eq_true, if_true, same]
      refine ⟨resilient.forget held placed, ⟨rfl, rfl, ?_, fun _ _ _ => rfl⟩, ?_⟩
      · intro other away
        simp [countIb, setCq, away]
      · simp [countIb, setCq]
    | true =>
      have whole : holds ((ep.setCq dev (wc :: (more ++ rest))).healed lost) := held
      obtain ⟨handled, heldNext⟩ := resilient.head success whole
      have sooner : (ep.setCq dev rest).handleWc dev wc =
          ⟨.ncclSuccess, ((ep.setCq dev (more ++ rest)).settle dev wc).setCq dev rest⟩ := by
        rw [← setCq_setCq ep dev (more ++ rest) rest, handleWc_setCq, handled]
      have queue : ((ep.setCq dev (more ++ rest)).settle dev wc).cqs dev = more ++ rest := by
        simp [Endpoint.settle, setCq]
      have again : holds ((((ep.setCq dev (more ++ rest)).settle dev wc).setCq dev
          (more ++ rest)).healed lost) := by
        have same := setCq_self ((ep.setCq dev (more ++ rest)).settle dev wc) dev
        rw [queue] at same
        rw [same]
        exact heldNext
      obtain ⟨kept, spared, left⟩ :=
        ih again (fun other member => placed other (List.mem_cons_of_mem wc member))
      simp only [Endpoint.handleWcs, sooner, ne_eq, not_true_eq_false, if_false]
      refine ⟨kept, Spared.trans ?_ spared, left⟩
      exact (Spared.setCq dev (more ++ rest) ep).trans (Spared.settle dev wc _)

/-! ## Completions and faults -/

/-- A completion of the endpoint is one of the healed endpoint, behind what was lost. -/
theorem complete_healed {ep after : Endpoint} {position : Nat} {immData : UInt32}
    (completed : ep.complete position immData = some after) (lost : List Posting) :
    (ep.healed lost).complete (lost.length + position) immData = some (after.healed lost) := by
  obtain ⟨posting, placed, rfl⟩ := Option.map_eq_some_iff.mp completed
  have behind : (lost ++ ep.posted)[lost.length + position]? = some posting := by
    rw [List.getElem?_append_right (Nat.le_add_right _ _), Nat.add_sub_cancel_left, placed]
  have erased : (lost ++ ep.posted).eraseIdx (lost.length + position) =
      lost ++ ep.posted.eraseIdx position := by
    rw [List.eraseIdx_append_of_length_le (Nat.le_add_right _ _), Nat.add_sub_cancel_left]
  have queues : Function.update (fun dev => (ep.cqs dev).filter IbvWc.success) posting.dev
      ((ep.cqs posting.dev).filter IbvWc.success ++ [⟨posting, true, immData⟩]) =
      fun dev => (Function.update ep.cqs posting.dev
        (ep.cqs posting.dev ++ [⟨posting, true, immData⟩]) dev).filter IbvWc.success := by
    funext dev
    by_cases here : dev = posting.dev
    · subst here
      simp
    · simp [here]
  simp only [complete, healed, behind, erased, queues, Option.map_some]

theorem Withstands.complete (resilient : Resilient holds) {ep after : Endpoint}
    (withstands : Withstands holds ep) {position : Nat} {immData : UInt32}
    (completed : ep.complete position immData = some after) : Withstands holds after := by
  obtain ⟨⟨lost, held⟩, placed⟩ := withstands
  refine ⟨⟨lost, resilient.completed _ _ _ _ held (complete_healed completed lost)⟩, ?_⟩
  obtain ⟨posting, _, rfl⟩ := Option.map_eq_some_iff.mp completed
  exact placed.push ⟨posting, true, immData⟩

/-- A posting that completes with an error is lost. -/
theorem Withstands.fail (resilient : Resilient holds) {ep after : Endpoint}
    (withstands : Withstands holds ep) {position : Nat} (failed : ep.fail position = some after) :
    Withstands holds after := by
  obtain ⟨⟨lost, held⟩, placed⟩ := withstands
  obtain ⟨posting, isPosting, rfl⟩ := Option.map_eq_some_iff.mp failed
  obtain ⟨inside, same⟩ := List.getElem?_eq_some_iff.mp isPosting
  refine ⟨⟨posting :: lost, ?_⟩, placed.push ⟨posting, false, 0⟩⟩
  have moved : (posting :: lost ++ ep.posted.eraseIdx position).Perm (lost ++ ep.posted) := by
    refine List.Perm.trans List.perm_middle.symm (List.Perm.append_left lost ?_)
    rw [← same]
    exact List.getElem_cons_eraseIdx_perm inside
  have shuffled := resilient.shuffled _ _ held moved
  simp only [Endpoint.healed, failed_filter ep posting]
  exact shuffled

theorem Withstands.failUnsignaled {ep after : Endpoint} (withstands : Withstands holds ep)
    {position : Nat} (failed : ep.failUnsignaled position = some after) :
    Withstands holds after := by
  obtain ⟨⟨lost, held⟩, placed⟩ := withstands
  obtain ⟨posting, _, rfl⟩ := Option.map_eq_some_iff.mp failed
  refine ⟨⟨lost, ?_⟩, placed.push ⟨posting, false, 0⟩⟩
  simp only [Endpoint.healed, failed_filter ep posting]
  exact held

theorem Withstands.asyncEvent {ep : Endpoint} (withstands : Withstands holds ep)
    (event : IbvAsyncEvent) : Withstands holds (ep.ncclIbAsyncThreadMain event) := by
  obtain ⟨⟨lost, held⟩, placed⟩ := withstands
  refine ⟨⟨lost, ?_⟩, ?_⟩
  · rw [ncclIbAsyncThreadMain_healed]
    exact held
  · have queues : (ep.ncclIbAsyncThreadMain event).cqs = ep.cqs := by
      have same := congrArg Endpoint.cqs (ncclIbAsyncThreadMain_rest ep event)
      exact same
    intro dev wc member
    rw [queues] at member
    exact placed dev wc member

/-! ## A test under failures -/

/-- Polling a device keeps the invariant. It returns an error when the device had a fatal
event and a completion is found. -/
theorem Resilient.pollDev (resilient : Resilient holds) {ep : Endpoint}
    (withstands : Withstands holds ep) (asyncEvents : Bool) (i : ReqId) (dev : Dev) :
    ∃ polled, ep.pollDev asyncEvents i dev = some polled ∧ Withstands holds polled.ep ∧
      Spared dev ep polled.ep ∧ polled.ep.pending + polled.wrDone = ep.pending ∧
      (asyncEvents = true → ep.devFatalErrorCount dev ≠ 0 → (ep.reqs i).events dev ≠ 0 →
        ep.cqs dev ≠ [] → polled.result ≠ .ncclSuccess) := by
  by_cases waits : (ep.reqs i).events dev = 0
  · refine ⟨⟨.ncclSuccess, 0, ep⟩, by simp [Endpoint.pollDev, waits], withstands,
      Spared.refl dev ep, rfl, fun _ _ waiting => absurd waits waiting⟩
  obtain ⟨⟨lost, held⟩, placed⟩ := withstands
  obtain ⟨owed, accounted⟩ := resilient.accounted _ held
  have base : (ep.reqs i).devBases dev = some dev := accounted.based i dev waits
  by_cases empty : ep.cqs dev = []
  · have same : ep.setCq dev [] = ep := by
      rw [← empty, setCq_self]
    refine ⟨⟨.ncclSuccess, 0, ep⟩, ?_, ⟨⟨lost, held⟩, placed⟩, Spared.refl dev ep, rfl,
      fun _ _ _ some => absurd empty some⟩
    simp only [Endpoint.pollDev, waits, if_false, base, Option.map_some, empty, List.take_nil,
      List.drop_nil, same, if_true]
  have some : (ep.cqs dev).take 4 ≠ [] := by
    simpa [List.take_eq_nil_iff] using empty
  have queue : (ep.cqs dev).take 4 ++ (ep.cqs dev).drop 4 = ep.cqs dev :=
    List.take_append_drop 4 _
  have whole : holds ((ep.setCq dev ((ep.cqs dev).take 4 ++ (ep.cqs dev).drop 4)).healed
      lost) := by
    rw [queue, setCq_self]
    exact held
  have first : ∀ wc ∈ (ep.cqs dev).take 4, wc.posting.dev = dev :=
    fun wc member => placed dev wc (List.mem_of_mem_take member)
  obtain ⟨kept, spared, left⟩ := resilient.handleWcs whole first
  have polled : ep.pollDev asyncEvents i dev = Option.some
      (if (Endpoint.handleWcs dev ((ep.cqs dev).take 4)
          (ep.setCq dev ((ep.cqs dev).drop 4))).result ≠ .ncclSuccess then
        ⟨(Endpoint.handleWcs dev ((ep.cqs dev).take 4)
            (ep.setCq dev ((ep.cqs dev).drop 4))).result, ((ep.cqs dev).take 4).length,
          (Endpoint.handleWcs dev ((ep.cqs dev).take 4)
            (ep.setCq dev ((ep.cqs dev).drop 4))).ep⟩
      else ⟨ncclIbStatsCheckFatalCount asyncEvents (ep.devFatalErrorCount dev),
        ((ep.cqs dev).take 4).length, (Endpoint.handleWcs dev ((ep.cqs dev).take 4)
          (ep.setCq dev ((ep.cqs dev).drop 4))).ep⟩) := by
    simp only [Endpoint.pollDev, waits, if_false, base, Option.map_some, some,
      spared.devFatalErrorCount]
  obtain ⟨handled, isHandled⟩ : ∃ handled, Endpoint.handleWcs dev ((ep.cqs dev).take 4)
      (ep.setCq dev ((ep.cqs dev).drop 4)) = handled := ⟨_, rfl⟩
  rw [isHandled] at kept spared left polled
  have placedAfter : handled.ep.Placed := by
    intro other wc member
    by_cases here : other = dev
    · subst here
      rw [left] at member
      exact placed other wc (List.mem_of_mem_drop member)
    · rw [spared.cqs other here] at member
      exact placed other wc member
  have total : handled.ep.pending + ((ep.cqs dev).take 4).length = ep.pending := by
    have length := congrArg List.length queue
    rw [List.length_append] at length
    unfold pending
    rcases Fin.exists_fin_two.mp ⟨dev, rfl⟩ with rfl | rfl
    · have other := congrArg List.length (spared.cqs 1 (by decide))
      rw [left]
      omega
    · have other := congrArg List.length (spared.cqs 0 (by decide))
      rw [left]
      omega
  refine ⟨_, polled, ?_⟩
  by_cases failed : handled.result ≠ .ncclSuccess
  · simp only [if_pos failed]
    exact ⟨⟨kept, placedAfter⟩, spared, total, fun _ _ _ _ => failed⟩
  · simp only [if_neg failed]
    refine ⟨⟨kept, placedAfter⟩, spared, total, fun async fatal _ _ => ?_⟩
    simp [ncclIbStatsCheckFatalCount, async, fatal]

/-- The fatal counts are the same. -/
structure SameFatal (ep after : Endpoint) : Prop where
  fatalErrorCount : after.fatalErrorCount = ep.fatalErrorCount
  devFatalErrorCount : after.devFatalErrorCount = ep.devFatalErrorCount

theorem SameFatal.refl (ep : Endpoint) : SameFatal ep ep := ⟨rfl, rfl⟩

theorem SameFatal.trans {first second third : Endpoint} (sooner : SameFatal first second)
    (later : SameFatal second third) : SameFatal first third :=
  ⟨later.fatalErrorCount.trans sooner.fatalErrorCount,
    later.devFatalErrorCount.trans sooner.devFatalErrorCount⟩

theorem Spared.sameFatal {dev : Dev} {ep after : Endpoint} (spared : Spared dev ep after) :
    SameFatal ep after := ⟨spared.fatalErrorCount, spared.devFatalErrorCount⟩

/-- A test keeps the invariant up to the request it frees, and always returns. -/
theorem Resilient.test (resilient : Resilient holds) {ep : Endpoint}
    (withstands : Withstands holds ep) (asyncEvents : Bool) (i : ReqId) :
    ∃ result done sizes settled, ep.ncclIbTest asyncEvents i =
        .returned result done sizes (if done then settled.ncclIbFreeRequest i else settled) ∧
      Withstands holds settled ∧ SameFatal ep settled ∧ (done = true → settled.Finished i) := by
  suffices loop : ∀ fuel (ep : Endpoint), Withstands holds ep → ep.pending < fuel →
      ∃ result done sizes settled, testLoop asyncEvents i fuel ep =
          .returned result done sizes (if done then settled.ncclIbFreeRequest i else settled) ∧
        Withstands holds settled ∧ SameFatal ep settled ∧
          (done = true → settled.Finished i) from
    loop (ep.pending + 1) ep withstands (Nat.lt_succ_self _)
  intro fuel
  induction fuel with
  | zero =>
    intro ep _ enough
    omega
  | succ fuel ih =>
    intro ep withstands enough
    simp only [testLoop]
    by_cases checked : ncclIbStatsCheckFatalCount asyncEvents ep.fatalErrorCount ≠ .ncclSuccess
    · exact ⟨_, false, [], ep, if_pos checked, withstands, SameFatal.refl ep,
        fun done => absurd done (by decide)⟩
    rw [if_neg checked]
    by_cases finished : ep.Finished i
    · exact ⟨_, true, _, ep, if_pos finished, withstands, SameFatal.refl ep, fun _ => finished⟩
    rw [if_neg finished]
    obtain ⟨first, isFirst, withstandsFirst, sparedFirst, pendingFirst, _⟩ :=
      resilient.pollDev withstands asyncEvents i 0
    simp only [isFirst]
    by_cases firstFailed : first.result ≠ .ncclSuccess
    · exact ⟨_, false, [], first.ep, if_pos firstFailed, withstandsFirst, sparedFirst.sameFatal,
        fun done => absurd done (by decide)⟩
    rw [if_neg firstFailed]
    obtain ⟨second, isSecond, withstandsSecond, sparedSecond, pendingSecond, _⟩ :=
      resilient.pollDev withstandsFirst asyncEvents i 1
    have same := sparedFirst.sameFatal.trans sparedSecond.sameFatal
    simp only [isSecond]
    by_cases secondFailed : second.result ≠ .ncclSuccess
    · exact ⟨_, false, [], second.ep, if_pos secondFailed, withstandsSecond, same,
        fun done => absurd done (by decide)⟩
    rw [if_neg secondFailed]
    by_cases nothing : first.wrDone + second.wrDone = 0
    · exact ⟨_, false, [], second.ep, if_pos nothing, withstandsSecond, same,
        fun done => absurd done (by decide)⟩
    · rw [if_neg nothing]
      obtain ⟨result, done, sizes, settled, called, kept, later, finished⟩ :=
        ih second.ep withstandsSecond (by omega)
      exact ⟨result, done, sizes, settled, called, kept, same.trans later, finished⟩

/-- The outcome is an error. -/
def TestOutcome.Failed (outcome : TestOutcome) : Prop :=
  ∃ result ep, outcome = .returned result false [] ep ∧ result ≠ .ncclSuccess

/-- A fatal event that a test of a request notices: one of the comm, or one of a device
that the request waits for and whose queue has a completion. -/
def Alarmed (ep : Endpoint) (i : ReqId) : Prop :=
  ep.fatalErrorCount ≠ 0 ∨
    ∃ dev, (ep.reqs i).events dev ≠ 0 ∧ ep.devFatalErrorCount dev ≠ 0 ∧ ep.cqs dev ≠ []

instance (ep : Endpoint) (i : ReqId) : Decidable (ep.Alarmed i) :=
  inferInstanceAs (Decidable (_ ∨ _))

/-- A test that notices a fatal event returns an error when its request waits. -/
theorem Resilient.alarmed (resilient : Resilient holds) {ep : Endpoint}
    (withstands : Withstands holds ep) {i : ReqId} (waits : ¬ ep.Finished i)
    (alarmed : ep.Alarmed i) : (ep.ncclIbTest true i).Failed := by
  simp only [ncclIbTest, testLoop]
  by_cases fatal : ep.fatalErrorCount = 0
  · have checked : ncclIbStatsCheckFatalCount true ep.fatalErrorCount = .ncclSuccess := by
      simp [ncclIbStatsCheckFatalCount, fatal]
    obtain ⟨dev, waiting, devFatal, some⟩ := alarmed.resolve_left (not_not.mpr fatal)
    rw [if_neg (not_not.mpr checked), if_neg waits]
    obtain ⟨first, isFirst, withstandsFirst, spared, _, firstAlarm⟩ :=
      resilient.pollDev withstands true i 0
    simp only [isFirst]
    by_cases firstFailed : first.result ≠ .ncclSuccess
    · rw [if_pos firstFailed]
      exact ⟨_, _, rfl, firstFailed⟩
    rw [if_neg firstFailed]
    have isOne : dev = 1 := by
      rcases Fin.exists_fin_two.mp ⟨dev, rfl⟩ with here | here
      · rw [here] at waiting devFatal some
        exact absurd (firstAlarm rfl devFatal waiting some) firstFailed
      · exact here
    subst isOne
    obtain ⟨second, isSecond, _, _, _, secondAlarm⟩ :=
      resilient.pollDev withstandsFirst true i 1
    rw [spared.devFatalErrorCount, spared.events i 1 (by decide), spared.cqs 1 (by decide)]
      at secondAlarm
    have secondFailed := secondAlarm rfl devFatal waiting some
    simp only [isSecond]
    rw [if_pos secondFailed]
    exact ⟨_, _, rfl, secondFailed⟩
  · have checked : ncclIbStatsCheckFatalCount true ep.fatalErrorCount = .ncclSystemError := by
      simp [ncclIbStatsCheckFatalCount, fatal]
    rw [checked, if_pos (by decide)]
    exact ⟨_, _, rfl, by decide⟩

end Endpoint

end NcclExts.Unet
