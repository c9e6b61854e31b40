import NcclExts.Unet.Completions
import NcclExts.Unet.FailedPosts

/-!
# Fatal errors

When `NCCL_IB_RETURN_ASYNC_EVENTS` is set, a fatal event that the async thread recorded
shall make every later test of a request it concerns return an error: an event of a
completion queue or queue pair concerns every waiting request of its comm, and an event
of a device every request that waits for the device.

A test looks at the count of its comm first, and so never misses an event of the comm.
It looks at the count of a device only after it found a completion on the queue of the
device. While that queue is empty the test reports that the request is not done yet,
and when the fatal event is the reason that nothing completes any more it does so for
ever.
-/

namespace NcclExts.Unet

open NcclExts.Foundation NcclExts.Ucommd

/-! ## Events and what they concern -/

/-- A fatal event of the device was recorded. -/
def DeviceFatal (events : List IbvAsyncEvent) (dev : Dev) : Prop :=
  ∃ event ∈ events, event.type = .deviceFatal ∧ event.dev = dev

/-- A fatal event of a completion queue or a queue pair of the comm was recorded. -/
def CommFatal (events : List IbvAsyncEvent) : Prop :=
  ∃ event ∈ events, event.own = true ∧
    event.type ∈ [IbvEventType.cqErr, .qpFatal, .qpReqErr, .qpAccessErr]

/-- A recorded event concerns a request: one of the comm while the request waits for any
device, and one of a device while the request waits for that device. -/
def Concerned (events : List IbvAsyncEvent) (ep : Endpoint) (i : ReqId) : Prop :=
  ∃ dev, (ep.reqs i).events dev ≠ 0 ∧ (CommFatal events ∨ DeviceFatal events dev)

/-- When a device had a fatal event and the request waits for it, a test notices. -/
def Heeded (ep : Endpoint) (i : ReqId) : Prop :=
  (∃ dev, (ep.reqs i).events dev ≠ 0 ∧ ep.devFatalErrorCount dev ≠ 0) → ep.Alarmed i

instance (ep : Endpoint) (i : ReqId) : Decidable (Heeded ep i) :=
  inferInstanceAs (Decidable (_ → _))

/-- One more fatal event does not make a count return to zero. -/
def Countable (ep : Endpoint) : Prop :=
  ep.fatalErrorCount + 1 < 2 ^ 32 ∧ ∀ dev, ep.devFatalErrorCount dev + 1 < 2 ^ 32

instance (ep : Endpoint) : Decidable (Countable ep) := inferInstanceAs (Decidable (_ ∧ _))

/-- Every recorded fatal event is in the counts. -/
structure Recorded (events : List IbvAsyncEvent) (ep : Endpoint) : Prop where
  comm : CommFatal events → ep.fatalErrorCount ≠ 0
  device : ∀ dev, DeviceFatal events dev → ep.devFatalErrorCount dev ≠ 0

theorem Recorded.same {events : List IbvAsyncEvent} {ep after : Endpoint}
    (recorded : Recorded events ep) (same : Endpoint.SameFatal ep after) :
    Recorded events after := by
  constructor
  · intro fatal
    rw [same.fatalErrorCount]
    exact recorded.comm fatal
  · intro dev fatal
    rw [same.devFatalErrorCount]
    exact recorded.device dev fatal

/-- The async thread counts what it records. -/
theorem Recorded.event {events : List IbvAsyncEvent} {ep : Endpoint}
    (recorded : Recorded events ep) (countable : Countable ep) (event : IbvAsyncEvent) :
    Recorded (events ++ [event]) (ep.ncclIbAsyncThreadMain event) := by
  obtain ⟨commCount, devCount⟩ := countable
  have commNext : Endpoint.ncclIbStatsFatalError ep.fatalErrorCount ≠ 0 := by
    rw [Endpoint.ncclIbStatsFatalError, Nat.mod_eq_of_lt commCount]
    omega
  have devNext (dev : Dev) : Endpoint.ncclIbStatsFatalError (ep.devFatalErrorCount dev) ≠ 0 := by
    rw [Endpoint.ncclIbStatsFatalError, Nat.mod_eq_of_lt (devCount dev)]
    omega
  have commKept (own : Bool) : ep.fatalErrorCount ≠ 0 ∨ own = true →
      (ep.contextFatalError own).fatalErrorCount ≠ 0 := by
    intro fatal
    cases own with
    | true => exact commNext
    | false => exact fatal.resolve_right (by decide)
  have devSame (own : Bool) : (ep.contextFatalError own).devFatalErrorCount =
      ep.devFatalErrorCount := by
    unfold Endpoint.contextFatalError
    split <;> rfl
  constructor
  · rintro ⟨other, member, own, fatal⟩
    have before : ep.fatalErrorCount ≠ 0 ∨ other = event := by
      rcases List.mem_append.mp member with old | new
      · exact Or.inl (recorded.comm ⟨other, old, own, fatal⟩)
      · exact Or.inr (List.mem_singleton.mp new)
    have counted : ep.fatalErrorCount ≠ 0 ∨ event.own = true := by
      rcases before with some | same
      · exact Or.inl some
      · exact Or.inr (same ▸ own)
    rcases before with some | rfl
    · unfold Endpoint.ncclIbAsyncThreadMain
      split <;> first | exact commKept event.own counted | exact some
    · simp only [List.mem_cons, List.not_mem_nil, or_false] at fatal
      unfold Endpoint.ncclIbAsyncThreadMain
      rcases fatal with type | type | type | type <;> rw [type] <;> exact commKept other.own counted
  · rintro dev ⟨other, member, fatal, here⟩
    have kept : ep.devFatalErrorCount dev ≠ 0 →
        (ep.ncclIbAsyncThreadMain event).devFatalErrorCount dev ≠ 0 := by
      intro some
      unfold Endpoint.ncclIbAsyncThreadMain
      split
      · by_cases same : dev = event.dev
        · subst same
          simpa [Endpoint.ncclIbDevFatalError] using devNext event.dev
        · simpa [Endpoint.ncclIbDevFatalError, same] using some
      all_goals first
        | exact some
        | exact (congrFun (devSame event.own) dev).symm ▸ some
    rcases List.mem_append.mp member with old | new
    · exact kept (recorded.device dev ⟨other, old, fatal, here⟩)
    · obtain rfl := List.mem_singleton.mp new
      simp only [Endpoint.ncclIbAsyncThreadMain, fatal, Endpoint.ncclIbDevFatalError, here,
        Function.update_self]
      exact devNext dev

/-- A request that an event concerns makes its test return an error, when the test
notices fatal events of devices. -/
theorem Concerned.failed {holds : Endpoint → Prop} (resilient : Endpoint.Resilient holds)
    {ep : Endpoint} (withstands : Endpoint.Withstands holds ep) {events : List IbvAsyncEvent}
    (recorded : Recorded events ep) {i : ReqId} (heeded : Heeded ep i)
    (concerned : Concerned events ep i) : (ep.ncclIbTest true i).Failed := by
  obtain ⟨dev, waits, fatal⟩ := concerned
  have waiting : ¬ ep.Finished i := by
    rintro ⟨first, second⟩
    rcases Fin.exists_fin_two.mp ⟨dev, rfl⟩ with rfl | rfl
    · exact waits first
    · exact waits second
  refine resilient.alarmed withstands waiting ?_
  rcases fatal with ofComm | ofDevice
  · exact Or.inl (recorded.comm ofComm)
  · exact heeded ⟨dev, waits, recorded.device dev ofDevice⟩

/-! ## Faults below a comm -/

/-- What goes wrong below a comm: work completes with an error, or a device, a
completion queue or a queue pair has an event. -/
inductive Fault where
  | failed (position : Nat)
  | failedUnsignaled (position : Nat)
  | event (event : IbvAsyncEvent)

/-- The endpoint after a fault. -/
def Endpoint.suffer (ep : Endpoint) : Fault → Option Endpoint
  | .failed position => ep.fail position
  | .failedUnsignaled position => ep.failUnsignaled position
  | .event event => some (ep.ncclIbAsyncThreadMain event)

/-- The events that a fault adds to the record. -/
def Fault.events : Fault → List IbvAsyncEvent
  | .event seen => [seen]
  | _ => []

/-- A fault is permitted unless it makes a count return to zero. -/
def Fault.Permitted (fault : Fault) (ep : Endpoint) : Prop :=
  match fault with
  | .event _ => Countable ep
  | _ => True

instance (fault : Fault) (ep : Endpoint) : Decidable (fault.Permitted ep) :=
  match fault with
  | .event _ => inferInstanceAs (Decidable (Countable ep))
  | .failed _ => inferInstanceAs (Decidable True)
  | .failedUnsignaled _ => inferInstanceAs (Decidable True)

/-- A comm with the events that the async threads recorded. -/
structure Watched (Comm : Type) where
  comm : Comm
  events : List IbvAsyncEvent

/-- A fault keeps what withstands it, and its event is in the counts. -/
theorem Endpoint.Withstands.suffer {holds : Endpoint → Prop}
    (resilient : Endpoint.Resilient holds) {ep after : Endpoint}
    (withstands : Endpoint.Withstands holds ep) {events : List IbvAsyncEvent}
    (recorded : Recorded events ep) {fault : Fault} (permitted : fault.Permitted ep)
    (suffered : ep.suffer fault = some after) :
    Endpoint.Withstands holds after ∧ Recorded (events ++ fault.events) after := by
  cases fault with
  | failed position =>
    refine ⟨withstands.fail resilient suffered, ?_⟩
    obtain ⟨_, _, rfl⟩ := Option.map_eq_some_iff.mp suffered
    show Recorded (events ++ []) _
    rw [List.append_nil]
    exact recorded.same ⟨rfl, rfl⟩
  | failedUnsignaled position =>
    refine ⟨withstands.failUnsignaled suffered, ?_⟩
    obtain ⟨_, _, rfl⟩ := Option.map_eq_some_iff.mp suffered
    show Recorded (events ++ []) _
    rw [List.append_nil]
    exact recorded.same ⟨rfl, rfl⟩
  | event event =>
    obtain rfl := Option.some.inj suffered
    exact ⟨withstands.asyncEvent event, recorded.event permitted event⟩

/-! ## A send comm -/

/-- The next slot is full, but its message could not be posted. -/
def SendComm.Stuck (calls : Calls) (comm : SendComm) : Prop :=
  (∀ r, r < (calls comm.fifoHead).length →
    comm.fifoReqs (comm.fifoHead % maxRequests) r ≠ none) ∧ comm.Landed calls

/-- What holds of the healed endpoint of a send comm. -/
def SendHolds (setup : SendSetup) (calls : Calls) (comm : SendComm) (ep : Endpoint) : Prop :=
  SendOk setup calls { comm with ep := ep } ∨
    (comm.Stuck calls ∧ Endpoint.Accounted (fun _ _ => 0) ep)

section

variable {setup : SendSetup} {calls : Calls} {comm : SendComm}

/-- Another endpoint with the same requests, the same next queue pair and a right count. -/
theorem SendOk.withEp (ok : SendOk setup calls comm) {ep : Endpoint}
    (accounted : Endpoint.Accounted (comm.owed setup) ep) (reqs : ep.reqs = comm.ep.reqs)
    (qpIndex : ep.qpIndex = comm.ep.qpIndex) : SendOk setup calls { comm with ep := ep } := by
  have owed : SendComm.owed setup { comm with ep := ep } = comm.owed setup := by
    funext i dev
    simp only [SendComm.owed, qpIndex]
    rfl
  refine ⟨?_, ?_, ok.landed, ok.row, ?_, ok.injective⟩
  · rw [owed]
    exact accounted
  · rw [qpIndex]
    exact ok.inside
  · simpa only [reqs] using ok.matched

theorem SendHolds.resilient : Endpoint.Resilient (SendHolds setup calls comm) := by
  constructor
  · rintro ep (ok | ⟨_, accounted⟩)
    · exact ⟨_, ok.accounted⟩
    · exact ⟨_, accounted⟩
  · rintro ep dev wc rest (ok | ⟨stuck, accounted⟩) head
    · obtain ⟨handled, accounted⟩ := ok.accounted.settle head
      exact Or.inl (ok.settled (.next head handled (.nothing _)) accounted)
    · exact Or.inr ⟨stuck, (accounted.settle head).2⟩
  · rintro ep dev wc rest (ok | ⟨stuck, accounted⟩) head here
    · exact Or.inl (ok.withEp (ok.accounted.dropped head here) rfl rfl)
    · exact Or.inr ⟨stuck, accounted.dropped head here⟩
  · rintro ep posted (ok | ⟨stuck, accounted⟩) moved
    · exact Or.inl (ok.withEp (ok.accounted.shuffled moved) rfl rfl)
    · exact Or.inr ⟨stuck, accounted.shuffled moved⟩
  · rintro ep position immData after (ok | ⟨stuck, accounted⟩) completed
    · exact Or.inl (ok.complete completed)
    · exact Or.inr ⟨stuck, accounted.complete completed⟩

theorem SendHolds.landed {ep : Endpoint} (holds : SendHolds setup calls comm ep) :
    comm.Landed calls := by
  rcases holds with ok | ⟨stuck, _⟩
  · exact ok.landed
  · exact stuck.2

/-- The entry of a call of the peer lands in its place. -/
theorem SendComm.Landed.land (isLanded : comm.Landed calls) {call r : Nat} {recv : NcclIbSendFifo}
    (placed : (calls call)[r]? = some recv) : SendComm.Landed calls { comm with
      fifo := Function.update comm.fifo (call % maxRequests)
        (Function.update (comm.fifo (call % maxRequests)) r recv) } := by
  intro slot r'
  by_cases here : slot = call % maxRequests
  · subst here
    by_cases same : r' = r
    · subst same
      exact Or.inr ⟨call, rfl, by simp [placed]⟩
    · simpa [same] using isLanded (call % maxRequests) r'
  · simpa [here] using isLanded slot r'

/-- What survives in a send comm, whatever failed. -/
def SendWithstands (setup : SendSetup) (calls : Calls) (comm : SendComm) : Prop :=
  Endpoint.Withstands (SendHolds setup calls comm) comm.ep

theorem SendWithstands.landed (withstands : SendWithstands setup calls comm) :
    comm.Landed calls := by
  obtain ⟨⟨_, held⟩, _⟩ := withstands
  exact held.landed

theorem SendWithstands.fresh (fresh : comm.Fresh) : SendWithstands setup calls comm := by
  have ok : SendOk setup calls comm := SendOk.fresh fresh
  obtain ⟨_, _, _, _, _, posted, _, cqs⟩ := fresh.1
  refine ⟨⟨[], Or.inl (ok.withEp ?_ rfl rfl)⟩, ?_⟩
  · refine ok.accounted.congr rfl rfl ?_ ?_ ?_
    · simp [Endpoint.healed, cqs]
    · exact ok.accounted.healthy.1.symm
    · funext dev
      exact (ok.accounted.healthy.2 dev).symm
  · intro dev wc member
    rw [cqs] at member
    simp at member

theorem SendWithstands.land (withstands : SendWithstands setup calls comm) {call r : Nat}
    {after : SendComm} (landed : comm.land calls call r = some after) :
    SendWithstands setup calls after ∧ Endpoint.SameFatal comm.ep after.ep := by
  obtain ⟨⟨lost, held⟩, placed⟩ := withstands
  obtain ⟨recv, isRecv, rfl⟩ := Option.map_eq_some_iff.mp landed
  refine ⟨⟨⟨lost, ?_⟩, placed⟩, Endpoint.SameFatal.refl _⟩
  rcases held with ok | ⟨stuck, accounted⟩
  · have there : (comm.healed lost).land calls call r = some _ :=
      Option.map_eq_some_iff.mpr ⟨recv, isRecv, rfl⟩
    exact Or.inl (ok.land there)
  · exact Or.inr ⟨⟨stuck.1, stuck.2.land isRecv⟩, accounted⟩

/-- A send keeps it. -/
theorem SendWithstands.isend (announced : ∀ call, Announced call (calls call))
    (withstands : SendWithstands setup calls comm) {data : Int} {size tag : Int32}
    {lkeys : Dev → UInt32} {request : Option ReqId} {after : SendComm}
    (effect : IsendEffect setup calls comm data size tag lkeys request after) :
    SendWithstands setup calls after ∧ Endpoint.SameFatal comm.ep after.ep := by
  obtain ⟨⟨lost, held⟩, placed⟩ := withstands
  have free {r : Nat} {i : ReqId} {recv : NcclIbSendFifo} (hit : Hit calls comm tag r i recv) :
      SendOk setup calls (comm.healed lost) := by
    rcases held with ok | ⟨stuck, _⟩
    · exact ok
    · obtain ⟨below, _⟩ := List.getElem?_eq_some_iff.mp hit.isRecv
      exact absurd hit.free (stuck.1 r below)
  cases effect with
  | @nothing ibStat counted =>
    refine ⟨⟨⟨lost, ?_⟩, placed⟩, ⟨rfl, rfl⟩⟩
    rcases held with ok | ⟨stuck, accounted⟩
    · exact Or.inl ok
    · exact Or.inr ⟨stuck, accounted⟩
  | matched hit missing =>
    refine ⟨⟨⟨lost, Or.inl ?_⟩, placed⟩, ⟨rfl, rfl⟩⟩
    exact (free hit).hit announced (hit.healed lost) data size lkeys
  | @posted r i recv hit reqs first full =>
    have ok := (free hit).hit announced (hit.healed lost) data size lkeys
    have inside : (comm.hit setup calls data size lkeys r i recv).ep.qpIndex < setup.nqps :=
      ok.inside
    obtain ⟨postings, sent⟩ := SendComm.post_sent inside full.isFirst
    have posted := ok.post announced (full.healed lost)
    rw [hit_healed, post_healed] at posted
    refine ⟨⟨⟨lost, Or.inl posted⟩, ?_⟩, ⟨sent.fatalErrorCount, sent.devFatalErrorCount⟩⟩
    intro dev wc member
    rw [sent.cqs] at member
    exact placed dev wc member

/-- A send that fails to post leaves the comm stuck. -/
theorem SendWithstands.isendFails (announced : ∀ call, Announced call (calls call))
    (withstands : SendWithstands setup calls comm) {posts : Nat} {data : Int}
    {size tag : Int32} {lkeys : Dev → UInt32} {after : SendComm}
    (failed : isendFails setup comm posts data size tag lkeys = some after) :
    SendWithstands setup calls after ∧ Endpoint.SameFatal comm.ep after.ep := by
  obtain ⟨⟨lost, held⟩, placed⟩ := withstands
  obtain ⟨r, i, recv, reqs, first, hit, full, fewer, rfl⟩ :=
    isendFails_effect held.landed announced failed
  have free : SendOk setup calls (comm.healed lost) := by
    rcases held with ok | ⟨stuck, _⟩
    · exact ok
    · obtain ⟨below, _⟩ := List.getElem?_eq_some_iff.mp hit.isRecv
      exact absurd hit.free (stuck.1 r below)
  have ok := free.hit announced (hit.healed lost) data size lkeys
  obtain ⟨missing, accounted⟩ := ok.sendSome announced (full.healed lost) fewer
    ((comm.hit setup calls data size lkeys r i recv).ep.reqs first).size
  have inside : (comm.hit setup calls data size lkeys r i recv).ep.qpIndex < setup.nqps :=
    ok.inside
  have rest := sendSome_rest inside (comm.fifoHead % maxRequests) reqs.length reqs
    ((comm.hit setup calls data size lkeys r i recv).ep.reqs first).size posts
  have before : Endpoint.SameFatal comm.ep (comm.hit setup calls data size lkeys r i recv).ep :=
    ⟨rfl, rfl⟩
  refine ⟨⟨⟨missing ++ lost, Or.inr ⟨⟨?_, ?_⟩, ?_⟩⟩, ?_⟩, before.trans rest.sameFatal⟩
  · intro r' below
    rw [rest.fifoHead] at below ⊢
    rw [rest.fifoReqs]
    have inRow : r' < reqs.length := full.length ▸ below
    have row := full.rows r' inRow
    rw [row, List.getElem?_eq_getElem inRow]
    simp
  · intro slot r'
    rw [rest.fifo]
    exact held.landed slot r'
  · rw [hit_healed] at accounted
    have same := sendSome_healed setup (comm.hit setup calls data size lkeys r i recv)
      (comm.fifoHead % maxRequests) reqs.length reqs
      ((comm.hit setup calls data size lkeys r i recv).ep.reqs first).size posts lost
    have counted := accounted
    rw [show ((comm.hit setup calls data size lkeys r i recv).healed lost).fifoHead =
      comm.fifoHead from rfl, same] at counted
    simpa only [Endpoint.healed, SendComm.healed, List.append_assoc] using counted
  · intro dev wc member
    rw [rest.cqs] at member
    exact placed dev wc member

/-- A test keeps it. -/
theorem SendWithstands.test (announced : ∀ call, Announced call (calls call))
    (withstands : SendWithstands setup calls comm) {i : ReqId} {result : NcclResult}
    {done : Bool} {sizes : List Int32} {ep : Endpoint}
    (tested : comm.ep.ncclIbTest setup.asyncEvents i = .returned result done sizes ep) :
    SendWithstands setup calls { comm with ep := ep } ∧ Endpoint.SameFatal comm.ep ep := by
  obtain ⟨_, isDone, _, settled, called, ⟨⟨lost, held⟩, placed⟩, same, finished⟩ :=
    SendHolds.resilient.test withstands setup.asyncEvents i
  rw [tested] at called
  injection called with _ _ _ isEp
  subst isEp
  cases isDone with
  | false => exact ⟨⟨⟨lost, held⟩, placed⟩, same⟩
  | true =>
    have finished : (settled.healed lost).Finished i := finished rfl
    refine ⟨⟨⟨lost, ?_⟩, placed⟩, ⟨same.fatalErrorCount, same.devFatalErrorCount⟩⟩
    rcases held with ok | ⟨stuck, accounted⟩
    · exact Or.inl (ok.freed announced finished)
    · exact Or.inr ⟨stuck, accounted.free finished⟩

end

/-- Steps of a send comm below which work may fail. -/
inductive FaultySendEvent where
  | call (event : SendEvent)
  | isendFails (posts : Nat) (data : Int) (size tag : Int32) (lkeys : Dev → UInt32)
  | suffers (fault : Fault)

namespace FaultySendEvent

def step (setup : SendSetup) (calls : Calls) (watched : Watched Sending) :
    FaultySendEvent → Option (Watched Sending)
  | .call event =>
    (watched.comm.step setup calls event).map fun comm => { watched with comm := comm }
  | .isendFails posts data size tag lkeys =>
    (Unet.isendFails setup watched.comm.comm posts data size tag lkeys).map fun comm =>
      { watched with comm := { watched.comm with comm := comm } }
  | .suffers fault =>
    (watched.comm.comm.ep.suffer fault).map fun ep =>
      { comm := { watched.comm with comm := { watched.comm.comm with ep := ep } }
        events := watched.events ++ fault.events }

/-- A test notices the fatal events of devices, and no count returns to zero. -/
def Heeds (watched : Watched Sending) (event : FaultySendEvent) : Prop :=
  match event with
  | .call (.test i) => Heeded watched.comm.comm.ep i
  | .suffers fault => fault.Permitted watched.comm.comm.ep
  | _ => True

instance (watched : Watched Sending) (event : FaultySendEvent) :
    Decidable (event.Heeds watched) :=
  match event with
  | .call (.test i) => inferInstanceAs (Decidable (Heeded watched.comm.comm.ep i))
  | .call (.announce _ _) => inferInstanceAs (Decidable True)
  | .call (.isend _ _ _ _) => inferInstanceAs (Decidable True)
  | .call (.complete _) => inferInstanceAs (Decidable True)
  | .isendFails _ _ _ _ _ => inferInstanceAs (Decidable True)
  | .suffers fault => inferInstanceAs (Decidable (fault.Permitted watched.comm.comm.ep))

end FaultySendEvent

/-- All runs of a send comm whose work may fail and whose devices may have events. -/
def faultySending (setup : SendSetup) (calls : Calls) :
    System (Watched Sending) FaultySendEvent where
  starts := fun watched =>
    watched.comm.comm.Fresh ∧ watched.comm.finished = [] ∧ watched.events = []
  step := FaultySendEvent.step setup calls

/-- In every run of a send comm that heeds fatal events, what it counts survives. -/
theorem faultySending_withstands {setup : SendSetup} {calls : Calls}
    (announced : ∀ call, Announced call (calls call)) {watched : Watched Sending}
    (reached : (faultySending setup calls).Reaches (fun state event => event.Heeds state) watched) :
    SendWithstands setup calls watched.comm.comm ∧
      Recorded watched.events watched.comm.comm.ep := by
  induction reached with
  | start first =>
    obtain ⟨fresh, _, none⟩ := first
    refine ⟨SendWithstands.fresh fresh, ?_, ?_⟩
    · rintro ⟨event, member, _⟩
      simp [none] at member
    · rintro dev ⟨event, member, _⟩
      simp [none] at member
  | @next watched after event _ permitted stepped ih =>
    obtain ⟨withstands, recorded⟩ := ih
    cases event with
    | call event =>
      obtain ⟨sending, moved, rfl⟩ := Option.map_eq_some_iff.mp stepped
      have kept : SendWithstands setup calls sending.comm ∧
          Endpoint.SameFatal watched.comm.comm.ep sending.comm.ep := by
        cases event with
        | announce call r =>
          obtain ⟨comm, landed, rfl⟩ := Option.map_eq_some_iff.mp moved
          exact withstands.land landed
        | isend data size tag lkeys =>
          have moved : watched.comm.isend setup data size tag lkeys = some sending := moved
          rcases ncclIbIsend_effect setup withstands.landed announced data size tag lkeys with
            spins | ⟨result, request, comm, called, effect⟩
          · simp [Sending.isend, spins] at moved
          · simp only [Sending.isend, called, Option.some.injEq] at moved
            subst moved
            exact withstands.isend announced effect
        | complete position =>
          obtain ⟨ep, completed, rfl⟩ := Option.map_eq_some_iff.mp moved
          constructor
          · exact Endpoint.Withstands.complete SendHolds.resilient withstands completed
          · obtain ⟨_, _, rfl⟩ := Option.map_eq_some_iff.mp completed
            exact ⟨rfl, rfl⟩
        | test i =>
          have moved : watched.comm.test setup i = some sending := moved
          simp only [Sending.test] at moved
          split at moved
          · simp at moved
          · split at moved
            · rename_i tested
              rw [← Option.some.inj moved]
              exact withstands.test announced tested
            · simp at moved
      exact ⟨kept.1, recorded.same kept.2⟩
    | isendFails posts data size tag lkeys =>
      obtain ⟨comm, failed, rfl⟩ := Option.map_eq_some_iff.mp stepped
      obtain ⟨kept, same⟩ := withstands.isendFails announced failed
      exact ⟨kept, recorded.same same⟩
    | suffers fault =>
      obtain ⟨ep, suffered, rfl⟩ := Option.map_eq_some_iff.mp stepped
      exact Endpoint.Withstands.suffer SendHolds.resilient withstands recorded permitted suffered

/-! ## A receive comm -/

/-- What holds of the healed endpoint of a receive comm. -/
def RecvHolds (setup : RecvSetup) (comm : RecvComm) (ep : Endpoint) : Prop :=
  RecvOk setup { comm with ep := ep }

section

variable {setup : RecvSetup} {comm : RecvComm}

theorem RecvHolds.resilient : Endpoint.Resilient (RecvHolds setup comm) := by
  constructor
  · intro ep ok
    exact ⟨_, ok.accounted⟩
  · intro ep dev wc rest ok head
    obtain ⟨handled, accounted⟩ := ok.accounted.settle head
    exact ok.settled (.next head handled (.nothing _)) accounted
  · intro ep dev wc rest ok head here
    exact ⟨ok.accounted.dropped head here, ok.inside, ok.devInside⟩
  · intro ep posted ok moved
    exact ⟨ok.accounted.shuffled moved, ok.inside, ok.devInside⟩
  · intro ep position immData after ok completed
    exact ok.complete completed

/-- What survives in a receive comm, whatever failed. -/
def RecvWithstands (setup : RecvSetup) (comm : RecvComm) : Prop :=
  Endpoint.Withstands (RecvHolds setup comm) comm.ep

theorem RecvWithstands.inside (withstands : RecvWithstands setup comm) :
    comm.ep.qpIndex < setup.nqps := by
  obtain ⟨⟨_, held⟩, _⟩ := withstands
  exact held.inside

theorem RecvWithstands.fresh (fresh : comm.Fresh) : RecvWithstands setup comm := by
  have ok : RecvOk setup comm := RecvOk.fresh fresh
  obtain ⟨_, _, _, _, _, posted, _, cqs⟩ := fresh.1
  refine ⟨⟨[], ?_, ok.inside, ok.devInside⟩, ?_⟩
  · refine ok.accounted.congr rfl rfl ?_ ?_ ?_
    · simp [Endpoint.healed, cqs]
    · exact ok.accounted.healthy.1.symm
    · funext dev
      exact (ok.accounted.healthy.2 dev).symm
  · intro dev wc member
    rw [cqs] at member
    simp at member

/-- A receive keeps it. -/
theorem RecvWithstands.irecv (withstands : RecvWithstands setup comm) {recvs : List RecvArg}
    {request : Option ReqId} {after : RecvComm}
    (effect : IrecvEffect setup comm recvs request after) :
    RecvWithstands setup after ∧ Endpoint.SameFatal comm.ep after.ep := by
  obtain ⟨⟨lost, held⟩, placed⟩ := withstands
  have kept : RecvOk setup (after.healed lost) := RecvOk.irecv held (effect.healed lost)
  cases effect with
  | nothing => exact ⟨⟨⟨lost, kept⟩, placed⟩, Endpoint.SameFatal.refl _⟩
  | received unused few received =>
    refine ⟨⟨⟨lost, kept⟩, ?_⟩, ⟨received.fatalErrorCount, received.devFatalErrorCount⟩⟩
    intro dev wc member
    rw [received.cqs] at member
    exact placed dev wc member

/-- A flush keeps it. -/
theorem RecvWithstands.iflush (withstands : RecvWithstands setup comm)
    {request : Option ReqId} {after : RecvComm}
    (effect : IflushEffect setup comm request after) :
    RecvWithstands setup after ∧ Endpoint.SameFatal comm.ep after.ep := by
  obtain ⟨⟨lost, held⟩, placed⟩ := withstands
  have kept : RecvOk setup (after.healed lost) := RecvOk.iflush held (effect.healed lost)
  cases effect with
  | nothing => exact ⟨⟨⟨lost, kept⟩, placed⟩, Endpoint.SameFatal.refl _⟩
  | flushed unused flushes =>
    have cqs := congrArg Endpoint.cqs flushes.rest
    have fatal := congrArg Endpoint.fatalErrorCount flushes.rest
    have devFatal := congrArg Endpoint.devFatalErrorCount flushes.rest
    refine ⟨⟨⟨lost, kept⟩, ?_⟩, ⟨fatal, devFatal⟩⟩
    intro dev wc member
    rw [cqs] at member
    exact placed dev wc member

/-- A call that fails to post keeps it. -/
theorem RecvWithstands.irecvFails (withstands : RecvWithstands setup comm) {posts : Nat}
    {recvs : List RecvArg} {after : RecvComm}
    (failed : irecvFails setup comm posts recvs = some after) :
    RecvWithstands setup after ∧ Endpoint.SameFatal comm.ep after.ep := by
  obtain ⟨cqs, same⟩ := irecvFails_rest withstands.inside failed
  obtain ⟨⟨lost, held⟩, placed⟩ := withstands
  refine ⟨⟨RecvOk.irecvFails held failed, ?_⟩, same⟩
  intro dev wc member
  rw [cqs] at member
  exact placed dev wc member

theorem RecvWithstands.iflushFails (withstands : RecvWithstands setup comm) {posts : Nat}
    {recvs : List RecvArg} {after : RecvComm}
    (failed : iflushFails setup comm posts recvs = some after) :
    RecvWithstands setup after ∧ Endpoint.SameFatal comm.ep after.ep := by
  obtain ⟨⟨lost, held⟩, placed⟩ := withstands
  obtain ⟨cqs, same⟩ := iflushFails_rest failed
  refine ⟨⟨⟨lost, RecvOk.iflushFails held failed⟩, ?_⟩, same⟩
  intro dev wc member
  rw [cqs] at member
  exact placed dev wc member

/-- A test keeps it. -/
theorem RecvWithstands.test (withstands : RecvWithstands setup comm) {i : ReqId}
    {result : NcclResult} {done : Bool} {sizes : List Int32} {ep : Endpoint}
    (tested : comm.ep.ncclIbTest setup.asyncEvents i = .returned result done sizes ep) :
    RecvWithstands setup { comm with ep := ep } ∧ Endpoint.SameFatal comm.ep ep := by
  obtain ⟨_, isDone, _, settled, called, ⟨⟨lost, held⟩, placed⟩, same, finished⟩ :=
    RecvHolds.resilient.test withstands setup.asyncEvents i
  rw [tested] at called
  injection called with _ _ _ isEp
  subst isEp
  cases isDone with
  | false => exact ⟨⟨⟨lost, held⟩, placed⟩, same⟩
  | true =>
    have finished : (settled.healed lost).Finished i := finished rfl
    have freed := RecvOk.freed held finished
    exact ⟨⟨⟨lost, freed⟩, placed⟩, ⟨same.fatalErrorCount, same.devFatalErrorCount⟩⟩

end

/-- Steps of a receive comm below which work may fail. -/
inductive FaultyRecvEvent where
  | call (event : RecvEvent)
  | irecvFails (posts : Nat) (recvs : List RecvArg)
  | iflushFails (posts : Nat) (recvs : List RecvArg)
  | suffers (fault : Fault)

namespace FaultyRecvEvent

def step (setup : RecvSetup) (watched : Watched RecvComm) :
    FaultyRecvEvent → Option (Watched RecvComm)
  | .call event => (watched.comm.step setup event).map fun comm => { watched with comm := comm }
  | .irecvFails posts recvs =>
    (Unet.irecvFails setup watched.comm posts recvs).map fun comm => { watched with comm := comm }
  | .iflushFails posts recvs =>
    (Unet.iflushFails setup watched.comm posts recvs).map fun comm => { watched with comm := comm }
  | .suffers fault =>
    (watched.comm.ep.suffer fault).map fun ep =>
      { comm := { watched.comm with ep := ep }, events := watched.events ++ fault.events }

/-- A test notices the fatal events of devices, and no count returns to zero. -/
def Heeds (watched : Watched RecvComm) (event : FaultyRecvEvent) : Prop :=
  match event with
  | .call (.test i) => Heeded watched.comm.ep i
  | .suffers fault => fault.Permitted watched.comm.ep
  | _ => True

instance (watched : Watched RecvComm) (event : FaultyRecvEvent) :
    Decidable (event.Heeds watched) :=
  match event with
  | .call (.test i) => inferInstanceAs (Decidable (Heeded watched.comm.ep i))
  | .call (.irecv _) => inferInstanceAs (Decidable True)
  | .call (.iflush _) => inferInstanceAs (Decidable True)
  | .call (.complete _ _) => inferInstanceAs (Decidable True)
  | .irecvFails _ _ => inferInstanceAs (Decidable True)
  | .iflushFails _ _ => inferInstanceAs (Decidable True)
  | .suffers fault => inferInstanceAs (Decidable (fault.Permitted watched.comm.ep))

end FaultyRecvEvent

/-- All runs of a receive comm whose work may fail and whose devices may have events. -/
def faultyReceiving (setup : RecvSetup) : System (Watched RecvComm) FaultyRecvEvent where
  starts := fun watched => watched.comm.Fresh ∧ watched.events = []
  step := FaultyRecvEvent.step setup

/-- In every run of a receive comm that heeds fatal events, what it counts survives. -/
theorem faultyReceiving_withstands {setup : RecvSetup} {watched : Watched RecvComm}
    (reached : (faultyReceiving setup).Reaches (fun state event => event.Heeds state) watched) :
    RecvWithstands setup watched.comm ∧ Recorded watched.events watched.comm.ep := by
  induction reached with
  | start first =>
    obtain ⟨fresh, none⟩ := first
    refine ⟨RecvWithstands.fresh fresh, ?_, ?_⟩
    · rintro ⟨event, member, _⟩
      simp [none] at member
    · rintro dev ⟨event, member, _⟩
      simp [none] at member
  | @next watched after event _ permitted stepped ih =>
    obtain ⟨withstands, recorded⟩ := ih
    cases event with
    | call event =>
      obtain ⟨comm, moved, rfl⟩ := Option.map_eq_some_iff.mp stepped
      have kept : RecvWithstands setup comm ∧
          Endpoint.SameFatal watched.comm.ep comm.ep := by
        cases event with
        | irecv recvs =>
          obtain ⟨result, request, next, called, effect⟩ :=
            ncclIbIrecv_effect withstands.inside recvs
          have same : some next = some comm := by
            rw [← moved]
            simp only [RecvComm.step, called, RecvComm.returned]
          exact Option.some.inj same ▸ withstands.irecv effect
        | iflush recvs =>
          obtain ⟨result, request, next, called, effect⟩ :=
            ncclIbIflush_effect setup watched.comm recvs
          have same : some next = some comm := by
            rw [← moved]
            simp only [RecvComm.step, called, RecvComm.returned]
          exact Option.some.inj same ▸ withstands.iflush effect
        | complete position immData =>
          obtain ⟨ep, completed, rfl⟩ := Option.map_eq_some_iff.mp moved
          constructor
          · exact Endpoint.Withstands.complete RecvHolds.resilient withstands completed
          · obtain ⟨_, _, rfl⟩ := Option.map_eq_some_iff.mp completed
            exact ⟨rfl, rfl⟩
        | test i =>
          have moved : watched.comm.test setup i = some comm := moved
          simp only [RecvComm.test] at moved
          split at moved
          · simp at moved
          · split at moved
            · rename_i tested
              rw [← Option.some.inj moved]
              exact withstands.test tested
            · simp at moved
      exact ⟨kept.1, recorded.same kept.2⟩
    | irecvFails posts recvs =>
      obtain ⟨comm, failed, rfl⟩ := Option.map_eq_some_iff.mp stepped
      obtain ⟨kept, same⟩ := withstands.irecvFails failed
      exact ⟨kept, recorded.same same⟩
    | iflushFails posts recvs =>
      obtain ⟨comm, failed, rfl⟩ := Option.map_eq_some_iff.mp stepped
      obtain ⟨kept, same⟩ := withstands.iflushFails failed
      exact ⟨kept, recorded.same same⟩
    | suffers fault =>
      obtain ⟨ep, suffered, rfl⟩ := Option.map_eq_some_iff.mp stepped
      exact Endpoint.Withstands.suffer RecvHolds.resilient withstands recorded permitted suffered

/-! ## The main result -/

section

variable (send : SendSetup) (calls : Calls) (recv : RecvSetup)

/-- In every run of a send comm or a receive comm whose tests notice the fatal events of
devices, a test of a request that a recorded fatal event concerns returns an error. -/
theorem fatal_propagation (sendAsync : send.asyncEvents = true)
    (recvAsync : recv.asyncEvents = true) (announced : ∀ call, Announced call (calls call)) :
    (∀ watched,
      (faultySending send calls).Reaches (fun state event => event.Heeds state) watched →
      ∀ i, Heeded watched.comm.comm.ep i →
        Concerned watched.events watched.comm.comm.ep i →
          (watched.comm.comm.ep.ncclIbTest send.asyncEvents i).Failed) ∧
    (∀ watched, (faultyReceiving recv).Reaches (fun state event => event.Heeds state) watched →
      ∀ i, Heeded watched.comm.ep i → Concerned watched.events watched.comm.ep i →
        (watched.comm.ep.ncclIbTest recv.asyncEvents i).Failed) := by
  constructor
  · intro watched reached i heeded concerned
    obtain ⟨withstands, recorded⟩ := faultySending_withstands announced reached
    rw [sendAsync]
    exact concerned.failed SendHolds.resilient withstands recorded heeded
  · intro watched reached i heeded concerned
    obtain ⟨withstands, recorded⟩ := faultyReceiving_withstands reached
    rw [recvAsync]
    exact concerned.failed RecvHolds.resilient withstands recorded heeded

end

/-- The pair of receives is answered, and the first of its two messages on the wire
completes before a fatal event of the device it went over. -/
def answeredThenFatal : Watched Sending :=
  ((faultySending twoDevices.send pairOfRecvs).replay ⟨⟨.initial, []⟩, []⟩
    [.call (.announce 0 0), .call (.announce 0 1), .call (.isend 65536 80 2 (fun _ => 9)),
      .call (.isend 32768 80 1 (fun _ => 9)), .call (.complete 0),
      .suffers (.event ⟨.deviceFatal, 0, false⟩)]).get (by decide)

theorem answeredThenFatal_reached : (faultySending twoDevices.send pairOfRecvs).Reaches
    (fun state event => event.Heeds state) answeredThenFatal := by
  have start : (faultySending twoDevices.send pairOfRecvs).Reaches
      (fun state event => event.Heeds state) ⟨⟨.initial, []⟩, []⟩ :=
    .start ⟨SendComm.initial_fresh, rfl, rfl⟩
  exact start.replay _ (by decide) (Option.some_get _).symm

/-- A receive is posted when a queue pair has a fatal error. -/
def receivingThenFatal : Watched RecvComm :=
  ((faultyReceiving twoDevices.recv).replay ⟨.initial, []⟩
    [.call (.irecv [⟨4096, 100, 7, fun _ => 5⟩]),
      .suffers (.event ⟨.qpFatal, 1, true⟩)]).get (by decide)

theorem receivingThenFatal_reached : (faultyReceiving twoDevices.recv).Reaches
    (fun state event => event.Heeds state) receivingThenFatal := by
  have start : (faultyReceiving twoDevices.recv).Reaches
      (fun state event => event.Heeds state) ⟨.initial, []⟩ :=
    .start ⟨⟨Endpoint.initial_fresh none none, rfl, rfl, rfl⟩, rfl⟩
  exact start.replay _ (by decide) (Option.some_get _).symm

/-- Both tests return an error: the send's, which finds the completion, and the
receive's, which looks at its comm. -/
theorem fatal_propagation_noticed :
    (answeredThenFatal.comm.comm.ep.ncclIbTest true 0).Failed ∧
      (receivingThenFatal.comm.ep.ncclIbTest true 0).Failed := by
  obtain ⟨send, recv⟩ := fatal_propagation twoDevices.send pairOfRecvs twoDevices.recv rfl rfl
    pairOfRecvs_announced
  constructor
  · refine send _ answeredThenFatal_reached 0 (by decide) ?_
    exact ⟨0, by decide, Or.inr ⟨⟨.deviceFatal, 0, false⟩, by decide, rfl, rfl⟩⟩
  · refine recv _ receivingThenFatal_reached 0 (by decide) ?_
    exact ⟨0, by decide, Or.inl ⟨⟨.qpFatal, 1, true⟩, by decide, rfl, by decide⟩⟩

/-- The pair of receives is answered, and its device has a fatal event before anything
completes. -/
def silentlyFatal : Watched Sending :=
  ((faultySending twoDevices.send pairOfRecvs).replay ⟨⟨.initial, []⟩, []⟩
    [.call (.announce 0 0), .call (.announce 0 1), .call (.isend 65536 80 2 (fun _ => 9)),
      .call (.isend 32768 80 1 (fun _ => 9)),
      .suffers (.event ⟨.deviceFatal, 0, false⟩)]).get (by decide)

/-- A fatal event of a device that no completion follows is not reported. -/
theorem fatal_propagation_silent :
    ¬ ∀ (setup : SendSetup) (calls : Calls), setup.asyncEvents = true →
      (∀ call, Announced call (calls call)) → ∀ watched,
      (faultySending setup calls).Reachable watched → ∀ i,
        Concerned watched.events watched.comm.comm.ep i →
          (watched.comm.comm.ep.ncclIbTest setup.asyncEvents i).Failed := by
  intro always
  have start : (faultySending twoDevices.send pairOfRecvs).Reachable ⟨⟨.initial, []⟩, []⟩ :=
    .start ⟨SendComm.initial_fresh, rfl, rfl⟩
  have reached : (faultySending twoDevices.send pairOfRecvs).Reachable silentlyFatal :=
    start.replay _ (Option.some_get _).symm
  have concerned : Concerned silentlyFatal.events silentlyFatal.comm.comm.ep 0 :=
    ⟨0, by decide, Or.inr ⟨⟨.deviceFatal, 0, false⟩, by decide, rfl, rfl⟩⟩
  obtain ⟨result, ep, returned, failed⟩ := always twoDevices.send pairOfRecvs rfl
    pairOfRecvs_announced silentlyFatal reached 0 concerned
  have quiet : ∃ ep, silentlyFatal.comm.comm.ep.ncclIbTest twoDevices.send.asyncEvents 0 =
      .returned .ncclSuccess false [] ep := ⟨_, rfl⟩
  obtain ⟨_, quiet⟩ := quiet
  rw [quiet] at returned
  injection returned with isResult
  exact failed isResult.symm

end NcclExts.Unet
