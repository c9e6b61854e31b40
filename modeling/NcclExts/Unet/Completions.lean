import NcclExts.Unet.Receiving

/-!
# Completion accounting

In every run of either kind of comm the events of a request are the completions that
are still to be polled for it, counting those that a matched but not yet posted message
will have. The checks inside a test therefore never fail, a test reports a request done
exactly when nothing more can complete for it, and a request that is handed out again
is named by nothing.
-/

namespace NcclExts.Unet

open NcclExts.Foundation NcclExts.Ucommd

/-- The completions of a comm are accounted for, given what it owes its requests. -/
structure CompletionsCounted (asyncEvents : Bool) (owed : ReqId → Dev → Nat) (ep : Endpoint) :
    Prop where
  events : ∀ i, (ep.reqs i).type ≠ .unused → ∀ dev,
    (ep.reqs i).events dev = (ep.outstanding i dev + owed i dev : Nat)
  tested : ∀ i, (ep.reqs i).type ≠ .unused → ∃ done sizes after,
    ep.ncclIbTest asyncEvents i = .returned .ncclSuccess done sizes after ∧
      (done = true ↔ (∀ posting ∈ ep.posted, i ∉ posting.names) ∧ ∀ dev, owed i dev = 0)
  polled : ∀ dev wc rest, ep.cqs dev = wc :: rest →
    ((ep.setCq dev rest).handleWc dev wc).result = .ncclSuccess
  handedOut : ∀ i after, ep.ncclIbGetRequest = some (i, after) → ∀ dev,
    ep.outstanding i dev = 0 ∧ owed i dev = 0

theorem Endpoint.Accounted.completionsCounted {owed : ReqId → Dev → Nat} {ep : Endpoint}
    (accounted : ep.Accounted owed) (asyncEvents : Bool) :
    CompletionsCounted asyncEvents owed ep := by
  refine ⟨fun i _ => accounted.counted i, ?_, ?_, ?_⟩
  · intro i _
    obtain ⟨done, sizes, settled, _, _, result, _, _, doneIff⟩ := accounted.test asyncEvents i
    exact ⟨done, sizes, _, result, doneIff⟩
  · intro dev wc rest head
    rw [(accounted.settle head).1]
  · intro i after got
    exact accounted.unused (Endpoint.ncclIbGetRequest_some got).1

/-- In every state that a send comm or a receive comm can reach, its completions are
accounted for. A receive comm owes its requests nothing, and a send comm owes a matched
send the completions of its message. -/
theorem completion_accounting :
    (∀ (setup : SendSetup) (calls : Calls), (∀ call, Announced call (calls call)) →
      ∀ state, (sending setup calls).Reachable state →
        CompletionsCounted setup.asyncEvents (state.comm.owed setup) state.comm.ep) ∧
    (∀ (setup : RecvSetup) (comm : RecvComm), (receiving setup).Reachable comm →
      CompletionsCounted setup.asyncEvents (fun _ _ => 0) comm.ep) := by
  constructor
  · intro setup calls announced state reached
    exact (sending_ok announced reached).accounted.completionsCounted setup.asyncEvents
  · intro setup comm reached
    exact (receiving_ok reached).accounted.completionsCounted setup.asyncEvents

/-- Two devices with a queue pair each, that carry every message together. -/
def twoDevices : CommSetup :=
  { ndevs := 2, nqps := 2, qps := fun q => ⟨Fin.ofNat 2 q, Fin.ofNat 2 q⟩, splitDataOnQps := false
    asyncEvents := true, ready := true, someDev := Nat.zero_lt_two, atMostTwo := twoDevs_le
    someQp := Nat.zero_lt_two, onDevs := fun q => (Fin.ofNat 2 q).isLt }

def twoDevices.send : SendSetup :=
  { toCommSetup := twoDevices, peerRank := 1, ar := false, arThreshold := 8192
    sizesLkeys := fun _ => 5, sizesRkeys := fun _ => 6, narrow := wrapInt }

/-- The receiver's end of the connection over two devices. -/
def twoDevices.recv : RecvSetup :=
  { toCommSetup := twoDevices, fifoRkeys := fun _ => 3, fifoLkeys := fun _ => 4
    flushEnabled := true, flushLkeys := fun _ => 8 }

def RecvComm.initial : RecvComm :=
  { ep := Endpoint.initial none none, devIndex := 0, fifoTail := 0, elems := fun _ _ => .zero }

/-- The peer posts one call, a group of two receives. -/
def pairOfRecvs : Calls := fun call =>
  if call = 0 then
    [⟨4096, 100, fun _ => 7, 2, 1, 1⟩, ⟨8192, 50, fun _ => 7, 2, 2, 1⟩]
  else []

theorem pairOfRecvs_announced (call : Nat) : Announced call (pairOfRecvs call) := by
  by_cases first : call = 0
  · subst first
    exact ⟨by decide, by decide⟩
  · simp only [pairOfRecvs, if_neg first]
    exact ⟨by decide, by simp⟩

/-- A send comm as connecting leaves it. -/
def SendComm.initial : SendComm :=
  { ep := Endpoint.initial none none, fifo := fun _ _ => .zero, fifoReqs := fun _ _ => none
    fifoHead := 0, elems := fun _ _ => 0 }

theorem SendComm.initial_fresh : SendComm.initial.Fresh :=
  ⟨Endpoint.initial_fresh none none, rfl, rfl, rfl, rfl⟩

/-- The pair of receives is announced and the second of them has its send. -/
def halfMatched : Sending :=
  ((sending twoDevices.send pairOfRecvs).replay ⟨.initial, []⟩
    [.announce 0 0, .announce 0 1, .isend 65536 80 2 (fun _ => 9)]).get (by decide)

theorem halfMatched_reached : (sending twoDevices.send pairOfRecvs).Reachable halfMatched :=
  have start : (sending twoDevices.send pairOfRecvs).Reachable ⟨.initial, []⟩ :=
    .start ⟨SendComm.initial_fresh, rfl⟩
  start.replay _ (Option.some_get _).symm

/-- The matched half waits on both devices though nothing is posted, and is not done. -/
theorem completion_accounting_halfMatched :
    (halfMatched.comm.ep.reqs 0).events 0 = 1 ∧ (halfMatched.comm.ep.reqs 0).events 1 = 1 ∧
      halfMatched.comm.ep.posted = [] ∧
      ∃ sizes after, halfMatched.comm.ep.ncclIbTest true 0 =
        .returned .ncclSuccess false sizes after := by
  have counted := completion_accounting.1 twoDevices.send pairOfRecvs pairOfRecvs_announced
    halfMatched halfMatched_reached
  have inUse : (halfMatched.comm.ep.reqs 0).type ≠ .unused := by decide
  refine ⟨?_, ?_, rfl, ?_⟩
  · rw [counted.events 0 inUse 0]
    decide
  · rw [counted.events 0 inUse 1]
    decide
  · obtain ⟨done, sizes, after, result, doneIff⟩ := counted.tested 0 inUse
    refine ⟨sizes, after, ?_⟩
    cases done with
    | false => exact result
    | true => exact absurd ((doneIff.mp rfl).2 0) (by decide)

end NcclExts.Unet
