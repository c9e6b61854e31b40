import NcclExts.Unet.Cleanup
import NcclExts.Unet.Gauges

/-!
# The runs of a process

A process listens, connects and accepts on as many handles and listen comms as it likes,
registers and deregisters memory on the comms it was returned, and closes them, in any
order. The gauges are exact in every run in which the ib stat is obtained while nothing
they count is live, and a deregistration does not fail in verbs.
-/

namespace NcclExts.Unet

open NcclExts.Foundation NcclExts.Ucommd

/-- A comm that a call returned. -/
structure OpenComm where
  isSend : Bool
  comm : SetupComm

/-- A process between two calls: the attempts that its handles and listen comms keep, and
the comms it was returned. -/
structure Host where
  perf : PerfProcess
  handles : Nat → NcclIbCommStage × SetupComm
  listens : Nat → Option ListenComm
  opened : Nat → Option OpenComm

/-- A call of the process; the comm it returns is kept under `key`. -/
inductive HostEvent where
  | listen (listen : Nat) (family : SockFamily) (answers : ListenAnswers)
  | connect (handle key : Nat) (config : Config) (addr : ConnectAddr) (answers : Answers)
  | accept (listen key : Nat) (config : Config) (answers : Answers)
  | regMr (key : Nat) (request : RegRequest)
  | deregMr (key : Nat) (mhandles : Nat → Nat) (deregOk : Nat → Bool)
  | close (key : Nat) (answers : CloseAnswers)

namespace Host

def process (host : Host) : Process := host.perf.process

/-- A process that has made no call yet, on devices whose caches are empty. -/
def start (ibDevs : Fin 32 → NcclIbDev) : Host where
  perf :=
    { process := { ibDevs := ibDevs, cqs := [], qps := [], mrs := [], fds := [], comms := [],
                   ibStat := none }
      perfFailed := false }
  handles := fun _ => (.clean, .zero 0)
  listens := fun _ => none
  opened := fun _ => none

/-- What a call left of the process. -/
def setProcess (host : Host) (process : Process) : Host := { host with perf.process := process }

/-- What a call to connect or accept returned: a comm is kept, and a call that waits for a
transfer has not returned. -/
def keep (host : Host) (key : Nat) (comm : OpenComm) : Returned → Option Host
  | .again | .error _ _ => some host
  | .done _ => some { host with opened := Function.update host.opened key (some comm) }
  | .waiting => none

def listen (host : Host) (key : Nat) (family : SockFamily) (answers : ListenAnswers) : Host :=
  let (comm, perf) := host.perf.ncclIbListen family answers
  { host with perf := perf, listens := Function.update host.listens key comm }

def connect (host : Host) (handle key : Nat) (config : Config) (addr : ConnectAddr)
    (answers : Answers) : Option Host :=
  let (stage, comm) := host.handles handle
  let (returned, after) := ncclIbConnect config addr answers ⟨host.process, stage, comm⟩
  keep { host.setProcess after.process with
    handles := Function.update host.handles handle (after.stage, after.comm) }
    key ⟨true, after.comm⟩ returned

def accept (host : Host) (listen key : Nat) (config : Config) (answers : Answers) :
    Option Host := do
  let ⟨sock, stage, comm⟩ ← host.listens listen
  let (returned, after) := ncclIbAccept config sock answers ⟨host.process, stage, comm⟩
  keep { host.setProcess after.process with
    listens := Function.update host.listens listen (some ⟨sock, after.stage, after.comm⟩) }
    key ⟨false, after.comm⟩ returned

/-- A registration that accesses a cache out of bounds is not a step. -/
def regMr (host : Host) (key : Nat) (request : RegRequest) : Option Host := do
  let ⟨_, comm⟩ ← host.opened key
  match ProcessCall.ncclIbRegMrDmaBuf comm request host.process with
  | .ok _ after => some (host.setProcess after)
  | .error (.error _) after => some (host.setProcess after)
  | .error .outside _ => none

def deregMr (host : Host) (key : Nat) (mhandles : Nat → Nat) (deregOk : Nat → Bool) :
    Option Host := do
  let ⟨_, comm⟩ ← host.opened key
  match ProcessCall.ncclIbDeregMr comm mhandles deregOk host.process with
  | .ok _ after => some (host.setProcess after)
  | .error _ after => some (host.setProcess after)

/-- A comm whose closing fails is still there, and can be closed again. -/
def close (host : Host) (key : Nat) (answers : CloseAnswers) : Option Host := do
  let ⟨isSend, comm⟩ ← host.opened key
  let call := if isSend then ProcessCall.ncclIbCloseSend comm answers
    else ProcessCall.ncclIbCloseRecv comm answers
  match call host.process with
  | .ok _ after =>
    some { host.setProcess after with opened := Function.update host.opened key none }
  | .error _ after => some (host.setProcess after)

def step (host : Host) : HostEvent → Option Host
  | .listen listen family answers => some (host.listen listen family answers)
  | .connect handle key config addr answers => host.connect handle key config addr answers
  | .accept listen key config answers => host.accept listen key config answers
  | .regMr key request => host.regMr key request
  | .deregMr key mhandles deregOk => host.deregMr key mhandles deregOk
  | .close key answers => host.close key answers

end Host

/-- The calls of a process, in any order. -/
def hosting : System Host HostEvent where
  starts := fun host => ∃ ibDevs, (∀ ibDevN, (ibDevs ibDevN).mrCache = .empty) ∧
    host = .start ibDevs
  step := Host.step

/-- A call to listen obtains the ib stat. -/
def PerfProcess.Obtains (perf : PerfProcess) (family : SockFamily) (answers : ListenAnswers) :
    Prop :=
  perf.process.ibStat = none ∧ perf.perfFailed = false ∧ answers.Listens family ∧
    initStats answers.env answers.pid answers.ibMemory answers.bwMemory ≠ none

/-- The ib stat is obtained only while nothing is live, and deregistering succeeds. -/
def HostEvent.Counted (host : Host) : HostEvent → Prop
  | .listen _ family answers => host.perf.Obtains family answers → host.process.Idle
  | .deregMr _ _ deregOk => ∀ i, deregOk i = true
  | _ => True

/-- Whatever the call asks of verbs succeeds, and so does creating the stats. -/
def HostEvent.Succeeds : HostEvent → Prop
  | .listen _ _ answers =>
    initStats answers.env answers.pid answers.ibMemory answers.bwMemory ≠ none
  | .connect _ _ _ _ answers => ∀ point, answers.outcome point ≠ none
  | .accept _ _ _ answers => ∀ point, answers.outcome point ≠ none
  | .regMr _ request => ∀ i, request.registered i ≠ none
  | .deregMr _ _ deregOk => ∀ i, deregOk i = true
  | .close _ answers => (∀ slot, answers.destroyQp slot = true) ∧
      (∀ slot, answers.deregMr slot = true) ∧ (∀ i, answers.destroyCq i = true) ∧
      ∀ i, answers.deallocPd i = true

/-! ## Every call leaves the gauges exact -/

/-- The socket that a listen comm is given has an address, a descriptor, and is
nonblocking. -/
theorem Setup.ncclSocketInit_ok {answers : Answers} {family : SockFamily} {magic type : Nat}
    {attempt after : Attempt}
    (ran : ncclSocketInit answers (some family) magic type attempt = .ok ⟨⟩ after) :
    (∀ other, family ≠ .other other) ∧ answers.outcome .socket ≠ none ∧
      answers.outcome .fcntl ≠ none := by
  have opened : Meets (fun _ => True) (openSocket answers)
      (fun _ _ => answers.outcome .socket ≠ none ∧ answers.outcome .fcntl ≠ none)
      (fun _ _ => True) := by
    unfold openSocket
    apply Meets.bind fun _ _ => answers.outcome .socket ≠ none
    · unfold demand
      split
      next fd given => exact Meets.pure fun _ _ => by simp [given]
      next => exact Meets.throw fun _ _ => True.intro
    intro fd
    apply Meets.bind fun _ _ => answers.outcome .socket ≠ none
    · exact Meets.modify fun _ => id
    intro _
    apply Meets.ite
    · intro _
      apply Meets.bind fun _ _ => True
      · exact Meets.modify fun _ _ => True.intro
      · exact fun _ => Meets.throw fun _ _ => True.intro
    · intro nonblocking
      exact Meets.pure fun _ socket => ⟨socket, nonblocking⟩
  have meets : Meets (fun _ => True) (ncclSocketInit answers (some family) magic type)
      (fun _ _ => (∀ other, family ≠ .other other) ∧ answers.outcome .socket ≠ none ∧
        answers.outcome .fcntl ≠ none) (fun _ _ => True) := by
    unfold ncclSocketInit
    apply Meets.bind fun _ _ => True
    · exact Meets.modify fun _ _ => True.intro
    intro _
    cases family with
    | other => exact Meets.throw fun _ _ => True.intro
    | inet => exact opened.weaken (fun _ => id) (fun _ _ met => ⟨nofun, met⟩) fun _ _ => id
    | inet6 => exact opened.weaken (fun _ => id) (fun _ _ met => ⟨nofun, met⟩) fun _ _ => id
  have met := meets attempt True.intro
  rw [ran] at met
  exact met

namespace PerfProcess

/-- The socket of a listen comm changes the descriptors only. -/
def SameGauges (before after : Process) : Prop :=
  after.ibStat = before.ibStat ∧ ∀ gauge, after.live gauge = before.live gauge

theorem ncclIbListen_exact {perf : PerfProcess} (family : SockFamily) (answers : ListenAnswers)
    (exact : perf.process.Exact)
    (counted : perf.Obtains family answers → perf.process.Idle) :
    (perf.ncclIbListen family answers).2.process.Exact := by
  have kept : Keeps (fun attempt => SameGauges perf.process attempt.process) (fun _ => True)
      (Setup.ncclSocketInit answers.init (some family) ncclSocketMagic ncclSocketTypeNetIb) :=
    Setup.ncclSocketInit_keeps (fun _ _ _ same => same) _ _ _ _
  have met := kept ⟨perf.process, .clean, .zero 0⟩ ⟨rfl, fun _ => rfl⟩
  unfold ncclIbListen
  split
  next => exact exact
  next mallocOk =>
    split
    next exit after ran =>
      rw [ran] at met
      exact exact.same met.1.1 met.1.2
    next value after ran =>
      rw [ran] at met
      obtain ⟨family, socket, fcntl⟩ := Setup.ncclSocketInit_ok ran
      split
      next => exact exact.same met.1 met.2
      next listenOk =>
        have listens : answers.Listens _ :=
          ⟨by simpa using mallocOk, family, socket, fcntl, by simpa using listenOk⟩
        apply obtainIbStat_exact
        · exact exact.same met.1 met.2
        intro unset working created gauge
        have idle := counted ⟨met.1 ▸ unset, working, listens, created⟩
        exact (met.2 gauge).trans (idle gauge)

end PerfProcess

namespace Host

variable {host after : Host}

theorem keep_exact {key : Nat} {comm : OpenComm} {returned : Returned}
    (exact : host.process.Exact) (kept : host.keep key comm returned = some after) :
    after.process.Exact := by
  cases returned with
  | again => exact Option.some.inj kept ▸ exact
  | error point result => exact Option.some.inj kept ▸ exact
  | done address => exact Option.some.inj kept ▸ exact
  | waiting => exact nomatch kept

theorem connect_exact {handle key : Nat} {config : Config} {addr : ConnectAddr}
    {answers : Answers} (exact : host.process.Exact)
    (stepped : host.connect handle key config addr answers = some after) :
    after.process.Exact := by
  unfold connect at stepped
  apply keep_exact _ stepped
  apply Attempt.finish_exact
  · exact fun _ => rfl
  · exact Setup.exact_connectFrom config addr answers _
  · exact exact

theorem accept_exact {listen key : Nat} {config : Config} {answers : Answers}
    (exact : host.process.Exact) (stepped : host.accept listen key config answers = some after) :
    after.process.Exact := by
  simp only [accept, Option.bind_eq_bind, Option.bind_eq_some_iff] at stepped
  obtain ⟨⟨sock, stage, comm⟩, _, kept⟩ := stepped
  apply keep_exact _ kept
  apply Attempt.finish_exact
  · exact fun _ => rfl
  · exact Setup.exact_acceptFrom config sock answers _
  · exact exact

theorem regMr_exact {key : Nat} {request : RegRequest} (exact : host.process.Exact)
    (stepped : host.regMr key request = some after) : after.process.Exact := by
  simp only [regMr, Option.bind_eq_bind, Option.bind_eq_some_iff] at stepped
  obtain ⟨⟨isSend, comm⟩, _, called⟩ := stepped
  have keeps := ProcessCall.ncclIbRegMrDmaBuf_keeps comm request
  split at called
  next process ran =>
    exact Option.some.inj called ▸ keeps.after_ok exact ran
  next process ran =>
    exact Option.some.inj called ▸ (keeps.after_error exact ran).1
  next => exact nomatch called

theorem deregMr_exact {key : Nat} {mhandles : Nat → Nat} {deregOk : Nat → Bool}
    (exact : host.process.Exact) (succeeds : ∀ i, deregOk i = true)
    (stepped : host.deregMr key mhandles deregOk = some after) : after.process.Exact := by
  simp only [deregMr, Option.bind_eq_bind, Option.bind_eq_some_iff] at stepped
  obtain ⟨⟨isSend, comm⟩, _, called⟩ := stepped
  have keeps := ProcessCall.ncclIbDeregMr_keeps comm mhandles succeeds
  split at called
  next process ran =>
    exact Option.some.inj called ▸ keeps.after_ok exact ran
  next process ran =>
    exact Option.some.inj called ▸ (keeps.after_error exact ran).1

theorem close_exact {key : Nat} {answers : CloseAnswers} (exact : host.process.Exact)
    (stepped : host.close key answers = some after) : after.process.Exact := by
  simp only [close, Option.bind_eq_bind, Option.bind_eq_some_iff] at stepped
  obtain ⟨⟨isSend, comm⟩, _, called⟩ := stepped
  have keeps : Keeps Process.Exact (fun _ => True)
      (if isSend then ProcessCall.ncclIbCloseSend comm answers
        else ProcessCall.ncclIbCloseRecv comm answers) :=
    Keeps.ite (fun _ => ProcessCall.ncclIbCloseSend_keeps comm answers)
      (fun _ => ProcessCall.ncclIbCloseRecv_keeps comm answers)
  split at called
  next process ran =>
    exact Option.some.inj called ▸ keeps.after_ok exact ran
  next process ran =>
    exact Option.some.inj called ▸ (keeps.after_error exact ran).1

/-- A call whose condition holds leaves the gauges exact. -/
theorem step_exact {event : HostEvent} (exact : host.process.Exact)
    (counted : event.Counted host) (stepped : host.step event = some after) :
    after.process.Exact := by
  cases event with
  | listen key family answers =>
    rw [← Option.some.inj stepped]
    exact PerfProcess.ncclIbListen_exact family answers exact counted
  | connect handle key config addr answers => exact connect_exact exact stepped
  | accept key listen config answers => exact accept_exact exact stepped
  | regMr key request => exact regMr_exact exact stepped
  | deregMr key mhandles deregOk => exact deregMr_exact exact counted stepped
  | close key answers => exact close_exact exact stepped

end Host

/-- In every run in which the ib stat is obtained while nothing is live, each counter of
the stat reads the number of live objects, at every moment after. -/
theorem gauges_exact {host : Host} (reached : hosting.Reaches
    (fun host event => event.Counted host) host) {stat : Stat}
    (obtained : host.process.ibStat = some stat) (gauge : Gauge) :
    stat.get gauge.name = some (UInt64.ofNat (host.process.live gauge)) := by
  have exact : host.process.Exact := by
    apply reached.invariant
    · rintro _ ⟨ibDevs, _, rfl⟩ stat isStat
      exact nomatch isStat
    · intro state event after _ exact counted stepped
      exact state.step_exact exact counted stepped
  obtain ⟨listed, counts⟩ := exact stat obtained
  rw [Stat.get, gauge.find listed, Option.map_some, counts]

/-- Everything succeeds, and the queue pairs are told apart. -/
def Answers.complete : Answers :=
  { outcome := fun point =>
      match point with
      | .createQp (.data q) => some (10 + q)
      | _ => some 1
    socket := fun _ => .sample .again, sendMeta := [.bytes 4], recvMeta := [.bytes [0, 0, 0, 0]]
    sendReady := [.bytes 4], recvReady := [] }

/-- Listening with everything in place, in a process that knows no rank. -/
def ListenAnswers.complete : ListenAnswers :=
  { mallocOk := true, init := .complete, listenOk := true, pid := 7
    env := ⟨-1, -1, -1, -1⟩, ibMemory := some fun _ => 0, bwMemory := none }

def CloseAnswers.complete : CloseAnswers :=
  ⟨fun _ => true, fun _ => true, fun _ => true, fun _ => true⟩

namespace HostEvent

def listenFirst : HostEvent := .listen 0 .inet .complete

def connectFirst : HostEvent := .connect 0 0 .sample ⟨.inet, 1⟩ .complete

/-- One page, registered on the device of the comm. -/
def regFirst : HostEvent :=
  .regMr 0 ⟨.small, false, 8192, 4096, 0, -1, fun _ => true, fun _ => some 5⟩

def closeFirst : HostEvent := .close 0 .complete

theorem closeFirst_succeeds : closeFirst.Succeeds :=
  ⟨fun _ => rfl, fun _ => rfl, fun _ => rfl, fun _ => rfl⟩

theorem listenFirst_succeeds : listenFirst.Succeeds := by
  unfold listenFirst Succeeds
  decide

theorem connectFirst_succeeds : connectFirst.Succeeds := by
  intro point
  cases point with
  | createQp slot => cases slot <;> nofun
  | _ => nofun

end HostEvent

/-- A process that made no call. -/
def Host.sample : Host := .start fun _ => .idle

theorem Host.sample_starts : hosting.starts .sample := ⟨_, fun _ => rfl, rfl⟩

theorem Host.sample_idle : Host.sample.process.Idle := by
  intro gauge
  cases gauge with
  | cq => rfl
  | qp => rfl
  | mr => decide +kernel

/-- The process listens, connects, and registers a page. -/
def listeningHost : Host := Host.sample.listen 0 .inet .complete

def connectedHost : Host := (listeningHost.step .connectFirst).get (by decide +kernel)

def registeredHost : Host := (connectedHost.step .regFirst).get (by decide +kernel)

/-- With a completion queue, two queue pairs and a page. -/
theorem gauges_exact_registered : ∃ stat, registeredHost.process.ibStat = some stat ∧
    stat.get "cq_count" = some 1 ∧ stat.get "qp_count" = some 2 ∧
      stat.get "mr_count" = some 1 := by
  have started : hosting.Reaches (fun host event => event.Counted host) .sample :=
    .start Host.sample_starts
  have idle : HostEvent.listenFirst.Counted .sample := fun _ => Host.sample_idle
  have listening : hosting.Reaches (fun host event => event.Counted host) listeningHost :=
    started.next idle rfl
  have counted : HostEvent.connectFirst.Counted listeningHost := True.intro
  have connected : hosting.Reaches (fun host event => event.Counted host) connectedHost :=
    listening.next counted (Option.some_get _).symm
  have again : HostEvent.regFirst.Counted connectedHost := True.intro
  have registered : hosting.Reaches (fun host event => event.Counted host) registeredHost :=
    connected.next again (Option.some_get _).symm
  have obtained : registeredHost.process.ibStat =
      some (registeredHost.process.ibStat.get (by decide +kernel)) := (Option.some_get _).symm
  have exact := gauges_exact registered obtained
  have live : registeredHost.process.live .cq = 1 ∧ registeredHost.process.live .qp = 2 ∧
      registeredHost.process.live .mr = 1 := by decide +kernel
  refine ⟨_, obtained, ?_, ?_, ?_⟩
  · exact (exact .cq).trans (by rw [live.1]; rfl)
  · exact (exact .qp).trans (by rw [live.2.1]; rfl)
  · exact (exact .mr).trans (by rw [live.2.2]; rfl)

/-- The process connects before it listens for the first time, and closes the comm. -/
def earlyHost : Host := (Host.sample.step .connectFirst).get (by decide +kernel)

def closedHost : Host :=
  ((earlyHost.listen 0 .inet .complete).step .closeFirst).get (by decide +kernel)

/-- The completion queue and the queue pairs are counted down from nothing. -/
theorem gauges_wrapped : ¬ ∀ host, hosting.Reaches (fun _ event => event.Succeeds) host →
    ∀ stat, host.process.ibStat = some stat → ∀ gauge : Gauge,
      stat.get gauge.name = some (UInt64.ofNat (host.process.live gauge)) := by
  intro always
  have started : hosting.Reaches (fun _ event => event.Succeeds) .sample :=
    .start Host.sample_starts
  have early : hosting.Reaches (fun _ event => event.Succeeds) earlyHost :=
    started.next HostEvent.connectFirst_succeeds (Option.some_get _).symm
  have listening : hosting.Reaches (fun _ event => event.Succeeds)
      (earlyHost.listen 0 .inet .complete) :=
    early.next HostEvent.listenFirst_succeeds rfl
  have closed : hosting.Reaches (fun _ event => event.Succeeds) closedHost :=
    listening.next HostEvent.closeFirst_succeeds (Option.some_get _).symm
  have counted := always closedHost closed _ (Option.some_get (by decide +kernel)).symm .cq
  exact absurd counted (by decide +kernel)

end NcclExts.Unet
