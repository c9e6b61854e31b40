import NcclExts.Foundation.LazyCells
import NcclExts.Foundation.Recording
import NcclExts.Unet.InitFailure

/-!
# Threads that initialize

Initialization looks at the number of devices without the lock, and takes the lock and
looks again when there is none yet. The thread that finds none sets the number at once and
builds the tables behind it, entering one port after the other, and perhaps all of them
again. Meanwhile the number tells other threads that there is nothing to do.
-/

namespace NcclExts.Unet

open NcclExts.Foundation

namespace IbInit

/-- The loop over the ports of a device, as the thread that builds is in it: the device,
whether it can be closed, the ports from a number on, and how many were entered. -/
structure PortLoop where
  device : Nat
  dev : IbvDevice
  closed : Bool
  portNum : Nat
  answers : List PortAnswer
  nPorts : Nat

/-- The loops that build the tables: whether ports are merged, the devices from a number on,
the loop inside, and how the devices answer when the list is built again. -/
structure Building where
  mergeNics : Bool
  device : Nat
  devices : List DeviceAnswer
  ports : Option PortLoop
  again : List DeviceAnswer

/-- What one round of a loop comes to. -/
inductive Round where
  | goesOn (tables : IbTables) (building : Building)
  | ends (result : NcclResult) (tables : IbTables)

/-- One round of the loop over the ports, or its end; `none` when what happens is undefined. -/
def PortLoop.round (env : IbEnv) (building : Building) (loop : PortLoop) (tables : IbTables) :
    Option Round :=
  match loop.answers with
  | [] =>
    if loop.nPorts = 0 ∧ loop.closed = false then some (.ends .ncclInternalError tables)
    else some (.goesOn tables { building with ports := none })
  | answer :: rest =>
    match answer.port.bind fun port => port.entry env loop.device loop.dev loop.portNum with
    | none =>
      some (.goesOn tables { building with
        ports := some { loop with portNum := loop.portNum + 1, answers := rest } })
    | some entry =>
      match enterPort building.mergeNics answer entry tables with
      | .ok _ after =>
        some (.goesOn after { building with
          ports := some { loop with
            portNum := loop.portNum + 1, answers := rest, nPorts := loop.nPorts + 1 } })
      | .error (.failed result) after => some (.ends result after)
      | .error .undefined _ => none

/-- Behind the loop over the devices: the list is built again when ports of mixed cards were
merged. -/
def Building.check (building : Building) (tables : IbTables) : Round :=
  if building.mergeNics = true ∧ tables.mixed = true then
    .goesOn .empty
      { mergeNics := false, device := 0, devices := building.again, ports := none
        again := building.again }
  else .ends .ncclSuccess tables

/-- The beginning of a round of the loop over the devices. -/
def Building.begin (building : Building) (answer : DeviceAnswer) (rest : List DeviceAnswer)
    (tables : IbTables) : Round :=
  let next := { building with device := building.device + 1, devices := rest }
  if answer.opened = false then .goesOn tables next
  else
    match answer.sysImageGuid with
    | none =>
      if answer.closed = false then .ends .ncclInternalError tables else .goesOn tables next
    | some guid =>
      .goesOn tables { next with
        ports := some
          { device := building.device, dev := answer.seen guid, closed := answer.closed
            portNum := 1, answers := answer.ports, nPorts := 0 } }

/-- One round of the loop that the thread is in. -/
def Building.round (env : IbEnv) (building : Building) (tables : IbTables) : Option Round :=
  match building.ports with
  | some loop => loop.round env building tables
  | none =>
    match building.devices with
    | [] => some (building.check tables)
    | answer :: rest =>
      if tables.ibDevs.length < maxIbDevs then some (building.begin answer rest tables)
      else some (building.check tables)

/-! ## The rounds are those of the loops -/

/-- What is left of the loop over the ports. -/
def PortLoop.rest (env : IbEnv) (mergeNics : Bool) (loop : PortLoop) : Init PUnit := do
  let nPorts ← enterPorts env mergeNics loop.device loop.dev loop.portNum loop.answers
  leaveIf (loop.nPorts + nPorts = 0 ∧ loop.closed = false) (.failed .ncclInternalError)

/-- What is left behind the loop over the devices. -/
def Building.checkRest (env : IbEnv) (building : Building) : Init PUnit := do
  let tables ← get
  if building.mergeNics = true ∧ tables.mixed = true then
    set IbTables.empty
    enterDevices env false 0 building.again
  else pure ⟨⟩

/-- What is left of the loop over the devices. -/
def Building.deviceRest (env : IbEnv) (building : Building) : Init PUnit := do
  enterDevices env building.mergeNics building.device building.devices
  building.checkRest env

/-- What is left of building the tables. -/
def Building.rest (env : IbEnv) (building : Building) : Init PUnit :=
  match building.ports with
  | some loop => do
    loop.rest env building.mergeNics
    building.deviceRest env
  | none => building.deviceRest env

/-- How a program of the tables ends with a result. -/
def endsWith (result : NcclResult) (tables : IbTables) : EStateM.Result InitExit IbTables PUnit :=
  if result = .ncclSuccess then .ok ⟨⟩ tables else .error (.failed result) tables

/-- A round keeps how building ends. -/
def Round.Keeps (env : IbEnv) (ending : EStateM.Result InitExit IbTables PUnit) : Round → Prop
  | .goesOn tables building => building.rest env tables = ending
  | .ends result tables => endsWith result tables = ending

/-- A first part that ends goes on from where it ends. -/
theorem bind_ok {α β : Type} {first : Init α} {next : α → Init β} {tables after : IbTables}
    {value : α} (ends : first tables = .ok value after) :
    (first >>= next) tables = next value after := by
  change EStateM.bind first next tables = _
  rw [EStateM.bind, ends]

/-- A first part that leaves is left. -/
theorem bind_error {α β : Type} {first : Init α} {next : α → Init β} {tables after : IbTables}
    {exit : InitExit} (leaves : first tables = .error exit after) :
    (first >>= next) tables = .error exit after := by
  change EStateM.bind first next tables = _
  rw [EStateM.bind, leaves]

theorem leaveIf_pos {condition : Prop} [Decidable condition] (holds : condition)
    (exit : InitExit) (tables : IbTables) :
    (leaveIf condition exit : Init PUnit) tables = .error exit tables := by
  rw [leaveIf, if_pos holds]
  rfl

theorem leaveIf_neg {condition : Prop} [Decidable condition] (fails : ¬ condition)
    (exit : InitExit) (tables : IbTables) :
    (leaveIf condition exit : Init PUnit) tables = .ok ⟨⟩ tables := by
  rw [leaveIf, if_neg fails]
  rfl

/-- What is left of a loop that has no port left. -/
theorem PortLoop.rest_nil (env : IbEnv) (mergeNics : Bool) {loop : PortLoop}
    (answers : loop.answers = []) :
    loop.rest env mergeNics =
      leaveIf (loop.nPorts = 0 ∧ loop.closed = false) (.failed .ncclInternalError) := by
  simp [PortLoop.rest, answers, enterPorts]

/-- What is left of a loop whose next port is passed over. -/
theorem PortLoop.rest_none (env : IbEnv) (mergeNics : Bool) {loop : PortLoop}
    {answer : PortAnswer} {rest : List PortAnswer} (answers : loop.answers = answer :: rest)
    (none : (answer.port.bind fun port => port.entry env loop.device loop.dev loop.portNum) = none) :
    loop.rest env mergeNics =
      PortLoop.rest env mergeNics
        { loop with portNum := loop.portNum + 1, answers := rest } := by
  simp only [PortLoop.rest, answers, enterPorts, none]

/-- What is left of a loop whose next port is entered. -/
theorem PortLoop.rest_some (env : IbEnv) (mergeNics : Bool) {loop : PortLoop}
    {answer : PortAnswer} {rest : List PortAnswer} (answers : loop.answers = answer :: rest)
    {entry : IbDevEntry}
    (enters : (answer.port.bind fun port => port.entry env loop.device loop.dev loop.portNum) =
      some entry) :
    loop.rest env mergeNics = (do
      enterPort mergeNics answer entry
      PortLoop.rest env mergeNics
        { loop with
          portNum := loop.portNum + 1, answers := rest, nPorts := loop.nPorts + 1 }) := by
  simp only [PortLoop.rest, answers, enterPorts, enters, bind_assoc, pure_bind]
  refine bind_congr fun _ => bind_congr fun nPorts => ?_
  rw [Nat.add_comm nPorts 1, ← Nat.add_assoc]

theorem PortLoop.round_keeps (env : IbEnv) {building : Building} {loop : PortLoop}
    {tables : IbTables} {round : Round} (within : building.ports = some loop)
    (rounds : loop.round env building tables = some round) :
    round.Keeps env (building.rest env tables) := by
  have left : building.rest env =
      (do loop.rest env building.mergeNics; building.deviceRest env) := by
    rw [Building.rest, within]
  rw [left]
  cases answers : loop.answers with
  | nil =>
    rw [loop.rest_nil env building.mergeNics answers]
    simp only [PortLoop.round, answers] at rounds
    split at rounds
    next fails =>
      obtain rfl := Option.some.inj rounds
      exact (bind_error (leaveIf_pos fails _ _)).symm
    next passes =>
      obtain rfl := Option.some.inj rounds
      rw [bind_ok (leaveIf_neg passes _ _)]
      rfl
  | cons answer rest =>
    simp only [PortLoop.round, answers] at rounds
    split at rounds
    next none =>
      obtain rfl := Option.some.inj rounds
      rw [loop.rest_none env building.mergeNics answers none]
      rfl
    next entry enters =>
      rw [loop.rest_some env building.mergeNics answers enters, bind_assoc]
      split at rounds
      next after entered =>
        obtain rfl := Option.some.inj rounds
        rw [bind_ok entered]
        rfl
      next result after failed =>
        obtain rfl := Option.some.inj rounds
        have error : result ≠ .ncclSuccess := by
          have ends := enterPort_ends building.mergeNics answer entry tables tables rfl
          rw [failed] at ends
          exact (ends result rfl).2
        refine Eq.trans ?_ (bind_error failed).symm
        rw [endsWith, if_neg error]
      next => exact absurd rounds (by simp)

theorem Building.check_keeps (env : IbEnv) (building : Building) (tables : IbTables) :
    (building.check tables).Keeps env (building.checkRest env tables) := by
  have left : building.checkRest env tables =
      (if building.mergeNics = true ∧ tables.mixed = true then (do
        set IbTables.empty
        enterDevices env false 0 building.again : Init PUnit) else pure ⟨⟩) tables := rfl
  rw [left]
  unfold Building.check
  split
  next mixed =>
    have once (tables : IbTables) :
        (Building.checkRest env ⟨false, 0, building.again, none, building.again⟩) tables =
          .ok ⟨⟩ tables := rfl
    change (do enterDevices env false 0 building.again
               Building.checkRest env ⟨false, 0, building.again, none, building.again⟩)
        IbTables.empty = enterDevices env false 0 building.again .empty
    cases ended : enterDevices env false 0 building.again .empty with
    | ok value after => exact (bind_ok ended).trans (once after)
    | error exit after => exact bind_error ended
  next => rfl

/-- The loop over the devices enters a device for which there is room, and goes on. -/
theorem Building.deviceRest_cons (env : IbEnv) {building : Building} {tables : IbTables}
    (room : tables.ibDevs.length < maxIbDevs) {answer : DeviceAnswer} {rest : List DeviceAnswer}
    (some : building.devices = answer :: rest) :
    building.deviceRest env tables = (do
      enterDevice env building.mergeNics building.device answer
      Building.deviceRest env
        { building with device := building.device + 1, devices := rest }) tables := by
  rw [Building.deviceRest, some, enterDevices, bind_assoc]
  change ((if tables.ibDevs.length < maxIbDevs then _ else _ : Init PUnit) >>= _) tables = _
  rw [if_pos room, bind_assoc]
  rfl

theorem Building.begin_keeps (env : IbEnv) {building : Building} {tables : IbTables}
    (room : tables.ibDevs.length < maxIbDevs) {answer : DeviceAnswer} {rest : List DeviceAnswer}
    (some : building.devices = answer :: rest) (outside : building.ports = none) :
    (building.begin answer rest tables).Keeps env (building.deviceRest env tables) := by
  rw [building.deviceRest_cons env room some]
  unfold Building.begin
  have next : Building.rest env { building with device := building.device + 1, devices := rest } =
      Building.deviceRest env { building with device := building.device + 1, devices := rest } := by
    simp only [Building.rest, outside]
  by_cases opened : answer.opened = false
  · rw [if_pos opened, bind_ok (show _ = EStateM.Result.ok ⟨⟩ tables by
      rw [enterDevice, if_pos opened]; rfl)]
    exact congrFun next tables
  · rw [if_neg opened]
    cases guid : answer.sysImageGuid with
    | none =>
      have enters : enterDevice env building.mergeNics building.device answer =
          leaveIf (answer.closed = false) (.failed .ncclInternalError) := by
        rw [enterDevice, if_neg opened, guid]
      rw [enters]
      by_cases closed : answer.closed = false
      · rw [bind_error (leaveIf_pos closed _ _)]
        simp only [if_pos closed]
        rfl
      · rw [bind_ok (leaveIf_neg closed _ _)]
        simp only [if_neg closed]
        exact congrFun next tables
    | some guid' =>
      have enters : enterDevice env building.mergeNics building.device answer =
          PortLoop.rest env building.mergeNics
            { device := building.device, dev := answer.seen guid', closed := answer.closed
              portNum := 1, answers := answer.ports, nPorts := 0 } := by
        simp only [enterDevice, if_neg opened, guid, PortLoop.rest]
        refine bind_congr fun nPorts => ?_
        rw [Nat.zero_add]
      rw [enters]
      rfl

/-- A round of the thread that builds keeps how building ends. -/
theorem Building.round_keeps (env : IbEnv) {building : Building} {tables : IbTables}
    {round : Round} (rounds : building.round env tables = some round) :
    round.Keeps env (building.rest env tables) := by
  unfold Building.round at rounds
  split at rounds
  next loop within => exact loop.round_keeps env within rounds
  next outside =>
    have left : building.rest env = building.deviceRest env := by rw [Building.rest, outside]
    rw [left]
    have checks (ends : enterDevices env building.mergeNics building.device building.devices tables =
          .ok ⟨⟩ tables) :
        (building.check tables).Keeps env (building.deviceRest env tables) := by
      rw [Building.deviceRest, bind_ok ends]
      exact building.check_keeps env tables
    split at rounds
    next none =>
      obtain rfl := Option.some.inj rounds
      exact checks (by rw [none]; rfl)
    next answer rest some =>
      split at rounds
      next room =>
        obtain rfl := Option.some.inj rounds
        exact building.begin_keeps env room some outside
      next full =>
        obtain rfl := Option.some.inj rounds
        refine checks ?_
        rw [some, enterDevices]
        change (if tables.ibDevs.length < maxIbDevs then _ else pure ⟨⟩ : Init PUnit) tables = _
        rw [if_neg full]
        rfl

/-! ## Threads -/

/-- What the threads share: the tables, of which there are none while `ncclNIbDevs` is -1.
Beside it are the loops of the thread that builds, and the result of its call. -/
structure InitShared where
  tables : Option IbTables
  building : Option Building
  result : Option NcclResult

/-- What a round leaves, and whether the call that builds is done. -/
def Round.leave : Round → InitShared × Bool
  | .goesOn tables building => (⟨some tables, some building, none⟩, false)
  | .ends result tables => (⟨some tables, none, some result⟩, true)

/-- The next step of the thread that builds, which first of all sets the number of devices. -/
def buildStep (params : IbParams) (call : InitCall) (shared : InitShared) :
    Option (InitShared × Bool) :=
  match shared.tables, shared.building with
  | none, _ =>
    if call.interface = false then some (Round.leave (.ends .ncclInternalError .empty))
    else
      match call.devices with
      | none => some (Round.leave (.ends .ncclSuccess .empty))
      | some devices =>
        some (Round.leave (.goesOn .empty ⟨params.mergeNics, 0, devices, none, call.again⟩))
  | some tables, some building => (building.round params.env tables).map Round.leave
  | some _, none => none

/-- The tables as a cell that is filled on first use, with what the call that fills it
meets. -/
def initCells (params : IbParams) (call : InitCall) :
    LazyCells InitShared Unit Unit Empty where
  blank := fun shared _ => shared.tables.isNone
  fill := fun shared _ _ => buildStep params call shared
  disturb := fun _ other => other.elim

/-- What is noted of a run: that a call has built the tables, and what a call returns, whether
it is the one that built them, and the tables that it leaves to its caller, with whether
they are being built. -/
inductive InitNote where
  | built
  | returned (own : Bool) (result : Option NcclResult) (tables : Option IbTables)
      (building : Bool)

def InitNote.isBuilt : InitNote → Bool
  | .built => true
  | .returned _ _ _ _ => false

/-- What a step notes. -/
def initNotes (state : LazyState InitShared Unit) (event : LazyEvent Unit Unit Empty)
    (after : LazyState InitShared Unit) : List InitNote :=
  match event with
  | .fill thread _ =>
    match after.stage thread with
    | .leaving _ _ => [.built]
    | _ => []
  | .finish thread =>
    match state.stage thread with
    | .returning _ own =>
      [.returned own (if own then state.shared.result else some .ncclSuccess)
        state.shared.tables state.shared.building.isSome]
    | _ => []
  | _ => []

/-- All runs of threads that initialize. -/
def initRuns (params : IbParams) (call : InitCall) :
    System (Noted (LazyState InitShared Unit) InitNote) (LazyEvent Unit Unit Empty) :=
  recording (lazyRuns (initCells params call) fun shared => shared.tables = none) initNotes

section

variable {params : IbParams} {call : InitCall}

/-- What a single call that is the first one comes to. -/
def Comes (params : IbParams) (call : InitCall) (result : NcclResult) (tables : IbTables) :
    Prop :=
  ∃ complete, ncclIbInit params .untouched call = some (result, ⟨some tables, complete⟩)

/-- The loops will come to what a single call comes to. -/
def UnderWay (params : IbParams) (call : InitCall) (tables : IbTables) (building : Building) :
    Prop :=
  call.interface = true ∧ ∃ devices, call.devices = some devices ∧
    building.rest params.env tables = buildIbList params devices call.again .empty

/-- The tables are being built. -/
def Partly (params : IbParams) (call : InitCall) (shared : InitShared) : Prop :=
  ∃ tables building, shared = ⟨some tables, some building, none⟩ ∧
    UnderWay params call tables building

/-- The tables are built. -/
def Built (params : IbParams) (call : InitCall) (shared : InitShared) : Prop :=
  ∃ result tables, shared = ⟨some tables, none, some result⟩ ∧ Comes params call result tables

/-- Loops that come to an end come to what a single call comes to. -/
theorem comes_of_ends (enabled : params.unetDisable = false) {devices : List DeviceAnswer}
    (interface : call.interface = true) (listed : call.devices = some devices)
    {result : NcclResult} {tables : IbTables}
    (ends : endsWith result tables = buildIbList params devices call.again .empty) :
    Comes params call result tables := by
  unfold Comes ncclIbInit
  simp only [enabled, interface, listed, Globals.untouched, ← ends, endsWith,
    Bool.false_eq_true, Bool.true_eq_false, if_false]
  by_cases success : result = .ncclSuccess
  · simp [success]
  · simp [success]

/-- A round of building. -/
theorem buildStep_further (enabled : params.unetDisable = false) {shared after : InitShared}
    {done : Bool} (partly : Partly params call shared)
    (made : buildStep params call shared = some (after, done)) :
    if done then Built params call after else Partly params call after := by
  obtain ⟨tables, building, rfl, interface, devices, listed, leads⟩ := partly
  obtain ⟨round, rounds, left⟩ := Option.map_eq_some_iff.mp made
  have keeps := building.round_keeps params.env rounds
  rw [leads] at keeps
  cases round with
  | goesOn tables building =>
    obtain ⟨rfl, rfl⟩ := Prod.mk.inj left
    exact ⟨tables, building, rfl, interface, devices, listed, keeps⟩
  | ends result tables =>
    obtain ⟨rfl, rfl⟩ := Prod.mk.inj left
    exact ⟨result, tables, rfl, comes_of_ends enabled interface listed keeps⟩

/-- The first step sets the number of devices. -/
theorem buildStep_first (enabled : params.unetDisable = false) {shared after : InitShared}
    {done : Bool} (blank : shared.tables = none)
    (made : buildStep params call shared = some (after, done)) :
    if done then Built params call after else Partly params call after := by
  simp only [buildStep, blank] at made
  cases interface : call.interface with
  | false =>
    rw [if_pos interface] at made
    obtain ⟨rfl, rfl⟩ := Prod.mk.inj (Option.some.inj made)
    exact ⟨_, _, rfl, false, by simp [ncclIbInit, enabled, interface, Globals.untouched]⟩
  | true =>
    rw [if_neg (by simp [interface])] at made
    cases listed : call.devices with
    | none =>
      rw [listed] at made
      obtain ⟨rfl, rfl⟩ := Prod.mk.inj (Option.some.inj made)
      exact ⟨_, _, rfl, false, by simp [ncclIbInit, enabled, interface, listed, Globals.untouched]⟩
    | some devices =>
      rw [listed] at made
      obtain ⟨rfl, rfl⟩ := Prod.mk.inj (Option.some.inj made)
      exact ⟨_, _, rfl, interface, devices, listed, rfl⟩

/-- Building is never in vain. -/
theorem initCells_fills (enabled : params.unetDisable = false) :
    LazyFills (initCells params call) (fun _ => True) (fun _ => True)
      (fun shared _ => Partly params call shared) (fun shared _ => Built params call shared)
      (fun _ => False) where
  partlySeen := by
    rintro _ _ ⟨tables, building, rfl, _⟩
    rfl
  fullSeen := by
    rintro _ _ ⟨result, tables, rfl, _⟩
    rfl
  apart := by
    rintro _ _ ⟨_, _, rfl, _⟩ ⟨_, _, same, _⟩
    simp at same
  first := by
    intro shared _ _ after done _ blank made
    have built := buildStep_first enabled (Option.isNone_iff_eq_none.mp blank) made
    cases done with
    | false => exact built
    | true => exact .inr built
  further := fun _ partly made => buildStep_further enabled partly made
  filled := fun _ _ => ⟨trivial, fun other differ => absurd rfl differ⟩
  disturbed := fun {_ other} => other.elim

/-- What is noted fits what a single call comes to: a call that returns while no thread builds
leaves the tables of that call to its caller, and its result when it built them itself. A
call that returns while a thread builds succeeds with tables that are under way. -/
inductive Fits (params : IbParams) (call : InitCall) : InitNote → Prop
  | built : Fits params call .built
  | finished {own : Bool} {result : NcclResult} {tables : IbTables}
      (comes : Comes params call result tables) :
      Fits params call
        (.returned own (some (if own then result else .ncclSuccess)) (some tables) false)
  | early {tables : IbTables} {building : Building}
      (underWay : UnderWay params call tables building) :
      Fits params call (.returned false (some .ncclSuccess) (some tables) true)

/-- The notes of a run fit, and the tables are built at most once, for good. -/
structure Witnessed (params : IbParams) (call : InitCall)
    (run : Noted (LazyState InitShared Unit) InitNote) : Prop where
  fit : ∀ note ∈ run.notes, Fits params call note
  once : run.notes.countP InitNote.isBuilt ≤ 1
  stays : (∃ note ∈ run.notes, note.isBuilt = true) → Built params call run.state.shared

/-- A thread at the end of its call returns something that fits. -/
theorem fits_of_returning {state : LazyState InitShared Unit}
    (sound : LazySound (initCells params call) (fun _ => True)
      (fun shared _ => Partly params call shared) (fun shared _ => Built params call shared) state)
    {own : Bool} (ready : state.Ready (fun shared _ => Built params call shared) (fun _ => False) ())
    (filled : own = true → Built params call state.shared ∨ False) :
    Fits params call (.returned own (if own then state.shared.result else some .ncclSuccess)
      state.shared.tables state.shared.building.isSome) := by
  have finished (built : Built params call state.shared) :
      Fits params call (.returned own (if own then state.shared.result else some .ncclSuccess)
        state.shared.tables state.shared.building.isSome) := by
    obtain ⟨result, tables, shared, comes⟩ := built
    rw [shared]
    have fits : Fits params call
        (.returned own (some (if own then result else .ncclSuccess)) (some tables) false) :=
      .finished comes
    cases own <;> exact fits
  rcases ready with built | ⟨thread, fills⟩ | nothing
  · exact finished built
  · cases own with
    | true => exact finished ((filled rfl).resolve_right id)
    | false =>
      obtain ⟨tables, building, shared, underWay⟩ := sound.filling thread () fills
      rw [shared]
      exact .early underWay
  · exact nothing.elim

/-- The runs of threads behind the notes. -/
theorem initRuns_lazy {run : Noted (LazyState InitShared Unit) InitNote}
    (reached : (initRuns params call).Reachable run) :
    (lazyRuns (initCells params call) fun shared => shared.tables = none).Reaches
      (fun _ event => event.Allowed fun _ => True) run.state := by
  have reached : (lazyRuns (initCells params call) fun shared => shared.tables = none).Reaches
      (fun _ _ => True) run.state := Noted.reaches reached
  refine reached.weaken fun _ event _ => ?_
  cases event <;> trivial

/-- Nothing is built before the first call. -/
theorem initCells_blank (shared : InitShared) (none : shared.tables = none) :
    True ∧ ∀ key, (initCells params call).blank shared key = true :=
  ⟨trivial, fun _ => Option.isNone_iff_eq_none.mpr none⟩

/-- Every run is witnessed so. -/
theorem initRuns_witnessed (enabled : params.unetDisable = false)
    {run : Noted (LazyState InitShared Unit) InitNote}
    (reached : (initRuns params call).Reachable run) : Witnessed params call run := by
  have contract : LazyFills (initCells params call) _ _ _ _ _ := initCells_fills enabled
  induction reached with
  | start first =>
    constructor <;> simp [first.2]
  | @next run after event before _ stepped ih =>
    obtain ⟨next, within, rfl⟩ := Option.map_eq_some_iff.mp stepped
    have within := lazyStep_of_step within
    have sound := lazyRuns_sound contract initCells_blank (initRuns_lazy before)
    have ready := lazyRuns_ready contract initCells_blank (initRuns_lazy before)
    have isAllowed : event.Allowed fun _ => True := by cases event <;> trivial
    have stays (built : Built params call run.state.shared) : Built params call next.shared :=
      sound.keeps_full contract isAllowed within () built
    have silent (none : initNotes run.state event next = []) :
        Witnessed params call ⟨next, run.notes ++ initNotes run.state event next⟩ := by
      rw [none, List.append_nil]
      exact ⟨ih.fit, ih.once, fun some => stays (ih.stays some)⟩
    cases within with
    | @finished thread key own returns =>
      have noted : initNotes run.state (.finish thread) (run.state.move thread .outside) =
          [.returned own (if own then run.state.shared.result else some .ncclSuccess)
            run.state.shared.tables run.state.shared.building.isSome] := by
        simp only [initNotes, returns]
      rw [noted]
      obtain ⟨isReady, filled⟩ := ready thread key own (.inr returns)
      refine ⟨fun note member => ?_, ?_, ?_⟩
      · rcases List.mem_append.mp member with old | new
        · exact ih.fit note old
        · rw [List.mem_singleton.mp new]
          exact fits_of_returning sound isReady filled
      · rw [List.countP_append]
        exact ih.once
      · rintro ⟨note, member, isBuilt⟩
        rcases List.mem_append.mp member with old | new
        · exact stays (ih.stays ⟨note, old, isBuilt⟩)
        · rw [List.mem_singleton.mp new] at isBuilt
          exact absurd isBuilt Bool.false_ne_true
    | @filled thread key work shared done fills made =>
      cases done with
      | false => exact silent (by simp [initNotes])
      | true =>
        have noted : initNotes run.state (.fill thread work)
            ({ run.state with shared := shared }.move thread (.leaving key true)) = [.built] := by
          simp [initNotes]
        have unbuilt : run.notes.countP InitNote.isBuilt = 0 := by
          rw [List.countP_eq_zero]
          intro note member isBuilt
          exact sound.notFull_of_fills contract fills (ih.stays ⟨note, member, isBuilt⟩)
        have built : Built params call shared :=
          (sound.filled contract fills made).resolve_left fun both => both.2
        simp only [if_true]
        rw [noted]
        refine ⟨fun note member => ?_, ?_, fun _ => built⟩
        · rcases List.mem_append.mp member with old | new
          · exact ih.fit note old
          · rw [List.mem_singleton.mp new]
            exact .built
        · rw [List.countP_append, unbuilt]
          exact Nat.le_refl _
    | _ => exact silent rfl

end

/-- However threads that initialize interleave, one thread at a time is inside the lock, the
tables are built at most once, and then stay. A call that returns while no thread builds
finds what a single first call comes to, and returns its result when it built the tables
itself; a call that returns while a thread builds succeeds with tables under way. -/
theorem init_threads {params : IbParams} (enabled : params.unetDisable = false)
    {call : InitCall} {run : Noted (LazyState InitShared Unit) InitNote}
    (reached : (initRuns params call).Reachable run) :
    (∀ thread other, (run.state.stage thread).Inside → (run.state.stage other).Inside →
      thread = other) ∧ Witnessed params call run :=
  ⟨fun _ _ inside inside' =>
    (lazyRuns_sound (initCells_fills enabled) initCells_blank (initRuns_lazy reached)).alone
      inside inside', initRuns_witnessed enabled reached⟩

/-- No thread has called. -/
def uncalled : Noted (LazyState InitShared Unit) InitNote :=
  ⟨⟨⟨none, none, none⟩, none, fun _ => .outside⟩, []⟩

/-- A thread calls and returns behind the first step of another thread, which then enters the
one card. -/
def overtakingEvents : List (LazyEvent Unit Unit Empty) :=
  [.call 0 (), .acquire 0, .lookAgain 0, .fill 0 (), .call 1 (), .finish 1, .fill 0 (),
    .fill 0 (), .fill 0 (), .fill 0 (), .release 0, .finish 0]

/-- What the two threads leave. -/
def overtaken : Noted (LazyState InitShared Unit) InitNote :=
  ((initRuns defaultParams oneCard).replay uncalled overtakingEvents).get (by decide +kernel)

theorem overtaken_reached : (initRuns defaultParams oneCard).Reachable overtaken := by
  have start : (initRuns defaultParams oneCard).Reachable uncalled :=
    .start ⟨⟨rfl, rfl, rfl⟩, rfl⟩
  exact start.replay overtakingEvents (Option.some_get _).symm

/-- Whether the tables are being built when a call returns, and how many devices its caller
finds. -/
def InitNote.devices : InitNote → Option (Bool × Nat)
  | .built => none
  | .returned _ _ tables building => tables.map fun tables => (building, tables.nMerged)

/-- Both calls succeed, and the first one to return leaves its caller without the device. -/
theorem init_threads_overtaken :
    overtaken.notes.filterMap InitNote.devices = [(true, 0), (false, 1)] ∧
      Witnessed defaultParams oneCard overtaken :=
  ⟨by decide +kernel, (init_threads rfl overtaken_reached).2⟩

end IbInit

end NcclExts.Unet
