import NcclExts.Foundation.EarlyExit
import NcclExts.Unet.PortPairing
import NcclExts.Unet.Result

/-!
# What a failed initialization leaves behind

Initialization sets the number of devices, by which later calls tell that it has been done,
before it does anything. It counts the devices up while it enters them, and leaves at the
first step that fails. Here every step has an answer, and calls follow one another.
-/

namespace NcclExts.Unet

open NcclExts.Foundation

/-- How the calls about a port come out: what `wrap_ibv_query_port` tells when it succeeds,
and whether `pthread_create` and `pthread_detach` succeed. -/
structure PortAnswer where
  port : Option IbvPort
  created : Bool
  detached : Bool

/-- How the calls about a device come out: the path that `realpath` finds, which is empty
when there is none, whether it can be opened, the guid that `wrap_ibv_query_device` tells
when it succeeds, its ports, and whether it can be closed. -/
structure DeviceAnswer where
  name : String
  path : List Char
  opened : Bool
  sysImageGuid : Option Nat
  ports : List PortAnswer
  closed : Bool

/-- The parameters: the environment, `NCCL_IB_MERGE_NICS` and `UNET_DISABLE`. -/
structure IbParams where
  env : IbEnv
  mergeNics : Bool
  unetDisable : Bool

/-- What a call meets: whether there is an interface, the devices when there is a list of
them, and how they answer when the list is built again. -/
structure InitCall where
  interface : Bool
  devices : Option (List DeviceAnswer)
  again : List DeviceAnswer

/-- How initialization leaves early: with a result, or not in any way that C defines. -/
inductive InitExit where
  | failed (result : NcclResult)
  | undefined

/-- The device tables during initialization. -/
abbrev Init := EStateM InitExit IbTables

/-- A port that does not answer is passed over like one that is down. -/
def PortAnswer.seen (answer : PortAnswer) : IbvPort :=
  answer.port.getD
    { active := false, physState := 0, linkLayer := none, activeSpeed := 0, activeWidth := 0 }

/-- The device behind the answers. -/
def DeviceAnswer.seen (answer : DeviceAnswer) (guid : Nat) : IbvDevice :=
  { name := answer.name, path := answer.path, sysImageGuid := guid
    ports := answer.ports.map PortAnswer.seen }

namespace IbInit

/-- Counting the real ports compares a path with the paths of all devices before. -/
def countsNull (tables : IbTables) (dev : IbDevEntry) : Prop :=
  dev.pciPath ≠ [] ∧ ∃ other ∈ tables.ibDevs, other.pciPath = []

instance (tables : IbTables) (dev : IbDevEntry) : Decidable (countsNull tables dev) :=
  inferInstanceAs (Decidable (_ ∧ _))

/-- Looking for a match compares the path with those of the merged devices with room, up to
the one that is found. -/
def matchesNull (tables : IbTables) (dev : IbDevEntry) : Prop :=
  ∃ i ∈ List.range tables.nMerged, i ≤ tables.ncclIbFindMatchingDev dev ∧
    (tables.merged i).ndevs < maxDevsPerNic ∧
      (dev.pciPath = [] ∨
        (tables.ibDevs[(tables.merged i).devs 0]?).any fun other => other.pciPath = [])

instance (tables : IbTables) (dev : IbDevEntry) : Decidable (matchesNull tables dev) :=
  inferInstanceAs (Decidable (∃ i ∈ _, _))

/-- The end of the loop over the ports, for an eligible port. -/
def enterPort (mergeNics : Bool) (answer : PortAnswer) (dev : IbDevEntry) : Init PUnit := do
  let tables ← get
  leaveIf (maxIbDevs ≤ tables.ibDevs.length) .undefined
  leaveIf (countsNull tables dev) .undefined
  leaveIf (answer.created = false) (.failed .ncclSystemError)
  leaveIf (answer.detached = false) (.failed .ncclSystemError)
  leaveIf (mergeNics = true ∧ matchesNull tables dev) .undefined
  set (tables.addPort mergeNics dev)

/-- The loop over the ports of a device; how many have been entered. -/
def enterPorts (env : IbEnv) (mergeNics : Bool) (device : Nat) (dev : IbvDevice) :
    Nat → List PortAnswer → Init Nat
  | _, [] => pure 0
  | portNum, answer :: rest =>
    match answer.port.bind fun port => port.entry env device dev portNum with
    | none => enterPorts env mergeNics device dev (portNum + 1) rest
    | some entry => do
      enterPort mergeNics answer entry
      let nPorts ← enterPorts env mergeNics device dev (portNum + 1) rest
      pure (nPorts + 1)

/-- The body of the loop over the devices. -/
def enterDevice (env : IbEnv) (mergeNics : Bool) (device : Nat) (answer : DeviceAnswer) :
    Init PUnit :=
  if answer.opened = false then pure ⟨⟩
  else
    match answer.sysImageGuid with
    | none => leaveIf (answer.closed = false) (.failed .ncclInternalError)
    | some guid => do
      let nPorts ← enterPorts env mergeNics device (answer.seen guid) 1 answer.ports
      leaveIf (nPorts = 0 ∧ answer.closed = false) (.failed .ncclInternalError)

/-- The loop over the devices. -/
def enterDevices (env : IbEnv) (mergeNics : Bool) : Nat → List DeviceAnswer → Init PUnit
  | _, [] => pure ⟨⟩
  | device, answer :: rest => do
    let tables ← get
    if tables.ibDevs.length < maxIbDevs then
      enterDevice env mergeNics device answer
      enterDevices env mergeNics (device + 1) rest
    else pure ⟨⟩

/-- From `build_ib_list` on. -/
def buildIbList (params : IbParams) (devices again : List DeviceAnswer) : Init PUnit := do
  enterDevices params.env params.mergeNics 0 devices
  let tables ← get
  if params.mergeNics = true ∧ tables.mixed = true then
    set IbTables.empty
    enterDevices params.env false 0 again
  else pure ⟨⟩

/-- The device tables, of which there are none while `ncclNIbDevs` is -1, and whether a pass
over a list of devices that was obtained has filled them to its end, with a path for every
device. The program does not keep the latter. -/
structure Globals where
  tables : Option IbTables
  complete : Bool

/-- Before the first call. -/
def Globals.untouched : Globals := { tables := none, complete := false }

/-- Every entry has a path. -/
def PathsKnown (ports : List IbDevEntry) : Prop := ∀ dev ∈ ports, dev.pciPath ≠ []

instance (ports : List IbDevEntry) : Decidable (PathsKnown ports) :=
  inferInstanceAs (Decidable (∀ dev ∈ _, _))

/-- `ncclIbInit`; `none` when what happens is undefined. -/
def ncclIbInit (params : IbParams) (globals : Globals) (call : InitCall) :
    Option (NcclResult × Globals) :=
  if params.unetDisable = true then some (.ncclInternalError, globals)
  else
    match globals.tables with
    | some _ => some (.ncclSuccess, globals)
    | none =>
      if call.interface = false then some (.ncclInternalError, ⟨some .empty, false⟩)
      else
        match call.devices with
        | none => some (.ncclSuccess, ⟨some .empty, false⟩)
        | some devices =>
          match buildIbList params devices call.again .empty with
          | .ok _ tables => some (.ncclSuccess, ⟨some tables, decide (PathsKnown tables.ibDevs)⟩)
          | .error (.failed result) tables => some (result, ⟨some tables, false⟩)
          | .error .undefined _ => none

/-- The results of calls one after the other, with what each leaves behind. -/
def ncclIbInits (params : IbParams) : Globals → List InitCall → Option (List (NcclResult × Globals))
  | _, [] => some []
  | globals, call :: rest =>
    (ncclIbInit params globals call).bind fun step =>
      (ncclIbInits params step.2 rest).map (step :: ·)

/-! ## How a pass comes out -/

/-- From such tables the program ends with the value and the tables that are given exactly
when it finishes, and otherwise leaves with an error. -/
def Ends {α : Type} (tables : IbTables) (program : Init α) (finishes : Prop) (value : α)
    (after : IbTables) : Prop :=
  Meets (fun state => state = tables) program
    (fun result state => finishes ∧ result = value ∧ state = after)
    (fun exit _ => ∀ result, exit = .failed result → ¬ finishes ∧ result ≠ .ncclSuccess)

namespace Ends

variable {α β : Type} {tables : IbTables}

theorem congr {program : Init α} {finishes finishes' : Prop} {value : α} {after : IbTables}
    (ends : Ends tables program finishes value after) (same : finishes ↔ finishes') :
    Ends tables program finishes' value after := by
  rwa [← propext same]

theorem pure (value : α) : Ends tables (Pure.pure value) True value tables :=
  Meets.pure fun _ started => ⟨True.intro, rfl, started⟩

theorem set (after : IbTables) :
    Ends tables (MonadStateOf.set after : Init PUnit) True ⟨⟩ after :=
  Meets.set fun _ _ => ⟨True.intro, rfl, rfl⟩

theorem get_bind {next : IbTables → Init α} {finishes : Prop} {value : α} {after : IbTables}
    (rest : Ends tables (next tables) finishes value after) :
    Ends tables (get >>= next) finishes value after := by
  rintro state rfl
  exact rest state rfl

theorem bind {first : Init β} {next : β → Init α} {begins finishes : Prop} {middle : β}
    {value : α} {between after : IbTables} (start : Ends tables first begins middle between)
    (rest : Ends between (next middle) finishes value after) :
    Ends tables (first >>= next) (begins ∧ finishes) value after := by
  apply Meets.bind (fun result state => begins ∧ result = middle ∧ state = between)
  · refine start.weaken (fun _ => id) (fun _ _ => id) fun exit _ left result failed => ?_
    exact ⟨fun both => (left result failed).1 both.1, (left result failed).2⟩
  · intro result
    apply Meets.given
    intro begun
    apply Meets.given
    rintro rfl
    refine rest.weaken (fun _ => id) (fun _ _ ended => ⟨⟨begun, ended.1⟩, ended.2⟩) ?_
    intro exit _ left result failed
    exact ⟨fun both => (left result failed).1 both.2, (left result failed).2⟩

/-- A step that fails is left with an error. -/
theorem leaveIf {condition : Prop} [Decidable condition] {result : NcclResult}
    (error : result ≠ .ncclSuccess) :
    Ends tables (leaveIf condition (.failed result)) (¬ condition) ⟨⟩ tables := by
  apply Meets.ite
  · intro yes
    apply Meets.throw
    rintro _ _ result' failed
    obtain rfl := InitExit.failed.inj failed
    exact ⟨fun no => no yes, error⟩
  · exact fun no => Meets.pure fun _ started => ⟨no, rfl, started⟩

/-- Nothing is asked where the behaviour is undefined. -/
theorem leaveUndefined {condition : Prop} [Decidable condition] :
    Ends tables (Foundation.leaveIf condition .undefined) True ⟨⟩ tables := by
  apply Meets.ite
  · intro _
    apply Meets.throw
    rintro _ _ result failed
    cases failed
  · exact fun _ => Meets.pure fun _ started => ⟨True.intro, rfl, started⟩

end Ends

theorem enterPort_ends (mergeNics : Bool) (answer : PortAnswer) (dev : IbDevEntry)
    (tables : IbTables) :
    Ends tables (enterPort mergeNics answer dev)
      (answer.created = true ∧ answer.detached = true) ⟨⟩ (tables.addPort mergeNics dev) := by
  have steps : Ends tables (enterPort mergeNics answer dev)
      (True ∧ True ∧ ¬ answer.created = false ∧ ¬ answer.detached = false ∧ True ∧ True) ⟨⟩
      (tables.addPort mergeNics dev) := by
    apply Ends.get_bind
    apply Ends.bind Ends.leaveUndefined
    apply Ends.bind Ends.leaveUndefined
    apply Ends.bind (Ends.leaveIf (by decide))
    apply Ends.bind (Ends.leaveIf (by decide))
    apply Ends.bind Ends.leaveUndefined
    exact Ends.set _
  exact steps.congr (by simp)

/-- The threads of the eligible ports, from a port number on, are created and detached. -/
def PortsFinish (env : IbEnv) (device : Nat) (dev : IbvDevice) (portNum : Nat)
    (ports : List PortAnswer) : Prop :=
  ∀ step ∈ ports.zipIdx portNum, (step.1.seen.entry env device dev step.2).isSome = true →
    step.1.created = true ∧ step.1.detached = true

/-- A port that does not answer is not eligible. -/
theorem seen_entry (answer : PortAnswer) (env : IbEnv) (device : Nat) (dev : IbvDevice)
    (portNum : Nat) :
    (answer.port.bind fun port => port.entry env device dev portNum) =
      answer.seen.entry env device dev portNum := by
  cases told : answer.port with
  | none => simp [PortAnswer.seen, told, IbvPort.entry]
  | some port => simp [PortAnswer.seen, told]

theorem enterPorts_ends (env : IbEnv) (mergeNics : Bool) (device : Nat) (dev : IbvDevice)
    (portNum : Nat) (ports : List PortAnswer) (tables : IbTables) :
    Ends tables (enterPorts env mergeNics device dev portNum ports)
      (PortsFinish env device dev portNum ports)
      (IbTables.eligibleOf env device dev portNum (ports.map PortAnswer.seen)).length
      ((IbTables.eligibleOf env device dev portNum (ports.map PortAnswer.seen)).foldl
        (IbTables.addPort mergeNics) tables) := by
  induction ports generalizing portNum tables with
  | nil => exact (Ends.pure 0).congr (by simp [PortsFinish])
  | cons answer rest ih =>
    rw [enterPorts, seen_entry, List.map_cons, IbTables.eligibleOf, List.zipIdx_cons,
      List.filterMap_cons]
    cases entry : answer.seen.entry env device dev portNum with
    | none =>
      refine (ih (portNum + 1) tables).congr ?_
      simp [PortsFinish, List.zipIdx_cons, entry]
    | some dev' =>
      have later := ih (portNum + 1) (tables.addPort mergeNics dev')
      refine Ends.congr (Ends.bind (enterPort_ends mergeNics answer dev' tables)
        (Ends.bind later (Ends.pure _))) ?_
      simp [PortsFinish, List.zipIdx_cons, entry]

/-- The entries of the eligible ports of a device, when it can be opened and queried. -/
def entries (env : IbEnv) (device : Nat) (answer : DeviceAnswer) : List IbDevEntry :=
  match answer.opened, answer.sysImageGuid with
  | true, some guid =>
    IbTables.eligibleOf env device (answer.seen guid) 1 (answer.ports.map PortAnswer.seen)
  | _, _ => []

/-- The threads of the eligible ports of a device that can be opened are created and
detached, and it can be closed when there is no such port. -/
def DeviceFinishes (env : IbEnv) (device : Nat) (answer : DeviceAnswer) : Prop :=
  answer.opened = true → (entries env device answer = [] → answer.closed = true) ∧
    ∀ guid, answer.sysImageGuid = some guid →
      PortsFinish env device (answer.seen guid) 1 answer.ports

theorem enterDevice_ends (env : IbEnv) (mergeNics : Bool) (device : Nat) (answer : DeviceAnswer)
    (tables : IbTables) :
    Ends tables (enterDevice env mergeNics device answer) (DeviceFinishes env device answer) ⟨⟩
      ((entries env device answer).foldl (IbTables.addPort mergeNics) tables) := by
  unfold enterDevice DeviceFinishes entries
  cases opened : answer.opened with
  | false =>
    rw [if_pos rfl]
    exact Ends.congr (Ends.pure PUnit.unit) (by simp)
  | true =>
    rw [if_neg (by decide)]
    cases answer.sysImageGuid with
    | none => exact Ends.congr (Ends.leaveIf (by decide)) (by simp)
    | some guid =>
      refine Ends.congr (Ends.bind (enterPorts_ends env mergeNics device (answer.seen guid) 1
        answer.ports tables) (Ends.leaveIf (by decide))) ?_
      cases answer.closed with
      | false => simp [and_comm]
      | true => simp

/-- Every device that finds room in the table finishes, for devices from a number on and so
many ports before them. -/
def PassFinishes (env : IbEnv) : Nat → Nat → List DeviceAnswer → Prop
  | _, _, [] => True
  | device, count, answer :: rest =>
    count < maxIbDevs → DeviceFinishes env device answer ∧
      PassFinishes env (device + 1) (count + (entries env device answer).length) rest

/-- The entries of the devices that find room in the table. -/
def entered (env : IbEnv) : Nat → Nat → List DeviceAnswer → List IbDevEntry
  | _, _, [] => []
  | device, count, answer :: rest =>
    if count < maxIbDevs then
      entries env device answer ++
        entered env (device + 1) (count + (entries env device answer).length) rest
    else []

theorem enterDevices_ends (env : IbEnv) (mergeNics : Bool) (device : Nat)
    (devices : List DeviceAnswer) (tables : IbTables) :
    Ends tables (enterDevices env mergeNics device devices)
      (PassFinishes env device tables.ibDevs.length devices) ⟨⟩
      ((entered env device tables.ibDevs.length devices).foldl (IbTables.addPort mergeNics)
        tables) := by
  induction devices generalizing device tables with
  | nil => exact Ends.pure PUnit.unit
  | cons answer rest ih =>
    rw [enterDevices, PassFinishes, entered]
    apply Ends.get_bind
    by_cases room : tables.ibDevs.length < maxIbDevs
    · have later := ih (device + 1)
        ((entries env device answer).foldl (IbTables.addPort mergeNics) tables)
      rw [IbTables.foldl_addPort_ibDevs, List.length_append] at later
      rw [if_pos room, if_pos room, List.foldl_append]
      exact (Ends.bind (enterDevice_ends env mergeNics device answer tables) later).congr
        (by simp [room])
    · rw [if_neg room, if_neg room]
      exact Ends.congr (Ends.pure PUnit.unit) (by simp [room])

/-- The devices of the last pass: the list is built again when the ports that the first pass
enters are of mixed cards. -/
def lastPass (params : IbParams) (devices again : List DeviceAnswer) : List DeviceAnswer :=
  if params.mergeNics = true ∧ IbTables.MixedCards (entered params.env 0 0 devices) then again
  else devices

/-- Each pass finishes. -/
def Finishes (params : IbParams) (devices again : List DeviceAnswer) : Prop :=
  PassFinishes params.env 0 0 devices ∧ PassFinishes params.env 0 0 (lastPass params devices again)

theorem buildIbList_ends (params : IbParams) (devices again : List DeviceAnswer) :
    ∃ tables, tables.ibDevs = entered params.env 0 0 (lastPass params devices again) ∧
      Ends .empty (buildIbList params devices again) (Finishes params devices again) ⟨⟩ tables := by
  have first : Ends _ _ (PassFinishes params.env 0 0 devices) PUnit.unit
      ((entered params.env 0 0 devices).foldl (IbTables.addPort params.mergeNics) .empty) :=
    enterDevices_ends params.env params.mergeNics 0 devices .empty
  have second : Ends _ _ (PassFinishes params.env 0 0 again) PUnit.unit
      ((entered params.env 0 0 again).foldl (IbTables.addPort false) .empty) :=
    enterDevices_ends params.env false 0 again .empty
  have mix : (params.mergeNics = true ∧ ((entered params.env 0 0 devices).foldl
      (IbTables.addPort params.mergeNics) .empty).mixed = true) ↔
      params.mergeNics = true ∧ IbTables.MixedCards (entered params.env 0 0 devices) := by
    apply and_congr_right
    intro merge
    rw [merge, IbTables.mixed_iff_mixedCards]
  unfold buildIbList Finishes lastPass
  by_cases mixed : params.mergeNics = true ∧
      IbTables.MixedCards (entered params.env 0 0 devices)
  · rw [if_pos mixed]
    refine ⟨(entered params.env 0 0 again).foldl (IbTables.addPort false) .empty, ?_, ?_⟩
    · rw [IbTables.foldl_addPort_ibDevs]
      rfl
    · apply Ends.bind first
      apply Ends.get_bind
      rw [if_pos (mix.mpr mixed)]
      exact Ends.congr (Ends.bind (Ends.set _) second) (by simp)
  · rw [if_neg mixed]
    refine ⟨(entered params.env 0 0 devices).foldl (IbTables.addPort params.mergeNics) .empty,
      ?_, ?_⟩
    · rw [IbTables.foldl_addPort_ibDevs]
      rfl
    · have once : PassFinishes params.env 0 0 devices ∧ True ↔
          PassFinishes params.env 0 0 devices ∧ PassFinishes params.env 0 0 devices := by simp
      refine Ends.congr ?_ once
      apply Ends.bind first
      apply Ends.get_bind
      rw [if_neg (mt mix.mp mixed)]
      exact Ends.pure PUnit.unit

/-! ## Calls after a failed one -/

/-- The call gets an interface and a list of devices, every step of its passes succeeds, and
every device that is entered has a path. -/
def Sound (params : IbParams) (call : InitCall) : Prop :=
  call.interface = true ∧ ∃ devices, call.devices = some devices ∧
    Finishes params devices call.again ∧
      PathsKnown (entered params.env 0 0 (lastPass params devices call.again))

/-- The call gets no interface, or a step of its passes fails. -/
def Refused (params : IbParams) (call : InitCall) : Prop :=
  call.interface = false ∨ ∃ devices, call.devices = some devices ∧
    ¬ Finishes params devices call.again

/-- Once the tables are there, calls succeed and leave them alone. -/
theorem ncclIbInits_again {params : IbParams} (enabled : params.unetDisable = false)
    (globals : Globals) {tables : IbTables} (there : globals.tables = some tables)
    (calls : List InitCall) :
    ncclIbInits params globals calls =
      some (List.replicate calls.length (.ncclSuccess, globals)) := by
  induction calls with
  | nil => rfl
  | cons call rest ih =>
    have same : ncclIbInit params globals call = some (.ncclSuccess, globals) := by
      simp [ncclIbInit, enabled, there]
    rw [ncclIbInits, same, Option.bind_some, ih]
    rfl

/-- A disabled network refuses every call. -/
theorem ncclIbInits_disabled {params : IbParams} (disabled : params.unetDisable = true)
    (globals : Globals) (calls : List InitCall) :
    ncclIbInits params globals calls =
      some (List.replicate calls.length (.ncclInternalError, globals)) := by
  induction calls with
  | nil => rfl
  | cons call rest ih =>
    have same : ncclIbInit params globals call = some (.ncclInternalError, globals) := by
      simp [ncclIbInit, disabled]
    rw [ncclIbInits, same, Option.bind_some, ih]
    rfl

/-- A first call that returns leaves tables behind. It succeeds exactly when it is not
refused, and what it leaves is complete exactly when it is sound. -/
theorem ncclIbInit_first {params : IbParams} (enabled : params.unetDisable = false)
    {call : InitCall} {step : NcclResult × Globals}
    (returned : ncclIbInit params .untouched call = some step) :
    (∃ tables, step.2.tables = some tables) ∧ (step.1 = .ncclSuccess ↔ ¬ Refused params call) ∧
      (step.2.complete = true ↔ Sound params call) := by
  rw [ncclIbInit, if_neg (by simp [enabled])] at returned
  simp only [Globals.untouched] at returned
  cases interface : call.interface with
  | false =>
    simp only [interface, if_true, Option.some.injEq] at returned
    subst returned
    simp [Refused, Sound, interface]
  | true =>
    simp only [interface, Bool.true_eq_false, if_false] at returned
    cases listed : call.devices with
    | none =>
      simp only [listed, Option.some.injEq] at returned
      subst returned
      simp [Refused, Sound, interface, listed]
    | some devices =>
      obtain ⟨tables, entries, ends⟩ := buildIbList_ends params devices call.again
      have ended := ends .empty rfl
      simp only [listed] at returned
      revert returned ended
      cases buildIbList params devices call.again .empty with
      | ok value after =>
        rintro ⟨done, _, rfl⟩ returned
        obtain rfl := Option.some.inj returned
        simp [Refused, Sound, interface, listed, done, entries]
      | error exit after =>
        cases exit with
        | undefined => exact fun _ returned => absurd returned (by simp)
        | failed result =>
          intro left returned
          obtain ⟨undone, error⟩ := left result rfl
          obtain rfl := Option.some.inj returned
          simp [Refused, Sound, interface, listed, undone, error]

/-- Every success comes with tables that a successful pass has completely built exactly when
the network is disabled, the first call is sound, or the first call is refused and no other
follows: after a failed call the next one finds the number of devices set and succeeds. -/
theorem init_success_complete {params : IbParams} {calls : List InitCall}
    {results : List (NcclResult × Globals)}
    (returned : ncclIbInits params .untouched calls = some results) :
    (∀ step ∈ results, step.1 = .ncclSuccess → step.2.complete = true) ↔
      params.unetDisable = true ∨ calls = [] ∨
        ∃ call rest, calls = call :: rest ∧
          (Sound params call ∨ (Refused params call ∧ rest = [])) := by
  cases enabled : params.unetDisable with
  | true =>
    rw [ncclIbInits_disabled enabled] at returned
    obtain rfl := Option.some.inj returned
    simp only [true_or, iff_true]
    intro step member success
    rw [(List.mem_replicate.mp member).2] at success
    exact absurd success (by decide)
  | false =>
    cases calls with
    | nil =>
      obtain rfl := Option.some.inj returned
      simp
    | cons call rest =>
      rw [ncclIbInits] at returned
      obtain ⟨step, first, more⟩ := Option.bind_eq_some_iff.mp returned
      obtain ⟨⟨tables, there⟩, succeeds, complete⟩ := ncclIbInit_first enabled first
      rw [ncclIbInits_again enabled step.2 there, Option.map_some] at more
      obtain rfl := Option.some.inj more
      simp only [List.forall_mem_cons, succeeds, complete, Bool.false_eq_true, reduceCtorEq,
        false_or, List.cons.injEq]
      constructor
      · rintro ⟨here, later⟩
        refine ⟨call, rest, ⟨rfl, rfl⟩, ?_⟩
        by_cases sound : Sound params call
        · exact .inl sound
        · refine .inr ⟨not_not.mp fun accepted => sound (here accepted), ?_⟩
          by_contra followed
          have positive : rest.length ≠ 0 :=
            fun empty => followed (List.length_eq_zero_iff.mp empty)
          exact sound (complete.mp (later (.ncclSuccess, step.2)
            (List.mem_replicate.mpr ⟨positive, rfl⟩) rfl))
      · rintro ⟨call', rest', ⟨rfl, rfl⟩, sound | ⟨refused, rfl⟩⟩
        · refine ⟨fun _ => sound, fun again member _ => ?_⟩
          rw [(List.mem_replicate.mp member).2]
          exact complete.mpr sound
        · exact ⟨fun accepted => absurd refused accepted, by simp⟩

/-- Merging is on. -/
def defaultParams : IbParams :=
  { env := IbTables.IbEnv.default, mergeNics := true, unetDisable := false }

/-- A card with one port, and no step fails. -/
def oneCard : InitCall :=
  { interface := true
    devices := some [
      { name := "mlx5_0", path := "0000:3b:00.0".toList, opened := true, sysImageGuid := some 17
        ports := [⟨some IbTables.fastPort, true, true⟩], closed := true }]
    again := [] }

/-- Both calls succeed with complete tables, which takes a sound first call. -/
theorem init_success_complete_oneCard : Sound defaultParams oneCard := by
  obtain ⟨results, returned⟩ := Option.isSome_iff_exists.mp
    (by decide +kernel : (ncclIbInits defaultParams .untouched [oneCard, oneCard]).isSome = true)
  have complete : ((ncclIbInits defaultParams .untouched [oneCard, oneCard]).getD []).all
      (fun step => decide (step.1 = .ncclSuccess) && step.2.complete) = true := by decide +kernel
  rw [returned, Option.getD_some, List.all_eq_true] at complete
  rcases (init_success_complete returned).mp (fun step member _ =>
    (Bool.and_eq_true _ _ ▸ complete step member).2) with disabled | none | ⟨_, _, calls, sound⟩
  · exact absurd disabled (by decide)
  · exact absurd none (by simp)
  · obtain ⟨rfl, rfl⟩ := List.cons.inj calls
    rcases sound with sound | ⟨_, none⟩
    · exact sound
    · exact absurd none (by simp)

/-- No interface is found, and the next call succeeds without a device. -/
theorem init_success_incomplete :
    ¬ ∀ (params : IbParams) (calls : List InitCall) (results : List (NcclResult × Globals)),
      ncclIbInits params .untouched calls = some results →
        ∀ step ∈ results, step.1 = .ncclSuccess → step.2.complete = true := by
  intro always
  have complete := always defaultParams [{ oneCard with interface := false }, oneCard]
    [(.ncclInternalError, ⟨some .empty, false⟩), (.ncclSuccess, ⟨some .empty, false⟩)] rfl
    (.ncclSuccess, ⟨some .empty, false⟩) (by simp) rfl
  exact absurd complete (by decide)

end IbInit

end NcclExts.Unet
