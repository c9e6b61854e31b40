import NcclExts.Unet.Device

/-!
# The table of merged devices

Initialization walks over the verbs devices and their ports. Every eligible port
becomes a device, and devices that are ports of one card are merged in pairs as they
turn up. When the merged devices end up with different numbers of ports the list is
built again without merging.
-/

namespace NcclExts.Unet

/-- `struct ibv_port_attr` as far as the choice of ports reads it; `none` is an
unspecified link layer. -/
structure IbvPort where
  active : Bool
  physState : Nat
  linkLayer : Option LinkLayer
  activeSpeed : Nat
  activeWidth : Nat

/-- A verbs device: its name, the real path behind its sysfs entry, its system image
guid and its ports, of which the first has number 1. -/
structure IbvDevice where
  name : String
  path : List Char
  sysImageGuid : Nat
  ports : List IbvPort

/-- `struct netIf`. -/
structure NetIf where
  name : String
  port : Int

/-- What the environment says: the entries of `NCCL_IB_HCA` with their two flags, and
`NCCL_IB_MERGE_VFS`. -/
structure IbEnv where
  userIfs : List NetIf
  searchNot : Bool
  searchExact : Bool
  mergeVfs : Bool

/-- `NCCL_IB_MAX_DEVS_PER_NIC`. -/
def maxDevsPerNic : Nat := 2

/-- `MAX_IB_DEVS`. -/
def maxIbDevs : Nat := 32

/-- `matchIf`. -/
def matchIf (string ref : String) (matchExact : Bool) : Bool :=
  if matchExact then string = ref else ref.toList.isPrefixOf string.toList

/-- `matchPort`. -/
def matchPort (port1 port2 : Int) : Bool := port1 = -1 ∨ port2 = -1 ∨ port1 = port2

/-- `matchIfList`. -/
def matchIfList (string : String) (port : Int) (ifList : List NetIf) (matchExact : Bool) : Bool :=
  ifList.isEmpty ||
    ifList.any fun netIf => matchIf string netIf.name matchExact && matchPort port netIf.port

/-- `ibvWidths`. -/
def ibvWidths : List Nat := [1, 4, 8, 12, 2]

/-- `ibvSpeeds`. -/
def ibvSpeeds : List Nat := [2500, 5000, 10000, 10000, 14000, 25000, 50000, 100000]

/-- `firstBitSet`. -/
def firstBitSet (val max : Nat) : Nat := ((List.range max).find? val.testBit).getD max

/-- `ncclIbWidth`. -/
def ncclIbWidth (width : Nat) : Nat := ibvWidths.getD (firstBitSet width (ibvWidths.length - 1)) 0

/-- `ncclIbSpeed`. -/
def ncclIbSpeed (speed : Nat) : Nat := ibvSpeeds.getD (firstBitSet speed (ibvSpeeds.length - 1)) 0

/-- The speed of a port. -/
def IbvPort.speed (port : IbvPort) : Nat :=
  ncclIbSpeed port.activeSpeed * ncclIbWidth port.activeWidth

/-- The path that `ncclIbGetPciPath` finds: ports, and on demand virtual functions, of
one card get the same path. -/
def ncclIbGetPciPath (mergeVfs : Bool) (path : List Char) : List Char :=
  let path := path.set (path.length - 1) '0'
  if mergeVfs then (path.set (path.length - 3) '0').set (path.length - 4) '0' else path

/-- The fields of `struct ncclIbDev` that merging reads, with the verbs device and port
the entry stands for. -/
structure IbDevEntry where
  device : Nat
  portNum : Nat
  guid : Nat
  link : LinkLayer
  speed : Nat
  devName : String
  pciPath : List Char
deriving DecidableEq

/-- The entry of a port; `none` when the port is passed over. -/
def IbvPort.entry (env : IbEnv) (device : Nat) (dev : IbvDevice) (portNum : Nat) (port : IbvPort) :
    Option IbDevEntry :=
  if (matchIfList dev.name portNum env.userIfs env.searchExact ^^ env.searchNot) = false then none
  else if port.active = false then none
  else if port.physState ≠ 5 then none
  else
    port.linkLayer.bind fun link =>
      if port.speed < 100000 then none
      else
        some { device := device, portNum := portNum, guid := dev.sysImageGuid, link := link,
               speed := port.speed, devName := dev.name,
               pciPath := ncclIbGetPciPath env.mergeVfs dev.path }

/-- `struct ncclIbMergedDev`. -/
structure NcclIbMergedDev where
  ndevs : Nat
  devs : Nat → Nat
  speed : Nat
  devName : String

/-- An entry of a zeroed table. -/
def NcclIbMergedDev.zero : NcclIbMergedDev :=
  { ndevs := 0, devs := fun _ => 0, speed := 0, devName := "" }

/-- The two global tables; the merged one is an array with its count. -/
structure IbTables where
  ibDevs : List IbDevEntry
  merged : Nat → NcclIbMergedDev
  nMerged : Nat

/-- The tables before initialization, and before the list is built again. -/
def IbTables.empty : IbTables := { ibDevs := [], merged := fun _ => .zero, nMerged := 0 }

namespace IbTables

/-- Ports of one card: the same PCI path, guid and link layer. -/
def SameCard (left right : IbDevEntry) : Prop :=
  left.pciPath = right.pciPath ∧ left.guid = right.guid ∧ left.link = right.link

instance (left right : IbDevEntry) : Decidable (SameCard left right) :=
  inferInstanceAs (Decidable (_ ∧ _ ∧ _))

/-- The merged device has room and its first port is of the same card. -/
def matchesDev (tables : IbTables) (dev : IbDevEntry) (i : Nat) : Bool :=
  (tables.merged i).ndevs < maxDevsPerNic &&
    (tables.ibDevs[(tables.merged i).devs 0]?).any fun compareDev => SameCard dev compareDev

/-- `ncclIbFindMatchingDev`. -/
def ncclIbFindMatchingDev (tables : IbTables) (dev : IbDevEntry) : Nat :=
  ((List.range tables.nMerged).find? (tables.matchesDev dev)).getD tables.nMerged

/-- A port without a match opens a merged device. -/
def opened (tables : IbTables) (dev : IbDevEntry) : IbTables :=
  let old := tables.merged tables.nMerged
  { ibDevs := tables.ibDevs ++ [dev]
    merged := Function.update tables.merged tables.nMerged
      { ndevs := 1
        devs := Function.update old.devs 0 tables.ibDevs.length
        speed := old.speed + dev.speed
        devName := dev.devName }
    nMerged := tables.nMerged + 1 }

/-- A port with a match joins that merged device. -/
def joined (tables : IbTables) (mergedDev : Nat) (dev : IbDevEntry) : IbTables :=
  let old := tables.merged mergedDev
  { ibDevs := tables.ibDevs ++ [dev]
    merged := Function.update tables.merged mergedDev
      { ndevs := old.ndevs + 1
        devs := Function.update old.devs old.ndevs tables.ibDevs.length
        speed := old.speed + dev.speed
        devName := old.devName ++ "+" ++ dev.devName }
    nMerged := tables.nMerged }

/-- The end of the loop over the ports: enter a port into the tables. -/
def addPort (mergeNics : Bool) (tables : IbTables) (dev : IbDevEntry) : IbTables :=
  let mergedDev := if mergeNics then tables.ncclIbFindMatchingDev dev else tables.nMerged
  if mergedDev = tables.nMerged then tables.opened dev else tables.joined mergedDev dev

/-- The loop over the ports of a device. -/
def addPorts (env : IbEnv) (mergeNics : Bool) (device : Nat) (dev : IbvDevice) :
    Nat → List IbvPort → IbTables → IbTables
  | _, [], tables => tables
  | portNum, port :: rest, tables =>
    match port.entry env device dev portNum with
    | none => addPorts env mergeNics device dev (portNum + 1) rest tables
    | some entry =>
      addPorts env mergeNics device dev (portNum + 1) rest (tables.addPort mergeNics entry)

/-- The loop over the devices, which stops when the table of devices is full. -/
def addDevices (env : IbEnv) (mergeNics : Bool) : Nat → List IbvDevice → IbTables → IbTables
  | _, [], tables => tables
  | device, dev :: rest, tables =>
    if tables.ibDevs.length < maxIbDevs then
      addDevices env mergeNics (device + 1) rest
        (addPorts env mergeNics device dev 1 dev.ports tables)
    else tables

/-- Some merged device has another number of ports than the first. -/
def mixed (tables : IbTables) : Bool :=
  (List.range tables.nMerged).any fun d => (tables.merged d).ndevs ≠ (tables.merged 0).ndevs

/-- From `build_ib_list` on: the tables afterwards, and how often the list was built
again. -/
def buildIbList (env : IbEnv) (devices : List IbvDevice) (mergeNics : Bool) (tables : IbTables) :
    Nat × IbTables :=
  let tables := addDevices env mergeNics 0 devices tables
  if mergeNics && tables.mixed then
    let rebuilt := buildIbList env devices false .empty
    (rebuilt.1 + 1, rebuilt.2)
  else (0, tables)
termination_by mergeNics.toNat
decreasing_by simp_all

/-- `ncclIbInit`, with `NCCL_IB_MERGE_NICS`. -/
def ncclIbInit (env : IbEnv) (mergeNics : Bool) (devices : List IbvDevice) : Nat × IbTables :=
  buildIbList env devices mergeNics .empty

/-! ## A pass over the ports -/

/-- The entries of the eligible ports of a device, from a port number on. -/
def eligibleOf (env : IbEnv) (device : Nat) (dev : IbvDevice) (portNum : Nat)
    (ports : List IbvPort) : List IbDevEntry :=
  (ports.zipIdx portNum).filterMap fun port => port.1.entry env device dev port.2

/-- The entries of all eligible ports, from a device number on. -/
def eligible (env : IbEnv) (device : Nat) (devices : List IbvDevice) : List IbDevEntry :=
  (devices.zipIdx device).flatMap fun dev => eligibleOf env dev.2 dev.1 1 dev.1.ports

/-- Entering a port appends it to the table of devices. -/
theorem addPort_ibDevs (mergeNics : Bool) (tables : IbTables) (dev : IbDevEntry) :
    (tables.addPort mergeNics dev).ibDevs = tables.ibDevs ++ [dev] := by
  simp only [addPort]
  generalize (if mergeNics then tables.ncclIbFindMatchingDev dev else tables.nMerged) = mergedDev
  split <;> rfl

/-- Entering ports one after the other appends all of them. -/
theorem foldl_addPort_ibDevs (mergeNics : Bool) (ports : List IbDevEntry) (tables : IbTables) :
    (ports.foldl (addPort mergeNics) tables).ibDevs = tables.ibDevs ++ ports := by
  induction ports generalizing tables with
  | nil => simp
  | cons dev rest ih => simp [ih, addPort_ibDevs]

/-- The loop over the ports enters the eligible ones. -/
theorem addPorts_eq (env : IbEnv) (mergeNics : Bool) (device : Nat) (dev : IbvDevice)
    (portNum : Nat) (ports : List IbvPort) (tables : IbTables) :
    addPorts env mergeNics device dev portNum ports tables =
      (eligibleOf env device dev portNum ports).foldl (addPort mergeNics) tables := by
  induction ports generalizing portNum tables with
  | nil => rfl
  | cons port rest ih =>
    rw [addPorts, eligibleOf, List.zipIdx_cons, List.filterMap_cons]
    cases port.entry env device dev portNum with
    | none => exact ih (portNum + 1) tables
    | some entry => exact ih (portNum + 1) (tables.addPort mergeNics entry)

/-- The loop over the devices enters all eligible ports when they fit the table. -/
theorem addDevices_eq (env : IbEnv) (mergeNics : Bool) (device : Nat) (devices : List IbvDevice)
    (tables : IbTables)
    (few : tables.ibDevs.length + (eligible env device devices).length ≤ maxIbDevs) :
    addDevices env mergeNics device devices tables =
      (eligible env device devices).foldl (addPort mergeNics) tables := by
  induction devices generalizing device tables with
  | nil => rfl
  | cons dev rest ih =>
    have split : eligible env device (dev :: rest) =
        eligibleOf env device dev 1 dev.ports ++ eligible env (device + 1) rest := by
      simp [eligible, List.zipIdx_cons]
    rw [split, List.length_append] at few
    rw [split, List.foldl_append, addDevices]
    by_cases room : tables.ibDevs.length < maxIbDevs
    · rw [if_pos room, addPorts_eq, ih]
      rw [foldl_addPort_ibDevs, List.length_append]
      omega
    · have noneHere : eligibleOf env device dev 1 dev.ports = [] :=
        List.length_eq_zero_iff.mp (by omega)
      have noneLater : eligible env (device + 1) rest = [] :=
        List.length_eq_zero_iff.mp (by omega)
      rw [if_neg room, noneHere, noneLater]
      rfl

/-! ## What holds of the tables during a pass -/

/-- A port stands at a position of a merged device. -/
def Holds (tables : IbTables) (d i p : Nat) : Prop :=
  d < tables.nMerged ∧ i < (tables.merged d).ndevs ∧ (tables.merged d).devs i = p

/-- The speed of a port in the table of devices. -/
def speedAt (tables : IbTables) (p : Nat) : Nat := (tables.ibDevs[p]?.map IbDevEntry.speed).getD 0

/-- The speeds of the ports of a merged device together. -/
def portSpeeds (tables : IbTables) (d : Nat) : Nat :=
  ((List.range (tables.merged d).ndevs).map fun i => tables.speedAt ((tables.merged d).devs i)).sum

/-- Every port stands at one position; a merged device has one or two ports, all of one
card, and the sum of their speeds; and the rest of the array is untouched. -/
structure Merging (tables : IbTables) : Prop where
  known : ∀ {d i p}, tables.Holds d i p → p < tables.ibDevs.length
  placed : ∀ {p}, p < tables.ibDevs.length → ∃ d i, tables.Holds d i p
  once : ∀ {d i e j p}, tables.Holds d i p → tables.Holds e j p → d = e ∧ i = j
  oneOrTwo : ∀ {d}, d < tables.nMerged → (tables.merged d).ndevs = 1 ∨ (tables.merged d).ndevs = 2
  sameCard : ∀ {d i p dev first}, tables.Holds d i p → tables.ibDevs[p]? = some dev →
    tables.ibDevs[(tables.merged d).devs 0]? = some first → SameCard dev first
  speeds : ∀ {d}, d < tables.nMerged → (tables.merged d).speed = tables.portSpeeds d
  clean : ∀ {d}, tables.nMerged ≤ d → tables.merged d = .zero

theorem empty_merging : empty.Merging := by
  constructor
  · rintro d i p ⟨inside, _⟩
    exact absurd inside (Nat.not_lt_zero d)
  · intro p inside
    exact absurd inside (Nat.not_lt_zero p)
  · rintro d i e j p ⟨inside, _⟩
    exact absurd inside (Nat.not_lt_zero d)
  · intro d inside
    exact absurd inside (Nat.not_lt_zero d)
  · rintro d i p dev first ⟨inside, _⟩
    exact absurd inside (Nat.not_lt_zero d)
  · intro d inside
    exact absurd inside (Nat.not_lt_zero d)
  · intros
    rfl

/-- A port either opens a merged device or joins one with a single port of its card. -/
theorem addPort_cases {tables : IbTables} (merging : tables.Merging) (mergeNics : Bool)
    (dev : IbDevEntry) :
    tables.addPort mergeNics dev = tables.opened dev ∨
      (mergeNics = true ∧ ∃ d first, tables.addPort mergeNics dev = tables.joined d dev ∧
        d < tables.nMerged ∧ (tables.merged d).ndevs = 1 ∧
        tables.ibDevs[(tables.merged d).devs 0]? = some first ∧ SameCard dev first) := by
  cases mergeNics with
  | false => exact Or.inl (if_pos rfl)
  | true =>
    by_cases none : tables.ncclIbFindMatchingDev dev = tables.nMerged
    · exact Or.inl (if_pos none)
    · cases found : (List.range tables.nMerged).find? (tables.matchesDev dev) with
      | none => exact absurd (by rw [ncclIbFindMatchingDev, found, Option.getD_none]) none
      | some d =>
        have chosen : tables.ncclIbFindMatchingDev dev = d := by
          rw [ncclIbFindMatchingDev, found, Option.getD_some]
        have inside : d < tables.nMerged := List.mem_range.mp (List.mem_of_find?_eq_some found)
        have matched := List.find?_some found
        simp only [matchesDev, Bool.and_eq_true, decide_eq_true_eq, Option.any_eq_true] at matched
        obtain ⟨room, first, firstAt, same⟩ := matched
        have single : (tables.merged d).ndevs = 1 := by
          have capacity : maxDevsPerNic = 2 := rfl
          rcases merging.oneOrTwo inside with one | two
          · exact one
          · omega
        refine Or.inr ⟨rfl, d, first, ?_, inside, single, firstAt, same⟩
        have added : tables.addPort true dev =
            tables.joined (tables.ncclIbFindMatchingDev dev) dev := if_neg none
        rw [added, chosen]

/-- Where the ports stand after one has been entered at a new position. -/
structure Placed (tables after : IbTables) (dev : IbDevEntry) (m k : Nat) : Prop where
  listed : after.ibDevs = tables.ibDevs ++ [dev]
  position : ∀ d i p, after.Holds d i p ↔
    tables.Holds d i p ∨ (d = m ∧ i = k ∧ p = tables.ibDevs.length)

/-- Entering a port at a new position keeps all positions distinct. -/
theorem Placed.distinct {tables after : IbTables} {dev : IbDevEntry} {m k : Nat}
    (entered : Placed tables after dev m k) (merging : tables.Merging) :
    (∀ {d i p}, after.Holds d i p → p < after.ibDevs.length) ∧
      (∀ {p}, p < after.ibDevs.length → ∃ d i, after.Holds d i p) ∧
      (∀ {d i e j p}, after.Holds d i p → after.Holds e j p → d = e ∧ i = j) := by
  have length : after.ibDevs.length = tables.ibDevs.length + 1 := by
    rw [entered.listed, List.length_append, List.length_singleton]
  refine ⟨?_, ?_, ?_⟩
  · intro d i p holds
    rcases (entered.position d i p).mp holds with old | ⟨_, _, new⟩
    · have inside := merging.known old
      omega
    · omega
  · intro p inside
    by_cases old : p < tables.ibDevs.length
    · obtain ⟨d, i, holds⟩ := merging.placed old
      exact ⟨d, i, (entered.position d i p).mpr (Or.inl holds)⟩
    · exact ⟨m, k, (entered.position m k p).mpr (Or.inr ⟨rfl, rfl, by omega⟩)⟩
  · intro d i e j p left right
    rcases (entered.position d i p).mp left with oldLeft | ⟨rfl, rfl, new⟩
    · have inside := merging.known oldLeft
      rcases (entered.position e j p).mp right with oldRight | ⟨_, _, new⟩
      · exact merging.once oldLeft oldRight
      · omega
    · rcases (entered.position e j p).mp right with oldRight | ⟨rfl, rfl, _⟩
      · have inside := merging.known oldRight
        omega
      · exact ⟨rfl, rfl⟩

theorem opened_placed (tables : IbTables) (dev : IbDevEntry) :
    Placed tables (tables.opened dev) dev tables.nMerged 0 := by
  refine ⟨rfl, fun d i p => ?_⟩
  unfold Holds opened
  by_cases here : d = tables.nMerged
  · subst here
    simp only [Function.update_self, Nat.lt_irrefl, false_and, false_or, true_and,
      Nat.lt_succ_self, Nat.lt_one_iff]
    constructor
    · rintro ⟨rfl, stands⟩
      rw [Function.update_self] at stands
      exact ⟨rfl, stands.symm⟩
    · rintro ⟨rfl, rfl⟩
      exact ⟨rfl, Function.update_self ..⟩
  · simp only [Function.update_of_ne here, here, false_and, or_false]
    have inside : d < tables.nMerged + 1 ↔ d < tables.nMerged := by omega
    rw [inside]

theorem joined_placed (tables : IbTables) (dev : IbDevEntry) {m : Nat} (known : m < tables.nMerged)
    (single : (tables.merged m).ndevs = 1) :
    Placed tables (tables.joined m dev) dev m 1 := by
  refine ⟨rfl, fun d i p => ?_⟩
  unfold Holds joined
  by_cases here : d = m
  · subst here
    simp only [Function.update_self, single, known, true_and]
    by_cases second : i = 1
    · subst second
      simp [eq_comm]
    · have first : i < 1 + 1 ↔ i < 1 := by omega
      simp [second, first]
  · simp only [Function.update_of_ne here, here, false_and, or_false]

/-- Every merged device has a first port. -/
theorem Merging.first {tables : IbTables} (merging : tables.Merging) {d : Nat}
    (inside : d < tables.nMerged) : tables.Holds d 0 ((tables.merged d).devs 0) := by
  refine ⟨inside, ?_, rfl⟩
  rcases merging.oneOrTwo inside with one | two
  · rw [one]
    decide
  · rw [two]
    decide

/-- Earlier ports keep their entries. -/
theorem Placed.older {tables after : IbTables} {dev : IbDevEntry} {m k p : Nat}
    (entered : Placed tables after dev m k) (older : p < tables.ibDevs.length) :
    after.ibDevs[p]? = tables.ibDevs[p]? := by
  rw [entered.listed, List.getElem?_append_left older]

/-- The new port has the new entry. -/
theorem Placed.newest {tables after : IbTables} {dev : IbDevEntry} {m k : Nat}
    (entered : Placed tables after dev m k) : after.ibDevs[tables.ibDevs.length]? = some dev := by
  rw [entered.listed, List.getElem?_concat_length]

/-- A merged device that is left alone keeps the speeds of its ports. -/
theorem Placed.portSpeeds {tables after : IbTables} {dev : IbDevEntry} {m k d : Nat}
    (entered : Placed tables after dev m k) (merging : tables.Merging) (inside : d < tables.nMerged)
    (alone : after.merged d = tables.merged d) : after.portSpeeds d = tables.portSpeeds d := by
  unfold IbTables.portSpeeds
  rw [alone]
  congr 1
  apply List.map_congr_left
  intro i member
  have known := merging.known ⟨inside, List.mem_range.mp member, rfl⟩
  rw [speedAt, speedAt, entered.older known]

/-- A merged device that is left alone keeps its ports on one card. -/
theorem Placed.sameCard {tables after : IbTables} {dev : IbDevEntry} {m k d i p : Nat}
    {port first : IbDevEntry} (entered : Placed tables after dev m k) (merging : tables.Merging)
    (alone : after.merged d = tables.merged d) (holds : tables.Holds d i p)
    (portAt : after.ibDevs[p]? = some port)
    (firstAt : after.ibDevs[(after.merged d).devs 0]? = some first) : SameCard port first := by
  rw [entered.older (merging.known holds)] at portAt
  rw [alone, entered.older (merging.known (merging.first holds.1))] at firstAt
  exact merging.sameCard holds portAt firstAt

theorem opened_merging {tables : IbTables} (merging : tables.Merging) (dev : IbDevEntry) :
    (tables.opened dev).Merging := by
  have entered := opened_placed tables dev
  obtain ⟨known, placed, once⟩ := entered.distinct merging
  have here : (tables.opened dev).merged tables.nMerged =
      { ndevs := 1
        devs := Function.update NcclIbMergedDev.zero.devs 0 tables.ibDevs.length
        speed := NcclIbMergedDev.zero.speed + dev.speed
        devName := dev.devName } := by
    have unused := merging.clean (Nat.le_refl tables.nMerged)
    simp only [opened, Function.update_self, unused]
  have alone {d : Nat} (other : d ≠ tables.nMerged) :
      (tables.opened dev).merged d = tables.merged d := Function.update_of_ne other ..
  refine ⟨known, placed, once, ?_, ?_, ?_, ?_⟩
  · intro d inside
    by_cases new : d = tables.nMerged
    · rw [new, here]
      exact Or.inl rfl
    · rw [alone new]
      exact merging.oneOrTwo (Nat.lt_of_le_of_ne (Nat.le_of_lt_succ inside) new)
  · intro d i p port first holds portAt firstAt
    rcases (entered.position d i p).mp holds with old | ⟨rfl, _, rfl⟩
    · exact entered.sameCard merging (alone (Nat.ne_of_lt old.1)) old portAt firstAt
    · rw [here] at firstAt
      simp only [Function.update_self] at firstAt
      rw [Option.some.inj (portAt.symm.trans firstAt)]
      exact ⟨rfl, rfl, rfl⟩
  · intro d inside
    by_cases new : d = tables.nMerged
    · rw [new, IbTables.portSpeeds, here]
      simp [speedAt, entered.newest, NcclIbMergedDev.zero]
    · have old := Nat.lt_of_le_of_ne (Nat.le_of_lt_succ inside) new
      rw [entered.portSpeeds merging old (alone new), alone new]
      exact merging.speeds old
  · intro d beyond
    rw [alone (Nat.ne_of_gt beyond)]
    exact merging.clean (Nat.le_of_lt beyond)

theorem joined_merging {tables : IbTables} (merging : tables.Merging) {dev first : IbDevEntry}
    {m : Nat} (inside : m < tables.nMerged) (single : (tables.merged m).ndevs = 1)
    (firstAt : tables.ibDevs[(tables.merged m).devs 0]? = some first)
    (same : SameCard dev first) : (tables.joined m dev).Merging := by
  have entered := joined_placed tables dev inside single
  obtain ⟨known, placed, once⟩ := entered.distinct merging
  have here : (tables.joined m dev).merged m =
      { ndevs := 2
        devs := Function.update (tables.merged m).devs 1 tables.ibDevs.length
        speed := (tables.merged m).speed + dev.speed
        devName := (tables.merged m).devName ++ "+" ++ dev.devName } := by
    simp only [joined, Function.update_self, single]
  have alone {d : Nat} (other : d ≠ m) :
      (tables.joined m dev).merged d = tables.merged d := Function.update_of_ne other ..
  have head : ((tables.joined m dev).merged m).devs 0 = (tables.merged m).devs 0 := by
    rw [here]
    exact Function.update_of_ne Nat.zero_ne_one tables.ibDevs.length (tables.merged m).devs
  have headAt : (tables.joined m dev).ibDevs[((tables.joined m dev).merged m).devs 0]? =
      some first := by
    rw [head, entered.older (merging.known (merging.first inside))]
    exact firstAt
  refine ⟨known, placed, once, ?_, ?_, ?_, ?_⟩
  · intro d within
    by_cases grown : d = m
    · rw [grown, here]
      exact Or.inr rfl
    · rw [alone grown]
      exact merging.oneOrTwo within
  · intro d i p port start holds portAt startAt
    by_cases grown : d = m
    · subst grown
      have same_start := Option.some.inj (startAt.symm.trans headAt)
      subst same_start
      rcases (entered.position d i p).mp holds with old | ⟨_, _, rfl⟩
      · rw [entered.older (merging.known old)] at portAt
        exact merging.sameCard old portAt firstAt
      · rw [← Option.some.inj (entered.newest.symm.trans portAt)]
        exact same
    · rcases (entered.position d i p).mp holds with old | ⟨new, _⟩
      · exact entered.sameCard merging (alone grown) old portAt startAt
      · exact absurd new grown
  · intro d within
    by_cases grown : d = m
    · subst grown
      have old := merging.speeds within
      have firstOld : tables.speedAt ((tables.merged d).devs 0) = first.speed := by
        rw [speedAt, firstAt]
        rfl
      have firstNew : (tables.joined d dev).speedAt ((tables.merged d).devs 0) = first.speed := by
        rw [speedAt, ← head, headAt]
        rfl
      have second : (tables.joined d dev).speedAt tables.ibDevs.length = dev.speed := by
        rw [speedAt, entered.newest]
        rfl
      rw [IbTables.portSpeeds, single] at old
      rw [IbTables.portSpeeds, here]
      simp only [List.range_succ, List.range_zero, List.nil_append, List.map_cons, List.map_nil,
        List.sum_cons, List.sum_nil, Nat.add_zero, List.cons_append, Function.update_self, ne_eq,
        Nat.zero_ne_one, not_false_eq_true, Function.update_of_ne, firstNew, second, firstOld]
        at old ⊢
      rw [old]
    · rw [entered.portSpeeds merging within (alone grown), alone grown]
      exact merging.speeds within
  · intro d beyond
    have other : d ≠ m := Nat.ne_of_gt (Nat.lt_of_lt_of_le inside beyond)
    rw [alone other]
    exact merging.clean beyond

/-- Entering a port keeps the tables well merged. -/
theorem addPort_merging {tables : IbTables} (merging : tables.Merging) (mergeNics : Bool)
    (dev : IbDevEntry) : (tables.addPort mergeNics dev).Merging := by
  rcases addPort_cases merging mergeNics dev with
    added | ⟨_, d, first, added, inside, single, firstAt, same⟩
  · rw [added]
    exact opened_merging merging dev
  · rw [added]
    exact joined_merging merging inside single firstAt same

/-- A whole pass keeps the tables well merged. -/
theorem foldl_addPort_merging (mergeNics : Bool) (ports : List IbDevEntry) {tables : IbTables}
    (merging : tables.Merging) : (ports.foldl (addPort mergeNics) tables).Merging := by
  induction ports generalizing tables with
  | nil => exact merging
  | cons dev rest ih => exact ih (addPort_merging merging mergeNics dev)

/-! ## Building the list -/

/-- All merged devices have as many ports. -/
def Uniform (tables : IbTables) (ndevs : Nat) : Prop :=
  ∀ d, d < tables.nMerged → (tables.merged d).ndevs = ndevs

/-- Without merging every port gets a merged device of its own. -/
theorem foldl_addPort_single (ports : List IbDevEntry) {tables : IbTables}
    (single : tables.Uniform 1) : (ports.foldl (addPort false) tables).Uniform 1 := by
  induction ports generalizing tables with
  | nil => exact single
  | cons dev rest ih =>
    have added : tables.addPort false dev = tables.opened dev := if_pos rfl
    rw [List.foldl_cons, added]
    apply ih
    intro d inside
    by_cases new : d = tables.nMerged
    · simp only [opened, new, Function.update_self]
    · have old := Nat.lt_of_le_of_ne (Nat.le_of_lt_succ inside) new
      simp only [opened, Function.update_of_ne new]
      exact single d old

/-- Tables are uniform exactly when the check for a mix finds none. -/
theorem uniform_of_not_mixed {tables : IbTables} (unmixed : tables.mixed = false) :
    tables.Uniform (tables.merged 0).ndevs := by
  intro d inside
  simp only [mixed, List.any_eq_false, List.mem_range, decide_eq_true_eq, not_not] at unmixed
  exact unmixed d inside

/-- Nothing is rebuilt without merging. -/
theorem buildIbList_false (env : IbEnv) (devices : List IbvDevice) (tables : IbTables) :
    buildIbList env devices false tables = (0, addDevices env false 0 devices tables) := by
  rw [buildIbList]
  simp

/-- Initialization keeps the merged pass unless it is mixed, and then keeps the
unmerged pass over empty tables. -/
theorem ncclIbInit_cases (env : IbEnv) (mergeNics : Bool) (devices : List IbvDevice) :
    (ncclIbInit env mergeNics devices = (0, addDevices env mergeNics 0 devices .empty) ∧
      (mergeNics = true → (addDevices env mergeNics 0 devices .empty).mixed = false)) ∨
    ncclIbInit env mergeNics devices = (1, addDevices env false 0 devices .empty) := by
  unfold ncclIbInit
  cases mergeNics with
  | false =>
    rw [buildIbList_false]
    exact Or.inl ⟨rfl, fun impossible => absurd impossible (by decide)⟩
  | true =>
    rw [buildIbList]
    cases mix : (addDevices env true 0 devices .empty).mixed with
    | false => exact Or.inl ⟨by simp, fun _ => rfl⟩
    | true => exact Or.inr (by simp [buildIbList_false])

/-- What the table of merged devices is for: it lists every eligible port once, in
uniform groups of one or two ports of one card. -/
structure WellMerged (ports : List IbDevEntry) (tables : IbTables) : Prop where
  listed : tables.ibDevs = ports
  placed : ∀ p, p < ports.length → ∃! place : Nat × Nat, tables.Holds place.1 place.2 p
  oneOrTwo : ∀ d, d < tables.nMerged → (tables.merged d).ndevs = 1 ∨ (tables.merged d).ndevs = 2
  sameCard : ∀ d i j p q dev other, tables.Holds d i p → tables.Holds d j q →
    ports[p]? = some dev → ports[q]? = some other → SameCard dev other
  speeds : ∀ d, d < tables.nMerged → (tables.merged d).speed = tables.portSpeeds d
  uniform : ∀ d e, d < tables.nMerged → e < tables.nMerged →
    (tables.merged d).ndevs = (tables.merged e).ndevs

theorem Merging.wellMerged {tables : IbTables} (merging : tables.Merging) {ndevs : Nat}
    (uniform : tables.Uniform ndevs) : WellMerged tables.ibDevs tables := by
  refine ⟨rfl, ?_, fun d => merging.oneOrTwo, ?_, fun d => merging.speeds, ?_⟩
  · intro p inside
    obtain ⟨d, i, holds⟩ := merging.placed inside
    refine ⟨(d, i), holds, fun place other => ?_⟩
    obtain ⟨sameDev, sameIndex⟩ := merging.once other holds
    exact Prod.ext sameDev sameIndex
  · intro d i j p q dev other left right devAt otherAt
    have known := merging.known (merging.first left.1)
    have firstAt := List.getElem?_eq_getElem known
    obtain ⟨path, guid, link⟩ := merging.sameCard left devAt firstAt
    obtain ⟨path', guid', link'⟩ := merging.sameCard right otherAt firstAt
    exact ⟨path.trans path'.symm, guid.trans guid'.symm, link.trans link'.symm⟩
  · intro d e first second
    rw [uniform d first, uniform e second]

/-- A pass over ports that fit the table lists exactly them. -/
theorem pass_spec (env : IbEnv) (mergeNics : Bool) (devices : List IbvDevice)
    (few : (eligible env 0 devices).length ≤ maxIbDevs) :
    (addDevices env mergeNics 0 devices .empty).Merging ∧
      (addDevices env mergeNics 0 devices .empty).ibDevs = eligible env 0 devices ∧
      (mergeNics = false → (addDevices env mergeNics 0 devices .empty).Uniform 1) := by
  have entered : addDevices env mergeNics 0 devices .empty =
      (eligible env 0 devices).foldl (addPort mergeNics) .empty :=
    addDevices_eq env mergeNics 0 devices .empty (by rw [empty]; simpa using few)
  rw [entered]
  refine ⟨foldl_addPort_merging mergeNics _ empty_merging, ?_, ?_⟩
  · rw [foldl_addPort_ibDevs]
    exact List.nil_append _
  · rintro rfl
    exact foldl_addPort_single _ fun d inside => absurd inside (Nat.not_lt_zero d)

/-- When the eligible ports fit the table, initialization lists them in well merged
devices. It rebuilds the list at most once, and what it keeps then is what it would have
built with merging disabled from the start; the rest of the array stays zero. -/
theorem merged_device_table (env : IbEnv) (mergeNics : Bool) (devices : List IbvDevice)
    (few : (eligible env 0 devices).length ≤ maxIbDevs) :
    WellMerged (eligible env 0 devices) (ncclIbInit env mergeNics devices).2 ∧
      (ncclIbInit env mergeNics devices).1 ≤ 1 ∧
      ((ncclIbInit env mergeNics devices).1 ≠ 0 →
        (ncclIbInit env mergeNics devices).2 = (ncclIbInit env false devices).2) ∧
      ∀ d, (ncclIbInit env mergeNics devices).2.nMerged ≤ d →
        (ncclIbInit env mergeNics devices).2.merged d = .zero := by
  have unmerged : ncclIbInit env false devices = (0, addDevices env false 0 devices .empty) :=
    buildIbList_false env devices .empty
  rcases ncclIbInit_cases env mergeNics devices with ⟨kept, unmixed⟩ | rebuilt
  · obtain ⟨merging, listed, single⟩ := pass_spec env mergeNics devices few
    rw [kept]
    refine ⟨?_, Nat.zero_le 1, fun nonzero => absurd rfl nonzero, fun d => merging.clean⟩
    rw [← listed]
    cases mergeNics with
    | false => exact merging.wellMerged (single rfl)
    | true => exact merging.wellMerged (uniform_of_not_mixed (unmixed rfl))
  · obtain ⟨merging, listed, single⟩ := pass_spec env false devices few
    rw [rebuilt, unmerged]
    refine ⟨?_, Nat.le_refl 1, fun _ => rfl, fun d => merging.clean⟩
    rw [← listed]
    exact merging.wellMerged (single rfl)

/-- An active port of 400 Gb/s. -/
def fastPort : IbvPort :=
  { active := true, physState := 5, linkLayer := some .infiniband, activeSpeed := 128
    activeWidth := 2 }

/-- A card with two ports, each a verbs device of its own, and a card with one. -/
def twoCards : List IbvDevice :=
  [⟨"mlx5_0", "0000:3b:00.0".toList, 17, [fastPort]⟩,
    ⟨"mlx5_1", "0000:3b:00.1".toList, 17, [fastPort]⟩,
    ⟨"mlx5_2", "0000:86:00.0".toList, 18, [fastPort]⟩]

/-- No user list, and virtual functions kept apart. -/
def IbEnv.default : IbEnv :=
  { userIfs := [], searchNot := false, searchExact := false, mergeVfs := false }

/-- The first pass merges the two ports of the first card, which is then undone. -/
theorem merged_device_table_twoCards :
    WellMerged (eligible IbEnv.default 0 twoCards) (ncclIbInit IbEnv.default true twoCards).2 ∧
      (addDevices IbEnv.default true 0 twoCards .empty).mixed = true :=
  ⟨(merged_device_table IbEnv.default true twoCards (by decide +kernel)).1, by decide +kernel⟩

end IbTables

end NcclExts.Unet
