import Mathlib
import NcclExts.Foundation.Occupancy
import NcclExts.Foundation.SortedMap

/-!
# The virtual topology

On one kind of machine the topology that is visible hides which devices share a switch.
From the paths of the GPUs and of the NICs the devices are collected by the upstream
port they hang under; two adjacent ports with their two GPUs and one NIC make up a
switch. What is checked is only how many devices and ports there are, and that of two
adjacent ports one has two devices. An access out of range has no result here.
-/

namespace NcclExts.Ucommd

open NcclExts.Foundation

/-- What the constructor asks of its machine: two settings, the lines of two files, and
the identification of the processor. A file that is not read has no line. -/
structure Platform where
  disable : Option (List Char)
  topoFile : Option (List Char)
  productName : Option (List Char)
  boardName : Option (List Char)
  familyId : Nat
  modelId : Nat

/-- The platforms that have a virtual topology. -/
def Platform.eligible (platform : Platform) : Bool :=
  let disabled := (platform.disable.bind List.head?).any (fun first => '0' < first)
  let given := platform.topoFile.any (fun file => file ≠ [])
  let model := "NF5688-M7".toList
  let named := match platform.productName, platform.boardName with
    | some product, some board => model.isPrefixOf product || model.isPrefixOf board
    | _, _ => false
  !disabled && !given && named && platform.familyId = 6 && platform.modelId = 143

/-- The files that the constructor and `gen` read: the entries of two directories, each
named once, the lines of their files, the real paths of the devices, and the files of a
PCI device. `numaNode` is zero where the file is not read. -/
structure Sysfs where
  platform : Platform
  nvidia : List (List Char)
  nvClass : List Char → Option (List Char)
  infiniband : List (List Char)
  nodeType : List Char → Option Char
  hcaType : List Char → Option (List Char)
  nvPath : List Char → Option (List Char)
  ibPath : List Char → Option (List Char)
  pciDevice : List Char → Option (List Char)
  numaNode : List Char → Int
  distinctNvidia : nvidia.Nodup
  distinctInfiniband : infiniband.Nodup

/-- The entries of the directory of the driver that are GPUs. -/
def Sysfs.nvdevs (sys : Sysfs) : List (List Char) :=
  sys.nvidia.filter fun nvdev =>
    nvdev.head? = some '0' ∧
      (sys.nvClass nvdev = some "0x030200".toList ∨ sys.nvClass nvdev = some "0x030000".toList)

/-- The names of the HCA types that are taken. -/
def cx6Types : List (List Char) :=
  ["MT4123".toList, "MT4125".toList, "MT4129".toList, "MT4131".toList, "MT4124".toList]

/-- The entries of the directory of InfiniBand devices that are taken. -/
def Sysfs.ibdevs (sys : Sysfs) : List (List Char) :=
  sys.infiniband.filter fun ibdev =>
    ibdev ≠ ".".toList ∧ ibdev ≠ "..".toList ∧
      (sys.nodeType ibdev).any (fun type => '1' ≤ type ∧ type ≤ '3') ∧
      (sys.hcaType ibdev).any (· ∈ cx6Types)

/-! ## Paths -/

/-- `std::string::substr`; it throws when the position is behind the end. -/
def substr (text : List Char) (position count : Nat) : Option (List Char) :=
  if position ≤ text.length then some ((text.drop position).take count) else none

/-- The length of a PCI address such as `0000:00:00.0`. -/
def bdfLength : Nat := 12

/-- The position of the upstream port in a path: the size of
`/sys/devices/pci0000:00/0000:00:00.0` with its terminator. -/
def portPosition : Nat := 37

/-- The paths that are accepted. -/
def acceptedPath (path : List Char) : Bool :=
  "/sys/devices/pci0000:".toList.isPrefixOf path ||
    "/sys/devices/pci0001:".toList.isPrefixOf path

/-- The upstream port in a path. -/
def upPort (path : List Char) : List Char := (path.drop portPosition).take bdfLength

/-- The PCI address at the end of a path. -/
def address (path : List Char) : List Char := path.drop (path.length - bdfLength)

/-- `rpath.substr(rpath.length() - 12, 12)`, where the difference is unsigned. -/
def lastAddress (path : List Char) : Option (List Char) :=
  if path.length < bdfLength then none else substr path (path.length - bdfLength) bdfLength

/-- The loops over the devices: a device whose path is resolved and accepted is pushed
under its port, by the name that it goes by. -/
def pushDevs (realpath : List Char → Option (List Char))
    (name : List Char → List Char → Option (List Char)) :
    List (List Char) → List (List Char × List (List Char)) →
      Option (List (List Char × List (List Char)))
  | [], uppDevs => some uppDevs
  | dev :: devs, uppDevs =>
    match realpath dev with
    | none => pushDevs realpath name devs uppDevs
    | some path =>
      if acceptedPath path then do
        let port ← substr path portPosition bdfLength
        let named ← name dev path
        pushDevs realpath name devs (pushBack port named uppDevs)
      else pushDevs realpath name devs uppDevs

/-- The loop over pairs of ports: in each pair one port has two devices. It has no result
when it steps behind the end. -/
def evenly : List (List Char × List (List Char)) → Option Bool
  | [] => some true
  | [_] => none
  | first :: second :: rest =>
    if first.2.length = 2 ∨ second.2.length = 2 then evenly rest else some false

/-- The constructor: the devices of each port when it is done, none when the map is left
empty. It has no result when an access is out of range. -/
def Sysfs.genVTopo (sys : Sysfs) : Option (List (List Char × List (List Char))) :=
  if !sys.platform.eligible then some []
  else if sys.nvdevs.length ≠ 8 then some []
  else if sys.ibdevs.length ≠ 4 then some []
  else do
    let gpus ← pushDevs sys.nvPath (fun nvdev _ => some nvdev)
      (sys.nvdevs.insertionSort (· ≤ ·)) []
    if sys.nvdevs.length ≠ gpus.length then some []
    else do
      let uppDevs ← pushDevs sys.ibPath (fun _ path => lastAddress path)
        (sys.ibdevs.insertionSort (· ≤ ·)) gpus
      if sys.nvdevs.length ≠ uppDevs.length then some []
      else if uppDevs.any (fun upp => sys.pciDevice upp.1 ≠ some "0xc030".toList) then some []
      else do
        let even ← evenly uppDevs
        pure (if even then uppDevs else [])

/-! ## Generating -/

/-- The switches of each NUMA node, with their devices. -/
abbrev Topology := Int → List Char → Option (Finset (List Char))

/-- `topo[numa_node][port].insert(dev)`. -/
def Topology.insert (topo : Topology) (numaNode : Int) (port dev : List Char) : Topology :=
  fun numaNode' port' =>
    if numaNode' = numaNode ∧ port' = port then
      some (Insert.insert dev ((topo numaNode port).getD ∅))
    else topo numaNode' port'

/-- The loop of `gen` over pairs of ports: the port with two devices is the switch. It
has no result when an access is out of range. -/
def genLoop (numaNode : List Char → Int) :
    Topology → List (List Char × List (List Char)) → Option Topology
  | topo, [] => some topo
  | _, [_] => none
  | topo, first :: second :: rest =>
    if first.2.length = 2 then do
      let node := numaNode first.1
      let dev ← first.2[0]?
      let topo := topo.insert node first.1 dev
      let dev ← first.2[1]?
      let topo := topo.insert node first.1 dev
      let dev ← second.2[0]?
      genLoop numaNode (topo.insert node first.1 dev) rest
    else do
      let node := numaNode second.1
      let dev ← first.2[0]?
      let topo := topo.insert node second.1 dev
      let dev ← second.2[0]?
      let topo := topo.insert node second.1 dev
      let dev ← second.2[1]?
      genLoop numaNode (topo.insert node second.1 dev) rest

/-- The topology that `gen` builds. -/
def Sysfs.gen (sys : Sysfs) (uppDevs : List (List Char × List (List Char))) : Option Topology :=
  genLoop sys.numaNode (fun _ _ => none) uppDevs

/-! ## What a map that is not empty says -/

/-- The devices whose path is resolved and accepted, with their ports. -/
def entriesOf (realpath : List Char → Option (List Char))
    (name : List Char → List Char → List Char) (devs : List (List Char)) :
    List (List Char × List Char) :=
  devs.filterMap fun dev => (realpath dev).bind fun path =>
    if acceptedPath path then some (upPort path, name dev path) else none

/-- The GPUs with their ports. -/
def Sysfs.gpus (sys : Sysfs) : List (List Char × List Char) :=
  entriesOf sys.nvPath (fun nvdev _ => nvdev) (sys.nvdevs.insertionSort (· ≤ ·))

/-- The functions of the NICs with their ports. -/
def Sysfs.nics (sys : Sysfs) : List (List Char × List Char) :=
  entriesOf sys.ibPath (fun _ path => address path) (sys.ibdevs.insertionSort (· ≤ ·))

/-- Accepted paths are long enough to contain an upstream port. -/
structure Sysfs.PathsLong (sys : Sysfs) : Prop where
  gpus : ∀ nvdev ∈ sys.nvdevs, ∀ path ∈ sys.nvPath nvdev, acceptedPath path = true →
    portPosition + bdfLength ≤ path.length
  nics : ∀ ibdev ∈ sys.ibdevs, ∀ path ∈ sys.ibPath ibdev, acceptedPath path = true →
    portPosition + bdfLength ≤ path.length

instance (sys : Sysfs) : Decidable sys.PathsLong :=
  decidable_of_iff ((∀ nvdev ∈ sys.nvdevs, ∀ path ∈ sys.nvPath nvdev, acceptedPath path = true →
      portPosition + bdfLength ≤ path.length) ∧
    ∀ ibdev ∈ sys.ibdevs, ∀ path ∈ sys.ibPath ibdev, acceptedPath path = true →
      portPosition + bdfLength ≤ path.length)
    ⟨fun ⟨gpus, nics⟩ => ⟨gpus, nics⟩, fun ⟨gpus, nics⟩ => ⟨gpus, nics⟩⟩

/-- Different devices have different PCI addresses. -/
def Sysfs.Addressed (sys : Sysfs) : Prop := ((sys.gpus ++ sys.nics).map Prod.snd).Nodup

instance (sys : Sysfs) : Decidable sys.Addressed := inferInstanceAs (Decidable (List.Nodup _))

/-- The two ports are a pair of the loops. -/
def AdjacentPorts (uppDevs : List (List Char × List (List Char)))
    (first second : List Char × List (List Char)) : Prop :=
  ∃ before after, uppDevs = before ++ first :: second :: after ∧ before.length % 2 = 0

/-- No device was skipped, every NIC is under the port of a GPU, and each pair of ports
has two devices on one of them and one on the other. -/
structure Regular (sys : Sysfs) (uppDevs : List (List Char × List (List Char))) : Prop where
  gpus : ∀ nvdev ∈ sys.nvdevs, ∃ path, sys.nvPath nvdev = some path ∧ acceptedPath path = true
  nics : ∀ ibdev ∈ sys.ibdevs, ∃ path, sys.ibPath ibdev = some path ∧ acceptedPath path = true ∧
    ∃ nvdev ∈ sys.nvdevs, ∃ gpuPath, sys.nvPath nvdev = some gpuPath ∧
      upPort path = upPort gpuPath
  pairs : ∀ first second, AdjacentPorts uppDevs first second →
    first.2.length = 2 ∧ second.2.length = 1 ∨ first.2.length = 1 ∧ second.2.length = 2

/-- A switch has the GPUs of two adjacent ports and one NIC, under whose port it is. -/
def IsSwitch (sys : Sysfs) (uppDevs : List (List Char × List (List Char))) (port : List Char)
    (devs : Finset (List Char)) : Prop :=
  ∃ first second, AdjacentPorts uppDevs first second ∧
    ∃ gpu ∈ sys.nvdevs, ∃ gpuPath, sys.nvPath gpu = some gpuPath ∧ upPort gpuPath = first.1 ∧
    ∃ gpu' ∈ sys.nvdevs, ∃ gpuPath', sys.nvPath gpu' = some gpuPath' ∧
      upPort gpuPath' = second.1 ∧
    ∃ ibdev ∈ sys.ibdevs, ∃ nicPath, sys.ibPath ibdev = some nicPath ∧ upPort nicPath = port ∧
      (port = first.1 ∨ port = second.1) ∧
      devs = {gpu, gpu', address nicPath} ∧ devs.card = 3

/-- A device is under one switch. -/
def UnderOneSwitch (topo : Topology) (dev : List Char) : Prop :=
  ∃! place : Int × List Char, ∃ devs, topo place.1 place.2 = some devs ∧ dev ∈ devs

/-- The topology has every GPU and every NIC under one switch, and nothing else. -/
structure Conserved (sys : Sysfs) (uppDevs : List (List Char × List (List Char)))
    (topo : Topology) : Prop where
  gpus : ∀ nvdev ∈ sys.nvdevs, UnderOneSwitch topo nvdev
  nics : ∀ ibdev ∈ sys.ibdevs, ∀ path, sys.ibPath ibdev = some path →
    UnderOneSwitch topo (address path)
  switches : ∀ node port devs, topo node port = some devs →
    node = sys.numaNode port ∧ IsSwitch sys uppDevs port devs

/-! ## The loops over the devices -/

/-- The loop pushes the accepted devices. -/
theorem pushDevs_eq {realpath : List Char → Option (List Char)}
    {name : List Char → List Char → Option (List Char)}
    {named : List Char → List Char → List Char} {devs : List (List Char)}
    (long : ∀ dev ∈ devs, ∀ path, realpath dev = some path → acceptedPath path = true →
      portPosition + bdfLength ≤ path.length ∧ name dev path = some (named dev path))
    (uppDevs : List (List Char × List (List Char))) :
    pushDevs realpath name devs uppDevs =
      some (pushAll (entriesOf realpath named devs) uppDevs) := by
  induction devs generalizing uppDevs with
  | nil => rfl
  | cons dev devs ih =>
    have later := ih fun other member => long other (List.mem_cons_of_mem _ member)
    unfold pushDevs
    cases isPath : realpath dev with
    | none =>
      have skipped : entriesOf realpath named (dev :: devs) = entriesOf realpath named devs := by
        simp [entriesOf, isPath]
      rw [skipped]
      exact later uppDevs
    | some path =>
      by_cases accepted : acceptedPath path = true
      · obtain ⟨enough, isNamed⟩ := long dev List.mem_cons_self path isPath accepted
        have port : substr path portPosition bdfLength = some (upPort path) :=
          if_pos (by omega)
        have pushed : entriesOf realpath named (dev :: devs) =
            (upPort path, named dev path) :: entriesOf realpath named devs := by
          simp [entriesOf, isPath, accepted]
        rw [pushed]
        simp only [accepted, if_true, port, isNamed, bind, Option.bind_some]
        exact later _
      · have skipped : entriesOf realpath named (dev :: devs) =
            entriesOf realpath named devs := by
          simp [entriesOf, isPath, accepted]
        rw [skipped]
        simp only [accepted, Bool.false_eq_true, if_false]
        exact later uppDevs

/-- The last twelve characters of a long path. -/
theorem lastAddress_eq {path : List Char} (long : portPosition + bdfLength ≤ path.length) :
    lastAddress path = some (address path) := by
  have behind : (path.drop (path.length - bdfLength)).length = bdfLength := by
    rw [List.length_drop]
    omega
  unfold lastAddress
  rw [if_neg (by omega), substr, if_pos (by omega), address, List.take_of_length_le (by omega)]

/-- An entry is an accepted device. -/
theorem mem_entriesOf {realpath : List Char → Option (List Char)}
    {name : List Char → List Char → List Char} {devs : List (List Char)} {port dev : List Char} :
    (port, dev) ∈ entriesOf realpath name devs ↔ ∃ d ∈ devs, ∃ path, realpath d = some path ∧
      acceptedPath path = true ∧ upPort path = port ∧ name d path = dev := by
  simp only [entriesOf, List.mem_filterMap, Option.bind_eq_some_iff]
  constructor
  · rintro ⟨d, member, path, isPath, entry⟩
    by_cases accepted : acceptedPath path = true
    · rw [if_pos accepted, Option.some.injEq, Prod.mk.injEq] at entry
      exact ⟨d, member, path, isPath, accepted, entry.1, entry.2⟩
    · rw [if_neg accepted] at entry
      simp at entry
  · rintro ⟨d, member, path, isPath, accepted, rfl, rfl⟩
    exact ⟨d, member, path, isPath, if_pos accepted⟩

/-- When there are as many entries as devices, no device was skipped. -/
theorem entriesOf_full {realpath : List Char → Option (List Char)}
    {name : List Char → List Char → List Char} {devs : List (List Char)}
    (full : devs.length ≤ (entriesOf realpath name devs).length) {dev : List Char}
    (member : dev ∈ devs) : ∃ path, realpath dev = some path ∧ acceptedPath path = true := by
  rw [entriesOf, List.length_filterMap_eq_countP] at full
  have some := List.countP_eq_length.mp (Nat.le_antisymm List.countP_le_length full) dev member
  cases isPath : realpath dev with
  | none =>
    rw [isPath] at some
    simp at some
  | some path =>
    refine ⟨path, rfl, ?_⟩
    by_contra refused
    rw [isPath, Option.bind_some, if_neg refused] at some
    simp at some

/-! ## Pairs of ports -/

/-- In each pair one port has two devices and the other has one. -/
def Matched : List (List Char × List (List Char)) → Prop
  | [] => True
  | [_] => False
  | first :: second :: rest =>
    (first.2.length = 2 ∧ second.2.length = 1 ∨ first.2.length = 1 ∧ second.2.length = 2) ∧
      Matched rest

/-- How many devices a map has. -/
def deviceCount (uppDevs : List (List Char × List (List Char))) : Nat :=
  (uppDevs.map fun upp => upp.2.length).sum

/-- Stepping by two ends at the end of an even number of ports. -/
theorem evenly_some : ∀ {uppDevs : List (List Char × List (List Char))},
    uppDevs.length % 2 = 0 → ∃ even, evenly uppDevs = some even
  | [], _ => ⟨true, rfl⟩
  | [_], odd => absurd odd (by simp)
  | first :: second :: rest, even => by
    have fewer : rest.length % 2 = 0 := by
      simp only [List.length_cons] at even
      omega
    unfold evenly
    split
    · exact evenly_some fewer
    · exact ⟨false, rfl⟩

/-- Where every pair passes and no port is without devices, there are three devices for
two ports at least. -/
theorem deviceCount_of_evenly : ∀ {uppDevs : List (List Char × List (List Char))},
    evenly uppDevs = some true → (∀ upp ∈ uppDevs, upp.2 ≠ []) →
      3 * uppDevs.length ≤ 2 * deviceCount uppDevs
  | [], _, _ => Nat.le_refl _
  | [_], passed, _ => by simp [evenly] at passed
  | first :: second :: rest, passed, nonempty => by
    have some := List.length_pos_of_ne_nil (nonempty first (by simp))
    have some' := List.length_pos_of_ne_nil (nonempty second (by simp))
    unfold evenly at passed
    split at passed
    next two =>
      have later := deviceCount_of_evenly passed fun upp member => nonempty upp (by simp [member])
      simp only [deviceCount, List.map_cons, List.sum_cons, List.length_cons] at later ⊢
      omega
    next => simp at passed

/-- With no more devices than that, every pair is matched. -/
theorem matched_of_evenly : ∀ {uppDevs : List (List Char × List (List Char))},
    evenly uppDevs = some true → (∀ upp ∈ uppDevs, upp.2 ≠ []) →
      2 * deviceCount uppDevs ≤ 3 * uppDevs.length → Matched uppDevs
  | [], _, _, _ => trivial
  | [_], passed, _, _ => by simp [evenly] at passed
  | first :: second :: rest, passed, nonempty, few => by
    have some := List.length_pos_of_ne_nil (nonempty first (by simp))
    have some' := List.length_pos_of_ne_nil (nonempty second (by simp))
    unfold evenly at passed
    split at passed
    next two =>
      have others : ∀ upp ∈ rest, upp.2 ≠ [] := fun upp member => nonempty upp (by simp [member])
      have least := deviceCount_of_evenly passed others
      have counted : deviceCount (first :: second :: rest) =
          first.2.length + (second.2.length + deviceCount rest) := rfl
      rw [counted, List.length_cons, List.length_cons] at few
      exact ⟨by omega, matched_of_evenly passed others (by omega)⟩
    next => simp at passed

theorem Matched.pair : ∀ {before after : List (List Char × List (List Char))}
    {first second : List Char × List (List Char)},
    Matched (before ++ first :: second :: after) → before.length % 2 = 0 →
      first.2.length = 2 ∧ second.2.length = 1 ∨ first.2.length = 1 ∧ second.2.length = 2
  | [], _, _, _, matched, _ => matched.1
  | [_], _, _, _, _, odd => absurd odd (by simp)
  | _ :: _ :: before, _, _, _, matched, even => by
    have fewer : before.length % 2 = 0 := by
      simp only [List.length_cons] at even
      omega
    exact Matched.pair matched.2 fewer

/-- The switches of a map, by the port of each and its devices in order. -/
def switchesOf : List (List Char × List (List Char)) → List (List Char × List (List Char))
  | first :: second :: rest =>
    (if first.2.length = 2 then first.1 else second.1, first.2 ++ second.2) :: switchesOf rest
  | _ => []

/-- The switches have the devices of the map. -/
theorem flatMap_switchesOf : ∀ {uppDevs : List (List Char × List (List Char))},
    Matched uppDevs → (switchesOf uppDevs).flatMap Prod.snd = uppDevs.flatMap Prod.snd
  | [], _ => rfl
  | [_], impossible => impossible.elim
  | first :: second :: rest, matched => by
    simp only [switchesOf, List.flatMap_cons, flatMap_switchesOf matched.2, List.append_assoc]

/-- A switch is made of a pair of ports. -/
theorem mem_switchesOf : ∀ {uppDevs : List (List Char × List (List Char))} {port : List Char}
    {devs : List (List Char)}, (port, devs) ∈ switchesOf uppDevs →
      ∃ first second, AdjacentPorts uppDevs first second ∧ devs = first.2 ++ second.2 ∧
        port = if first.2.length = 2 then first.1 else second.1
  | first :: second :: rest, port, devs, member => by
    rcases List.mem_cons.mp member with here | later
    · obtain ⟨rfl, rfl⟩ := Prod.mk.inj here
      exact ⟨first, second, ⟨[], rest, rfl, rfl⟩, rfl, rfl⟩
    · obtain ⟨first', second', ⟨before, after, split, even⟩, isDevs, isPort⟩ :=
        mem_switchesOf later
      refine ⟨first', second', ⟨first :: second :: before, after, ?_, ?_⟩, isDevs, isPort⟩
      · rw [split]
        rfl
      · simp only [List.length_cons]
        omega

/-! ## Generating -/

/-- Three devices inserted under a new port. -/
theorem Topology.insert_three {topo : Topology} {node : Int} {port : List Char}
    (fresh : topo node port = none) (dev dev' dev'' : List Char) (node' : Int)
    (port' : List Char) :
    ((topo.insert node port dev).insert node port dev').insert node port dev'' node' port' =
      if node' = node ∧ port' = port then some [dev, dev', dev''].toFinset
      else topo node' port' := by
  unfold Topology.insert
  by_cases here : node' = node ∧ port' = port
  · rw [if_pos here, if_pos here]
    simp only [and_self, if_true, fresh, Option.getD_none, Option.getD_some]
    congr 1
    ext other
    simp only [Finset.mem_insert, Finset.notMem_empty, or_false, List.mem_toFinset,
      List.mem_cons, List.not_mem_nil]
    tauto
  · rw [if_neg here, if_neg here, if_neg here, if_neg here]

/-- The second topology has the given switches besides those of the first. -/
def HasSwitches (numaNode : List Char → Int) (topo topo' : Topology)
    (switches : List (List Char × List (List Char))) : Prop :=
  ∀ node port devs, topo' node port = some devs ↔ topo node port = some devs ∨
    ∃ list, (port, list) ∈ switches ∧ node = numaNode port ∧ devs = list.toFinset

/-- Three devices inserted under a new port are a switch. -/
theorem HasSwitches.cons {numaNode : List Char → Int} {topo topo' : Topology}
    {switches : List (List Char × List (List Char))} {port dev dev' dev'' : List Char}
    (fresh : topo (numaNode port) port = none)
    (later : HasSwitches numaNode (((topo.insert (numaNode port) port dev).insert
      (numaNode port) port dev').insert (numaNode port) port dev'') topo' switches) :
    HasSwitches numaNode topo topo' ((port, [dev, dev', dev'']) :: switches) := by
  intro node' port' devs
  rw [later node' port' devs, Topology.insert_three fresh]
  by_cases here : node' = numaNode port ∧ port' = port
  · obtain ⟨rfl, rfl⟩ := here
    rw [if_pos ⟨rfl, rfl⟩, fresh]
    constructor
    · rintro (same | ⟨list, member, placed, isDevs⟩)
      · exact Or.inr ⟨_, List.mem_cons_self, rfl, (Option.some.inj same).symm⟩
      · exact Or.inr ⟨list, List.mem_cons_of_mem _ member, placed, isDevs⟩
    · rintro (impossible | ⟨list, member, placed, isDevs⟩)
      · simp at impossible
      · rcases List.mem_cons.mp member with same | behind
        · obtain ⟨_, rfl⟩ := Prod.mk.inj same
          exact Or.inl (congrArg some isDevs.symm)
        · exact Or.inr ⟨list, behind, placed, isDevs⟩
  · rw [if_neg here]
    refine or_congr_right ?_
    constructor
    · rintro ⟨list, member, placed, isDevs⟩
      exact ⟨list, List.mem_cons_of_mem _ member, placed, isDevs⟩
    · rintro ⟨list, member, placed, isDevs⟩
      rcases List.mem_cons.mp member with same | behind
      · obtain ⟨rfl, _⟩ := Prod.mk.inj same
        exact absurd ⟨placed, rfl⟩ here
      · exact ⟨list, behind, placed, isDevs⟩

/-- From a map with matched pairs, `gen` builds exactly its switches. -/
theorem genLoop_eq (numaNode : List Char → Int) :
    ∀ (uppDevs : List (List Char × List (List Char))) (topo : Topology), Matched uppDevs →
      (uppDevs.map Prod.fst).Nodup → (∀ upp ∈ uppDevs, ∀ node, topo node upp.1 = none) →
      ∃ topo', genLoop numaNode topo uppDevs = some topo' ∧
        HasSwitches numaNode topo topo' (switchesOf uppDevs)
  | [], topo, _, _, _ => ⟨topo, rfl, fun _ _ _ => by simp [switchesOf]⟩
  | [_], _, impossible, _, _ => impossible.elim
  | (port, devs) :: (port', devs') :: rest, topo, matched, distinct, fresh => by
    obtain ⟨notLater, distinct'⟩ := List.nodup_cons.mp distinct
    obtain ⟨notLater', distinct''⟩ := List.nodup_cons.mp distinct'
    rw [List.map_cons, List.mem_cons, not_or] at notLater
    have free := fresh (port, devs) List.mem_cons_self
    have free' := fresh (port', devs') (List.mem_cons_of_mem _ List.mem_cons_self)
    have behind : ∀ upp ∈ rest, upp.1 ≠ port ∧ upp.1 ≠ port' ∧ ∀ node, topo node upp.1 = none := by
      intro upp member
      have isKey : upp.1 ∈ rest.map Prod.fst := List.mem_map_of_mem member
      refine ⟨fun same => notLater.2 (same ▸ isKey), fun same => notLater' (same ▸ isKey), ?_⟩
      exact fresh upp (List.mem_cons_of_mem _ (List.mem_cons_of_mem _ member))
    rcases matched.1 with ⟨two, one⟩ | ⟨one, two⟩
    · obtain ⟨dev, dev', rfl⟩ := List.length_eq_two.mp two
      obtain ⟨dev'', rfl⟩ := List.length_eq_one_iff.mp one
      obtain ⟨topo', built, holds⟩ := genLoop_eq numaNode rest
        (((topo.insert (numaNode port) port dev).insert (numaNode port) port dev').insert
          (numaNode port) port dev'') matched.2 distinct'' (by
            intro upp member node
            rw [Topology.insert_three (free _), if_neg fun same => (behind upp member).1 same.2]
            exact (behind upp member).2.2 node)
      exact ⟨topo', built, holds.cons (free _)⟩
    · obtain ⟨dev, rfl⟩ := List.length_eq_one_iff.mp one
      obtain ⟨dev', dev'', rfl⟩ := List.length_eq_two.mp two
      obtain ⟨topo', built, holds⟩ := genLoop_eq numaNode rest
        (((topo.insert (numaNode port') port' dev).insert (numaNode port') port' dev').insert
          (numaNode port') port' dev'') matched.2 distinct'' (by
            intro upp member node
            rw [Topology.insert_three (free' _), if_neg fun same => (behind upp member).2.1 same.2]
            exact (behind upp member).2.2 node)
      exact ⟨topo', built, holds.cons (free' _)⟩

/-! ## Counting -/

theorem deviceCount_eq (uppDevs : List (List Char × List (List Char))) :
    deviceCount uppDevs = (listing uppDevs).length := by
  simp [deviceCount, listing, List.length_flatMap]

theorem entriesOf_length_le (realpath : List Char → Option (List Char))
    (name : List Char → List Char → List Char) (devs : List (List Char)) :
    (entriesOf realpath name devs).length ≤ devs.length := List.length_filterMap_le _ _

namespace Sysfs

variable {sys : Sysfs}

/-- The GPUs by their ports. -/
def byGpu (sys : Sysfs) : List (List Char × List (List Char)) := pushAll sys.gpus []

/-- All devices by their ports. -/
def byPort (sys : Sysfs) : List (List Char × List (List Char)) := pushAll sys.nics sys.byGpu

/-- What the constructor checked when it leaves a map. -/
structure Checked (sys : Sysfs) : Prop where
  gpus : sys.nvdevs.length = 8
  nics : sys.ibdevs.length = 4
  gpuPorts : sys.byGpu.length = 8
  ports : sys.byPort.length = 8
  even : evenly sys.byPort = some true

/-- The constructor has a result, and a map that is not empty passed its checks. -/
theorem genVTopo_eq (long : sys.PathsLong) : ∃ uppDevs, sys.genVTopo = some uppDevs ∧
    (uppDevs ≠ [] → uppDevs = sys.byPort ∧ sys.Checked) := by
  have gpus : pushDevs sys.nvPath (fun nvdev _ => some nvdev)
      (sys.nvdevs.insertionSort (· ≤ ·)) [] = some sys.byGpu := by
    apply pushDevs_eq
    intro dev member path isPath accepted
    have isDev := (List.perm_insertionSort _ _).mem_iff.mp member
    exact ⟨long.gpus dev isDev path isPath accepted, rfl⟩
  have nics : pushDevs sys.ibPath (fun _ path => lastAddress path)
      (sys.ibdevs.insertionSort (· ≤ ·)) sys.byGpu = some sys.byPort := by
    apply pushDevs_eq
    intro dev member path isPath accepted
    have isDev := (List.perm_insertionSort _ _).mem_iff.mp member
    have enough := long.nics dev isDev path isPath accepted
    exact ⟨enough, lastAddress_eq enough⟩
  unfold genVTopo
  simp only [gpus, nics, bind, Option.bind_some]
  split_ifs with ineligible notEight notFour otherPorts otherPorts' otherSwitch
  · exact ⟨[], rfl, fun some => absurd rfl some⟩
  · exact ⟨[], rfl, fun some => absurd rfl some⟩
  · exact ⟨[], rfl, fun some => absurd rfl some⟩
  · exact ⟨[], rfl, fun some => absurd rfl some⟩
  · exact ⟨[], rfl, fun some => absurd rfl some⟩
  · exact ⟨[], rfl, fun some => absurd rfl some⟩
  · rw [not_not] at notEight notFour otherPorts otherPorts'
    obtain ⟨even, isEven⟩ := evenly_some (by omega : sys.byPort.length % 2 = 0)
    rw [isEven]
    cases even with
    | false => exact ⟨[], rfl, fun some => absurd rfl some⟩
    | true =>
      exact ⟨sys.byPort, rfl, fun _ => ⟨rfl, notEight, notFour, by omega, by omega, isEven⟩⟩

theorem byGpu_ascending (sys : Sysfs) : Ascending sys.byGpu :=
  Ascending.nil.pushAll _

theorem byPort_ascending (sys : Sysfs) : Ascending sys.byPort := sys.byGpu_ascending.pushAll _

theorem byGpu_nonempty (sys : Sysfs) : ∀ upp ∈ sys.byGpu, upp.2 ≠ [] :=
  nonempty_pushAll (by simp) _

theorem byPort_nonempty (sys : Sysfs) : ∀ upp ∈ sys.byPort, upp.2 ≠ [] :=
  nonempty_pushAll sys.byGpu_nonempty _

theorem listing_byGpu (sys : Sysfs) : (listing sys.byGpu).Perm sys.gpus := by
  have pushed := listing_pushAll sys.gpus []
  rwa [show listing ([] : List (List Char × List (List Char))) = [] from rfl,
    List.append_nil] at pushed

theorem listing_byPort (sys : Sysfs) : (listing sys.byPort).Perm (sys.nics ++ sys.gpus) :=
  (listing_pushAll sys.nics sys.byGpu).trans (sys.listing_byGpu.append_left _)

theorem gpus_length_le (sys : Sysfs) : sys.gpus.length ≤ sys.nvdevs.length := by
  have few := entriesOf_length_le sys.nvPath (fun nvdev _ => nvdev)
    (sys.nvdevs.insertionSort (· ≤ ·))
  rwa [List.length_insertionSort] at few

theorem nics_length_le (sys : Sysfs) : sys.nics.length ≤ sys.ibdevs.length := by
  have few := entriesOf_length_le sys.ibPath (fun _ path => address path)
    (sys.ibdevs.insertionSort (· ≤ ·))
  rwa [List.length_insertionSort] at few

/-- The devices of all ports are different. -/
theorem devices_nodup (addressed : sys.Addressed) : (sys.byPort.flatMap Prod.snd).Nodup := by
  have devices : (listing sys.byPort).map Prod.snd = sys.byPort.flatMap Prod.snd := by
    simp [listing, List.map_flatMap, Function.comp_def]
  have same := (sys.listing_byPort.trans List.perm_append_comm).map Prod.snd
  rw [← devices]
  exact same.nodup_iff.mpr addressed

namespace Checked

/-- Every port of a GPU has one. -/
theorem single (checked : sys.Checked) {upp : List Char × List (List Char)}
    (member : upp ∈ sys.byGpu) : upp.2.length = 1 := by
  have counted : (sys.byGpu.map Prod.snd).map List.length =
      sys.byGpu.map fun upp => upp.2.length := List.map_map
  have few : deviceCount sys.byGpu ≤ sys.byGpu.length := by
    rw [deviceCount_eq, sys.listing_byGpu.length_eq, checked.gpuPorts, ← checked.gpus]
    exact sys.gpus_length_le
  refine length_eq_one ?_ ?_ upp.2 (List.mem_map_of_mem member)
  · intro devs isDevs
    obtain ⟨upp, inside, rfl⟩ := List.mem_map.mp isDevs
    exact List.length_pos_of_ne_nil (sys.byGpu_nonempty upp inside)
  · rw [counted, List.length_map]
    exact few

/-- No GPU was skipped. -/
theorem gpus_length (checked : sys.Checked) : sys.gpus.length = 8 := by
  have least := length_le_sum (sys.byGpu.map Prod.snd) fun devs isDevs => by
    obtain ⟨upp, inside, rfl⟩ := List.mem_map.mp isDevs
    exact List.length_pos_of_ne_nil (sys.byGpu_nonempty upp inside)
  have counted : ((sys.byGpu.map Prod.snd).map List.length).sum = sys.gpus.length := by
    rw [← sys.listing_byGpu.length_eq, ← deviceCount_eq, List.map_map]
    rfl
  have most := sys.gpus_length_le
  have gpus := checked.gpus
  rw [counted, List.length_map, checked.gpuPorts] at least
  omega

/-- No NIC opened another port. -/
theorem keys (checked : sys.Checked) {port : List Char} :
    port ∈ sys.byPort.map Prod.fst ↔ port ∈ sys.byGpu.map Prod.fst := by
  have kept : sys.byGpu.map Prod.fst ⊆ sys.byPort.map Prod.fst :=
    fun port member => mem_keys_pushAll.mpr (Or.inr member)
  have same : (sys.byGpu.map Prod.fst).Perm (sys.byPort.map Prod.fst) := by
    refine (sys.byGpu_ascending.nodup.subperm kept).perm_of_length_le ?_
    rw [List.length_map, List.length_map, checked.gpuPorts, checked.ports]
  exact same.mem_iff.symm

/-- A port has its GPU first and then its NICs. -/
theorem entry (checked : sys.Checked) {port : List Char} {devs : List (List Char)}
    (member : (port, devs) ∈ sys.byPort) : ∃ gpu nics, (port, gpu) ∈ sys.gpus ∧
      (∀ nic ∈ nics, (port, nic) ∈ sys.nics) ∧ devs = gpu :: nics := by
  have isKey := checked.keys.mp (List.mem_map.mpr ⟨_, member, rfl⟩)
  obtain ⟨⟨key, before⟩, inside, (rfl : key = port)⟩ := List.mem_map.mp isKey
  obtain ⟨gpu, rfl⟩ := List.length_eq_one_iff.mp (checked.single inside)
  have joined := mem_pushAll sys.byGpu_ascending sys.nics inside
  refine ⟨gpu, _, ?_, ?_, sys.byPort_ascending.unique member joined⟩
  · refine sys.listing_byGpu.mem_iff.mp (List.mem_flatMap.mpr ⟨_, inside, ?_⟩)
    simp
  · intro nic isNic
    obtain ⟨⟨port, nic⟩, filtered, rfl⟩ := List.mem_map.mp isNic
    obtain ⟨pushed, same⟩ := List.mem_filter.mp filtered
    obtain rfl : port = key := by simpa using same
    exact pushed

/-- There are three devices for two ports, so that no NIC was skipped and every pair is
matched. -/
theorem nics_length (checked : sys.Checked) : sys.nics.length = 4 ∧ Matched sys.byPort := by
  have counted : deviceCount sys.byPort = sys.nics.length + sys.gpus.length := by
    rw [deviceCount_eq, sys.listing_byPort.length_eq, List.length_append]
  have least := deviceCount_of_evenly checked.even sys.byPort_nonempty
  have most := sys.nics_length_le
  rw [counted, checked.ports, checked.gpus_length] at least
  rw [checked.nics] at most
  refine ⟨by omega, matched_of_evenly checked.even sys.byPort_nonempty ?_⟩
  rw [counted, checked.ports, checked.gpus_length]
  omega

/-- A GPU of a port. -/
theorem gpu_of_mem {port gpu : List Char} (member : (port, gpu) ∈ sys.gpus) :
    gpu ∈ sys.nvdevs ∧ ∃ path, sys.nvPath gpu = some path ∧ upPort path = port := by
  obtain ⟨d, isDev, path, isPath, _, isPort, rfl⟩ := mem_entriesOf.mp member
  exact ⟨(List.perm_insertionSort _ _).mem_iff.mp isDev, path, isPath, isPort⟩

/-- A NIC of a port. -/
theorem nic_of_mem {port nic : List Char} (member : (port, nic) ∈ sys.nics) :
    ∃ ibdev ∈ sys.ibdevs, ∃ path, sys.ibPath ibdev = some path ∧ upPort path = port ∧
      address path = nic := by
  obtain ⟨d, isDev, path, isPath, _, isPort, isName⟩ := mem_entriesOf.mp member
  exact ⟨d, (List.perm_insertionSort _ _).mem_iff.mp isDev, path, isPath, isPort, isName⟩

theorem nic_listed {ibdev path : List Char} (member : ibdev ∈ sys.ibdevs)
    (isPath : sys.ibPath ibdev = some path) (accepted : acceptedPath path = true) :
    (upPort path, address path) ∈ sys.nics :=
  mem_entriesOf.mpr ⟨ibdev, (List.perm_insertionSort _ _).mem_iff.mpr member, path, isPath,
    accepted, rfl, rfl⟩

theorem gpu_accepted (checked : sys.Checked) {nvdev : List Char} (member : nvdev ∈ sys.nvdevs) :
    ∃ path, sys.nvPath nvdev = some path ∧ acceptedPath path = true := by
  have gpus := checked.gpus
  have gpus' := checked.gpus_length
  have full : (sys.nvdevs.insertionSort (· ≤ ·)).length ≤ sys.gpus.length := by
    rw [List.length_insertionSort]
    omega
  exact entriesOf_full full ((List.perm_insertionSort _ _).mem_iff.mpr member)

theorem nic_accepted (checked : sys.Checked) {ibdev : List Char} (member : ibdev ∈ sys.ibdevs) :
    ∃ path, sys.ibPath ibdev = some path ∧ acceptedPath path = true := by
  have nics := checked.nics
  have nics' := checked.nics_length.1
  have full : (sys.ibdevs.insertionSort (· ≤ ·)).length ≤ sys.nics.length := by
    rw [List.length_insertionSort]
    omega
  exact entriesOf_full full ((List.perm_insertionSort _ _).mem_iff.mpr member)

theorem regular (checked : sys.Checked) : Regular sys sys.byPort := by
  refine ⟨fun nvdev member => checked.gpu_accepted member, ?_, ?_⟩
  · intro ibdev member
    obtain ⟨path, isPath, accepted⟩ := checked.nic_accepted member
    have isNic := nic_listed member isPath accepted
    have isKey : upPort path ∈ sys.byPort.map Prod.fst :=
      mem_keys_pushAll.mpr (Or.inl (List.mem_map.mpr ⟨_, isNic, rfl⟩))
    obtain ⟨⟨port, devs⟩, inside, same⟩ := List.mem_map.mp isKey
    obtain ⟨gpu, _, isGpu, _⟩ := checked.entry inside
    obtain ⟨isDev, gpuPath, isGpuPath, isPort⟩ := gpu_of_mem isGpu
    exact ⟨path, isPath, accepted, gpu, isDev, gpuPath, isGpuPath, same.symm.trans isPort.symm⟩
  · rintro first second ⟨before, after, split, even⟩
    have matched := checked.nics_length.2
    rw [split] at matched
    exact matched.pair even

/-- Of a pair of ports one has a NIC behind its GPU, and the three devices are a switch. -/
theorem isSwitch (checked : sys.Checked) (addressed : sys.Addressed)
    {first second : List Char × List (List Char)}
    (adjacent : AdjacentPorts sys.byPort first second) :
    IsSwitch sys sys.byPort (if first.2.length = 2 then first.1 else second.1)
      (first.2 ++ second.2).toFinset := by
  obtain ⟨port, devs⟩ := first
  obtain ⟨port', devs'⟩ := second
  have lengths := checked.regular.pairs _ _ adjacent
  obtain ⟨before, after, split, even⟩ := adjacent
  have distinct : (devs ++ devs').Nodup := by
    have nodup := sys.devices_nodup addressed
    rw [split, List.flatMap_append, List.flatMap_cons, List.flatMap_cons, ← List.append_assoc devs]
      at nodup
    exact (List.nodup_append.mp (List.nodup_append.mp nodup).2.1).1
  have card := List.toFinset_card_of_nodup distinct
  obtain ⟨gpu, nics, isGpu, areNics, rfl⟩ :=
    checked.entry (by rw [split]; simp : (port, devs) ∈ sys.byPort)
  obtain ⟨gpu', nics', isGpu', areNics', rfl⟩ :=
    checked.entry (by rw [split]; simp : (port', devs') ∈ sys.byPort)
  obtain ⟨inside, gpuPath, isPath, isPort⟩ := gpu_of_mem isGpu
  obtain ⟨inside', gpuPath', isPath', isPort'⟩ := gpu_of_mem isGpu'
  refine ⟨_, _, ⟨before, after, split, even⟩, gpu, inside, gpuPath, isPath, isPort, gpu', inside',
    gpuPath', isPath', isPort', ?_⟩
  -- the port with two devices has the NIC behind its GPU
  rcases lengths with ⟨two, one⟩ | ⟨one, two⟩
  · obtain ⟨nic, rfl⟩ := List.length_eq_one_iff.mp (Nat.succ.inj two)
    obtain rfl := List.length_eq_zero_iff.mp (Nat.succ.inj one)
    obtain ⟨ibdev, isIbdev, path, isNicPath, nicPort, rfl⟩ :=
      nic_of_mem (areNics nic List.mem_cons_self)
    rw [if_pos two]
    refine ⟨ibdev, isIbdev, path, isNicPath, nicPort, Or.inl rfl, ?_, card⟩
    ext dev
    simp only [List.mem_toFinset, List.mem_append, List.mem_cons, List.not_mem_nil, or_false,
      Finset.mem_insert, Finset.mem_singleton]
    tauto
  · obtain rfl := List.length_eq_zero_iff.mp (Nat.succ.inj one)
    obtain ⟨nic, rfl⟩ := List.length_eq_one_iff.mp (Nat.succ.inj two)
    obtain ⟨ibdev, isIbdev, path, isNicPath, nicPort, rfl⟩ :=
      nic_of_mem (areNics' nic List.mem_cons_self)
    rw [if_neg (by rw [one]; decide)]
    refine ⟨ibdev, isIbdev, path, isNicPath, nicPort, Or.inr rfl, ?_, card⟩
    ext dev
    simp only [List.mem_toFinset, List.mem_append, List.mem_cons, List.not_mem_nil, or_false,
      Finset.mem_insert, Finset.mem_singleton]

/-- A device of the map is under one of the switches alone. -/
theorem underOneSwitch (checked : sys.Checked) (addressed : sys.Addressed) {topo : Topology}
    (holds : HasSwitches sys.numaNode (fun _ _ => none) topo (switchesOf sys.byPort))
    {dev : List Char} (member : dev ∈ sys.byPort.flatMap Prod.snd) : UnderOneSwitch topo dev := by
  have switches := flatMap_switchesOf checked.nics_length.2
  have nodup := sys.devices_nodup addressed
  rw [← switches] at member nodup
  obtain ⟨⟨port, devs⟩, isSwitch, inside⟩ := List.mem_flatMap.mp member
  refine ⟨(sys.numaNode port, port), ⟨devs.toFinset, ?_, List.mem_toFinset.mpr inside⟩, ?_⟩
  · exact (holds _ _ _).mpr (Or.inr ⟨devs, isSwitch, rfl, rfl⟩)
  · rintro ⟨node, port'⟩ ⟨devs', built, inside'⟩
    obtain impossible | ⟨list, isSwitch', rfl, rfl⟩ := (holds node port' devs').mp built
    · simp at impossible
    · have apart := (List.nodup_flatMap.mp nodup).2
      by_contra other
      have differ : (port, devs) ≠ (port', list) := by
        intro same
        obtain ⟨rfl, rfl⟩ := Prod.mk.inj same
        exact other rfl
      have symmetric : Std.Symm (fun first second : List Char × List (List Char) =>
          List.Disjoint first.2 second.2) := ⟨fun _ _ disjoint => disjoint.symm⟩
      exact apart.forall isSwitch isSwitch' differ inside (List.mem_toFinset.mp inside')

theorem conserved (checked : sys.Checked) (addressed : sys.Addressed) :
    ∃ topo, sys.gen sys.byPort = some topo ∧ Conserved sys sys.byPort topo := by
  obtain ⟨topo, built, holds⟩ := genLoop_eq sys.numaNode sys.byPort (fun _ _ => none)
    checked.nics_length.2 sys.byPort_ascending.nodup (fun _ _ _ => rfl)
  have devices {port dev : List Char} (member : (port, dev) ∈ sys.nics ++ sys.gpus) :
      dev ∈ sys.byPort.flatMap Prod.snd := by
    obtain ⟨upp, inside, listed⟩ := List.mem_flatMap.mp (sys.listing_byPort.mem_iff.mpr member)
    obtain ⟨dev', here, same⟩ := List.mem_map.mp listed
    obtain ⟨_, rfl⟩ := Prod.mk.inj same
    exact List.mem_flatMap.mpr ⟨upp, inside, here⟩
  refine ⟨topo, built, ?_, ?_, ?_⟩
  · intro nvdev member
    obtain ⟨path, isPath, accepted⟩ := checked.gpu_accepted member
    have isGpu : (upPort path, nvdev) ∈ sys.gpus :=
      mem_entriesOf.mpr ⟨nvdev, (List.perm_insertionSort _ _).mem_iff.mpr member, path, isPath,
        accepted, rfl, rfl⟩
    exact checked.underOneSwitch addressed holds (devices (List.mem_append_right _ isGpu))
  · intro ibdev member path isPath
    obtain ⟨path', isPath', accepted⟩ := checked.nic_accepted member
    obtain rfl : path' = path := Option.some.inj (isPath'.symm.trans isPath)
    exact checked.underOneSwitch addressed holds
      (devices (List.mem_append_left _ (nic_listed member isPath accepted)))
  · intro node port devs switch
    obtain impossible | ⟨list, member, placed, rfl⟩ := (holds node port devs).mp switch
    · simp at impossible
    · obtain ⟨first, second, adjacent, rfl, rfl⟩ := mem_switchesOf member
      exact ⟨placed, checked.isSwitch addressed adjacent⟩

end Checked

end Sysfs

/-- Where accepted paths contain an upstream port and PCI addresses tell the devices
apart, the constructor has no access out of range, and a map that is not empty comes from
devices that pair up, of which `gen`, without an access out of range, puts each under one
switch. -/
theorem vtopo_conservation (sys : Sysfs) (long : sys.PathsLong) (addressed : sys.Addressed) :
    ∃ uppDevs, sys.genVTopo = some uppDevs ∧ (uppDevs ≠ [] → Regular sys uppDevs ∧
      ∃ topo, sys.gen uppDevs = some topo ∧ Conserved sys uppDevs topo) := by
  obtain ⟨uppDevs, constructed, nonempty⟩ := sys.genVTopo_eq long
  refine ⟨uppDevs, constructed, fun some => ?_⟩
  obtain ⟨rfl, checked⟩ := nonempty some
  exact ⟨checked.regular, checked.conserved addressed⟩

/-- A path under an upstream port of the given number. -/
def samplePath (port : Char) (tail : String) : List Char :=
  "/sys/devices/pci0000:00/0000:00:00.0/0000:0".toList ++ [port] ++ ":00.0/".toList ++ tail.toList

/-- A machine with GPUs under the ports 0 to 7 and NICs under every second of them. -/
def Sysfs.sample : Sysfs :=
  { platform :=
      { disable := none, topoFile := none, productName := some "NF5688-M7-A0".toList
        boardName := some "board".toList, familyId := 6, modelId := 143 }
    nvidia := ["0000:10:00.0", "0000:11:00.0", "0000:12:00.0", "0000:13:00.0", "0000:14:00.0",
      "0000:15:00.0", "0000:16:00.0", "0000:17:00.0"].map String.toList
    nvClass := fun _ => some "0x030200".toList
    infiniband := ["mlx5_0", "mlx5_2", "mlx5_4", "mlx5_6"].map String.toList
    nodeType := fun _ => some '1'
    hcaType := fun _ => some "MT4129".toList
    nvPath := fun nvdev => some (samplePath (nvdev.getD 6 '0') "" ++ nvdev)
    ibPath := fun ibdev => some (samplePath (ibdev.getD 5 '0') "0000:20:00." ++
      [ibdev.getD 5 '0'])
    pciDevice := fun _ => some "0xc030".toList
    numaNode := fun _ => 0
    distinctNvidia := by decide +kernel
    distinctInfiniband := by decide +kernel }

/-- The map of this machine has its eight ports. -/
theorem vtopo_conservation_sample : ∃ uppDevs, Sysfs.sample.genVTopo = some uppDevs ∧
    uppDevs.length = 8 ∧ Regular .sample uppDevs ∧
      ∃ topo, Sysfs.sample.gen uppDevs = some topo ∧ Conserved .sample uppDevs topo := by
  obtain ⟨uppDevs, constructed, nonempty⟩ :=
    vtopo_conservation .sample (by decide +kernel) (by decide +kernel)
  have length : Sysfs.sample.genVTopo.map List.length = some 8 := by decide +kernel
  rw [constructed, Option.map_some, Option.some.injEq] at length
  have ports : uppDevs ≠ [] := by
    rintro rfl
    simp at length
  exact ⟨uppDevs, constructed, length, nonempty ports⟩

end NcclExts.Ucommd
