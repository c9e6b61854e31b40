import NcclExts.Ucommd.VtopoFile

/-!
# The virtual topology as it is read

The sorted maps of `gen` hold the topology, insertion by insertion. The text that is written
from them is one element, in which a reader finds the switches of each node under its number,
and the devices of each switch under its address, as long as the names of the devices and the
files that the attributes are taken from have no quotes and no markup.
-/

namespace NcclExts.Ucommd

open NcclExts.Foundation

/-! ## The maps hold the topology -/

namespace TopoMap

/-- Sorted maps of sorted sets. -/
structure Sorted (topo : TopoMap) : Prop where
  nodes : Ascending topo
  switches : ∀ node ∈ topo, Ascending node.2
  devices : ∀ node ∈ topo, ∀ switch ∈ node.2, switch.2.Pairwise (· < ·)

/-- The topology that the maps hold. -/
def topology (topo : TopoMap) : Topology :=
  fun node port => ((lookAt node topo).bind (lookAt port)).map List.toFinset

variable {topo : TopoMap}

theorem Sorted.nil : Sorted [] := ⟨Ascending.nil, by simp, by simp⟩

/-- The switches of a node are sorted, also of a node that is not there. -/
theorem Sorted.lookAt (sorted : topo.Sorted) (node : Int) :
    Ascending ((lookAt node topo).getD []) := by
  cases found : Foundation.lookAt node topo with
  | none => exact Ascending.nil
  | some switches =>
    exact sorted.switches _ ((mem_iff_lookAt sorted.nodes).mpr found)

theorem Sorted.insert (sorted : topo.Sorted) (node : Int) (port dev : List Char) :
    (topo.insert node port dev).Sorted := by
  refine ⟨sorted.nodes.updateAt _ _, fun entry member => ?_, fun entry member => ?_⟩
  · obtain old | rfl | ⟨switches, old, rfl⟩ := mem_updateAt member
    · exact sorted.switches entry old
    · exact Ascending.nil.updateAt _ _
    · exact (sorted.switches _ old).updateAt _ _
  · -- the sets of the node that is changed
    have changed {switches : List (List Char × List (List Char))}
        (devices : ∀ switch ∈ switches, switch.2.Pairwise (· < ·)) :
        ∀ switch ∈ updateAt port (insertSorted dev) switches, switch.2.Pairwise (· < ·) := by
      intro switch inside
      obtain old | rfl | ⟨devs, old, rfl⟩ := mem_updateAt inside
      · exact devices switch old
      · exact pairwise_insertSorted List.Pairwise.nil dev
      · exact pairwise_insertSorted (devices _ old) dev
    obtain old | rfl | ⟨switches, old, rfl⟩ := mem_updateAt member
    · exact sorted.devices entry old
    · exact changed (by simp)
    · exact changed (sorted.devices _ old)

/-- An insertion into the maps is one into the topology. -/
theorem Sorted.topology_insert (sorted : topo.Sorted) (node : Int) (port dev : List Char) :
    (topo.insert node port dev).topology = topo.topology.insert node port dev := by
  funext node' port'
  simp only [topology, TopoMap.insert, Topology.insert]
  rw [lookAt_updateAt sorted.nodes]
  by_cases here : node' = node
  · rw [if_pos here, Option.bind_some, lookAt_updateAt (sorted.lookAt node), here]
    by_cases same : port' = port
    · rw [if_pos same, if_pos ⟨rfl, same⟩, Option.map_some, toFinset_insertSorted]
      cases Foundation.lookAt node topo with
      | none => rfl
      | some switches =>
        cases found : Foundation.lookAt port switches <;> simp [found]
    · rw [if_neg same, if_neg fun both => same both.2]
      cases Foundation.lookAt node topo <;> rfl
  · rw [if_neg here, if_neg fun both => here both.1]

end TopoMap

/-- The loop over the maps builds what the loop over the topology does, and keeps the maps
sorted. -/
theorem genMaps_topology (numaNode : List Char → Int) :
    ∀ (uppDevs : List (List Char × List (List Char))) {topo : TopoMap}, topo.Sorted →
      (genMaps numaNode topo uppDevs).map TopoMap.topology =
          genLoop numaNode topo.topology uppDevs ∧
        ∀ after ∈ genMaps numaNode topo uppDevs, after.Sorted
  | [], topo, sorted => ⟨rfl, fun after isAfter => Option.some.inj isAfter ▸ sorted⟩
  | [_], _, _ => ⟨rfl, by simp [genMaps]⟩
  | first :: second :: rest, topo, sorted => by
    -- three devices go under one port, or there are none to take
    have inserted (node : Int) (port dev dev' dev'' : List Char) :
        (genMaps numaNode (((topo.insert node port dev).insert node port dev').insert node port
            dev'') rest).map TopoMap.topology =
          genLoop numaNode (((topo.topology.insert node port dev).insert node port dev').insert
            node port dev'') rest ∧
        ∀ after ∈ genMaps numaNode (((topo.insert node port dev).insert node port dev').insert
          node port dev'') rest, after.Sorted := by
      have one := sorted.insert node port dev
      have two := one.insert node port dev'
      rw [← sorted.topology_insert, ← one.topology_insert, ← two.topology_insert]
      exact genMaps_topology numaNode rest (two.insert node port dev'')
    unfold genMaps genLoop
    split
    · cases first.2[0]? <;> cases first.2[1]? <;> cases second.2[0]? <;>
        first | exact inserted .. | simp
    · cases first.2[0]? <;> cases second.2[0]? <;> cases second.2[1]? <;>
        first | exact inserted .. | simp

/-! ## The lines of the file -/

/-- A text without quotes, markup and terminators. -/
def PlainText (text : List Char) : Prop := ∀ c ∈ text, isPlain c = true

instance (text : List Char) : Decidable (PlainText text) :=
  decidable_of_iff (text.all isPlain = true) List.all_eq_true

/-- The files have no quotes and no markup. -/
structure TopoFiles.Plain (files : TopoFiles) : Prop where
  cpumap : ∀ node, ∀ content ∈ files.cpumap node, PlainText content
  pciFile : ∀ bdf attr, ∀ content ∈ files.pciFile bdf attr, PlainText content

/-- The maps name ports and devices without quotes and markup. -/
def TopoMap.Plain (topo : TopoMap) : Prop :=
  ∀ node ∈ topo, ∀ switch ∈ node.2, PlainText switch.1 ∧ ∀ dev ∈ switch.2, PlainText dev

/-- What is read of a file is some of its text. -/
theorem getline_subset {size : Nat} {content : List Char} {c : Char}
    (member : c ∈ cString (getline size content).1) : c ∈ content := by
  have stored := (List.takeWhile_sublist _).subset member
  unfold getline at stored
  simp only at stored
  split at stored
  · exact (List.takeWhile_sublist _).subset stored
  · exact (List.takeWhile_sublist _).subset (List.mem_of_mem_take stored)

theorem plain_intText (value : Int) : PlainText (intText value) := by
  have digit {c : Char} (member : c ∈ Nat.toDigits 10 value.natAbs) : isPlain c = true := by
    obtain ⟨least, most⟩ := mem_toDigits member
    simp only [isPlain, Bool.and_eq_true, decide_eq_true_eq]
    refine ⟨⟨⟨?_, ?_⟩, ?_⟩, ?_⟩ <;> rintro rfl
    · exact absurd least (by decide)
    · exact absurd most (by decide)
    · exact absurd least (by decide)
    · exact absurd least (by decide)
  intro c member
  unfold intText at member
  split at member
  · rcases List.mem_cons.mp member with rfl | later
    · decide
    · exact digit later
  · exact digit member

/-- Nodes are told apart by their text. -/
theorem intText_injective : Function.Injective intText := by
  have bytes (value : Int) : (intText value).map byteOf = signedDecimal value := by
    unfold intText signedDecimal
    split <;> rfl
  intro value other same
  have read := scanInt_signedDecimal value
  rw [← bytes, same, bytes, scanInt_signedDecimal, Option.some.injEq] at read
  exact read.symm

namespace TopoFiles.Plain

variable {files : TopoFiles}

theorem getInfo (plain : files.Plain) (bdf : List Char) (attr : String) :
    PlainText (files.getInfo bdf attr) := by
  have unknown : PlainText "unknown".toList := by decide +kernel
  unfold TopoFiles.getInfo
  cases isContent : files.pciFile bdf attr with
  | none => exact unknown
  | some content =>
    simp only
    split
    · exact fun c member => plain.pciFile bdf attr content isContent c (getline_subset member)
    · exact unknown

theorem affinity (plain : files.Plain) (node : Int) : PlainText (files.affinity node) := by
  unfold TopoFiles.affinity
  cases isContent : files.cpumap node with
  | none => exact fun c member => List.mem_singleton.mp member ▸ rfl
  | some content =>
    exact fun c member => plain.cpumap node content isContent c (getline_subset member)

/-- The heads of a switch and of a device. -/
theorem pciHead (plain : files.Plain) {bdf : List Char} (isPlain : PlainText bdf) :
    (files.pciHead bdf).Writable := by
  have name : IsName "pci".toList := by decide +kernel
  have keys : ∀ key ∈ ["busid".toList, "class".toList, "vendor".toList, "device".toList,
      "subsystem_vendor".toList, "subsystem_device".toList, "link_speed".toList,
      "link_width".toList], IsName key := by decide +kernel
  refine ⟨name, fun entry member => ?_, ?_⟩
  · exact keys _ (List.mem_map_of_mem member)
  · simp only [TopoFiles.pciHead, TopoFiles.pciAttributes, List.forall_mem_cons]
    exact ⟨isPlain, plain.getInfo _ _, plain.getInfo _ _, plain.getInfo _ _, plain.getInfo _ _,
      plain.getInfo _ _, plain.getInfo _ _, plain.getInfo _ _, by simp⟩

theorem cpuHead (plain : files.Plain) (node : Int) : (files.cpuHead node).Writable := by
  have name : IsName "cpu".toList := by decide +kernel
  have keys : ∀ key ∈ ["numaid".toList, "affinity".toList, "arch".toList, "vendor".toList,
      "familyid".toList, "modelid".toList], IsName key := by decide +kernel
  have fixed : PlainText "x86_64".toList ∧ PlainText "GenuineIntel".toList ∧
      PlainText "6".toList ∧ PlainText "143".toList := by decide +kernel
  refine ⟨name, fun entry member => ?_, ?_⟩
  · exact keys _ (List.mem_map_of_mem member)
  · simp only [TopoFiles.cpuHead, TopoFiles.cpuAttributes, List.forall_mem_cons]
    exact ⟨plain_intText node, plain.affinity node, fixed.1, fixed.2.1, fixed.2.2.1,
      fixed.2.2.2, by simp⟩

theorem systemHead : TopoFiles.systemHead.Writable := by
  have names : IsName "system".toList ∧ IsName "version".toList ∧ PlainText "1".toList := by
    decide +kernel
  refine ⟨names.1, fun entry member => ?_, fun entry member => ?_⟩
  · exact List.mem_singleton.mp member ▸ names.2.1
  · exact List.mem_singleton.mp member ▸ names.2.2

/-- Every line can be read. -/
theorem lines (plain : files.Plain) {topo : TopoMap} (isPlain : topo.Plain) :
    ∀ line ∈ files.lines topo, line.2.Writable := by
  have closes : IsName "pci".toList ∧ IsName "cpu".toList ∧ IsName "system".toList := by
    decide +kernel
  intro line member
  simp only [TopoFiles.lines, List.cons_append, List.mem_cons, List.mem_append,
    List.mem_flatMap, List.not_mem_nil, or_false] at member
  obtain rfl | ⟨node, inTopo, inNode⟩ | rfl := member
  · exact systemHead
  · simp only [TopoFiles.nodeLines, List.cons_append, List.mem_cons, List.mem_append,
      List.mem_flatMap, List.not_mem_nil, or_false] at inNode
    obtain rfl | ⟨switch, inSwitches, inSwitch⟩ | rfl := inNode
    · exact plain.cpuHead _
    · obtain ⟨port, devices⟩ := isPlain node inTopo switch inSwitches
      simp only [TopoFiles.switchLines, List.cons_append, List.mem_cons, List.mem_append,
        List.mem_flatMap, List.not_mem_nil, or_false] at inSwitch
      obtain rfl | ⟨device, inDevices, rfl⟩ | rfl := inSwitch
      · exact plain.pciHead port
      · exact plain.pciHead (devices device inDevices)
      · exact closes.1
    · exact closes.2.1
  · exact closes.2.2

end TopoFiles.Plain

/-! ## What a reader finds -/

/-- The devices that a reader finds under a node and a port. -/
def topologyOf (root : Xml) : Topology := fun node port =>
  (root.inside.find? fun cpu => cpu.value "numaid".toList = intText node).bind fun cpu =>
    (cpu.inside.find? fun switch => switch.value "busid".toList = port).map fun switch =>
      (switch.inside.map fun device => device.value "busid".toList).toFinset

/-- All devices in the order of the file. -/
def devicesOf (root : Xml) : List (List Char) :=
  root.inside.flatMap fun cpu => cpu.inside.flatMap fun switch =>
    switch.inside.map fun device => device.value "busid".toList

namespace TopoFiles

variable (files : TopoFiles)

/-- The tags nest into the elements of the topology. -/
theorem builds_lines (topo : TopoMap) :
    Builds ((files.lines topo).map Prod.snd) [files.element topo] := by
  have switches (switch : List Char × List (List Char)) :
      Builds ((files.switchLines switch).map Prod.snd) [files.switchElement switch] := by
    simp only [switchLines, List.cons_append, List.map_cons, List.map_append, List.map_flatMap,
      List.map_nil]
    exact Builds.element _ (Builds.flatMap fun device _ => .leaf _)
  have nodes (node : Int × List (List Char × List (List Char))) :
      Builds ((files.nodeLines node).map Prod.snd) [files.nodeElement node] := by
    simp only [nodeLines, List.cons_append, List.map_cons, List.map_append, List.map_flatMap,
      List.map_nil]
    exact Builds.element _ (Builds.flatMap fun switch _ => switches switch)
  simp only [lines, List.cons_append, List.map_cons, List.map_append, List.map_flatMap,
    List.map_nil]
  exact Builds.element _ (Builds.flatMap fun node _ => nodes node)

/-- The text is read as the topology. -/
theorem Plain.readXml_text {files : TopoFiles} (plain : files.Plain) {topo : TopoMap}
    (isPlain : topo.Plain) : readXml (files.text topo) = some [files.element topo] := by
  rw [files.text_eq]
  exact readXml_lines (plain.lines isPlain) (files.builds_lines topo)

/-! ### The values -/

theorem value_pci (bdf : List Char) (inside : List Xml) :
    (Xml.element (files.pciHead bdf) inside).value "busid".toList = bdf :=
  Xml.value_first ..

theorem value_cpu (node : Int) (inside : List Xml) :
    (Xml.element (files.cpuHead node) inside).value "numaid".toList = intText node :=
  Xml.value_first ..

/-- The devices of a switch. -/
theorem devices_switch (switch : List Char × List (List Char)) :
    (files.switchElement switch).inside.map (fun device => device.value "busid".toList) =
      switch.2 := by
  change (switch.2.flatMap fun device => [Xml.element (files.pciHead device) []]).map _ = _
  rw [← List.map_eq_flatMap, List.map_map]
  simp only [Function.comp_def, value_pci, List.map_id']

/-- A reader finds what the maps hold. -/
theorem topologyOf_element (topo : TopoMap) :
    topologyOf (files.element topo) = topo.topology := by
  funext node port
  have cpus : (files.element topo).inside = topo.map files.nodeElement := by
    rw [List.map_eq_flatMap]
    rfl
  have switches (entry : Int × List (List Char × List (List Char))) :
      (files.nodeElement entry).inside = entry.2.map files.switchElement := by
    rw [List.map_eq_flatMap]
    rfl
  have isCpu (entry : Int × List (List Char × List (List Char))) :
      (files.nodeElement entry).value "numaid".toList = intText entry.1 := files.value_cpu _ _
  have isSwitch (switch : List Char × List (List Char)) :
      (files.switchElement switch).value "busid".toList = switch.1 := files.value_pci _ _
  simp only [topologyOf, TopoMap.topology, lookAt, cpus, List.find?_map, Function.comp_def, isCpu,
    intText_injective.eq_iff, Option.map_bind, Option.bind_map, switches, isSwitch, Option.map_map,
    devices_switch]
  -- the two sides decide equality of keys by different instances
  congr!

/-- The devices of the file are those of the maps. -/
theorem devicesOf_element (topo : TopoMap) :
    devicesOf (files.element topo) =
      topo.flatMap fun node => node.2.flatMap fun switch => switch.2 := by
  change (topo.flatMap fun node => [files.nodeElement node]).flatMap _ = _
  rw [← List.map_eq_flatMap, List.flatMap_map]
  refine congrArg (List.flatMap · topo) (funext fun node => ?_)
  change (node.2.flatMap fun switch => [files.switchElement switch]).flatMap _ = _
  rw [← List.map_eq_flatMap, List.flatMap_map]
  exact congrArg (List.flatMap · node.2) (funext files.devices_switch)

end TopoFiles

/-! ## Every file -/

/-- The names of GPUs and the paths of NICs have no quotes and no markup. -/
structure Sysfs.Plain (sys : Sysfs) : Prop where
  gpus : ∀ nvdev ∈ sys.nvdevs, PlainText nvdev
  nics : ∀ ibdev ∈ sys.ibdevs, ∀ path ∈ sys.ibPath ibdev, PlainText path

/-- A GPU, or the function of a NIC. -/
def Sysfs.IsDevice (sys : Sysfs) (dev : List Char) : Prop :=
  dev ∈ sys.nvdevs ∨
    ∃ ibdev ∈ sys.ibdevs, ∃ path, sys.ibPath ibdev = some path ∧ address path = dev

/-- A reader of the file finds the topology, each device once, and with every device and
switch what its files say of it. -/
structure FileRead (sys : Sysfs) (files : TopoFiles)
    (uppDevs : List (List Char × List (List Char))) (root : Xml) : Prop where
  topology : sys.gen uppDevs = some (topologyOf root)
  conserved : Conserved sys uppDevs (topologyOf root)
  once : (devicesOf root).Nodup
  devices : ∀ dev, dev ∈ devicesOf root ↔ sys.IsDevice dev
  cpus : ∀ cpu ∈ root.inside, ∃ node, cpu.head = files.cpuHead node
  switches : ∀ cpu ∈ root.inside, ∀ switch ∈ cpu.inside,
    switch.head = files.pciHead (switch.value "busid".toList) ∧
      ∀ device ∈ switch.inside, device.head = files.pciHead (device.value "busid".toList) ∧
        device.inside = []

namespace TopoMap

variable {topo : TopoMap} {node : Int} {switches : List (List Char × List (List Char))}
  {port : List Char} {devs : List (List Char)}

/-- A set of the maps is one of the topology. -/
theorem Sorted.topology_mem (sorted : topo.Sorted) (inTopo : (node, switches) ∈ topo)
    (inSwitches : (port, devs) ∈ switches) : topo.topology node port = some devs.toFinset := by
  have found := (mem_iff_lookAt sorted.nodes).mp inTopo
  have found' := (mem_iff_lookAt (sorted.switches _ inTopo)).mp inSwitches
  rw [topology, found, Option.bind_some, found']
  rfl

/-- And the other way around. -/
theorem Sorted.mem_topology (sorted : topo.Sorted) {set : Finset (List Char)}
    (isSet : topo.topology node port = some set) : ∃ switches devs, (node, switches) ∈ topo ∧
      (port, devs) ∈ switches ∧ devs.toFinset = set := by
  obtain ⟨devs, found, rfl⟩ := Option.map_eq_some_iff.mp isSet
  obtain ⟨switches, isNode, isPort⟩ := Option.bind_eq_some_iff.mp found
  have inTopo := (mem_iff_lookAt sorted.nodes).mpr isNode
  exact ⟨switches, devs, inTopo,
    (mem_iff_lookAt (sorted.switches _ inTopo)).mpr isPort, rfl⟩

end TopoMap

section

variable {sys : Sysfs} {uppDevs : List (List Char × List (List Char))} {topo : TopoMap}

/-- The devices of a switch are GPUs and functions of NICs. -/
theorem IsSwitch.isDevice {port : List Char} {devs : Finset (List Char)}
    (switch : IsSwitch sys uppDevs port devs) {dev : List Char} (member : dev ∈ devs) :
    sys.IsDevice dev := by
  obtain ⟨first, second, _, gpu, isGpu, _, _, _, gpu', isGpu', _, _, _, ibdev, isNic, path,
    isPath, _, _, rfl, _⟩ := switch
  simp only [Finset.mem_insert, Finset.mem_singleton] at member
  obtain rfl | rfl | rfl := member
  · exact .inl isGpu
  · exact .inl isGpu'
  · exact .inr ⟨ibdev, isNic, path, isPath, rfl⟩

/-- Devices are written as they are. -/
theorem Sysfs.Plain.isDevice (plain : sys.Plain) {dev : List Char} (device : sys.IsDevice dev) :
    PlainText dev := by
  obtain isGpu | ⟨ibdev, isNic, path, isPath, rfl⟩ := device
  · exact plain.gpus dev isGpu
  · exact fun c member => plain.nics ibdev isNic path isPath c (List.mem_of_mem_drop member)

/-- So are ports. -/
theorem Sysfs.Plain.isSwitch (plain : sys.Plain) {port : List Char} {devs : Finset (List Char)}
    (switch : IsSwitch sys uppDevs port devs) : PlainText port := by
  obtain ⟨_, _, _, _, _, _, _, _, _, _, _, _, _, ibdev, isNic, path, isPath, rfl, _⟩ := switch
  exact fun c member => plain.nics ibdev isNic path isPath c
    (List.mem_of_mem_drop (List.mem_of_mem_take member))

variable (sorted : topo.Sorted) (conserved : Conserved sys uppDevs topo.topology)

include sorted conserved

theorem Conserved.plain (plain : sys.Plain) : topo.Plain := by
  rintro ⟨node, switches⟩ inTopo ⟨port, devs⟩ inSwitches
  have held := sorted.topology_mem inTopo inSwitches
  obtain ⟨_, switch⟩ := conserved.switches node port _ held
  refine ⟨plain.isSwitch switch, fun dev member => ?_⟩
  exact plain.isDevice (switch.isDevice (List.mem_toFinset.mpr member))

/-- What is in a switch of the maps is in no other. -/
theorem Conserved.placed {node node' : Int}
    {switches switches' : List (List Char × List (List Char))} {port port' dev : List Char}
    {devs devs' : List (List Char)}
    (inTopo : (node, switches) ∈ topo) (inSwitches : (port, devs) ∈ switches)
    (member : dev ∈ devs) (inTopo' : (node', switches') ∈ topo)
    (inSwitches' : (port', devs') ∈ switches') (member' : dev ∈ devs') :
    node = node' ∧ port = port' := by
  have held := sorted.topology_mem inTopo inSwitches
  have held' := sorted.topology_mem inTopo' inSwitches'
  have isDev := (conserved.switches node port _ held).2.isDevice (List.mem_toFinset.mpr member)
  have one : UnderOneSwitch topo.topology dev := by
    obtain isGpu | ⟨ibdev, isNic, path, isPath, rfl⟩ := isDev
    · exact conserved.gpus dev isGpu
    · exact conserved.nics ibdev isNic path isPath
  obtain ⟨place, _, only⟩ := one
  have here := only (node, port) ⟨_, held, List.mem_toFinset.mpr member⟩
  have there := only (node', port') ⟨_, held', List.mem_toFinset.mpr member'⟩
  exact Prod.mk.inj (here.trans there.symm)

/-- The maps have each device once. -/
theorem Conserved.once :
    (topo.flatMap fun node => node.2.flatMap fun switch => switch.2).Nodup := by
  rw [List.nodup_flatMap]
  refine ⟨fun node inTopo => ?_, ?_⟩
  · rw [List.nodup_flatMap]
    refine ⟨fun switch inside => (sorted.devices node inTopo switch inside).imp ne_of_lt, ?_⟩
    refine (List.pairwise_map.mp (sorted.switches node inTopo)).imp_of_mem ?_
    intro switch switch' inside inside' less dev member member'
    have same := conserved.placed sorted inTopo inside member inTopo inside' member'
    exact absurd same.2 (ne_of_lt less)
  · refine (List.pairwise_map.mp sorted.nodes).imp_of_mem ?_
    intro node node' inTopo inTopo' less dev member member'
    obtain ⟨switch, inside, isDev⟩ := List.mem_flatMap.mp member
    obtain ⟨switch', inside', isDev'⟩ := List.mem_flatMap.mp member'
    have same := conserved.placed sorted inTopo inside isDev inTopo' inside' isDev'
    exact absurd same.1 (ne_of_lt less)

/-- They have all GPUs and all functions of NICs, and nothing else. -/
theorem Conserved.mem_devices {dev : List Char} :
    (dev ∈ topo.flatMap fun node => node.2.flatMap fun switch => switch.2) ↔ sys.IsDevice dev := by
  constructor
  · intro member
    obtain ⟨⟨node, switches⟩, inTopo, inNode⟩ := List.mem_flatMap.mp member
    obtain ⟨⟨port, devs⟩, inSwitches, isDev⟩ := List.mem_flatMap.mp inNode
    have held := sorted.topology_mem inTopo inSwitches
    exact (conserved.switches node port _ held).2.isDevice (List.mem_toFinset.mpr isDev)
  · intro device
    have one : UnderOneSwitch topo.topology dev := by
      obtain isGpu | ⟨ibdev, isNic, path, isPath, rfl⟩ := device
      · exact conserved.gpus dev isGpu
      · exact conserved.nics ibdev isNic path isPath
    obtain ⟨⟨node, port⟩, ⟨set, held, inSet⟩, _⟩ := one
    obtain ⟨switches, devs, inTopo, inSwitches, rfl⟩ := sorted.mem_topology held
    exact List.mem_flatMap.mpr ⟨_, inTopo,
      List.mem_flatMap.mpr ⟨_, inSwitches, List.mem_toFinset.mp inSet⟩⟩

end

/-- A reader of what is written from the maps finds all of it. -/
theorem Conserved.fileRead {sys : Sysfs} {uppDevs : List (List Char × List (List Char))}
    {topo : TopoMap} (conserved : Conserved sys uppDevs topo.topology) (sorted : topo.Sorted)
    (built : sys.gen uppDevs = some topo.topology) (files : TopoFiles) :
    FileRead sys files uppDevs (files.element topo) := by
  have same := files.topologyOf_element topo
  refine ⟨by rw [same, built], by rw [same]; exact conserved, ?_, fun dev => ?_,
    fun cpu inRoot => ?_, fun cpu inRoot switch inCpu => ?_⟩
  · rw [files.devicesOf_element]
    exact conserved.once sorted
  · rw [files.devicesOf_element]
    exact conserved.mem_devices sorted
  · obtain ⟨node, _, isCpu⟩ := List.mem_flatMap.mp inRoot
    obtain rfl := List.mem_singleton.mp isCpu
    exact ⟨node.1, rfl⟩
  · obtain ⟨node, _, isCpu⟩ := List.mem_flatMap.mp inRoot
    obtain rfl := List.mem_singleton.mp isCpu
    obtain ⟨entry, _, isSwitch⟩ := List.mem_flatMap.mp inCpu
    obtain rfl := List.mem_singleton.mp isSwitch
    refine ⟨congrArg files.pciHead (files.value_pci _ _).symm, fun device inSwitch => ?_⟩
    obtain ⟨dev, _, isDevice⟩ := List.mem_flatMap.mp inSwitch
    obtain rfl := List.mem_singleton.mp isDevice
    exact ⟨congrArg files.pciHead (files.value_pci _ _).symm, rfl⟩

/-- Every node has the same CPUs, and devices have a vendor and nothing else. -/
def TopoFiles.sample : TopoFiles :=
  { cpumap := fun _ => some "ffff,ffffffff\n".toList
    pciFile := fun _ attr => if attr = "vendor" then some "0x10de\n".toList else none }

/-- Process 42, whose directory is there. -/
def TopoHost.sample : TopoHost :=
  { files := .sample, mkdir := .taken (some 0o040755), opens := true, pid := 42 }

end NcclExts.Ucommd
