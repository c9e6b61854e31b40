import NcclExts.Foundation.SortedUpdate
import NcclExts.Foundation.Xml
import NcclExts.Foundation.Text
import NcclExts.Ucommd.GenVtopo

/-!
# The file of the virtual topology

The topology is kept in sorted maps of sorted sets, and written to a file in that order, as
one element for each NUMA node, in it one for each switch, and in that one for each device.
The attributes are taken from the files of the devices. Here the text is cut into lines with
one tag on each.
-/

namespace NcclExts.Ucommd

open NcclExts.Foundation

/-! ## Building -/

/-- `std::map<int, std::map<std::string, std::set<std::string>>>`. -/
abbrev TopoMap := List (Int × List (List Char × List (List Char)))

/-- `topo[numa_node][port].insert(dev)`. -/
def TopoMap.insert (topo : TopoMap) (numaNode : Int) (port dev : List Char) : TopoMap :=
  updateAt numaNode (updateAt port (insertSorted dev)) topo

/-- The loop of `gen`, with its maps. -/
def genMaps (numaNode : List Char → Int) :
    TopoMap → List (List Char × List (List Char)) → Option TopoMap
  | topo, [] => some topo
  | _, [_] => none
  | topo, first :: second :: rest =>
    if first.2.length = 2 then do
      let node := numaNode first.1
      let dev ← first.2[0]?
      let topo := topo.insert node first.1 dev
      let dev ← first.2[1]?
      let topo := topo.insert node first.1 dev
      let dev ← second.2[0]?
      genMaps numaNode (topo.insert node first.1 dev) rest
    else do
      let node := numaNode second.1
      let dev ← first.2[0]?
      let topo := topo.insert node second.1 dev
      let dev ← second.2[0]?
      let topo := topo.insert node second.1 dev
      let dev ← second.2[1]?
      genMaps numaNode (topo.insert node second.1 dev) rest

/-! ## Writing -/

/-- `istream::getline(buf, size)` from the start of a file: what it stores, and whether the
stream is good afterwards. -/
def getline (size : Nat) (content : List Char) : List Char × Bool :=
  let line := content.takeWhile (· ≠ '\n')
  if line.length < size then (line, line.length < content.length) else (line.take (size - 1), false)

/-- A buffer read as a C string. -/
def cString (buffer : List Char) : List Char := buffer.takeWhile (· ≠ Char.ofNat 0)

/-- `%d`. -/
def intText (value : Int) : List Char :=
  if value < 0 then '-' :: Nat.toDigits 10 value.natAbs else Nat.toDigits 10 value.natAbs

/-- The files that `gen` writes from: the CPU map of each node, and the attributes of the PCI
devices. A file that cannot be opened is `none`. -/
structure TopoFiles where
  cpumap : Int → Option (List Char)
  pciFile : List Char → String → Option (List Char)

namespace TopoFiles

def affinity (files : TopoFiles) (node : Int) : List Char :=
  match files.cpumap node with
  | some content => cString (getline 128 content).1
  | none => ['f']

/-- `get_info`. -/
def getInfo (files : TopoFiles) (bdf : List Char) (attr : String) : List Char :=
  match files.pciFile bdf attr with
  | some content =>
    let (out, good) := getline 16 content
    if good then cString out else "unknown".toList
  | none => "unknown".toList

/-- The attributes of a switch or of a device, as they are printed. -/
def pciAttributes (files : TopoFiles) (bdf : List Char) : List (List Char × List Char) :=
  [("busid".toList, bdf), ("class".toList, files.getInfo bdf "class"),
    ("vendor".toList, files.getInfo bdf "vendor"), ("device".toList, files.getInfo bdf "device"),
    ("subsystem_vendor".toList, files.getInfo bdf "subsystem_vendor"),
    ("subsystem_device".toList, files.getInfo bdf "subsystem_device"),
    ("link_speed".toList, files.getInfo bdf "current_link_speed"),
    ("link_width".toList, files.getInfo bdf "current_link_width")]

def cpuAttributes (files : TopoFiles) (node : Int) : List (List Char × List Char) :=
  [("numaid".toList, intText node), ("affinity".toList, files.affinity node),
    ("arch".toList, "x86_64".toList), ("vendor".toList, "GenuineIntel".toList),
    ("familyid".toList, "6".toList), ("modelid".toList, "143".toList)]

/-- The start of a node. -/
def cpuLine (files : TopoFiles) (node : Int) : List Char :=
  "  <cpu".toList ++ (files.cpuAttributes node).flatMap attributeText ++ ">\n".toList

/-- The start of a switch. -/
def switchLine (files : TopoFiles) (busid : List Char) : List Char :=
  "    <pci".toList ++ (files.pciAttributes busid).flatMap attributeText ++ ">\n".toList

def deviceLine (files : TopoFiles) (device : List Char) : List Char :=
  "      <pci".toList ++ (files.pciAttributes device).flatMap attributeText ++ "/>\n".toList

/-- A switch with its devices. -/
def switchText (files : TopoFiles) (switch : List Char × List (List Char)) : List Char :=
  files.switchLine switch.1 ++ switch.2.flatMap files.deviceLine ++ "    </pci>\n".toList

/-- A node with its switches. -/
def nodeText (files : TopoFiles) (node : Int × List (List Char × List (List Char))) :
    List Char :=
  files.cpuLine node.1 ++ node.2.flatMap files.switchText ++ "  </cpu>\n".toList

def systemLine : List Char :=
  "<system".toList ++ [("version".toList, "1".toList)].flatMap attributeText ++ ">\n".toList

/-- The text of the file. -/
def text (files : TopoFiles) (topo : TopoMap) : List Char :=
  systemLine ++ topo.flatMap files.nodeText ++ "</system>\n".toList

end TopoFiles

/-! ## Generating the file -/

/-- What `mkdir` answers for `/tmp/.ucommd`; where the name is taken, with the mode that
`stat` finds. -/
inductive MkdirAnswer where
  | made
  | taken (mode : Option UInt32)
  | refused

/-- The directory is there: of the mode of a name that is taken one bit is looked at. -/
def MkdirAnswer.usable : MkdirAnswer → Bool
  | .made => true
  | .taken mode => mode.any fun mode => mode &&& 0x4000 ≠ 0
  | .refused => false

/-- The files that `gen` reads, the answers of `mkdir` and `fopen`, and the process. -/
structure TopoHost where
  files : TopoFiles
  mkdir : MkdirAnswer
  opens : Bool
  pid : Nat

/-- `topo_file_`. -/
def topoFileName (pid : Nat) : List Char :=
  "/tmp/.ucommd/.vtopo_".toList ++ Nat.toDigits 10 pid ++ ".xml".toList

/-- What `gen` leaves: the file it wrote, with its name, and `NCCL_TOPO_FILE`. -/
structure Generated where
  file : Option (List Char × List Char)
  topoFile : Option (List Char)
deriving DecidableEq

/-- `gen`. The variable is set only where it was not, even to nothing. -/
def Sysfs.genFile (sys : Sysfs) (host : TopoHost)
    (uppDevs : List (List Char × List (List Char))) : Option Generated :=
  if uppDevs = [] then some ⟨none, sys.platform.topoFile⟩
  else do
    let topo ← genMaps sys.numaNode [] uppDevs
    if host.mkdir.usable && host.opens then
      let name := topoFileName host.pid
      pure ⟨some (name, host.files.text topo), some (sys.platform.topoFile.getD name)⟩
    else pure ⟨none, sys.platform.topoFile⟩

/-! ## As elements -/

namespace TopoFiles

def pciHead (files : TopoFiles) (bdf : List Char) : XmlHead :=
  ⟨"pci".toList, files.pciAttributes bdf⟩

def cpuHead (files : TopoFiles) (node : Int) : XmlHead :=
  ⟨"cpu".toList, files.cpuAttributes node⟩

def systemHead : XmlHead := ⟨"system".toList, [("version".toList, "1".toList)]⟩

/-- The lines of a switch. -/
def switchLines (files : TopoFiles) (switch : List Char × List (List Char)) :
    List (Nat × XmlTag) :=
  (4, .opens (files.pciHead switch.1)) ::
    switch.2.flatMap (fun device => [(6, .leaf (files.pciHead device))]) ++
    [(4, .closes "pci".toList)]

def nodeLines (files : TopoFiles) (node : Int × List (List Char × List (List Char))) :
    List (Nat × XmlTag) :=
  (2, .opens (files.cpuHead node.1)) :: node.2.flatMap files.switchLines ++
    [(2, .closes "cpu".toList)]

def lines (files : TopoFiles) (topo : TopoMap) : List (Nat × XmlTag) :=
  (0, .opens systemHead) :: topo.flatMap files.nodeLines ++ [(0, .closes "system".toList)]

def switchElement (files : TopoFiles) (switch : List Char × List (List Char)) : Xml :=
  .element (files.pciHead switch.1) (switch.2.flatMap fun device =>
    [.element (files.pciHead device) []])

def nodeElement (files : TopoFiles) (node : Int × List (List Char × List (List Char))) : Xml :=
  .element (files.cpuHead node.1) (node.2.flatMap fun switch => [files.switchElement switch])

def element (files : TopoFiles) (topo : TopoMap) : Xml :=
  .element systemHead (topo.flatMap fun node => [files.nodeElement node])

/-- A line that opens an element, from the start of its format. -/
theorem opens_eq {start name : List Char} {indent : Nat} {entries : List (List Char × List Char)}
    (starts : start = List.replicate indent ' ' ++ '<' :: name) :
    start ++ entries.flatMap attributeText ++ ">\n".toList =
      lineText (indent, .opens ⟨name, entries⟩) := by
  have ends : ">\n".toList = ['>', '\n'] := by decide +kernel
  simp only [starts, ends, lineText, XmlTag.text, XmlHead.text, List.append_assoc,
    List.cons_append, List.nil_append]

theorem leaf_eq {start name : List Char} {indent : Nat} {entries : List (List Char × List Char)}
    (starts : start = List.replicate indent ' ' ++ '<' :: name) :
    start ++ entries.flatMap attributeText ++ "/>\n".toList =
      lineText (indent, .leaf ⟨name, entries⟩) := by
  have ends : "/>\n".toList = ['/', '>', '\n'] := by decide +kernel
  simp only [starts, ends, lineText, XmlTag.text, XmlHead.text, List.append_assoc,
    List.cons_append, List.nil_append]

theorem deviceLine_eq (files : TopoFiles) (device : List Char) :
    files.deviceLine device = lineText (6, .leaf (files.pciHead device)) := by
  have starts : "      <pci".toList = List.replicate 6 ' ' ++ '<' :: "pci".toList := by
    decide +kernel
  exact leaf_eq starts

theorem switchLine_eq (files : TopoFiles) (busid : List Char) :
    files.switchLine busid = lineText (4, .opens (files.pciHead busid)) := by
  have starts : "    <pci".toList = List.replicate 4 ' ' ++ '<' :: "pci".toList := by
    decide +kernel
  exact opens_eq starts

theorem cpuLine_eq (files : TopoFiles) (node : Int) :
    files.cpuLine node = lineText (2, .opens (files.cpuHead node)) := by
  have starts : "  <cpu".toList = List.replicate 2 ' ' ++ '<' :: "cpu".toList := by
    decide +kernel
  exact opens_eq starts

/-- The text is made of these lines. -/
theorem switchText_eq (files : TopoFiles) (switch : List Char × List (List Char)) :
    files.switchText switch = (files.switchLines switch).flatMap lineText := by
  have closes : "    </pci>\n".toList = lineText (4, .closes "pci".toList) := by
    decide +kernel
  have devices : files.deviceLine = fun device => lineText (6, .leaf (files.pciHead device)) :=
    funext files.deviceLine_eq
  rw [switchText, switchLines, closes, devices, switchLine_eq, List.cons_append,
    List.flatMap_cons, List.flatMap_append, List.flatMap_assoc, List.append_assoc]
  simp only [List.flatMap_cons, List.flatMap_nil, List.append_nil]

theorem nodeText_eq (files : TopoFiles) (node : Int × List (List Char × List (List Char))) :
    files.nodeText node = (files.nodeLines node).flatMap lineText := by
  have closes : "  </cpu>\n".toList = lineText (2, .closes "cpu".toList) := by
    decide +kernel
  have switches : files.switchText = fun switch => (files.switchLines switch).flatMap lineText :=
    funext files.switchText_eq
  rw [nodeText, nodeLines, closes, switches, cpuLine_eq, List.cons_append,
    List.flatMap_cons, List.flatMap_append, List.flatMap_assoc, List.append_assoc]
  simp only [List.flatMap_cons, List.flatMap_nil, List.append_nil]

theorem systemLine_eq : systemLine = lineText (0, .opens systemHead) := by
  have starts : "<system".toList = List.replicate 0 ' ' ++ '<' :: "system".toList := by
    decide +kernel
  exact opens_eq starts

theorem text_eq (files : TopoFiles) (topo : TopoMap) :
    files.text topo = (files.lines topo).flatMap lineText := by
  have closes : "</system>\n".toList = lineText (0, .closes "system".toList) := by
    decide +kernel
  have nodes : files.nodeText = fun node => (files.nodeLines node).flatMap lineText :=
    funext files.nodeText_eq
  rw [text, lines, systemLine_eq, closes, nodes, List.cons_append, List.flatMap_cons,
    List.flatMap_append, List.flatMap_assoc, List.append_assoc]
  simp only [List.flatMap_cons, List.flatMap_nil, List.append_nil]

end TopoFiles

end NcclExts.Ucommd
