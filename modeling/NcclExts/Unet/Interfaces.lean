import NcclExts.Foundation.FirstByKey
import NcclExts.Unet.HcaFilter
import NcclExts.Unet.Socket

/-!
# Which network interfaces are used

The system lists its interfaces, a name with an address at a time. A search goes through
the list with a pattern for names and writes the names and addresses it takes into the
arrays of its caller. Unless the user names interfaces, several searches are tried one
after the other, until one takes something.

What `NCCL_COMM_ID` leads to is an argument.
-/

namespace NcclExts.Unet

open NcclExts.Foundation

/-- `MAX_IF_NAME_SIZE`, which is also what the system has room for. -/
def maxIfNameSize : Nat := 16

/-- `MAX_IFS`, the size of `userIfs`. -/
def maxUserIfs : Nat := 16

/-- The name of an interface of the system. -/
@[ext]
structure IfName where
  bytes : List UInt8
  short : bytes.length < maxIfNameSize
  noZero : (0 : UInt8) ∉ bytes
deriving DecidableEq

/-- The address of an interface of the system. -/
inductive IfAddr where
  | inet (addr : BitVec 32)
  | inet6 (addr : BitVec 128) (scopeId : UInt32)
  | other (family : Nat)
deriving DecidableEq

/-- `sa_family`. -/
def IfAddr.family : IfAddr → SockFamily
  | .inet _ => .inet
  | .inet6 _ _ => .inet6
  | .other family => .other family

/-- `IN6_IS_ADDR_LOOPBACK`, for an address of that family. -/
def IfAddr.isLoopback6 : IfAddr → Bool
  | .inet6 addr _ => addr = 1
  | _ => false

/-- `struct ifaddrs`; `none` is the null pointer. -/
structure Interface where
  name : IfName
  addr : Option IfAddr

/-- An entry of the caller's arrays: the bytes of the name, and the address. -/
structure IfEntry where
  name : List UInt8
  addr : IfAddr
deriving DecidableEq

/-- `strncpy` into a field. -/
def strncpy (size : Nat) (text : List UInt8) : List UInt8 :=
  text.take size ++ List.replicate (size - text.length) 0

/-- The text that starts at an entry of the array of names. -/
def nameAt (found : List IfEntry) (i : Nat) : List UInt8 :=
  ((found.drop i).flatMap IfEntry.name).takeWhile (· ≠ 0)

/-- `envSocketFamily`; `none` for the text is an unset variable, and as a family -1. -/
def envSocketFamily (env : Option (List UInt8)) : Option SockFamily :=
  match env with
  | none => none
  | some env =>
    if env = ascii "AF_INET" then some .inet
    else if env = ascii "AF_INET6" then some .inet6
    else none

/-- The pattern for names that a search goes by. -/
structure IfPattern where
  userIfs : List NetIf
  searchNot : Bool
  searchExact : Bool

/-- How `findInterfaces` reads its pattern. `none` is a write out of bounds. -/
def readPrefixList (prefixList : List UInt8) : Option IfPattern :=
  let (searchNot, prefixList) := stripMark caret prefixList
  let (searchExact, prefixList) := stripMark equals prefixList
  (parseStringList (some prefixList) maxUserIfs).map fun userIfs =>
    { userIfs := userIfs, searchNot := searchNot, searchExact := searchExact }

/-- The check of a name against the pattern. -/
def IfPattern.accepts (pattern : IfPattern) (name : IfName) : Bool :=
  matchIfList (textOf name.bytes) (-1) pattern.userIfs pattern.searchExact ^^ pattern.searchNot

/-- One interface in `findInterfaces`. -/
def considerInterface (pattern : IfPattern) (sockFamily : Option SockFamily) (nameSize : Nat)
    (found : List IfEntry) (interface : Interface) : List IfEntry :=
  match interface.addr with
  | none => found
  | some addr =>
    if addr.family ≠ .inet ∧ addr.family ≠ .inet6 then found
    else if sockFamily ≠ none ∧ some addr.family ≠ sockFamily then found
    else if addr.isLoopback6 then found
    else if pattern.accepts interface.name = false then found
    else if (List.range found.length).any fun i => interface.name.bytes = nameAt found i then found
    else found ++ [⟨strncpy nameSize interface.name.bytes, addr⟩]

/-- The loop of `findInterfaces`. -/
def findLoop (pattern : IfPattern) (sockFamily : Option SockFamily) (nameSize maxIfs : Nat) :
    List IfEntry → List Interface → List IfEntry
  | found, [] => found
  | found, interface :: interfaces =>
    if found.length < maxIfs then
      findLoop pattern sockFamily nameSize maxIfs
        (considerInterface pattern sockFamily nameSize found interface) interfaces
    else found

/-- `findInterfaces`. -/
def findInterfaces (prefixList : List UInt8) (sockFamily : Option SockFamily)
    (nameSize maxIfs : Nat) (interfaces : List Interface) : Option (List IfEntry) :=
  (readPrefixList prefixList).map fun pattern =>
    findLoop pattern sockFamily nameSize maxIfs [] interfaces

/-- The variables that `ncclFindInterfaces` reads. -/
structure IfEnv where
  /-- `NCCL_SOCKET_FAMILY`. -/
  family : Option (List UInt8)
  /-- `NCCL_SOCKET_IFNAME`. -/
  ifname : Option (List UInt8)
  /-- `NCCL_COMM_ID`. -/
  commId : Option (List UInt8)

/-- Search again if nothing was found. -/
def orSearch (found again : Option (List IfEntry)) : Option (List IfEntry) :=
  found.bind fun found => if found.length = 0 then again else some found

/-- `ncclFindInterfaces`, with the search that goes by `NCCL_COMM_ID`. -/
def ncclFindInterfaces (env : IfEnv) (matchCommId : List UInt8 → Option (List IfEntry))
    (nameSize maxIfs : Nat) (interfaces : List Interface) : Option (List IfEntry) :=
  let find (prefixList : List UInt8) : Option (List IfEntry) :=
    findInterfaces prefixList (envSocketFamily env.family) nameSize maxIfs interfaces
  match env.ifname.filter (1 < ·.length) with
  | some ifname => find ifname
  | none =>
    let found := find (ascii "eth")
    let found := orSearch found <|
      match env.commId.filter (1 < ·.length) with
      | some commId => matchCommId commId
      | none => some []
    let found := orSearch found (find (ascii "^docker,lo"))
    let found := orSearch found (find (ascii "docker"))
    orSearch found (find (ascii "lo"))

/-! ## What there is to find -/

/-- The user's choice of a family allows a family. -/
def Allowed (sockFamily : Option SockFamily) (family : SockFamily) : Prop :=
  (family = .inet ∨ family = .inet6) ∧ (sockFamily = none ∨ sockFamily = some family)

instance (sockFamily : Option SockFamily) (family : SockFamily) :
    Decidable (Allowed sockFamily family) :=
  inferInstanceAs (Decidable (_ ∧ _))

/-- An address that can be used. -/
def Usable (sockFamily : Option SockFamily) (addr : IfAddr) : Prop :=
  Allowed sockFamily addr.family ∧ addr.isLoopback6 = false

instance (sockFamily : Option SockFamily) (addr : IfAddr) : Decidable (Usable sockFamily addr) :=
  inferInstanceAs (Decidable (_ ∧ _))

/-- The name of an interface with its address, if that can be used. -/
def Interface.usable (sockFamily : Option SockFamily) (interface : Interface) :
    Option (IfName × IfAddr) :=
  (interface.addr.filter fun addr => Usable sockFamily addr).map fun addr => (interface.name, addr)

/-- The classes of names in the order in which they are tried. -/
inductive NameClass where
  | eth
  | any
  | docker
  | lo
deriving DecidableEq

/-- The names of a class. -/
def NameClass.Contains : NameClass → List UInt8 → Prop
  | .eth, name => ascii "eth" <+: name
  | .any, name => ¬ ascii "docker" <+: name ∧ ¬ ascii "lo" <+: name
  | .docker, name => ascii "docker" <+: name
  | .lo, name => ascii "lo" <+: name

instance : ∀ (cls : NameClass) (name : List UInt8), Decidable (cls.Contains name)
  | .eth, _ => inferInstanceAs (Decidable (_ <+: _))
  | .any, _ => inferInstanceAs (Decidable (_ ∧ _))
  | .docker, _ => inferInstanceAs (Decidable (_ <+: _))
  | .lo, _ => inferInstanceAs (Decidable (_ <+: _))

/-- The order of the classes. -/
def NameClass.order : List NameClass := [.eth, .any, .docker, .lo]

/-- The usable names and addresses of a class, as the system lists them. -/
def NameClass.members (cls : NameClass) (sockFamily : Option SockFamily)
    (interfaces : List Interface) : List (IfName × IfAddr) :=
  (interfaces.filterMap (Interface.usable sockFamily)).filter fun member =>
    cls.Contains member.1.bytes

/-- The pattern of a class. -/
def NameClass.pattern : NameClass → List UInt8
  | .eth => ascii "eth"
  | .any => ascii "^docker,lo"
  | .docker => ascii "docker"
  | .lo => ascii "lo"

/-- What the caller reads from its arrays. -/
def readEntries (found : List IfEntry) : List (List UInt8 × IfAddr) :=
  found.mapIdx fun i entry => (nameAt found i, entry.addr)

/-! ## The arrays -/

/-- The entry for a name and an address. -/
def stored (nameSize : Nat) (member : IfName × IfAddr) : IfEntry :=
  ⟨strncpy nameSize member.1.bytes, member.2⟩

/-- A name that is shorter than its field is read back. -/
theorem nameAt_stored {nameSize : Nat} (fits : maxIfNameSize ≤ nameSize)
    {kept : List (IfName × IfAddr)} {i : Nat} (inside : i < kept.length) :
    nameAt (kept.map (stored nameSize)) i = (kept[i]).1.bytes := by
  have short := (kept[i]).1.short
  obtain ⟨zeros, isZeros⟩ : ∃ zeros, nameSize - (kept[i]).1.bytes.length = zeros + 1 :=
    ⟨nameSize - (kept[i]).1.bytes.length - 1, by omega⟩
  have field : strncpy nameSize (kept[i]).1.bytes =
      (kept[i]).1.bytes ++ 0 :: List.replicate zeros 0 := by
    rw [strncpy, List.take_of_length_le (by omega), isZeros, List.replicate_succ]
  have text : ∀ byte ∈ (kept[i]).1.bytes, decide (byte ≠ 0) = true := by
    intro byte member
    exact decide_eq_true fun isZero => (kept[i]).1.noZero (isZero ▸ member)
  rw [nameAt, ← List.map_drop, List.drop_eq_getElem_cons inside, List.map_cons, List.flatMap_cons,
    stored, field, List.append_assoc, List.takeWhile_append_of_pos text, List.cons_append,
    List.takeWhile_cons_of_neg (by simp), List.append_nil]

/-- The caller reads the names and addresses that were written. -/
theorem readEntries_stored {nameSize : Nat} (fits : maxIfNameSize ≤ nameSize)
    (kept : List (IfName × IfAddr)) :
    readEntries (kept.map (stored nameSize)) =
      kept.map fun member => (member.1.bytes, member.2) := by
  apply List.ext_getElem
  · simp [readEntries]
  · intro i _ inside
    rw [List.length_map] at inside
    simp [readEntries, nameAt_stored fits inside, stored]

/-- The loop over the names so far looks for the name. -/
theorem duplicate_iff {nameSize : Nat} (fits : maxIfNameSize ≤ nameSize)
    (kept : List (IfName × IfAddr)) (name : IfName) :
    ((List.range (kept.map (stored nameSize)).length).any fun i =>
        name.bytes = nameAt (kept.map (stored nameSize)) i) = true ↔
      name ∈ kept.map Prod.fst := by
  simp only [List.any_eq_true, List.mem_range, List.length_map, decide_eq_true_eq, List.mem_map]
  constructor
  · rintro ⟨i, inside, same⟩
    rw [nameAt_stored fits inside] at same
    exact ⟨kept[i], List.getElem_mem inside, (IfName.ext same).symm⟩
  · rintro ⟨member, isKept, rfl⟩
    obtain ⟨i, inside, rfl⟩ := List.getElem_of_mem isKept
    exact ⟨i, inside, (nameAt_stored fits inside).symm⟩

/-! ## One search -/

/-- An interface with an address is usable with it or not at all. -/
theorem Interface.usable_some (sockFamily : Option SockFamily) (name : IfName) (addr : IfAddr) :
    Interface.usable sockFamily ⟨name, some addr⟩ =
      if Usable sockFamily addr then some (name, addr) else none := by
  simp only [Interface.usable, Option.filter_some, decide_eq_true_eq]
  split <;> rfl

/-- An interface is passed over, or its name and address are kept if the name is new. -/
theorem considerInterface_stored {nameSize : Nat} (fits : maxIfNameSize ≤ nameSize)
    (pattern : IfPattern) (sockFamily : Option SockFamily) (kept : List (IfName × IfAddr))
    (interface : Interface) :
    considerInterface pattern sockFamily nameSize (kept.map (stored nameSize)) interface =
      (((interface.usable sockFamily).toList.filter fun member => pattern.accepts member.1).foldl
        (keepNew Prod.fst) kept).map (stored nameSize) := by
  obtain ⟨name, addr⟩ := interface
  cases addr with
  | none => rfl
  | some addr =>
    simp only [considerInterface, Interface.usable_some]
    by_cases supported : addr.family ≠ .inet ∧ addr.family ≠ .inet6
    · have unusable : ¬ Usable sockFamily addr := fun usable => by
        rcases usable.1.1 with isInet | isInet6
        · exact supported.1 isInet
        · exact supported.2 isInet6
      simp [supported, unusable]
    · rw [if_neg supported]
      by_cases forced : sockFamily ≠ none ∧ some addr.family ≠ sockFamily
      · have unusable : ¬ Usable sockFamily addr := fun usable => by
          rcases usable.1.2 with free | same
          · exact forced.1 free
          · exact forced.2 same.symm
        simp [forced, unusable]
      · rw [if_neg forced]
        by_cases loopback : addr.isLoopback6 = true
        · have unusable : ¬ Usable sockFamily addr := fun usable =>
            Bool.false_ne_true (usable.2.symm.trans loopback)
          simp [loopback, unusable]
        · have usable : Usable sockFamily addr := by
            refine ⟨⟨?_, ?_⟩, Bool.eq_false_iff.mpr loopback⟩
            · by_contra neither
              exact supported (not_or.mp neither)
            · by_contra neither
              have other := not_or.mp neither
              exact forced ⟨other.1, fun same => other.2 same.symm⟩
          rw [if_neg loopback]
          by_cases accepted : pattern.accepts name = true
          · have notRefused : ¬ pattern.accepts name = false := by simp [accepted]
            have taken : [(name, addr)].filter (fun member => pattern.accepts member.1) =
                [(name, addr)] := List.filter_cons_of_pos accepted
            rw [if_neg notRefused]
            simp only [duplicate_iff fits, usable, if_true, Option.toList_some, taken,
              List.foldl_cons, List.foldl_nil, keepNew]
            by_cases known : name ∈ kept.map Prod.fst
            · rw [if_pos known, if_pos known]
            · rw [if_neg known, if_neg known, List.map_append]
              rfl
          · simp [accepted, usable]

/-- The loop keeps the first usable address of each name that the pattern accepts. -/
theorem findLoop_stored {nameSize : Nat} (fits : maxIfNameSize ≤ nameSize) (pattern : IfPattern)
    (sockFamily : Option SockFamily) (maxIfs : Nat) (kept : List (IfName × IfAddr))
    (interfaces : List Interface) :
    findLoop pattern sockFamily nameSize maxIfs (kept.map (stored nameSize)) interfaces =
      (firstByKey Prod.fst maxIfs kept
        ((interfaces.filterMap (Interface.usable sockFamily)).filter fun member =>
          pattern.accepts member.1)).map (stored nameSize) := by
  induction interfaces generalizing kept with
  | nil => rfl
  | cons interface interfaces ih =>
    rw [findLoop, List.length_map]
    by_cases room : kept.length < maxIfs
    · rw [if_pos room, considerInterface_stored fits, ih]
      cases usable : interface.usable sockFamily with
      | none => simp [usable]
      | some member =>
        rw [List.filterMap_cons_some usable]
        by_cases accepted : pattern.accepts member.1 = true
        · simp [accepted, firstByKey, room]
        · simp [accepted]
    · rw [if_neg room, firstByKey_full room]

/-! ## The patterns -/

/-- An interface has any port, so a list with entries accepts a name by the start of it. -/
theorem matchIfList_anyPort (name : List UInt8) {parts : List (List UInt8)} (some : parts ≠ []) :
    matchIfList (textOf name) (-1) (parts.map entryOf) false = true ↔
      ∃ part ∈ parts, nameOf part <+: name := by
  have listed : (parts.map entryOf).isEmpty = false := by
    rw [List.isEmpty_eq_false_iff]
    exact fun empty => some (List.map_eq_nil_iff.mp empty)
  simp only [matchIfList, listed, Bool.false_or, List.any_map, List.any_eq_true,
    Function.comp_apply, matchPort, true_or, decide_true, Bool.and_true, entryOf, matchIf_textOf,
    Bool.false_eq_true, if_false, strncmpEq_prefix]

/-- The names in the pattern of a class. -/
def NameClass.parts : NameClass → List (List UInt8)
  | .eth => [ascii "eth"]
  | .any => [ascii "docker", ascii "lo"]
  | .docker => [ascii "docker"]
  | .lo => [ascii "lo"]

/-- The pattern of a class is read into its names, behind a caret for one class. -/
theorem NameClass.read_pattern (cls : NameClass) :
    readPrefixList cls.pattern = some
      { userIfs := cls.parts.map entryOf, searchNot := decide (cls = .any)
        searchExact := false } := by
  have parsed (list : List UInt8) (parts : List (List UInt8))
      (short : ∀ part ∈ list.splitOn comma, (nameOf part).length ≤ 63)
      (named : (namedParts list).take maxUserIfs = parts) :
      parseStringList (some list) maxUserIfs = some (parts.map entryOf) :=
    named ▸ parseStringList_short list (by decide) short
  have read (text list : List UInt8) (not : Bool) (parts : List (List UInt8))
      (hasCaret : stripMark caret text = (not, list))
      (plain : stripMark equals list = (false, list))
      (isList : parseStringList (some list) maxUserIfs = some (parts.map entryOf)) :
      readPrefixList text = some ⟨parts.map entryOf, not, false⟩ := by
    rw [readPrefixList, hasCaret]
    simp only [plain, isList, Option.map_some]
  cases cls with
  | eth =>
    exact read _ (ascii "eth") false _ (by decide +kernel) (by decide +kernel)
      (parsed _ _ (by decide +kernel) (by decide +kernel))
  | any =>
    exact read _ (ascii "docker,lo") true _ (by decide +kernel) (by decide +kernel)
      (parsed _ _ (by decide +kernel) (by decide +kernel))
  | docker =>
    exact read _ (ascii "docker") false _ (by decide +kernel) (by decide +kernel)
      (parsed _ _ (by decide +kernel) (by decide +kernel))
  | lo =>
    exact read _ (ascii "lo") false _ (by decide +kernel) (by decide +kernel)
      (parsed _ _ (by decide +kernel) (by decide +kernel))

/-- The pattern of a class accepts the names of the class. -/
theorem NameClass.accepts_iff (cls : NameClass) (name : IfName) :
    IfPattern.accepts
        { userIfs := cls.parts.map entryOf, searchNot := decide (cls = .any)
          searchExact := false } name = true ↔
      cls.Contains name.bytes := by
  have names : nameOf (ascii "eth") = ascii "eth" ∧ nameOf (ascii "docker") = ascii "docker" ∧
      nameOf (ascii "lo") = ascii "lo" := by decide +kernel
  have isSome : cls.parts ≠ [] := by cases cls <;> exact List.cons_ne_nil _ _
  rw [IfPattern.accepts]
  cases cls with
  | any =>
    simp only [decide_true, Bool.xor_true, Bool.not_eq_true', Bool.eq_false_iff, ne_eq,
      matchIfList_anyPort name.bytes isSome]
    simp [NameClass.parts, NameClass.Contains, names]
  | eth | docker | lo =>
    simp only [reduceCtorEq, decide_false, Bool.xor_false, matchIfList_anyPort name.bytes isSome]
    simp [NameClass.parts, NameClass.Contains, names]

/-- A search with the pattern of a class keeps the first items of its members. -/
theorem NameClass.search {nameSize : Nat} (fits : maxIfNameSize ≤ nameSize) (cls : NameClass)
    (sockFamily : Option SockFamily) (maxIfs : Nat) (interfaces : List Interface) :
    findInterfaces cls.pattern sockFamily nameSize maxIfs interfaces =
      some ((firstByKey Prod.fst maxIfs [] (cls.members sockFamily interfaces)).map
        (stored nameSize)) := by
  have loop := findLoop_stored fits
    { userIfs := cls.parts.map entryOf, searchNot := decide (cls = .any), searchExact := false }
    sockFamily maxIfs [] interfaces
  have members : cls.members sockFamily interfaces =
      (interfaces.filterMap (Interface.usable sockFamily)).filter fun member =>
        IfPattern.accepts ⟨cls.parts.map entryOf, decide (cls = .any), false⟩ member.1 := by
    refine List.filter_congr fun member _ => ?_
    rw [Bool.eq_iff_iff, decide_eq_true_eq, cls.accepts_iff member.1]
  rw [findInterfaces, cls.read_pattern, Option.map_some, members, ← loop, List.map_nil]

/-! ## All searches -/

/-- Whoever can be used is in one of the classes. -/
theorem NameClass.cover (sockFamily : Option SockFamily) (interfaces : List Interface)
    (empty : ∀ cls ∈ NameClass.order, cls.members sockFamily interfaces = []) :
    interfaces.filterMap (Interface.usable sockFamily) = [] := by
  refine List.eq_nil_iff_forall_not_mem.mpr fun member listed => ?_
  have outside (cls : NameClass) (inOrder : cls ∈ NameClass.order) :
      ¬ cls.Contains member.1.bytes := fun inside => by
    have inMembers : member ∈ cls.members sockFamily interfaces :=
      List.mem_filter.mpr ⟨listed, decide_eq_true inside⟩
    rw [empty cls inOrder] at inMembers
    exact List.not_mem_nil inMembers
  exact outside .any (by decide) ⟨outside .docker (by decide), outside .lo (by decide)⟩

/-- What has a class is usable. -/
theorem NameClass.members_nil {sockFamily : Option SockFamily} {interfaces : List Interface}
    (none : interfaces.filterMap (Interface.usable sockFamily) = []) (cls : NameClass) :
    cls.members sockFamily interfaces = [] := by
  rw [NameClass.members, none, List.filter_nil]

/-- Nothing is usable when no interface has a usable address. -/
theorem usable_nil_iff (sockFamily : Option SockFamily) (interfaces : List Interface) :
    interfaces.filterMap (Interface.usable sockFamily) = [] ↔
      ∀ interface ∈ interfaces, ∀ addr, interface.addr = some addr → ¬ Usable sockFamily addr := by
  rw [List.filterMap_eq_nil_iff]
  refine forall_congr' fun interface => imp_congr_right fun _ => ?_
  obtain ⟨name, addr⟩ := interface
  cases addr with
  | none => simp [Interface.usable]
  | some addr => simp [Interface.usable_some]

/-- A search that found something is the last one. -/
theorem orSearch_stored (nameSize : Nat) (kept again : List (IfName × IfAddr)) :
    orSearch (some (kept.map (stored nameSize))) (some (again.map (stored nameSize))) =
      some ((if kept = [] then again else kept).map (stored nameSize)) := by
  rw [orSearch, Option.bind_some, List.length_map]
  by_cases empty : kept = []
  · rw [if_pos empty, if_pos (List.length_eq_zero_iff.mpr empty)]
  · rw [if_neg empty, if_neg (mt List.length_eq_zero_iff.mp empty)]

/-- Unless the user names interfaces, the first class with members is searched. -/
theorem ncclFindInterfaces_unset {nameSize maxIfs : Nat} (fits : maxIfNameSize ≤ nameSize)
    (room : 1 ≤ maxIfs) (family : Option (List UInt8))
    (matchCommId : List UInt8 → Option (List IfEntry)) (interfaces : List Interface) :
    ncclFindInterfaces ⟨family, none, none⟩ matchCommId nameSize maxIfs interfaces =
      some ((match NameClass.order.find? fun (cls : NameClass) =>
          cls.members (envSocketFamily family) interfaces ≠ [] with
        | none => []
        | some cls => firstByKey Prod.fst maxIfs []
            (cls.members (envSocketFamily family) interfaces)).map (stored nameSize)) := by
  have search (cls : NameClass) :=
    cls.search fits (envSocketFamily family) maxIfs interfaces
  have found (cls : NameClass) :
      firstByKey Prod.fst maxIfs [] (cls.members (envSocketFamily family) interfaces) = [] ↔
        cls.members (envSocketFamily family) interfaces = [] :=
    (firstByKey_each _).eq_nil_iff room
  have nothing := orSearch_stored nameSize
    (firstByKey Prod.fst maxIfs [] (NameClass.eth.members (envSocketFamily family) interfaces)) []
  have patterns : findInterfaces (ascii "eth") = findInterfaces NameClass.eth.pattern ∧
      findInterfaces (ascii "^docker,lo") = findInterfaces NameClass.any.pattern ∧
      findInterfaces (ascii "docker") = findInterfaces NameClass.docker.pattern ∧
      findInterfaces (ascii "lo") = findInterfaces NameClass.lo.pattern := ⟨rfl, rfl, rfl, rfl⟩
  rw [List.map_nil] at nothing
  simp only [ncclFindInterfaces, Option.filter_none, patterns, search, nothing, orSearch_stored,
    NameClass.order, List.find?_cons, List.find?_nil]
  by_cases eth : NameClass.eth.members (envSocketFamily family) interfaces = []
  · by_cases any : NameClass.any.members (envSocketFamily family) interfaces = []
    · by_cases docker : NameClass.docker.members (envSocketFamily family) interfaces = []
      · by_cases lo : NameClass.lo.members (envSocketFamily family) interfaces = []
        · simp [eth, any, docker, lo, firstByKey]
        · simp [eth, any, docker, lo, firstByKey]
      · simp [eth, any, docker, found, firstByKey]
    · simp [eth, any, found, firstByKey]
  · simp [eth, found]

/-- With `NCCL_SOCKET_IFNAME` and `NCCL_COMM_ID` unset, and room for one interface, nothing
is found exactly when no interface has a usable address. Else the first class with a usable
member is found: the first address of each name in it, as many as there is room for. -/
theorem interfaces_found (nameSize maxIfs : Nat) (fits : maxIfNameSize ≤ nameSize)
    (room : 1 ≤ maxIfs) (family : Option (List UInt8))
    (matchCommId : List UInt8 → Option (List IfEntry)) (interfaces : List Interface) :
    ∃ found,
      ncclFindInterfaces ⟨family, none, none⟩ matchCommId nameSize maxIfs interfaces =
        some found ∧
      (found.length = 0 ↔ ∀ interface ∈ interfaces, ∀ addr, interface.addr = some addr →
        ¬ Usable (envSocketFamily family) addr) ∧
      (found.length ≠ 0 → ∃ earlier cls later chosen,
        NameClass.order = earlier ++ cls :: later ∧
        (∀ other ∈ earlier, other.members (envSocketFamily family) interfaces = []) ∧
        cls.members (envSocketFamily family) interfaces ≠ [] ∧
        FirstOfEach Prod.fst maxIfs (cls.members (envSocketFamily family) interfaces) chosen ∧
        readEntries found = chosen.map fun member => (member.1.bytes, member.2)) := by
  have result := ncclFindInterfaces_unset fits room family matchCommId interfaces
  cases search : NameClass.order.find? fun (cls : NameClass) =>
      cls.members (envSocketFamily family) interfaces ≠ [] with
  | none =>
    rw [search] at result
    refine ⟨_, result, ?_, fun some => absurd rfl some⟩
    rw [← usable_nil_iff]
    refine ⟨fun _ => NameClass.cover _ _ fun cls inOrder => ?_, fun _ => rfl⟩
    have empty := List.find?_eq_none.mp search cls inOrder
    simpa using empty
  | some cls =>
    rw [search] at result
    obtain ⟨isSome, earlier, later, split, before⟩ := List.find?_eq_some_iff_append.mp search
    have members : cls.members (envSocketFamily family) interfaces ≠ [] := of_decide_eq_true isSome
    have each : FirstOfEach Prod.fst maxIfs (cls.members (envSocketFamily family) interfaces) _ :=
      firstByKey_each _
    refine ⟨_, result, ?_, fun _ => ⟨earlier, cls, later, _, split, ?_, members, each,
      readEntries_stored fits _⟩⟩
    · rw [List.length_map, List.length_eq_zero_iff, each.eq_nil_iff room, ← usable_nil_iff]
      exact ⟨fun empty => absurd empty members, fun none => NameClass.members_nil none cls⟩
    · intro other inFront
      simpa using before other inFront

/-- The host of `docker0`, and of `ib0` with two addresses. -/
def dockerHost : List Interface :=
  [⟨⟨ascii "docker0", by decide, by decide⟩, some (.inet 1)⟩,
    ⟨⟨ascii "ib0", by decide, by decide⟩, some (.inet6 2 0)⟩,
    ⟨⟨ascii "ib0", by decide, by decide⟩, some (.inet6 3 0)⟩]

/-- A host with room for one interface. -/
theorem interfaces_found_docker :
    ∃ found, ncclFindInterfaces ⟨none, none, none⟩ (fun _ => none) 16 1 dockerHost = some found ∧
      found.length ≠ 0 := by
  obtain ⟨found, isFound, none, _⟩ :=
    interfaces_found 16 1 (by decide) (by decide) none (fun _ => Option.none) dockerHost
  refine ⟨found, isFound, fun empty => ?_⟩
  exact none.mp empty _ (List.mem_cons_self) _ rfl (by decide)

end NcclExts.Unet
