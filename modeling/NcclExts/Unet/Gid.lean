import Mathlib.Data.BitVec
import Mathlib.Data.Fin.VecNotation
import Mathlib.Data.List.Basic

/-!
# Choosing a GID

A port has a table of GIDs, and a connection over Ethernet goes by one of them. The
choice walks over the table and replaces its pick by a candidate that suits the user's
address family, address range and RoCE version better.

An address is four 32-bit words in network order; a word is held as the number its
bytes spell, so that the constants behind `htonl` read as they are written.
-/

namespace NcclExts.Unet

/-- `sa_family_t`, with the two families a user can ask for. -/
inductive SaFamily where
  | afInet
  | afInet6
deriving DecidableEq, Repr

/-- The words of `struct in6_addr`, and of a `union ibv_gid` read as one. -/
abbrev In6Addr := Fin 4 → BitVec 32

/-- An entry of the GID table of a port, with the text of its `gid_attrs/types` file;
`none` when the file cannot be read. -/
structure GidEntry where
  gid : In6Addr
  types : Option String

/-- What the user asks for: `envIbAddrFamily`, `envIbAddrRange` and
`NCCL_IB_ROCE_VERSION_NUM`. Reading the range caps its length by the family's width. -/
structure UserGid where
  af : SaFamily
  addr : BitVec 32
  addr6 : In6Addr
  prefixlen : Int
  roceVer : Int
  fits : prefixlen ≤ match af with | .afInet => 32 | .afInet6 => 128

/-- `getGidAddrFamily`. -/
def getGidAddrFamily (a : In6Addr) : SaFamily :=
  let isIpV4Mapped := (a 0 ||| a 1) ||| (a 2 ^^^ 0x0000ffff) = 0
  let isIpV4MappedMulticast := a 0 = 0xff0e0000 ∧ a 1 ||| (a 2 ^^^ 0x0000ffff) = 0
  if isIpV4Mapped ∨ isIpV4MappedMulticast then .afInet else .afInet6

/-- `NETMASK`. -/
def netmask (bits : Nat) : BitVec 32 := 0xffffffff ^^^ ((1 <<< (32 - bits)) - 1)

/-- The words agree under a mask. -/
def SameUnder (mask base addr : BitVec 32) : Prop := (base &&& mask) ^^^ (addr &&& mask) = 0#32

instance (mask base addr : BitVec 32) : Decidable (SameUnder mask base addr) :=
  inferInstanceAs (Decidable (_ = _))

/-- The loop of `matchGidAddrPrefix` over the words of an IPv6 address: what is left of
the prefix length when it stops. -/
def matchWords : List (BitVec 32 × BitVec 32) → Int → Int
  | [], prefixlen => prefixlen
  | (base, addr) :: rest, prefixlen =>
    if prefixlen ≤ 0 then prefixlen
    else if prefixlen ≥ 32 then
      if base ^^^ addr ≠ 0#32 then prefixlen else matchWords rest (prefixlen - 32)
    else if SameUnder (netmask prefixlen.toNat) base addr then 0 else prefixlen

/-- The words of two addresses side by side. -/
def wordPairs (base addr : In6Addr) : List (BitVec 32 × BitVec 32) :=
  (List.finRange 4).map fun i => (base i, addr i)

/-- `matchGidAddrPrefix`. -/
def matchGidAddrPrefix (user : UserGid) (gid : In6Addr) : Bool :=
  match user.af with
  | .afInet =>
    let left :=
      if 0 < user.prefixlen ∧ SameUnder (netmask user.prefixlen.toNat) user.addr (gid 3) then 0
      else user.prefixlen
    left = 0
  | .afInet6 => matchWords (wordPairs user.addr6 gid) user.prefixlen = 0

/-- `configuredGid`. -/
def configuredGid (a : In6Addr) : Bool :=
  let trailer := a 1 ||| a 2 ||| a 3
  ¬ (a 0 ||| trailer = 0 ∨ (a 0 = 0xfe800000 ∧ trailer = 0))

/-- `linkLocalGid`. -/
def linkLocalGid (a : In6Addr) : Bool := a 0 = 0xfe800000 ∧ a 1 = 0

/-- `validGid`. -/
def validGid (gid : In6Addr) : Bool := configuredGid gid && !linkLocalGid gid

/-- `ncclIbRoceGetVersionNum`; `none` when the file cannot be read or its text names
no version, which leaves the caller's variable unset. -/
def ncclIbRoceGetVersionNum (types : Option String) : Option Int :=
  types.bind fun text =>
    if "IB/RoCE v1".toList.isPrefixOf text.toList ∨ "RoCE v1".toList.isPrefixOf text.toList then
      some 1
    else if "RoCE v2".toList.isPrefixOf text.toList then some 2
    else none

/-- `ncclIbUpdateGidIndex`: the index afterwards; `none` when a query fails. -/
def ncclIbUpdateGidIndex (user : UserGid) (table : List GidEntry) (gidIndex candidate : Nat) :
    Option Nat := do
  let cur ← table[gidIndex]?
  let cand ← table[candidate]?
  let gidFam := getGidAddrFamily cur.gid
  let gidCandidateFam := getGidAddrFamily cand.gid
  let gidCandidateMatchSubnet := matchGidAddrPrefix user cand.gid
  if gidCandidateFam ≠ gidFam ∧ gidCandidateFam = user.af ∧ gidCandidateMatchSubnet then
    return candidate
  else if gidCandidateFam ≠ user.af ∨ !validGid cand.gid ∨ !gidCandidateMatchSubnet then
    return gidIndex
  else
    let gidRoceVerNum ← ncclIbRoceGetVersionNum cur.types
    let gidRoceVerNumCandidate ← ncclIbRoceGetVersionNum cand.types
    if (gidRoceVerNum ≠ gidRoceVerNumCandidate ∨ !validGid cur.gid) ∧
        gidRoceVerNumCandidate = user.roceVer then
      return candidate
    else return gidIndex

/-- `ncclIbGetGidIndex`, with the value of `NCCL_IB_GID_INDEX`. -/
def ncclIbGetGidIndex (param : Int) (user : UserGid) (table : List GidEntry) : Option Int :=
  if 0 ≤ param then some param
  else
    ((List.range' 1 (table.length - 1)).foldlM (ncclIbUpdateGidIndex user table) 0).map Int.ofNat

/-! ## The address range -/

/-- A bit of an address, counted from its most significant one. -/
def addrBit (a : In6Addr) (k : Nat) : Bool :=
  if inside : k / 32 < 4 then (a ⟨k / 32, inside⟩).getMsbD (k % 32) else false

/-- The address shares the first bits of the user's range, as many as its prefix has.
An IPv4 address is the last 32 bits of its GID. -/
def InAddrRange (user : UserGid) (gid : In6Addr) : Prop :=
  0 ≤ user.prefixlen ∧ ∀ k : Nat, (k : Int) < user.prefixlen →
    match user.af with
    | .afInet => user.addr.getMsbD k = addrBit gid (96 + k)
    | .afInet6 => addrBit user.addr6 k = addrBit gid k

/-- A netmask has its leading bits set. -/
theorem netmask_getMsbD (bits k : Nat) (most : bits ≤ 32) (inside : k < 32) :
    (netmask bits).getMsbD k = decide (k < bits) := by
  have table : ∀ bits : Fin 33, ∀ k : Fin 32,
      (netmask bits).getMsbD k = decide (k.val < bits.val) := by decide +kernel
  exact table ⟨bits, Nat.lt_succ_of_le most⟩ ⟨k, inside⟩

/-- Words agree under a netmask when their leading bits do. -/
theorem sameUnder_netmask (bits : Nat) (most : bits ≤ 32) (base addr : BitVec 32) :
    SameUnder (netmask bits) base addr ↔ ∀ k, k < bits → base.getMsbD k = addr.getMsbD k := by
  unfold SameUnder
  rw [BitVec.xor_eq_zero_iff]
  constructor
  · intro same k leading
    have masked := congrArg (fun word : BitVec 32 => word.getMsbD k) same
    have set := netmask_getMsbD bits k most (by omega)
    simpa [BitVec.getMsbD_and, set, leading] using masked
  · intro agree
    apply BitVec.eq_of_getMsbD_eq
    intro k inside
    have set := netmask_getMsbD bits k most inside
    rw [BitVec.getMsbD_and, BitVec.getMsbD_and, set]
    by_cases leading : k < bits
    · rw [agree k leading]
    · simp [leading]

/-- The first bits of two addresses given word by word agree. -/
def BitsAgree (pairs : List (BitVec 32 × BitVec 32)) (prefixlen : Nat) : Prop :=
  ∀ k, k < prefixlen → ∀ pair, pairs[k / 32]? = some pair →
    pair.1.getMsbD (k % 32) = pair.2.getMsbD (k % 32)

/-- A prefix within the first word is a matter of that word. -/
theorem bitsAgree_within {base addr : BitVec 32} {rest : List (BitVec 32 × BitVec 32)}
    {prefixlen : Nat} (within : prefixlen ≤ 32) :
    BitsAgree ((base, addr) :: rest) prefixlen ↔
      ∀ k, k < prefixlen → base.getMsbD k = addr.getMsbD k := by
  constructor
  · intro agree k inside
    have word : k / 32 = 0 := Nat.div_eq_of_lt (Nat.lt_of_lt_of_le inside within)
    have place : k % 32 = k := Nat.mod_eq_of_lt (Nat.lt_of_lt_of_le inside within)
    have bit := agree k inside (base, addr) (by rw [word]; rfl)
    rwa [place] at bit
  · intro agree k inside pair found
    have word : k / 32 = 0 := Nat.div_eq_of_lt (Nat.lt_of_lt_of_le inside within)
    have place : k % 32 = k := Nat.mod_eq_of_lt (Nat.lt_of_lt_of_le inside within)
    have head : (base, addr) = pair := by simpa [word] using found
    rw [← head, place]
    exact agree k inside

/-- A longer prefix takes the whole first word and goes on in the next one. -/
theorem bitsAgree_beyond {base addr : BitVec 32} {rest : List (BitVec 32 × BitVec 32)}
    {prefixlen : Nat} (beyond : 32 ≤ prefixlen) :
    BitsAgree ((base, addr) :: rest) prefixlen ↔ base = addr ∧ BitsAgree rest (prefixlen - 32) := by
  constructor
  · intro agree
    constructor
    · apply BitVec.eq_of_getMsbD_eq
      exact (bitsAgree_within (Nat.le_refl 32)).mp
        fun k inside => agree k (Nat.lt_of_lt_of_le inside beyond)
    · intro k inside pair found
      have bit := agree (k + 32) (by omega) pair
        (by rw [Nat.add_div_right k (by decide), List.getElem?_cons_succ]; exact found)
      rwa [Nat.add_mod_right] at bit
  · rintro ⟨same, agree⟩ k inside pair found
    by_cases leading : k < 32
    · have head : (base, addr) = pair := by simpa [Nat.div_eq_of_lt leading] using found
      rw [← head, same]
    · have shift : k / 32 = (k - 32) / 32 + 1 := by omega
      have place : k % 32 = (k - 32) % 32 := by omega
      rw [shift, List.getElem?_cons_succ] at found
      rw [place]
      exact agree (k - 32) (by omega) pair found

/-- The loop over the words uses the prefix up exactly when its bits agree. -/
theorem matchWords_eq_zero (pairs : List (BitVec 32 × BitVec 32)) (prefixlen : Nat)
    (most : prefixlen ≤ 32 * pairs.length) :
    matchWords pairs prefixlen = 0 ↔ BitsAgree pairs prefixlen := by
  induction pairs generalizing prefixlen with
  | nil =>
    have none : prefixlen = 0 := by simpa using most
    simp [matchWords, BitsAgree, none]
  | cons first rest ih =>
    obtain ⟨base, addr⟩ := first
    rw [List.length_cons] at most
    simp only [matchWords]
    split
    next short =>
      have none : prefixlen = 0 := by omega
      simp [BitsAgree, none]
    next positive =>
    split
    next beyond =>
      have shorter : (prefixlen : Int) - 32 = (prefixlen - 32 : Nat) := by omega
      have equal : base ^^^ addr = 0#32 ↔ base = addr := BitVec.xor_eq_zero_iff
      rw [bitsAgree_beyond (by omega), shorter, ← ih (prefixlen - 32) (by omega), ← equal]
      split
      next differ =>
        constructor
        · intro zero
          omega
        · intro agree
          exact absurd agree.1 differ
      next same => simp [Decidable.not_not.mp same]
    next within =>
      have most' : prefixlen ≤ 32 := by omega
      rw [bitsAgree_within most', ← sameUnder_netmask prefixlen most' base addr,
        Int.toNat_natCast]
      split
      next same => simp [same]
      next differ =>
        constructor
        · intro zero
          omega
        · intro same
          exact absurd same differ

/-- Word pairs of two addresses agree in a prefix when the addresses do. -/
theorem bitsAgree_wordPairs (base addr : In6Addr) (prefixlen : Nat) (most : prefixlen ≤ 128) :
    BitsAgree (wordPairs base addr) prefixlen ↔
      ∀ k, k < prefixlen → addrBit base k = addrBit addr k := by
  have word (k : Nat) (inside : k / 32 < 4) :
      (wordPairs base addr)[k / 32]? = some (base ⟨k / 32, inside⟩, addr ⟨k / 32, inside⟩) := by
    simp [wordPairs, inside]
  constructor
  · intro agree k short
    have inside : k / 32 < 4 := by omega
    simpa [addrBit, inside] using agree k short _ (word k inside)
  · intro agree k short pair found
    have inside : k / 32 < 4 := by omega
    rw [word k inside, Option.some.injEq] at found
    have bit := agree k short
    simpa [addrBit, inside, ← found] using bit

/-- A negative prefix length is not used up. -/
theorem matchWords_negative (pairs : List (BitVec 32 × BitVec 32)) (prefixlen : Int)
    (negative : prefixlen < 0) : matchWords pairs prefixlen = prefixlen := by
  cases pairs with
  | nil => rfl
  | cons first rest => exact if_pos (Int.le_of_lt negative)

/-- `matchGidAddrPrefix` decides whether an address is inside the user's range. -/
theorem matchGidAddrPrefix_iff (user : UserGid) (gid : In6Addr) :
    matchGidAddrPrefix user gid = true ↔ InAddrRange user gid := by
  have fits := user.fits
  unfold matchGidAddrPrefix InAddrRange
  by_cases negative : user.prefixlen < 0
  · have outside : ¬ 0 ≤ user.prefixlen := Int.not_le.mpr negative
    have unmatched : user.prefixlen ≠ 0 := Int.ne_of_lt negative
    have short : ¬ 0 < user.prefixlen := Int.lt_asymm negative
    cases user.af <;> simp [matchWords_negative, negative, outside, unmatched, short]
  · obtain ⟨prefixlen, length⟩ := Int.eq_ofNat_of_zero_le (Int.not_lt.mp negative)
    have low (k : Nat) (inside : k < 32) : addrBit gid (96 + k) = (gid 3).getMsbD k := by
      have word : (96 + k) / 32 = 3 := by omega
      have place : (96 + k) % 32 = k := by omega
      simp [addrBit, word, place]
    rw [length] at fits ⊢
    cases family : user.af with
    | afInet =>
      rw [family] at fits
      have most : prefixlen ≤ 32 := Int.ofNat_le.mp fits
      simp only [Int.ofNat_lt, Int.natCast_nonneg, true_and, Int.toNat_natCast, decide_eq_true_eq]
      have bits : SameUnder (netmask prefixlen) user.addr (gid 3) ↔
          ∀ k, k < prefixlen → user.addr.getMsbD k = addrBit gid (96 + k) := by
        rw [sameUnder_netmask prefixlen most]
        exact forall₂_congr fun k inside => by rw [low k (Nat.lt_of_lt_of_le inside most)]
      rw [← bits]
      split
      next matched => simpa using matched.2
      next unmatched =>
        constructor
        · intro zero
          refine bits.mpr fun k inside => ?_
          omega
        · intro agree
          have none : ¬ 0 < (prefixlen : Int) := fun positive => unmatched ⟨positive, agree⟩
          omega
    | afInet6 =>
      rw [family] at fits
      have most : prefixlen ≤ 128 := Int.ofNat_le.mp fits
      have words : (wordPairs user.addr6 gid).length = 4 := rfl
      simp only [Int.ofNat_lt, Int.natCast_nonneg, true_and, decide_eq_true_eq]
      exact (matchWords_eq_zero _ _ (by rw [words]; omega)).trans
        (bitsAgree_wordPairs user.addr6 gid prefixlen most)

/-! ## The choice -/

/-- The entry is a valid GID of the user's family and RoCE version. -/
structure Suits (user : UserGid) (entry : GidEntry) : Prop where
  family : getGidAddrFamily entry.gid = user.af
  valid : validGid entry.gid = true
  version : ncclIbRoceGetVersionNum entry.types = some user.roceVer

instance (user : UserGid) (entry : GidEntry) : Decidable (Suits user entry) :=
  decidable_of_iff (getGidAddrFamily entry.gid = user.af ∧ validGid entry.gid = true ∧
      ncclIbRoceGetVersionNum entry.types = some user.roceVer)
    ⟨fun ⟨family, valid, version⟩ => ⟨family, valid, version⟩,
      fun suits => ⟨suits.family, suits.valid, suits.version⟩⟩

instance (user : UserGid) (gid : In6Addr) : Decidable (InAddrRange user gid) :=
  decidable_of_iff _ (matchGidAddrPrefix_iff user gid)

/-- The entry suits the user and lies inside the user's address range. -/
def Wanted (user : UserGid) (entry : GidEntry) : Prop :=
  Suits user entry ∧ InAddrRange user entry.gid

instance (user : UserGid) (entry : GidEntry) : Decidable (Wanted user entry) :=
  inferInstanceAs (Decidable (_ ∧ _))

/-- The entry suits the user but lies outside the user's address range. -/
def Stray (user : UserGid) (entry : GidEntry) : Prop :=
  Suits user entry ∧ ¬ InAddrRange user entry.gid

/-- When a candidate replaces the current pick. -/
def Replaces (user : UserGid) (cur cand : GidEntry) : Prop :=
  getGidAddrFamily cand.gid = user.af ∧ InAddrRange user cand.gid ∧
    (getGidAddrFamily cur.gid ≠ user.af ∨
      (validGid cand.gid = true ∧ ncclIbRoceGetVersionNum cand.types = some user.roceVer ∧
        (ncclIbRoceGetVersionNum cur.types ≠ some user.roceVer ∨ validGid cur.gid = false)))

variable {user : UserGid} {table : List GidEntry}

/-- With all queries answered, an update picks the candidate or keeps the pick. -/
theorem ncclIbUpdateGidIndex_spec {gidIndex candidate : Nat} {cur cand : GidEntry}
    (answered : ∀ entry ∈ table, ncclIbRoceGetVersionNum entry.types ≠ none)
    (curAt : table[gidIndex]? = some cur) (candAt : table[candidate]? = some cand) :
    (Replaces user cur cand ∧ ncclIbUpdateGidIndex user table gidIndex candidate = some candidate) ∨
      (¬ Replaces user cur cand ∧
        ncclIbUpdateGidIndex user table gidIndex candidate = some gidIndex) := by
  obtain ⟨curVersion, curRead⟩ :=
    Option.ne_none_iff_exists'.mp (answered cur (List.mem_of_getElem? curAt))
  obtain ⟨candVersion, candRead⟩ :=
    Option.ne_none_iff_exists'.mp (answered cand (List.mem_of_getElem? candAt))
  unfold ncclIbUpdateGidIndex Replaces
  rw [curAt, candAt, curRead, candRead, ← matchGidAddrPrefix_iff]
  simp only [Option.bind_eq_bind, Option.bind_some]
  by_cases family : getGidAddrFamily cand.gid = user.af
  · by_cases matched : matchGidAddrPrefix user cand.gid = true
    · by_cases curFamily : getGidAddrFamily cur.gid = user.af
      · cases valid : validGid cand.gid <;> cases curValid : validGid cur.gid <;>
          by_cases version : candVersion = user.roceVer <;>
          by_cases curMatches : curVersion = user.roceVer <;>
          simp_all
      · have differ : ¬ user.af = getGidAddrFamily cur.gid := fun same => curFamily same.symm
        simp [family, matched, curFamily, differ]
    · simp [family, matched]
  · simp [family]

/-- Nothing replaces a pick that suits the user, even one outside the range. -/
theorem Stray.kept {cur cand : GidEntry} (stray : Stray user cur) : ¬ Replaces user cur cand := by
  rintro ⟨_, _, otherFamily | ⟨_, _, otherVersion | invalid⟩⟩
  · exact otherFamily stray.1.family
  · exact otherVersion stray.1.version
  · exact absurd stray.1.valid (by simp [invalid])

/-- A replacement lies inside the range. -/
theorem Replaces.not_stray {cur cand : GidEntry} (replaces : Replaces user cur cand) :
    ¬ Stray user cand :=
  fun stray => stray.2 replaces.2.1

/-- A wanted pick is not replaced. -/
theorem Wanted.kept {cur cand : GidEntry} (wanted : Wanted user cur) :
    ¬ Replaces user cur cand := by
  rintro ⟨_, _, otherFamily | ⟨_, _, otherVersion | invalid⟩⟩
  · exact otherFamily wanted.1.family
  · exact otherVersion wanted.1.version
  · exact absurd wanted.1.valid (by simp [invalid])

/-- A wanted candidate replaces every pick that does not suit the user. -/
theorem Wanted.replaces {cur cand : GidEntry} (wanted : Wanted user cand)
    (unsuited : ¬ Suits user cur) : Replaces user cur cand := by
  refine ⟨wanted.1.family, wanted.2, ?_⟩
  by_cases family : getGidAddrFamily cur.gid = user.af
  · refine Or.inr ⟨wanted.1.valid, wanted.1.version, ?_⟩
    by_cases version : ncclIbRoceGetVersionNum cur.types = some user.roceVer
    · cases valid : validGid cur.gid with
      | false => exact Or.inr rfl
      | true => exact absurd ⟨family, valid, version⟩ unsuited
    · exact Or.inl version
  · exact Or.inl family

/-- A scan keeps a stray pick to its end. Otherwise it ends on an entry that is not
stray, and on a wanted one when it started from one or passed one. -/
theorem scan_spec (user : UserGid)
    (answered : ∀ entry ∈ table, ncclIbRoceGetVersionNum entry.types ≠ none)
    (start count index : Nat) (cur : GidEntry) (inside : start + count ≤ table.length)
    (curAt : table[index]? = some cur) :
    ∃ last entry,
      (List.range' start count).foldlM (ncclIbUpdateGidIndex user table) index = some last ∧
      table[last]? = some entry ∧ (Stray user cur → last = index) ∧
      (¬ Stray user cur → (Wanted user cur ∨ ∃ k found, start ≤ k ∧ k < start + count ∧
        table[k]? = some found ∧ Wanted user found) → Wanted user entry) := by
  induction count generalizing start index cur with
  | zero =>
    refine ⟨index, cur, rfl, curAt, fun _ => rfl, fun _ some => ?_⟩
    rcases some with wanted | ⟨k, _, atLeast, below, _⟩
    · exact wanted
    · omega
  | succ count ih =>
    have candInside : start < table.length := by omega
    have candAt : table[start]? = some table[start] := List.getElem?_eq_getElem candInside
    rw [List.range'_succ, List.foldlM_cons]
    rcases ncclIbUpdateGidIndex_spec answered curAt candAt with ⟨replaces, moved⟩ | ⟨keeps, stayed⟩
    · obtain ⟨last, entry, scanned, entryAt, _, reaches⟩ :=
        ih (start + 1) start table[start] (by omega) candAt
      refine ⟨last, entry, by rw [moved]; exact scanned, entryAt,
        fun stray => absurd replaces stray.kept, fun _ some => ?_⟩
      apply reaches replaces.not_stray
      rcases some with wanted | ⟨k, found, atLeast, below, foundAt, wanted⟩
      · exact absurd replaces wanted.kept
      · by_cases here : k = start
        · subst here
          exact Or.inl (Option.some.inj (candAt.symm.trans foundAt) ▸ wanted)
        · exact Or.inr ⟨k, found, by omega, by omega, foundAt, wanted⟩
    · obtain ⟨last, entry, scanned, entryAt, stays, reaches⟩ :=
        ih (start + 1) index cur (by omega) curAt
      refine ⟨last, entry, by rw [stayed]; exact scanned, entryAt, stays, fun inRange some => ?_⟩
      apply reaches inRange
      rcases some with wanted | ⟨k, found, atLeast, below, foundAt, wanted⟩
      · exact Or.inl wanted
      · by_cases here : k = start
        · subst here
          rw [← Option.some.inj (candAt.symm.trans foundAt)] at wanted
          have suits : Suits user cur :=
            Decidable.of_not_not fun unsuited => keeps (wanted.replaces unsuited)
          exact Or.inl ⟨suits, Decidable.of_not_not fun outside => inRange ⟨suits, outside⟩⟩
        · exact Or.inr ⟨k, found, by omega, by omega, foundAt, wanted⟩

/-- The index chosen from a table that has a wanted entry is that of a wanted entry. -/
def SelectsWanted (param : Int) (user : UserGid) (table : List GidEntry) : Prop :=
  (∃ entry ∈ table, Wanted user entry) →
    ∃ index entry, ncclIbGetGidIndex param user table = some (Int.ofNat index) ∧
      table[index]? = some entry ∧ Wanted user entry

/-- The choice finds a wanted entry except where the first entry of the table suits the
user but lies outside the user's address range. -/
theorem gid_selection (param : Int) (unset : param < 0) (user : UserGid) (table : List GidEntry)
    (answered : ∀ entry ∈ table, ncclIbRoceGetVersionNum entry.types ≠ none) :
    SelectsWanted param user table ↔
      ((∃ first, table[0]? = some first ∧ Stray user first) →
        ∀ entry ∈ table, ¬ Wanted user entry) := by
  have scans (first : GidEntry) (firstAt : table[0]? = some first) :=
    scan_spec user answered 1 (table.length - 1) 0 first
      (by have some := (List.getElem?_eq_some_iff.mp firstAt).1; omega) firstAt
  have chosen : ncclIbGetGidIndex param user table =
      ((List.range' 1 (table.length - 1)).foldlM (ncclIbUpdateGidIndex user table) 0).map
        Int.ofNat := if_neg (Int.not_le.mpr unset)
  constructor
  · rintro selects ⟨first, firstAt, stray⟩ entry member wanted
    obtain ⟨last, _, scanned, _, stays, _⟩ := scans first firstAt
    obtain ⟨index, picked, result, pickedAt, pickedWanted⟩ := selects ⟨entry, member, wanted⟩
    have zero : index = 0 := by
      rw [chosen, scanned, stays stray] at result
      exact (Int.ofNat.inj (Option.some.inj result)).symm
    rw [zero, firstAt] at pickedAt
    exact stray.2 (Option.some.inj pickedAt ▸ pickedWanted.2)
  · rintro condition ⟨entry, member, wanted⟩
    obtain ⟨place, inside, entryAt⟩ := List.getElem_of_mem member
    have firstAt : table[0]? = some table[0] := List.getElem?_eq_getElem (by omega)
    have inRange : ¬ Stray user table[0] := fun stray =>
      condition ⟨table[0], firstAt, stray⟩ entry member wanted
    obtain ⟨last, picked, scanned, pickedAt, _, reaches⟩ := scans table[0] firstAt
    refine ⟨last, picked, by rw [chosen, scanned]; rfl, pickedAt, reaches inRange ?_⟩
    by_cases start : place = 0
    · subst start
      exact Or.inl (entryAt ▸ wanted)
    · exact Or.inr ⟨place, entry, by omega, by omega,
        (List.getElem?_eq_getElem inside).trans (congrArg some entryAt), wanted⟩

/-- The address `::ffff:a.b.c.d` of an IPv4 address. -/
def mappedGid (address : BitVec 32) : In6Addr := ![0, 0, 0x0000ffff, address]

/-- A user who wants RoCE v2 in `10.1.0.0/16`. -/
def tenOne : UserGid :=
  { af := .afInet, addr := 0x0a010000, addr6 := fun _ => 0, prefixlen := 16, roceVer := 2
    fits := by decide }

/-- Entry 0 is the link-local address that Ethernet ports start with, entry 1 the
address `10.1.0.1` under RoCE v1 and entry 2 the same under RoCE v2. -/
def usualTable : List GidEntry :=
  [⟨![0xfe800000, 0, 0x02000aff, 0xfe010001], some "IB/RoCE v1"⟩,
    ⟨mappedGid 0x0a010001, some "IB/RoCE v1"⟩, ⟨mappedGid 0x0a010001, some "RoCE v2"⟩]

theorem gid_selection_usualTable : SelectsWanted (-1) tenOne usualTable := by
  refine (gid_selection (-1) (by decide) tenOne usualTable (by decide +kernel)).mpr ?_
  rintro ⟨first, firstAt, stray⟩
  have same := Option.some.inj firstAt
  subst same
  exact absurd stray.1.family (by decide +kernel)

/-- Entry 0 is `10.2.0.1` and entry 1 is `10.1.0.1`, both under RoCE v2. -/
def strayTable : List GidEntry :=
  [⟨mappedGid 0x0a020001, some "RoCE v2"⟩, ⟨mappedGid 0x0a010001, some "RoCE v2"⟩]

/-- The entry outside the range is kept and the one inside it passed over. -/
theorem gid_selection_stray :
    ¬ ∀ param user table, param < 0 →
      (∀ entry ∈ table, ncclIbRoceGetVersionNum entry.types ≠ none) →
      SelectsWanted param user table := by
  intro alwaysSelects
  have wanted : ∃ entry ∈ strayTable, Wanted tenOne entry := by decide +kernel
  obtain ⟨index, entry, result, entryAt, picked⟩ :=
    alwaysSelects (-1) tenOne strayTable (by decide) (by decide +kernel) wanted
  have chosen : ncclIbGetGidIndex (-1) tenOne strayTable = some 0 := by decide +kernel
  have zero : index = 0 := (Int.ofNat.inj (Option.some.inj (chosen.symm.trans result))).symm
  subst zero
  have same := Option.some.inj entryAt
  subst same
  exact absurd picked (by decide +kernel)

end NcclExts.Unet
