import NcclExts.Unet.Gid

/-!
# The subnet prefix of a GID, byte by byte

An address lies in memory in network order, and the host reads it in words of its own
byte order. The netmask is computed in host order and swapped, so that it falls on the
leading bits of the word in memory. The loop takes whole words from the prefix length and
masks the last one.
-/

namespace NcclExts.Unet

/-- The byte order of the host. -/
inductive ByteOrder where
  | little
  | big
deriving DecidableEq, Repr

/-- The bytes of an address in memory, which are in network order. -/
abbrev AddrBytes := Nat → BitVec 8

/-- A bit of an address, counted from the front in network order. -/
def AddrBytes.bit (bytes : AddrBytes) (k : Nat) : Bool := (bytes (k / 8)).getMsbD (k % 8)

/-- A word as the host reads it: `s6_addr32[i]`, and `s_addr` for the first one. -/
def ByteOrder.word (order : ByteOrder) (bytes : AddrBytes) (i : Nat) : BitVec 32 :=
  match order with
  | .little => bytes (4 * i + 3) ++ bytes (4 * i + 2) ++ bytes (4 * i + 1) ++ bytes (4 * i)
  | .big => bytes (4 * i) ++ bytes (4 * i + 1) ++ bytes (4 * i + 2) ++ bytes (4 * i + 3)

/-- `htonl`. -/
def ByteOrder.htonl (order : ByteOrder) (word : BitVec 32) : BitVec 32 :=
  match order with
  | .little => word.extractLsb' 0 8 ++ word.extractLsb' 8 8 ++ word.extractLsb' 16 8 ++
      word.extractLsb' 24 8
  | .big => word

namespace Raw

/-- The loop of `matchGidAddrPrefix`, with what is left of its four rounds: what is left of
the prefix length when it stops. `none` reads a prefix that is not there. -/
def matchLoop (order : ByteOrder) (af : SaFamily) (base : Option AddrBytes) (gid : AddrBytes) :
    Nat → Int → Option Int
  | 0, prefixlen => some prefixlen
  | left + 1, prefixlen =>
    if prefixlen ≤ 0 then some prefixlen
    else
      base.bind fun base =>
        let mask := order.htonl (netmask prefixlen.toNat)
        let i := 3 - left
        match af with
        | .afInet =>
          if SameUnder mask (order.word base 0) (order.word gid 3) then some 0 else some prefixlen
        | .afInet6 =>
          if prefixlen ≥ 32 then
            if order.word base i ^^^ order.word gid i ≠ 0#32 then some prefixlen
            else matchLoop order af (some base) gid left (prefixlen - 32)
          else if SameUnder mask (order.word base i) (order.word gid i) then some 0
          else some prefixlen

/-- `matchGidAddrPrefix`, on the bytes of the prefix and of the GID. -/
def matchGidAddrPrefix (order : ByteOrder) (af : SaFamily) (base : Option AddrBytes)
    (prefixlen : Int) (gid : AddrBytes) : Option Bool :=
  (matchLoop order af base gid 4 prefixlen).map fun left => left = 0

end Raw

/-! ## Words in network order -/

/-- A word as the number its bytes spell. -/
def AddrBytes.word (bytes : AddrBytes) (i : Nat) : BitVec 32 := ByteOrder.big.word bytes i

/-- The bits of a word are those of its bytes. -/
theorem AddrBytes.word_getMsbD (bytes : AddrBytes) (i : Nat) {j : Nat} (inside : j < 32) :
    (bytes.word i).getMsbD j = bytes.bit (32 * i + j) := by
  have byte : (32 * i + j) / 8 = 4 * i + j / 8 := by omega
  have place : (32 * i + j) % 8 = j % 8 := by omega
  have which : j / 8 = 0 ∨ j / 8 = 1 ∨ j / 8 = 2 ∨ j / 8 = 3 := by omega
  rw [AddrBytes.bit, byte, place]
  simp only [AddrBytes.word, ByteOrder.word, BitVec.getMsbD_append]
  rcases which with first | second | third | fourth
  · rw [first, if_neg (by omega), if_neg (by omega), if_neg (by omega)]
    congr 1
    omega
  · rw [second, if_neg (by omega), if_neg (by omega), if_pos (by omega)]
    congr 1
    omega
  · rw [third, if_neg (by omega), if_pos (by omega)]
    congr 1
    omega
  · rw [fourth, if_pos (by omega)]
    congr 1
    omega

namespace ByteOrder

/-- The host reads the word in network order, swapped into its own. -/
theorem word_eq (order : ByteOrder) (bytes : AddrBytes) (i : Nat) :
    order.word bytes i = order.htonl (bytes.word i) := by
  cases order with
  | big => rfl
  | little =>
    simp only [htonl, AddrBytes.word, word]
    apply BitVec.eq_of_getLsbD_eq
    intro k inside
    simp only [BitVec.getLsbD_append, BitVec.getLsbD_extractLsb']
    grind

theorem htonl_and (order : ByteOrder) (left right : BitVec 32) :
    order.htonl (left &&& right) = order.htonl left &&& order.htonl right := by
  cases order with
  | big => rfl
  | little =>
    simp only [htonl]
    apply BitVec.eq_of_getLsbD_eq
    intro k inside
    simp only [BitVec.getLsbD_append, BitVec.getLsbD_extractLsb', BitVec.getLsbD_and]
    grind

/-- Swapping twice gives the word back. -/
theorem htonl_htonl (order : ByteOrder) (word : BitVec 32) :
    order.htonl (order.htonl word) = word := by
  cases order with
  | big => rfl
  | little =>
    simp only [htonl]
    apply BitVec.eq_of_getLsbD_eq
    intro k inside
    simp only [BitVec.getLsbD_append, BitVec.getLsbD_extractLsb']
    grind

theorem htonl_inj (order : ByteOrder) {left right : BitVec 32} :
    order.htonl left = order.htonl right ↔ left = right :=
  (Function.LeftInverse.injective order.htonl_htonl).eq_iff

/-- Words agree under a swapped mask when they agree in network order. -/
theorem sameUnder_htonl (order : ByteOrder) (mask : BitVec 32) (base addr : AddrBytes)
    (i j : Nat) :
    SameUnder (order.htonl mask) (order.word base i) (order.word addr j) ↔
      SameUnder mask (base.word i) (addr.word j) := by
  simp only [SameUnder, BitVec.xor_eq_zero_iff, word_eq, ← htonl_and, htonl_inj]

/-- Words differ for the host when they differ in network order. -/
theorem word_xor (order : ByteOrder) (base addr : AddrBytes) (i : Nat) :
    order.word base i ^^^ order.word addr i = 0#32 ↔ base.word i ^^^ addr.word i = 0#32 := by
  simp only [BitVec.xor_eq_zero_iff, word_eq, htonl_inj]

end ByteOrder

/-! ## The loop -/

/-- The words of two addresses from one on, side by side. -/
def pairsFrom (base gid : AddrBytes) (i count : Nat) : List (BitVec 32 × BitVec 32) :=
  (List.range' i count).map fun i => (base.word i, gid.word i)

/-- The loop over an IPv6 address computes on the words in network order. -/
theorem Raw.matchLoop_eq (order : ByteOrder) (base gid : AddrBytes) (left : Nat) (prefixlen : Int)
    (few : left ≤ 4) : Raw.matchLoop order .afInet6 (some base) gid left prefixlen =
      some (matchWords (pairsFrom base gid (4 - left) left) prefixlen) := by
  induction left generalizing prefixlen with
  | zero => rfl
  | succ left ih =>
    have here : 4 - (left + 1) = 3 - left := by omega
    have next : 3 - left + 1 = 4 - left := by omega
    simp only [Raw.matchLoop, pairsFrom, here, List.range'_succ, next, List.map_cons, matchWords,
      Option.bind_some, order.sameUnder_htonl, ne_eq, order.word_xor]
    rw [ih (prefixlen - 32) (Nat.le_of_succ_le few), pairsFrom]
    split_ifs <;> rfl

/-- Two addresses agree in a prefix when their words do. -/
theorem bitsAgree_pairsFrom (base gid : AddrBytes) {prefixlen : Nat} (most : prefixlen ≤ 128) :
    BitsAgree (pairsFrom base gid 0 4) prefixlen ↔
      ∀ k, k < prefixlen → base.bit k = gid.bit k := by
  have word (k : Nat) (inside : k / 32 < 4) :
      (pairsFrom base gid 0 4)[k / 32]? = some (base.word (k / 32), gid.word (k / 32)) := by
    simp [pairsFrom, inside]
  have whole (k : Nat) : 32 * (k / 32) + k % 32 = k := Nat.div_add_mod k 32
  have place (k : Nat) : k % 32 < 32 := Nat.mod_lt k (by decide)
  constructor
  · intro agree k short
    have bit := agree k short _ (word k (by omega))
    rwa [AddrBytes.word_getMsbD _ _ (place k), AddrBytes.word_getMsbD _ _ (place k), whole] at bit
  · intro agree k short pair found
    rw [word k (by omega), Option.some.injEq] at found
    rw [← found, AddrBytes.word_getMsbD _ _ (place k), AddrBytes.word_getMsbD _ _ (place k), whole]
    exact agree k short

/-- How many bits of an address a family's prefix can have. -/
def SaFamily.width : SaFamily → Nat
  | .afInet => 32
  | .afInet6 => 128

/-- Where the address of a family starts in a GID: an IPv4 address is its last 32 bits. -/
def SaFamily.offset : SaFamily → Nat
  | .afInet => 96
  | .afInet6 => 0

/-- On a host of either byte order, a prefix of a length its family allows matches a GID
exactly when its bits are those of the GID, in network order. A prefix of length 0 matches
every GID, and is not read. -/
theorem subnet_prefix_match (order : ByteOrder) (af : SaFamily) (base gid : AddrBytes)
    (prefixlen : Nat) (fits : prefixlen ≤ af.width) :
    (∃ matched, Raw.matchGidAddrPrefix order af (some base) prefixlen gid = some matched ∧
      (matched = true ↔ ∀ k, k < prefixlen → base.bit k = gid.bit (af.offset + k))) ∧
    ∀ unread, Raw.matchGidAddrPrefix order af unread 0 gid = some true := by
  refine ⟨?_, fun unread => rfl⟩
  cases af with
  | afInet6 =>
    refine ⟨_, by rw [Raw.matchGidAddrPrefix, Raw.matchLoop_eq _ _ _ _ _ (Nat.le_refl 4)]; rfl, ?_⟩
    have words : (pairsFrom base gid 0 4).length = 4 := rfl
    have zero := matchWords_eq_zero (pairsFrom base gid 0 4) prefixlen (by rw [words]; exact fits)
    simp only [SaFamily.offset, Nat.zero_add, Nat.sub_self, decide_eq_true_eq]
    exact zero.trans (bitsAgree_pairsFrom base gid fits)
  | afInet =>
    have bits : SameUnder (netmask prefixlen) (base.word 0) (gid.word 3) ↔
        ∀ k, k < prefixlen → base.bit k = gid.bit (96 + k) := by
      rw [sameUnder_netmask prefixlen fits]
      refine forall₂_congr fun k short => ?_
      have inside : k < 32 := Nat.lt_of_lt_of_le short fits
      rw [AddrBytes.word_getMsbD _ _ inside, AddrBytes.word_getMsbD _ _ inside, Nat.mul_zero,
        Nat.zero_add]
    simp only [Raw.matchGidAddrPrefix, Raw.matchLoop, Option.bind_some, order.sameUnder_htonl,
      Int.toNat_natCast, bits, SaFamily.offset]
    by_cases none : prefixlen = 0
    · subst none
      exact ⟨true, rfl, by simp⟩
    · have positive : ¬ (prefixlen : Int) ≤ 0 := by omega
      rw [if_neg positive]
      split_ifs with agree
      · exact ⟨true, rfl, by simpa using agree⟩
      · refine ⟨false, ?_, by simpa using agree⟩
        simp [none]

/-- A prefix of 9 bits matches across the border of its first byte. -/
theorem subnet_prefix_match_nine :
    ∃ matched, Raw.matchGidAddrPrefix .little .afInet (some fun _ => 10) 9
        (fun i => if i < 14 then 10 else 0) = some matched ∧
      (matched = true ↔ ∀ k, k < 9 → AddrBytes.bit (fun _ => 10) k =
        AddrBytes.bit (fun i => if i < 14 then 10 else 0) (96 + k)) :=
  (subnet_prefix_match .little .afInet (fun _ => 10) (fun i => if i < 14 then 10 else 0) 9
    (by decide)).1

/-! ## The choice of a GID -/

/-- The words of an address. -/
def AddrBytes.in6 (bytes : AddrBytes) : In6Addr := fun i => bytes.word i

/-- The match that the choice of a GID makes on words is the one the host computes. -/
theorem Raw.matchGidAddrPrefix_eq (order : ByteOrder) (user : UserGid) (base gid : AddrBytes)
    (addr : user.addr = base.word 0) (addr6 : user.addr6 = base.in6) :
    Raw.matchGidAddrPrefix order user.af (some base) user.prefixlen gid =
      some (Unet.matchGidAddrPrefix user gid.in6) := by
  unfold Raw.matchGidAddrPrefix Unet.matchGidAddrPrefix
  cases user.af with
  | afInet6 =>
    rw [Raw.matchLoop_eq _ _ _ _ _ (Nat.le_refl 4), addr6]
    rfl
  | afInet =>
    simp only [Raw.matchLoop, Option.bind_some, order.sameUnder_htonl, addr, AddrBytes.in6]
    by_cases positive : user.prefixlen ≤ 0
    · rw [if_pos positive, if_neg (fun both => absurd both.1 (Int.not_lt.mpr positive))]
      rfl
    · rw [if_neg positive]
      by_cases agree : SameUnder (netmask user.prefixlen.toNat) (base.word 0) (gid.word 3)
      · rw [if_pos agree, if_pos ⟨Int.not_le.mp positive, agree⟩]
        rfl
      · rw [if_neg agree, if_neg (fun both => agree both.2)]
        rfl

end NcclExts.Unet
