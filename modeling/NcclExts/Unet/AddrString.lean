import NcclExts.Unet.Interfaces

/-!
# Addresses as text

An address with its port comes from the environment as text. A host name or an IPv4
address stands in front of a colon and the port. An IPv6 address stands in brackets, with a
percent sign and the name of an interface behind it when the address is one of a link. The
parts of such a text are copied into fields of fixed sizes, which are handed on to the
network library.

Texts are the bytes before the terminating zero. A read of the text and a write to a field
are checked against their bounds, and so is the reading of a field as a text.
-/

namespace NcclExts.Unet

open NcclExts.Foundation

/-- `'['`. -/
def openBracket : UInt8 := 91

/-- `']'`. -/
def closeBracket : UInt8 := 93

/-- `'%'`. -/
def percent : UInt8 := 37

/-- `NI_MAXHOST`, the size of `ip_str`. -/
def niMaxHost : Nat := 1025

/-- `NI_MAXSERV`, the size of `port_str`. -/
def niMaxServ : Nat := 32

/-- `IFNAMSIZ`, the size of `if_name`. -/
def ifNamSiz : Nat := 16

/-- What the network library answers to a text: `getaddrinfo` the first address, and
`inet_pton` the IPv6 address, or none, and `if_nametoindex` an index. -/
structure NetLibrary where
  getaddrinfo : String → Option IfAddr
  inetPton : List UInt8 → Option (BitVec 128)
  ifNametoindex : List UInt8 → UInt32

/-- `union ncclSocketAddress`. An address that is not written is `none`. -/
inductive NcclSocketAddress where
  | sin (addr : BitVec 32) (port : UInt16)
  | sin6 (addr : Option (BitVec 128)) (port : UInt16) (flowinfo scopeId : UInt32)
deriving DecidableEq

/-- The texts that are handed on: `ip_str`, `port_str` and, unless the scope is global,
`if_name`. -/
structure AddrTexts where
  ip : List UInt8
  port : List UInt8
  ifName : Option (List UInt8)
deriving DecidableEq

/-- The loop that looks for the closing bracket, and on its way for the last percent sign.
`none` is the end of the text. -/
def scanBracket : List UInt8 → Nat → Option Nat → Option (Nat × Option Nat)
  | [], _, _ => none
  | c :: text, i, j =>
    let j := if c = percent then some i else j
    if c = closeBracket then some (i, j) else scanBracket text (i + 1) j

/-- The bytes that `strncpy` reads: at most `n`, and none behind a zero. `none` is a read
behind the end of the memory. -/
def readBytes : Nat → List UInt8 → Option (List UInt8)
  | 0, _ => some []
  | _ + 1, [] => none
  | n + 1, c :: memory => if c = 0 then some [] else (readBytes n memory).map (c :: ·)

/-- `strncpy` of `n` bytes of a text into a cleared field. `none` is an access out of
bounds. -/
def copyField (size : Nat) (string : List UInt8) (start n : Nat) : Option (List UInt8) :=
  if n ≤ size then (readBytes n ((string ++ [0]).drop start)).map (strncpy size) else none

/-- A field read as a text. `none` is a field without a zero. -/
def fieldText (field : List UInt8) : Option (List UInt8) :=
  if 0 ∈ field then some (field.takeWhile (· ≠ 0)) else none

/-- A part of a text, by way of a field. -/
def partText (size : Nat) (string : List UInt8) (start n : Nat) : Option (List UInt8) :=
  (copyField size string start n).bind fieldText

/-- The texts of an address in brackets. `none` is an access out of bounds; an error is the
warning of `ncclInvalidArgument`. -/
def bracketTexts (string : List UInt8) : Option (Except String AddrTexts) :=
  match scanBracket string.tail 1 none with
  | none => some (.error "Net : No valid [IPv6]:port pair found")
  | some (i, none) =>
    (partText niMaxHost string 1 (i - 1)).bind fun ip =>
      (partText niMaxServ string (i + 2) (string.length - i - 1)).map fun port =>
        .ok ⟨ip, port, none⟩
  | some (i, some j) =>
    (partText niMaxHost string 1 (j - 1)).bind fun ip =>
      (partText niMaxServ string (i + 2) (string.length - i - 1)).bind fun port =>
        (partText ifNamSiz string (j + 1) (i - j - 1)).map fun ifName =>
          .ok ⟨ip, port, some ifName⟩

/-- The address that the texts are made into. -/
def AddrTexts.address (net : NetLibrary) (texts : AddrTexts) : NcclSocketAddress :=
  .sin6 (net.inetPton texts.ip) (UInt16.ofInt (atoi texts.port)) 0
    (texts.ifName.elim 0 net.ifNametoindex)

/-- The address of a host and its port. -/
def hostAddress (net : NetLibrary) (string : List UInt8) :
    Option (Except String NcclSocketAddress) :=
  (parseStringList (some string) 1).map fun ifList =>
    match ifList with
    | [ni] =>
      match net.getaddrinfo ni.name with
      | none => .error "Net : error encountered when getting address info"
      | some (.inet addr) => .ok (.sin addr (UInt16.ofInt ni.port))
      | some (.inet6 addr _) => .ok (.sin6 (some addr) (UInt16.ofInt ni.port) 0 0)
      | some (.other _) => .error "Net : unsupported IP family"
    | _ => .error "Net : No valid <IPv4_or_hostname>:<port> pair found"

/-- `ncclSocketGetAddrFromString`; `none` for the text is the null pointer. -/
def ncclSocketGetAddrFromString (net : NetLibrary) (ipPortPair : Option (List UInt8)) :
    Option (Except String NcclSocketAddress) :=
  match ipPortPair with
  | none => some (.error "Net : string is null")
  | some string =>
    if ¬ 1 < string.length then some (.error "Net : string is null")
    else if string.head? = some openBracket then
      (bracketTexts string).map (Except.map (AddrTexts.address net))
    else hostAddress net string

/-! ## The form of an address in brackets -/

/-- What stands behind the address in the brackets. -/
def AddrTexts.scope (texts : AddrTexts) : List UInt8 :=
  texts.ifName.elim [] (percent :: ·)

/-- A text has the form `[ipv6]:port`, or `[ipv6%ifname]:port`. -/
structure Bracketed (inetPton : List UInt8 → Option (BitVec 128)) (string : List UInt8)
    (texts : AddrTexts) : Prop where
  text : string =
    openBracket :: (texts.ip ++ texts.scope ++ closeBracket :: colon :: texts.port)
  address : (inetPton texts.ip).isSome = true
  plain : percent ∉ texts.ip ∧ closeBracket ∉ texts.ip
  ifName : ∀ name ∈ texts.ifName, name ≠ [] ∧ percent ∉ name ∧ closeBracket ∉ name
  port : texts.port ≠ [] ∧ ∀ c ∈ texts.port, isDigit c = true

/-- The texts fit the fields with a zero behind them. -/
def AddrTexts.Fit (texts : AddrTexts) : Prop :=
  texts.ip.length < niMaxHost ∧ texts.port.length < niMaxServ ∧
    ∀ name ∈ texts.ifName, name.length < ifNamSiz

instance (texts : AddrTexts) : Decidable texts.Fit :=
  inferInstanceAs (Decidable (_ ∧ _ ∧ ∀ _ ∈ texts.ifName, _))

/-- The function does right by a text: its reads and writes stay inside, it accepts only
what has the form, and the texts handed on are the parts of the text. -/
structure ParsedRight (net : NetLibrary) (string : List UInt8) : Prop where
  inside : (ncclSocketGetAddrFromString net (some string)).isSome = true
  formed : ∀ addr, ncclSocketGetAddrFromString net (some string) = some (.ok addr) →
    ∃ texts, Bracketed net.inetPton string texts
  exact : ∀ texts, Bracketed net.inetPton string texts → bracketTexts string = some (.ok texts)

/-! ## Copying -/

/-- A text is read up to its end. -/
theorem readBytes_text {text : List UInt8} (noZero : (0 : UInt8) ∉ text) (behind : List UInt8) :
    readBytes text.length (text ++ behind) = some text := by
  induction text with
  | nil => rfl
  | cons c text ih =>
    rw [List.mem_cons, not_or] at noZero
    rw [List.length_cons, List.cons_append, readBytes, if_neg (Ne.symm noZero.1), ih noZero.2]
    rfl

/-- A text is read up to its zero. -/
theorem readBytes_zero {text : List UInt8} (noZero : (0 : UInt8) ∉ text) :
    readBytes (text.length + 1) (text ++ [0]) = some text := by
  induction text with
  | nil => rfl
  | cons c text ih =>
    rw [List.mem_cons, not_or] at noZero
    rw [List.length_cons, List.cons_append, readBytes, if_neg (Ne.symm noZero.1), ih noZero.2]
    rfl

/-- A text that was copied into a field is there when a zero fits behind it. -/
theorem fieldText_strncpy {size : Nat} {text : List UInt8} (noZero : (0 : UInt8) ∉ text) :
    fieldText (strncpy size text) = if text.length < size then some text else none := by
  by_cases short : text.length < size
  · obtain ⟨zeros, isZeros⟩ : ∃ zeros, size - text.length = zeros + 1 :=
      ⟨size - text.length - 1, by omega⟩
    have all : ∀ c ∈ text, decide (c ≠ 0) = true := by
      intro c member
      exact decide_eq_true fun isZero => noZero (isZero ▸ member)
    rw [if_pos short, strncpy, List.take_of_length_le (Nat.le_of_lt short), isZeros,
      List.replicate_succ, fieldText, if_pos (by simp), List.takeWhile_append_of_pos all,
      List.takeWhile_cons_of_neg (by simp), List.append_nil]
  · have full : strncpy size text = text.take size := by
      rw [strncpy, Nat.sub_eq_zero_of_le (Nat.not_lt.mp short), List.replicate_zero,
        List.append_nil]
    have noZero : (0 : UInt8) ∉ text.take size := fun member => noZero (List.mem_of_mem_take member)
    rw [if_neg short, full, fieldText, if_neg noZero]

/-- A part in front of others is handed on when it is shorter than the field. -/
theorem partText_inside {size start n : Nat} {string front text behind : List UInt8}
    (split : string = front ++ (text ++ behind)) (isStart : start = front.length)
    (isEnd : n = text.length) (noZero : (0 : UInt8) ∉ text) :
    partText size string start n = if text.length < size then some text else none := by
  have isPart : (string ++ [0]).drop start = text ++ (behind ++ [0]) := by
    rw [split, isStart, List.append_assoc, List.drop_left, List.append_assoc]
  rw [partText, copyField, isPart, isEnd, readBytes_text noZero]
  by_cases fits : text.length ≤ size
  · rw [if_pos fits, Option.map_some, Option.bind_some, fieldText_strncpy noZero]
  · rw [if_neg fits, if_neg (by omega), Option.bind_none]

/-- The last part is handed on when it is shorter than the field. -/
theorem partText_last {size start n : Nat} {string front text : List UInt8}
    (split : string = front ++ text) (isStart : start = front.length)
    (isEnd : n = text.length + 1) (noZero : (0 : UInt8) ∉ text) :
    partText size string start n = if text.length < size then some text else none := by
  have isPart : (string ++ [0]).drop start = text ++ [0] := by
    rw [split, isStart, List.append_assoc, List.drop_left]
  rw [partText, copyField, isPart, isEnd, readBytes_zero noZero]
  by_cases fits : text.length + 1 ≤ size
  · rw [if_pos fits, Option.map_some, Option.bind_some, fieldText_strncpy noZero]
  · rw [if_neg fits, if_neg (by omega), Option.bind_none]

/-! ## The search for the bracket -/

/-- Text without a bracket and a percent sign is passed over. -/
theorem scanBracket_plain {front : List UInt8} (noPercent : percent ∉ front)
    (noClose : closeBracket ∉ front) (text : List UInt8) (i : Nat) (j : Option Nat) :
    scanBracket (front ++ text) i j = scanBracket text (i + front.length) j := by
  induction front generalizing i with
  | nil => rfl
  | cons c front ih =>
    rw [List.mem_cons, not_or] at noPercent noClose
    rw [List.cons_append, scanBracket, if_neg (Ne.symm noPercent.1), if_neg (Ne.symm noClose.1),
      ih noPercent.2 noClose.2, List.length_cons, Nat.add_assoc, Nat.add_comm 1]

/-- The search fails without a bracket, and only then. -/
theorem scanBracket_none_iff (text : List UInt8) (i : Nat) (j : Option Nat) :
    scanBracket text i j = none ↔ closeBracket ∉ text := by
  induction text generalizing i j with
  | nil => simp [scanBracket]
  | cons c text ih =>
    rw [scanBracket, List.mem_cons, not_or]
    by_cases found : c = closeBracket
    · simp [found]
    · simp only [found, if_false, ih]
      exact ⟨fun behind => ⟨fun same => found same.symm, behind⟩, fun both => both.2⟩

/-- A text is refused without a bracket, and only then. -/
theorem bracketTexts_error_iff (string : List UInt8) :
    (∃ warning, bracketTexts string = some (.error warning)) ↔ closeBracket ∉ string.tail := by
  rw [← scanBracket_none_iff string.tail 1 none, bracketTexts]
  cases scanned : scanBracket string.tail 1 none with
  | none => simp
  | some found =>
    obtain ⟨i, j⟩ := found
    cases j <;> simp [Option.bind_eq_some_iff]

/-! ## Texts of the form -/

/-- The parts of an address of global scope are handed on when they fit. -/
theorem bracketTexts_global {ip port : List UInt8}
    (noZero : (0 : UInt8) ∉ openBracket :: (ip ++ closeBracket :: colon :: port))
    (plain : percent ∉ ip ∧ closeBracket ∉ ip) :
    bracketTexts (openBracket :: (ip ++ closeBracket :: colon :: port)) =
      if ip.length < niMaxHost ∧ port.length < niMaxServ then some (.ok ⟨ip, port, none⟩)
      else none := by
  simp only [List.mem_cons, List.mem_append, not_or] at noZero
  obtain ⟨-, ipNoZero, -, -, portNoZero⟩ := noZero
  have scanned : scanBracket (ip ++ closeBracket :: colon :: port) 1 none =
      some (1 + ip.length, none) := by
    rw [scanBracket_plain plain.1 plain.2]
    rfl
  generalize isString : openBracket :: (ip ++ closeBracket :: colon :: port) = string
  have isTail : string.tail = ip ++ closeBracket :: colon :: port := by
    rw [← isString, List.tail_cons]
  have isLength : string.length = 1 + ip.length + 2 + port.length := by
    rw [← isString]
    simp
    omega
  have behindOpen : string = [openBracket] ++ (ip ++ closeBracket :: colon :: port) :=
    isString.symm
  have behindColon : string = (openBracket :: (ip ++ [closeBracket, colon])) ++ port := by
    rw [← isString]
    simp
  have ipPart : partText niMaxHost string 1 (1 + ip.length - 1) =
      if ip.length < niMaxHost then some ip else none :=
    partText_inside behindOpen rfl (by omega) ipNoZero
  have portPart : partText niMaxServ string (1 + ip.length + 2)
      (string.length - (1 + ip.length) - 1) =
        if port.length < niMaxServ then some port else none :=
    partText_last behindColon (by simp; omega) (by omega) portNoZero
  rw [bracketTexts, isTail, scanned]
  simp only [ipPart, portPart]
  by_cases ipFits : ip.length < niMaxHost
  · by_cases portFits : port.length < niMaxServ
    · simp [ipFits, portFits]
    · simp [ipFits, portFits]
  · simp [ipFits]

/-- The parts of an address of a link are handed on when they fit. -/
theorem bracketTexts_link {ip name port : List UInt8}
    (noZero : (0 : UInt8) ∉
      openBracket :: (ip ++ percent :: (name ++ closeBracket :: colon :: port)))
    (plain : percent ∉ ip ∧ closeBracket ∉ ip) (plainName : percent ∉ name ∧ closeBracket ∉ name) :
    bracketTexts (openBracket :: (ip ++ percent :: (name ++ closeBracket :: colon :: port))) =
      if ip.length < niMaxHost ∧ port.length < niMaxServ ∧ name.length < ifNamSiz then
        some (.ok ⟨ip, port, some name⟩)
      else none := by
  simp only [List.mem_cons, List.mem_append, not_or] at noZero
  obtain ⟨-, ipNoZero, -, nameNoZero, -, -, portNoZero⟩ := noZero
  have scanned : scanBracket (ip ++ percent :: (name ++ closeBracket :: colon :: port)) 1 none =
      some (1 + ip.length + 1 + name.length, some (1 + ip.length)) := by
    rw [scanBracket_plain plain.1 plain.2, scanBracket, if_pos rfl, if_neg (by decide),
      scanBracket_plain plainName.1 plainName.2]
    rfl
  generalize isString :
    openBracket :: (ip ++ percent :: (name ++ closeBracket :: colon :: port)) = string
  have isTail : string.tail = ip ++ percent :: (name ++ closeBracket :: colon :: port) := by
    rw [← isString, List.tail_cons]
  have isLength : string.length = 1 + ip.length + 1 + name.length + 2 + port.length := by
    rw [← isString]
    simp
    omega
  have behindOpen : string =
      [openBracket] ++ (ip ++ percent :: (name ++ closeBracket :: colon :: port)) := isString.symm
  have behindPercent : string =
      (openBracket :: (ip ++ [percent])) ++ (name ++ closeBracket :: colon :: port) := by
    rw [← isString]
    simp
  have behindColon : string =
      (openBracket :: (ip ++ percent :: (name ++ [closeBracket, colon]))) ++ port := by
    rw [← isString]
    simp
  have ipPart : partText niMaxHost string 1 (1 + ip.length - 1) =
      if ip.length < niMaxHost then some ip else none :=
    partText_inside behindOpen rfl (by omega) ipNoZero
  have portPart : partText niMaxServ string (1 + ip.length + 1 + name.length + 2)
      (string.length - (1 + ip.length + 1 + name.length) - 1) =
        if port.length < niMaxServ then some port else none :=
    partText_last behindColon (by simp; omega) (by omega) portNoZero
  have namePart : partText ifNamSiz string (1 + ip.length + 1)
      (1 + ip.length + 1 + name.length - (1 + ip.length) - 1) =
        if name.length < ifNamSiz then some name else none :=
    partText_inside behindPercent (by simp; omega) (by omega) nameNoZero
  rw [bracketTexts, isTail, scanned]
  simp only [ipPart, portPart, namePart]
  by_cases ipFits : ip.length < niMaxHost
  · by_cases portFits : port.length < niMaxServ
    · by_cases nameFits : name.length < ifNamSiz
      · simp [ipFits, portFits, nameFits]
      · simp [ipFits, portFits, nameFits]
    · simp [ipFits, portFits]
  · simp [ipFits]

/-- The parts of a text of the form are handed on when they fit. -/
theorem bracketTexts_form {inetPton : List UInt8 → Option (BitVec 128)} {string : List UInt8}
    {texts : AddrTexts} (noZero : (0 : UInt8) ∉ string)
    (bracketed : Bracketed inetPton string texts) :
    bracketTexts string = if texts.Fit then some (.ok texts) else none := by
  obtain ⟨isText, -, plain, plainName, -⟩ := bracketed
  obtain ⟨ip, port, ifName⟩ := texts
  subst isText
  cases ifName with
  | none =>
    simp only [AddrTexts.scope, Option.elim_none, List.append_nil] at noZero ⊢
    rw [bracketTexts_global noZero plain]
    simp [AddrTexts.Fit]
  | some name =>
    simp only [AddrTexts.scope, Option.elim_some, List.append_assoc, List.cons_append] at noZero ⊢
    rw [bracketTexts_link noZero plain (plainName name rfl).2]
    simp [AddrTexts.Fit]

/-- A text of the form has a bracket behind its first byte. -/
theorem Bracketed.closed {inetPton : List UInt8 → Option (BitVec 128)} {string : List UInt8}
    {texts : AddrTexts} (bracketed : Bracketed inetPton string texts) :
    closeBracket ∈ string.tail := by
  rw [bracketed.text]
  simp

/-- A text that starts with a bracket and is not alone is taken apart. -/
theorem getAddr_bracketed (net : NetLibrary) {rest : List UInt8} (some : rest ≠ []) :
    ncclSocketGetAddrFromString net (.some (openBracket :: rest)) =
      (bracketTexts (openBracket :: rest)).map (Except.map (AddrTexts.address net)) := by
  have more : 1 < (openBracket :: rest).length := by
    have positive := List.length_pos_iff.mpr some
    rw [List.length_cons]
    omega
  rw [ncclSocketGetAddrFromString]
  simp only [not_true_eq_false, more, if_false, List.head?_cons, if_true]

/-- A network library that knows two addresses and one interface. -/
def linkLibrary : NetLibrary where
  getaddrinfo _ := none
  inetPton text :=
    if text = ascii "::1" then some 1
    else if text = ascii "fe80::1" then some (0xfe80 <<< 112 + 1)
    else none
  ifNametoindex name := if name = ascii "eth0" then 2 else 0

/-- A text of the form ends in a digit. -/
theorem Bracketed.last {inetPton : List UInt8 → Option (BitVec 128)} {string : List UInt8}
    {texts : AddrTexts} (bracketed : Bracketed inetPton string texts) :
    ∃ c, string.getLast? = some c ∧ isDigit c = true := by
  obtain ⟨some, digits⟩ := bracketed.port
  refine ⟨texts.port.getLast some, ?_, digits _ (List.getLast_mem some)⟩
  rw [bracketed.text, List.getLast?_cons, List.getLast?_append, List.getLast?_cons,
    List.getLast?_cons, List.getLast?_eq_some_getLast some]
  rfl

end NcclExts.Unet
