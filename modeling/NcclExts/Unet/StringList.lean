import NcclExts.Foundation.Text
import NcclExts.Unet.MergedDevs

/-!
# Lists of names and ports from the environment

A list is text with commas between its parts. A part is a name, and behind a colon a
port. One pass over the text collects the name of the current part in an entry of the
caller's array, closes the entry at the colon or at the end of the part, and skips what is
left of the part.

Texts are the bytes before the terminating zero. Each write to the array is checked
against its bounds and against the 64 characters of a name.
-/

namespace NcclExts.Unet

open NcclExts.Foundation

/-- `':'`. -/
def colon : UInt8 := 58

/-- `','`. -/
def comma : UInt8 := 44

/-- The size of `prefix` in `struct netIf`. -/
def prefixSize : Nat := 64

/-- A name as text. -/
def textOf (bytes : List UInt8) : String := String.ofList (bytes.map charOf)

/-- `atoi`: the number at the front of a text, or 0, as a `long` that keeps to its bounds,
cut down to an `int`. -/
def atoi (text : List UInt8) : Int :=
  (max (-2 ^ 63) (min ((scanInt text).getD 0) (2 ^ 63 - 1))).bmod (2 ^ 32)

/-- The position of a character in the list of a caller. -/
def InBounds (maxList ifNum ifC : Nat) : Prop := ifNum < maxList ∧ ifC < prefixSize

instance (maxList ifNum ifC : Nat) : Decidable (InBounds maxList ifNum ifC) :=
  inferInstanceAs (Decidable (_ ∧ _))

/-- Close the entry behind the ones listed: write the zero behind its name, and its port.
An entry without a name stays open. `none` is a write out of bounds. -/
def closeEntry (maxList : Nat) (ifList : List NetIf) (name : List UInt8) (port : Int) :
    Option (List NetIf) :=
  if name = [] then some ifList
  else if InBounds maxList ifList.length name.length then some (ifList ++ [⟨textOf name, port⟩])
  else none

/-- The loop of `parseStringList`, with the entries closed so far and the name that the
open entry has so far. While it skips, it is in the inner loop that looks for the end of
the part. -/
def parseLoop (maxList : Nat) : List UInt8 → Bool → List NetIf → List UInt8 → Option (List NetIf)
  | [], true, ifList, _ => some ifList
  | [], false, ifList, name => closeEntry maxList ifList name (-1)
  | c :: text, true, ifList, name =>
    if c = comma then
      if ifList.length < maxList then parseLoop maxList text false ifList [] else some ifList
    else parseLoop maxList text true ifList name
  | c :: text, false, ifList, name =>
    if c = colon then
      (closeEntry maxList ifList name (atoi text)).bind fun ifList =>
        parseLoop maxList text true ifList []
    else if c = comma then
      (closeEntry maxList ifList name (-1)).bind fun ifList =>
        if ifList.length < maxList then parseLoop maxList text false ifList [] else some ifList
    else if InBounds maxList ifList.length name.length then
      parseLoop maxList text false ifList (name ++ [c])
    else none

/-- `parseStringList`; `none` for the text is the null pointer. -/
def parseStringList (string : Option (List UInt8)) (maxList : Nat) : Option (List NetIf) :=
  match string with
  | none => some []
  | some string => parseLoop maxList string false [] []

/-! ## The parts of a list -/

/-- The name of a part: what is in front of its first colon. -/
def nameOf (part : List UInt8) : List UInt8 := part.takeWhile (· ≠ colon)

/-- The port of a part: the number behind its first colon, or -1. -/
def portOf (part : List UInt8) : Int :=
  match part.dropWhile (· ≠ colon) with
  | [] => -1
  | _ :: text => atoi text

/-- The parts of a text that have a name. -/
def namedParts (string : List UInt8) : List (List UInt8) :=
  (string.splitOn comma).filter fun part => nameOf part ≠ []

/-- The entry of a part. -/
def entryOf (part : List UInt8) : NetIf := ⟨textOf (nameOf part), portOf part⟩

/-- Close the entries of parts one after the other, until the array is full. -/
def closeParts (maxList : Nat) : List (List UInt8) → List NetIf → Option (List NetIf)
  | [], ifList => some ifList
  | part :: rest, ifList =>
    (closeEntry maxList ifList (nameOf part) (portOf part)).bind fun ifList =>
      if ifList.length < maxList then closeParts maxList rest ifList else some ifList

/-- Go on with the parts behind one, unless the array is full. -/
def resume (maxList : Nat) (parts : List (List UInt8)) (ifList : List NetIf) :
    Option (List NetIf) :=
  if ifList.length < maxList then closeParts maxList parts ifList else some ifList

/-! ## The pass over the text -/

/-- A number ends at the comma. -/
theorem atoi_part (text : List UInt8) : atoi (text.takeWhile (· ≠ comma)) = atoi text := by
  have split := List.takeWhile_append_dropWhile (p := fun c => decide (c ≠ comma)) (l := text)
  cases behind : text.dropWhile (· ≠ comma) with
  | nil => rw [behind, List.append_nil] at split; rw [split]
  | cons c rest =>
    have isComma : c = comma := by
      have stop := List.head?_dropWhile_not (fun c => decide (c ≠ comma)) text
      rw [behind] at stop
      simpa using stop
    rw [behind, isComma] at split
    have number : scanInt (text.takeWhile (· ≠ comma) ++ comma :: rest) =
        scanInt (text.takeWhile (· ≠ comma)) :=
      scanInt_append (by decide) (by decide) (by decide) _ rest
    rw [atoi, atoi, ← number, split]

/-- The first part of a text is what is in front of its first comma. -/
theorem splitOn_first (text : List UInt8) :
    ∃ later, text.splitOn comma = text.takeWhile (· ≠ comma) :: later := by
  induction text with
  | nil => exact ⟨[], rfl⟩
  | cons c text ih =>
    obtain ⟨later, split⟩ := ih
    rw [List.splitOn_cons_eq_if_modifyHead]
    by_cases ends : c = comma
    · exact ⟨text.splitOn comma, by simp [ends]⟩
    · exact ⟨later, by simp [ends, split]⟩

/-- Text without a comma goes in front of the first part. -/
theorem splitOn_append {front : List UInt8} (plain : comma ∉ front) (text : List UInt8) :
    (front ++ text).splitOn comma = (text.splitOn comma).modifyHead (front ++ ·) := by
  induction front with
  | nil => cases split : text.splitOn comma <;> simp [split]
  | cons c front ih =>
    rw [List.mem_cons, not_or] at plain
    have other : (c == comma) = false := beq_eq_false_iff_ne.mpr (Ne.symm plain.1)
    obtain ⟨later, split⟩ := splitOn_first text
    rw [List.cons_append, List.splitOn_cons_eq_if_modifyHead, other, ih plain.2, split]
    rfl

/-- The name of a part that starts with a name and a colon. -/
theorem nameOf_colon {name : List UInt8} (plain : colon ∉ name) (text : List UInt8) :
    nameOf (name ++ colon :: text) = name := by
  have all : ∀ c ∈ name, decide (c ≠ colon) = true := by
    intro c member
    exact decide_eq_true (fun same => plain (same ▸ member))
  rw [nameOf, List.takeWhile_append_of_pos all, List.takeWhile_cons_of_neg (by simp),
    List.append_nil]

/-- The port of a part that starts with a name and a colon. -/
theorem portOf_colon {name : List UInt8} (plain : colon ∉ name) (text : List UInt8) :
    portOf (name ++ colon :: text) = atoi text := by
  have all : ∀ c ∈ name, decide (c ≠ colon) = true := by
    intro c member
    exact decide_eq_true (fun same => plain (same ▸ member))
  have behind : (name ++ colon :: text).dropWhile (· ≠ colon) = colon :: text := by
    rw [List.dropWhile_append_of_pos all, List.dropWhile_cons_of_neg (by simp)]
  rw [portOf, behind]

/-- A part without a colon is a name. -/
theorem part_plain {name : List UInt8} (plain : colon ∉ name) :
    nameOf name = name ∧ portOf name = -1 := by
  have all : ∀ c ∈ name, decide (c ≠ colon) = true := by
    intro c member
    exact decide_eq_true (fun same => plain (same ▸ member))
  have behind : name.dropWhile (· ≠ colon) = [] := List.dropWhile_eq_nil_iff.mpr all
  exact ⟨List.takeWhile_eq_self_iff.mpr all, by rw [portOf, behind]⟩

/-- A name that is too long for an entry is not closed. -/
theorem closeParts_long {maxList : Nat} {part : List UInt8} (parts : List (List UInt8))
    (ifList : List NetIf) (long : prefixSize ≤ (nameOf part).length) :
    closeParts maxList (part :: parts) ifList = none := by
  have size : prefixSize = 64 := rfl
  have named : nameOf part ≠ [] := by
    intro empty
    rw [empty, List.length_nil] at long
    omega
  have outside : ¬ InBounds maxList ifList.length (nameOf part).length :=
    fun inside => absurd inside.2 (Nat.not_lt.mpr long)
  rw [closeParts, closeEntry, if_neg named, if_neg outside]
  rfl

/-- The pass closes the entries of the parts one after the other: while it skips, those
behind the current part, and else the current one first, in front of which stands the name
collected so far. -/
theorem parseLoop_eq (maxList : Nat) (text : List UInt8) :
    (∀ ifList name, parseLoop maxList text true ifList name =
      resume maxList (text.splitOn comma).tail ifList) ∧
    ∀ ifList name, ifList.length < maxList → colon ∉ name → comma ∉ name →
      parseLoop maxList text false ifList name =
        closeParts maxList ((name ++ text).splitOn comma) ifList := by
  induction text with
  | nil =>
    constructor
    · intro ifList name
      simp [parseLoop, resume, closeParts]
    · intro ifList name _ noColon noComma
      obtain ⟨isName, noPort⟩ := part_plain noColon
      rw [parseLoop, List.append_nil, List.splitOn_eq_singleton noComma, closeParts, isName, noPort]
      cases closeEntry maxList ifList name (-1) <;> simp [closeParts]
  | cons c text ih =>
    obtain ⟨skips, collects⟩ := ih
    obtain ⟨later, split⟩ := splitOn_first text
    have fresh (ifList : List NetIf) :
        (if ifList.length < maxList then parseLoop maxList text false ifList [] else some ifList) =
          resume maxList (text.splitOn comma) ifList := by
      rw [resume]
      by_cases room : ifList.length < maxList
      · rw [if_pos room, if_pos room]
        exact collects ifList [] room List.not_mem_nil List.not_mem_nil
      · rw [if_neg room, if_neg room]
    constructor
    · intro ifList name
      rw [parseLoop, List.splitOn_cons_eq_if_modifyHead]
      by_cases ends : c = comma
      · rw [if_pos ends, fresh, ends, beq_self_eq_true, if_pos rfl, List.tail_cons]
      · rw [if_neg ends, beq_eq_false_iff_ne.mpr ends, skips, split]
        rfl
    · intro ifList name room noColon noComma
      rw [parseLoop, splitOn_append noComma, List.splitOn_cons_eq_if_modifyHead]
      by_cases isColon : c = colon
      · have other : (c == comma) = false := by
          rw [isColon]
          decide
        rw [if_pos isColon, other, isColon, split]
        simp only [Bool.false_eq_true, if_false, List.modifyHead_cons, closeParts,
          nameOf_colon noColon, portOf_colon noColon, atoi_part]
        congr 1
        funext closed
        rw [skips, split, List.tail_cons]
        rfl
      · rw [if_neg isColon]
        by_cases ends : c = comma
        · obtain ⟨isName, noPort⟩ := part_plain noColon
          rw [if_pos ends, ends, beq_self_eq_true, if_pos rfl, List.modifyHead_cons,
            List.append_nil, closeParts, isName, noPort]
          congr 1
          funext closed
          exact fresh closed
        · have stillNoComma : comma ∉ name ++ [c] := by
            simp only [List.mem_append, List.mem_singleton, not_or]
            exact ⟨noComma, fun same => ends same.symm⟩
          have grown := splitOn_append stillNoComma text
          rw [if_neg ends, beq_eq_false_iff_ne.mpr ends, split]
          rw [split] at grown
          simp only [Bool.false_eq_true, if_false, List.modifyHead_cons, List.append_assoc,
            List.cons_append, List.nil_append] at grown ⊢
          rw [← grown]
          by_cases inside : InBounds maxList ifList.length name.length
          · have stillNoColon : colon ∉ name ++ [c] := by
              simp only [List.mem_append, List.mem_singleton, not_or]
              exact ⟨noColon, fun same => isColon same.symm⟩
            rw [if_pos inside, collects ifList (name ++ [c]) room stillNoColon stillNoComma,
              List.append_assoc]
            rfl
          · rw [if_neg inside, grown]
            have long : prefixSize ≤ name.length :=
              Nat.not_lt.mp fun short => inside ⟨room, short⟩
            refine (closeParts_long later ifList ?_).symm
            have front : name <+: nameOf (name ++ c :: text.takeWhile (· ≠ comma)) := by
              have all : ∀ c ∈ name, decide (c ≠ colon) = true := by
                intro c member
                exact decide_eq_true (fun same => noColon (same ▸ member))
              rw [nameOf, List.takeWhile_append_of_pos all]
              exact List.prefix_append _ _
            exact Nat.le_trans long front.length_le

/-- Closing parts in an array with room keeps the first parts that have a name, as many as
fit, unless one of their names is too long. -/
theorem closeParts_eq {maxList : Nat} (parts : List (List UInt8)) (ifList : List NetIf)
    (room : ifList.length < maxList) :
    closeParts maxList parts ifList =
      let kept := (parts.filter fun part => nameOf part ≠ []).take (maxList - ifList.length)
      if ∀ part ∈ kept, (nameOf part).length < prefixSize then some (ifList ++ kept.map entryOf)
      else none := by
  induction parts generalizing ifList with
  | nil => simp [closeParts]
  | cons part rest ih =>
    by_cases unnamed : nameOf part = []
    · simp only [closeParts, closeEntry, if_pos unnamed, Option.bind_some, if_pos room,
        ih ifList room]
      rw [List.filter_cons_of_neg (by simp [unnamed])]
    · obtain ⟨left, isLeft⟩ : ∃ left, maxList - ifList.length = left + 1 :=
        ⟨maxList - ifList.length - 1, by omega⟩
      rw [List.filter_cons_of_pos (by simpa using unnamed), isLeft, List.take_succ_cons]
      by_cases short : (nameOf part).length < prefixSize
      · have inside : InBounds maxList ifList.length (nameOf part).length := ⟨room, short⟩
        rw [closeParts, closeEntry, if_neg unnamed, if_pos inside, Option.bind_some]
        have longer : (ifList ++ [NetIf.mk (textOf (nameOf part)) (portOf part)]).length =
            ifList.length + 1 := by simp
        by_cases more : ifList.length + 1 < maxList
        · rw [longer, if_pos more, ih _ (by rw [longer]; exact more), longer]
          have rest : maxList - (ifList.length + 1) = left := by omega
          simp only [rest, List.forall_mem_cons, short, true_and, List.map_cons, List.append_assoc]
          rfl
        · have full : left = 0 := by omega
          rw [longer, if_neg more, full]
          simp [short, entryOf]
      · rw [closeParts_long rest ifList (Nat.not_lt.mp short)]
        simp [short]

/-- Parsing keeps the first parts that have a name, as many as fit, unless one of their
names is too long. -/
theorem parseStringList_eq {maxList : Nat} (string : List UInt8) (room : 0 < maxList) :
    parseStringList (some string) maxList =
      let kept := (namedParts string).take maxList
      if ∀ part ∈ kept, (nameOf part).length < prefixSize then some (kept.map entryOf)
      else none := by
  have whole := (parseLoop_eq maxList string).2 [] [] room List.not_mem_nil List.not_mem_nil
  rw [parseStringList, whole, List.nil_append, closeParts_eq _ _ room]
  rfl

/-- A list of short names is parsed into its first parts that have one. -/
theorem parseStringList_short {maxList : Nat} (string : List UInt8) (room : 0 < maxList)
    (short : ∀ part ∈ string.splitOn comma, (nameOf part).length ≤ 63) :
    parseStringList (some string) maxList =
      some (((namedParts string).take maxList).map entryOf) := by
  have size : prefixSize = 64 := rfl
  rw [parseStringList_eq string room]
  refine if_pos fun part member => ?_
  have inParts := (List.mem_filter.mp (List.mem_of_mem_take member)).1
  have fits := short part inParts
  omega

/-! ## What a list means -/

/-- A number that fits an `int` is read as it is. -/
theorem atoi_of_int {text : List UInt8} {value : Int} (scanned : scanInt text = some value)
    (least : -2 ^ 31 ≤ value) (most : value < 2 ^ 31) : atoi text = value := by
  have kept : max (-2 ^ 63) (min value (2 ^ 63 - 1)) = value := by omega
  rw [atoi, scanned, Option.getD_some, kept, Int.bmod_def]
  split <;> omega

/-- The printed form of a list. -/
def printList (entries : List (List UInt8 × Int32)) : List UInt8 :=
  [comma].intercalate (entries.map fun entry => entry.1 ++ colon :: signedDecimal entry.2.toInt)

/-- No number has a comma in it. -/
theorem comma_notMem_signedDecimal (value : Int) : comma ∉ signedDecimal value := by
  have front : comma < 48 := by decide
  rw [signedDecimal]
  split
  · rw [List.mem_cons, not_or]
    exact ⟨by decide, notMem_decimal front _⟩
  · exact notMem_decimal front _

/-- A name that an entry can hold and a list can name. -/
structure Nameable (name : List UInt8) : Prop where
  some : name ≠ []
  short : name.length ≤ 63
  noComma : comma ∉ name
  noColon : colon ∉ name

/-- A printed entry is a part with the name and the port of the entry. -/
theorem printed_part {name : List UInt8} (port : Int32) (nameable : Nameable name) :
    nameOf (name ++ colon :: signedDecimal port.toInt) = name ∧
      entryOf (name ++ colon :: signedDecimal port.toInt) = ⟨textOf name, port.toInt⟩ := by
  have isName := nameOf_colon nameable.noColon (signedDecimal port.toInt)
  have number : atoi (signedDecimal port.toInt) = port.toInt :=
    atoi_of_int (scanInt_signedDecimal _) port.le_toInt port.toInt_lt
  refine ⟨isName, ?_⟩
  rw [entryOf, isName, portOf_colon nameable.noColon, number]

/-- A list of names of at most 63 characters parses to the entries of its first parts that
have a name: the name in front of the first colon, and the number behind it or -1. A
printed list parses to its entries. -/
theorem string_list_parsed (maxList : Nat) (room : 0 < maxList) :
    (∀ string : List UInt8, (∀ part ∈ string.splitOn comma, (nameOf part).length ≤ 63) →
      parseStringList (some string) maxList =
        some (((namedParts string).take maxList).map entryOf)) ∧
    ∀ entries : List (List UInt8 × Int32), entries.length ≤ maxList →
      (∀ entry ∈ entries, Nameable entry.1) →
      parseStringList (some (printList entries)) maxList =
        some (entries.map fun entry => ⟨textOf entry.1, entry.2.toInt⟩) := by
  have parsed := fun string => parseStringList_short string room
  refine ⟨parsed, fun entries few nameable => ?_⟩
  cases entries with
  | nil =>
    rw [printList, List.map_nil, parsed _ (by simp [nameOf])]
    simp [namedParts, nameOf]
  | cons first rest =>
    have split : (printList (first :: rest)).splitOn comma = (first :: rest).map
        fun entry => entry.1 ++ colon :: signedDecimal entry.2.toInt := by
      refine List.splitOn_intercalate comma ?_ (List.map_eq_nil_iff.not.mpr (List.cons_ne_nil _ _))
      intro part member
      obtain ⟨entry, isEntry, rfl⟩ := List.mem_map.mp member
      simp only [List.mem_append, List.mem_cons, not_or]
      exact ⟨(nameable entry isEntry).noComma, by decide, comma_notMem_signedDecimal _⟩
    have named : namedParts (printList (first :: rest)) = (first :: rest).map
        fun entry => entry.1 ++ colon :: signedDecimal entry.2.toInt := by
      rw [namedParts, split, List.filter_eq_self]
      intro part member
      obtain ⟨entry, isEntry, rfl⟩ := List.mem_map.mp member
      rw [(printed_part entry.2 (nameable entry isEntry)).1]
      exact decide_eq_true (nameable entry isEntry).some
    rw [parsed _ ?_, named, List.take_of_length_le (by rwa [List.length_map]), List.map_map]
    · congr 1
      apply List.map_congr_left
      intro entry isEntry
      exact (printed_part entry.2 (nameable entry isEntry)).2
    · rw [split]
      intro part member
      obtain ⟨entry, isEntry, rfl⟩ := List.mem_map.mp member
      rw [(printed_part entry.2 (nameable entry isEntry)).1]
      exact (nameable entry isEntry).short

/-- Two entries of three fit. -/
theorem string_list_parsed_two :
    parseStringList (some (ascii "eth0:3,,ib0,ib1:2")) 2 =
      some (((namedParts (ascii "eth0:3,,ib0,ib1:2")).take 2).map entryOf) :=
  (string_list_parsed 2 (by decide)).1 (ascii "eth0:3,,ib0,ib1:2") (by decide +kernel)

/-- Parsing writes within its bounds exactly when the names that it keeps have at most 63
characters. -/
theorem string_list_bounds (maxList : Nat) (room : 0 < maxList) (string : List UInt8) :
    (parseStringList (some string) maxList).isSome = true ↔
      ∀ part ∈ (namedParts string).take maxList, (nameOf part).length ≤ 63 := by
  have size : prefixSize = 64 := rfl
  have short (part : List UInt8) :
      (nameOf part).length < prefixSize ↔ (nameOf part).length ≤ 63 := by omega
  simp only [parseStringList_eq string room, short]
  split
  · rename_i kept
    exact ⟨fun _ => kept, fun _ => rfl⟩
  · rename_i long
    exact ⟨fun impossible => by simp at impossible, fun kept => absurd kept long⟩

/-- A list of one short name. -/
theorem string_list_bounds_short :
    (parseStringList (some (ascii "mlx5_0:1")) 32).isSome = true ↔
      ∀ part ∈ (namedParts (ascii "mlx5_0:1")).take 32, (nameOf part).length ≤ 63 :=
  string_list_bounds 32 (by decide) (ascii "mlx5_0:1")

/-- A name of 64 characters, whose terminating zero falls behind the name. -/
theorem string_list_overflow :
    ¬ ∀ (maxList : Nat) (string : List UInt8), 0 < maxList →
      (parseStringList (some string) maxList).isSome = true := by
  intro always
  exact absurd (always 1 (List.replicate 64 97) (by decide)) (by decide +kernel)

end NcclExts.Unet
