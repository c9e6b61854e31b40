import Mathlib.Data.List.Basic
import Mathlib.Data.List.TakeWhile
import Mathlib.Data.Int.Basic

/-!
# Fields and numbers in text

Text is split at a separator the way a reader of lines does it, where nothing behind the
last separator is no field. A number is written as decimal digits with a sign in front,
and read back from the front of a text, behind spaces.
-/

namespace NcclExts.Foundation

section

variable {α : Type} [DecidableEq α] (sep : α)

/-- The fields between separators; an empty one at the end is dropped. -/
def fields : List α → List (List α)
  | [] => []
  | item :: rest =>
    if item = sep then
      [] :: fields rest
    else
      match fields rest with
      | [] => [[item]]
      | field :: more => (item :: field) :: more

variable {sep}

/-- A field that ends in a separator. -/
theorem fields_append {field : List α} (plain : sep ∉ field) (rest : List α) :
    fields sep (field ++ sep :: rest) = field :: fields sep rest := by
  induction field with
  | nil => simp [fields]
  | cons item field ih =>
    have other : item ≠ sep := by
      rintro rfl
      exact plain List.mem_cons_self
    rw [List.cons_append, fields, if_neg other,
      ih (fun member => plain (List.mem_cons_of_mem _ member))]

/-- The last field. -/
theorem fields_last {field : List α} (plain : sep ∉ field) (some : field ≠ []) :
    fields sep field = [field] := by
  induction field with
  | nil => exact absurd rfl some
  | cons item field ih =>
    have other : item ≠ sep := by
      rintro rfl
      exact plain List.mem_cons_self
    rw [fields, if_neg other]
    cases field with
    | nil => rfl
    | cons next field =>
      rw [ih (fun member => plain (List.mem_cons_of_mem _ member)) (List.cons_ne_nil _ _)]

end

/-! ## Decimal numbers -/

/-- The byte of a character. -/
def byteOf (char : Char) : UInt8 := UInt8.ofNat char.toNat

/-- The character of a byte. -/
def charOf (byte : UInt8) : Char := Char.ofNat byte.toNat

/-- Text as bytes. -/
def ascii (text : String) : List UInt8 := text.toList.map byteOf

/-- A number without a sign. -/
def decimal (value : Nat) : List UInt8 := (Nat.toDigits 10 value).map byteOf

/-- A number with a sign, if it is negative. -/
def signedDecimal (value : Int) : List UInt8 :=
  if value < 0 then 45 :: decimal value.natAbs else decimal value.natAbs

/-- The spaces of the C locale. -/
def isSpace (byte : UInt8) : Bool := byte = 32 || (9 ≤ byte && byte ≤ 13)

/-- The decimal digits. -/
def isDigit (byte : UInt8) : Bool := 48 ≤ byte && byte ≤ 57

/-- The number at the front of digits; `none` without any. -/
def scanDigits (text : List UInt8) : Option Nat :=
  let digits := text.takeWhile isDigit
  if digits = [] then none else some (Nat.ofDigitChars 10 (digits.map charOf) 0)

/-- The number at the front of a text, behind spaces and a sign. -/
def scanInt (text : List UInt8) : Option Int :=
  match text.dropWhile isSpace with
  | [] => none
  | byte :: rest =>
    if byte = 45 then (scanDigits rest).map (fun value : Nat => -(value : Int))
    else if byte = 43 then (scanDigits rest).map Int.ofNat
    else (scanDigits (byte :: rest)).map Int.ofNat

/-- The digits of a number are among these. -/
theorem mem_toDigits {value : Nat} {char : Char} (member : char ∈ Nat.toDigits 10 value) :
    48 ≤ char.toNat ∧ char.toNat ≤ 57 := by
  have digit := Nat.isDigit_of_mem_toDigits (by decide) (by decide) member
  simp only [Char.isDigit, Bool.and_eq_true, decide_eq_true_eq] at digit
  exact digit

theorem toNat_byteOf {char : Char} (small : char.toNat < 256) :
    (byteOf char).toNat = char.toNat := by
  rw [byteOf, UInt8.toNat_ofNat']
  omega

theorem charOf_byteOf {char : Char} (small : char.toNat < 256) : charOf (byteOf char) = char := by
  rw [charOf, toNat_byteOf small, Char.ofNat_toNat]

/-- Every byte of a decimal number is a digit. -/
theorem isDigit_decimal {value : Nat} {byte : UInt8} (member : byte ∈ decimal value) :
    isDigit byte = true := by
  obtain ⟨char, inside, rfl⟩ := List.mem_map.mp member
  obtain ⟨least, most⟩ := mem_toDigits inside
  have small : char.toNat < 256 := by omega
  have same := toNat_byteOf small
  simp only [isDigit, Bool.and_eq_true, decide_eq_true_eq, UInt8.le_iff_toNat_le, same]
  exact ⟨least, most⟩

theorem decimal_ne_nil (value : Nat) : decimal value ≠ [] := by
  intro empty
  exact Nat.toDigits_ne_nil (List.map_eq_nil_iff.mp empty)

theorem scanDigits_decimal (value : Nat) : scanDigits (decimal value) = some value := by
  have all : (decimal value).takeWhile isDigit = decimal value := by
    rw [List.takeWhile_eq_self_iff]
    intro byte member
    exact isDigit_decimal member
  have chars : (decimal value).map charOf = Nat.toDigits 10 value := by
    rw [decimal, List.map_map]
    have same : ∀ char ∈ Nat.toDigits 10 value, (charOf ∘ byteOf) char = id char := by
      intro char member
      have bounds := mem_toDigits member
      exact charOf_byteOf (by omega)
    rw [List.map_congr_left same, List.map_id]
  rw [scanDigits, all, if_neg (decimal_ne_nil value), chars, Nat.ofDigitChars_ten_toDigits]

/-- A decimal number starts with a digit, and so with no space and no sign. -/
theorem scanInt_decimal (value : Nat) : scanInt (decimal value) = some (value : Int) := by
  have scanned := scanDigits_decimal value
  cases text : decimal value with
  | nil => exact absurd text (decimal_ne_nil value)
  | cons byte rest =>
    have member : byte ∈ decimal value := by simp [text]
    have digit := isDigit_decimal member
    simp only [isDigit, Bool.and_eq_true, decide_eq_true_eq, UInt8.le_iff_toNat_le] at digit
    have space : isSpace byte = false := by
      simp only [isSpace, Bool.or_eq_false_iff, decide_eq_false_iff_not, Bool.and_eq_false_iff,
        ← UInt8.toNat_inj, UInt8.le_iff_toNat_le]
      simp only [UInt8.toNat_ofNat] at digit ⊢
      omega
    have minus : byte ≠ 45 := by
      rintro rfl
      exact absurd digit.1 (by decide)
    have plus : byte ≠ 43 := by
      rintro rfl
      exact absurd digit.1 (by decide)
    rw [text] at scanned
    rw [scanInt, List.dropWhile_cons_of_neg (by simp [space])]
    simp only [if_neg minus, if_neg plus, scanned]
    rfl

/-- A number with its sign is read back. -/
theorem scanInt_signedDecimal (value : Int) : scanInt (signedDecimal value) = some value := by
  rw [signedDecimal]
  split
  · rename_i negative
    have space : isSpace 45 = false := by decide
    rw [scanInt, List.dropWhile_cons_of_neg (by simp [space])]
    have same : -(value.natAbs : Int) = value := by omega
    simp only [if_pos, scanDigits_decimal, Option.map_some, same]
  · rename_i nonneg
    rw [scanInt_decimal, Option.some.injEq]
    omega

/-- Digits end at what is no digit. -/
theorem scanDigits_append {stop : UInt8} (noDigit : isDigit stop = false)
    (front more : List UInt8) : scanDigits (front ++ stop :: more) = scanDigits front := by
  have ends : (stop :: more).takeWhile isDigit = [] :=
    List.takeWhile_cons_of_neg (by simp [noDigit])
  have same : (front ++ stop :: more).takeWhile isDigit = front.takeWhile isDigit := by
    rw [List.takeWhile_append, ends, List.append_nil]
    split
    · rename_i all
      exact (List.takeWhile_prefix isDigit).eq_of_length all |>.symm
    · rfl
  rw [scanDigits, scanDigits, same]

/-- A number ends at what is no space, no sign and no digit. -/
theorem scanInt_append {stop : UInt8} (noSpace : isSpace stop = false)
    (noDigit : isDigit stop = false) (noSign : stop ≠ 45 ∧ stop ≠ 43) (front more : List UInt8) :
    scanInt (front ++ stop :: more) = scanInt front := by
  have stays : (stop :: more).dropWhile isSpace = stop :: more :=
    List.dropWhile_cons_of_neg (by simp [noSpace])
  unfold scanInt
  rw [List.dropWhile_append, stays]
  cases left : front.dropWhile isSpace with
  | nil =>
    have nothing : scanDigits (stop :: more) = none := scanDigits_append noDigit [] more
    simp [noSign.1, noSign.2, nothing]
  | cons byte rest =>
    have behind := scanDigits_append noDigit rest more
    have whole := scanDigits_append noDigit (byte :: rest) more
    rw [List.cons_append] at whole
    simp only [List.isEmpty_cons, Bool.false_eq_true, if_false, List.cons_append, behind, whole]

/-- A byte in front of the digits is in no decimal number but as its sign. -/
theorem notMem_decimal {byte : UInt8} (front : byte < 48) (value : Nat) :
    byte ∉ decimal value := by
  intro member
  have digit := isDigit_decimal member
  simp only [isDigit, Bool.and_eq_true, decide_eq_true_eq, UInt8.le_iff_toNat_le] at digit
  rw [UInt8.lt_iff_toNat_lt] at front
  omega

end NcclExts.Foundation
