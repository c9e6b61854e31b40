import Mathlib

/-!
# Records in a buffer

A record is a range of a buffer at a fixed offset. Its fields are written in place and
read back from their ranges; ranges that do not meet do not disturb each other. Text is
kept in a range with a terminator behind it and filled up with terminators, and a number
is kept as its digits to the base of a byte, the lowest first.
-/

namespace NcclExts.Foundation

section

variable {α : Type}

/-- The items of a range. -/
def slice (buffer : List α) (offset length : Nat) : List α := (buffer.drop offset).take length

/-- The buffer with a range replaced. -/
def overwrite (buffer : List α) (offset : Nat) (items : List α) : List α :=
  buffer.take offset ++ items ++ buffer.drop (offset + items.length)

theorem length_overwrite {buffer : List α} {offset : Nat} {items : List α}
    (fits : offset + items.length ≤ buffer.length) :
    (overwrite buffer offset items).length = buffer.length := by
  simp only [overwrite, List.length_append, List.length_take, List.length_drop]
  omega

theorem getElem?_overwrite {buffer : List α} {offset : Nat} {items : List α}
    (fits : offset + items.length ≤ buffer.length) (i : Nat) :
    (overwrite buffer offset items)[i]? =
      if offset ≤ i ∧ i < offset + items.length then items[i - offset]? else buffer[i]? := by
  have front : (buffer.take offset).length = offset := by
    rw [List.length_take]
    omega
  rw [overwrite, List.append_assoc]
  by_cases before : i < offset
  · have outside : ¬ (offset ≤ i ∧ i < offset + items.length) := by omega
    rw [if_neg outside, List.getElem?_append_left (by omega), List.getElem?_take_of_lt before]
  · rw [List.getElem?_append_right (by omega), front]
    by_cases inside : i < offset + items.length
    · rw [if_pos ⟨by omega, inside⟩, List.getElem?_append_left (by omega)]
    · have outside : ¬ (offset ≤ i ∧ i < offset + items.length) := by omega
      have place : offset + items.length + (i - offset - items.length) = i := by omega
      rw [if_neg outside, List.getElem?_append_right (by omega), List.getElem?_drop, place]

theorem getElem?_slice (buffer : List α) (offset length i : Nat) :
    (slice buffer offset length)[i]? = if i < length then buffer[offset + i]? else none := by
  rw [slice, List.getElem?_take, List.getElem?_drop]

/-- What was written is read back. -/
theorem slice_overwrite {buffer : List α} {offset : Nat} {items : List α}
    (fits : offset + items.length ≤ buffer.length) :
    slice (overwrite buffer offset items) offset items.length = items := by
  apply List.ext_getElem?
  intro i
  rw [getElem?_slice, getElem?_overwrite fits]
  by_cases inside : i < items.length
  · have place : offset + i - offset = i := by omega
    rw [if_pos inside, if_pos ⟨by omega, by omega⟩, place]
  · rw [if_neg inside, List.getElem?_eq_none (by omega)]

/-- A range apart from the one written is read as before. -/
theorem slice_overwrite_apart {buffer : List α} {offset : Nat} {items : List α}
    (fits : offset + items.length ≤ buffer.length) {other length : Nat}
    (apart : other + length ≤ offset ∨ offset + items.length ≤ other) :
    slice (overwrite buffer offset items) other length = slice buffer other length := by
  apply List.ext_getElem?
  intro i
  rw [getElem?_slice, getElem?_slice]
  by_cases inside : i < length
  · have outside : ¬ (offset ≤ other + i ∧ other + i < offset + items.length) := by omega
    rw [if_pos inside, if_pos inside, getElem?_overwrite fits, if_neg outside]
  · rw [if_neg inside, if_neg inside]

/-- A range in two parts. -/
theorem slice_add (buffer : List α) (offset first second : Nat) :
    slice buffer offset (first + second) =
      slice buffer offset first ++ slice buffer (offset + first) second := by
  rw [slice, slice, slice, List.take_add, List.drop_drop]

/-- A range of a range at the front of a written one. -/
theorem slice_overwrite_inner {buffer : List α} {offset : Nat} {items : List α}
    (fits : offset + items.length ≤ buffer.length) {inner count : Nat}
    (inside : inner + count ≤ items.length) :
    slice (overwrite buffer offset items) (offset + inner) count = slice items inner count := by
  apply List.ext_getElem?
  intro i
  rw [getElem?_slice, getElem?_slice, getElem?_overwrite fits]
  by_cases below : i < count
  · have place : offset + inner + i - offset = inner + i := by omega
    rw [if_pos below, if_pos below, if_pos ⟨by omega, by omega⟩, place]
  · rw [if_neg below, if_neg below]

/-- A range in front of what is added. -/
theorem slice_append {buffer : List α} {offset length : Nat}
    (inside : offset + length ≤ buffer.length) (rest : List α) :
    slice (buffer ++ rest) offset length = slice buffer offset length := by
  apply List.ext_getElem?
  intro i
  rw [getElem?_slice, getElem?_slice]
  by_cases below : i < length
  · rw [if_pos below, if_pos below, List.getElem?_append_left (by omega)]
  · rw [if_neg below, if_neg below]

/-- Write ranges one after the other, each given by its offset and its items. -/
def overwriteAll (buffer : List α) (records : List (Nat × List α)) : List α :=
  records.foldl (fun buffer record => overwrite buffer record.1 record.2) buffer

/-- Ranges that do not meet. -/
def Apart (first second : Nat × List α) : Prop :=
  first.1 + first.2.length ≤ second.1 ∨ second.1 + second.2.length ≤ first.1

theorem length_overwriteAll {buffer : List α} {records : List (Nat × List α)}
    (fits : ∀ record ∈ records, record.1 + record.2.length ≤ buffer.length) :
    (overwriteAll buffer records).length = buffer.length := by
  induction records generalizing buffer with
  | nil => rfl
  | cons record rest ih =>
    have kept := length_overwrite (fits record List.mem_cons_self)
    have restFits : ∀ other ∈ rest,
        other.1 + other.2.length ≤ (overwrite buffer record.1 record.2).length := by
      intro other member
      rw [kept]
      exact fits other (List.mem_cons_of_mem _ member)
    exact (ih restFits).trans kept

/-- A range apart from all that are written is read as before. -/
theorem slice_overwriteAll_apart {buffer : List α} {records : List (Nat × List α)}
    (fits : ∀ record ∈ records, record.1 + record.2.length ≤ buffer.length) {offset length : Nat}
    (apart : ∀ record ∈ records,
      offset + length ≤ record.1 ∨ record.1 + record.2.length ≤ offset) :
    slice (overwriteAll buffer records) offset length = slice buffer offset length := by
  induction records generalizing buffer with
  | nil => rfl
  | cons record rest ih =>
    have kept := length_overwrite (fits record List.mem_cons_self)
    have restFits : ∀ other ∈ rest,
        other.1 + other.2.length ≤ (overwrite buffer record.1 record.2).length := by
      intro other member
      rw [kept]
      exact fits other (List.mem_cons_of_mem _ member)
    have later := ih restFits (fun other member => apart other (List.mem_cons_of_mem _ member))
    exact later.trans (slice_overwrite_apart (fits record List.mem_cons_self)
      (apart record List.mem_cons_self))

/-- Of ranges that do not meet each is read back. -/
theorem slice_overwriteAll {buffer : List α} {records : List (Nat × List α)}
    (fits : ∀ record ∈ records, record.1 + record.2.length ≤ buffer.length)
    (disjoint : records.Pairwise Apart) {record : Nat × List α} (member : record ∈ records) :
    slice (overwriteAll buffer records) record.1 record.2.length = record.2 := by
  induction records generalizing buffer with
  | nil => exact absurd member List.not_mem_nil
  | cons head rest ih =>
    have kept := length_overwrite (fits head List.mem_cons_self)
    have restFits : ∀ other ∈ rest,
        other.1 + other.2.length ≤ (overwrite buffer head.1 head.2).length := by
      intro other later
      rw [kept]
      exact fits other (List.mem_cons_of_mem _ later)
    have parts := List.pairwise_cons.mp disjoint
    rcases List.mem_cons.mp member with rfl | later
    · have read := slice_overwriteAll_apart restFits parts.1
      exact read.trans (slice_overwrite (fits record List.mem_cons_self))
    · exact ih restFits parts.2 later

end

/-! ## Text with a terminator -/

section

variable {α : Type} [DecidableEq α] (stop : α)

/-- The text in front of the terminator. -/
def upTo (items : List α) : List α := items.takeWhile (fun item => item ≠ stop)

/-- The text that starts at an offset, when it ends inside the buffer. -/
def textAt (buffer : List α) (offset : Nat) : Option (List α) :=
  if stop ∈ buffer.drop offset then some (upTo stop (buffer.drop offset)) else none

/-- Text cut to a length and filled up with terminators. -/
def padded (length : Nat) (text : List α) : List α :=
  (upTo stop text).take length ++
    List.replicate (length - ((upTo stop text).take length).length) stop

variable {stop}

@[simp] theorem length_padded (length : Nat) (text : List α) :
    (padded stop length text).length = length := by
  simp only [padded, List.length_append, List.length_take, List.length_replicate]
  omega

theorem upTo_of_notMem {text : List α} (plain : stop ∉ text) : upTo stop text = text := by
  rw [upTo, List.takeWhile_eq_self_iff]
  intro item member
  simp only [ne_eq, decide_eq_true_eq]
  rintro rfl
  exact plain member

theorem notMem_upTo (text : List α) : stop ∉ upTo stop text := by
  intro member
  have other := List.mem_takeWhile_imp member
  simp at other

theorem length_upTo_le (text : List α) : (upTo stop text).length ≤ text.length :=
  (List.takeWhile_sublist _).length_le

theorem upTo_append_stop {text : List α} (plain : stop ∉ text) (rest : List α) :
    upTo stop (text ++ stop :: rest) = text := by
  induction text with
  | nil => simp [upTo]
  | cons item text ih =>
    have other : item ≠ stop := by
      rintro rfl
      exact plain List.mem_cons_self
    have tail := ih (fun member => plain (List.mem_cons_of_mem _ member))
    rw [upTo] at tail
    rw [upTo, List.cons_append, List.takeWhile_cons_of_pos (by simpa using other), tail]

/-- Only what is in front of the terminator is written. -/
theorem padded_upTo (length : Nat) (text : List α) :
    padded stop length (upTo stop text) = padded stop length text := by
  rw [padded, padded, upTo_of_notMem (notMem_upTo text)]

/-- Text that fits its field is written whole. -/
theorem padded_eq {length : Nat} {text : List α} (plain : stop ∉ text)
    (short : text.length ≤ length) :
    padded stop length text = text ++ List.replicate (length - text.length) stop := by
  rw [padded, upTo_of_notMem plain, List.take_of_length_le short]

/-- Text in a field, in front of a terminator. -/
theorem padded_append_stop {length : Nat} {text : List α} (plain : stop ∉ text)
    (short : text.length ≤ length) :
    padded stop length text ++ [stop] =
      text ++ stop :: List.replicate (length - text.length) stop := by
  rw [padded_eq plain short, List.append_assoc, ← List.replicate_succ', List.replicate_succ]

/-- Text that is shorter than its field ends there. -/
theorem padded_of_lt {length : Nat} {text : List α} (plain : stop ∉ text)
    (short : text.length < length) :
    padded stop length text = text ++ stop :: List.replicate (length - text.length - 1) stop := by
  have some : length - text.length = length - text.length - 1 + 1 := by omega
  rw [padded_eq plain (by omega), some, List.replicate_succ, Nat.add_sub_cancel]

/-- Text that ends inside a range is found there. -/
theorem textAt_of_slice {buffer : List α} {offset length : Nat} {text rest : List α}
    (plain : stop ∉ text) (read : slice buffer offset length = text ++ stop :: rest) :
    textAt stop buffer offset = some text := by
  have split : buffer.drop offset = text ++ stop :: (rest ++ (buffer.drop offset).drop length) := by
    have parts := (List.take_append_drop length (buffer.drop offset)).symm
    rw [slice] at read
    rw [read] at parts
    simpa using parts
  rw [textAt, split, if_pos (by simp), upTo_append_stop plain]

end

/-! ## Numbers -/

/-- So many digits of a number to a base, the lowest first. -/
def digitsLE (base : Nat) : Nat → Nat → List Nat
  | 0, _ => []
  | width + 1, value => value % base :: digitsLE base width (value / base)

/-- The number with given digits. -/
def ofDigitsLE (base : Nat) : List Nat → Nat
  | [] => 0
  | digit :: rest => digit + base * ofDigitsLE base rest

@[simp] theorem length_digitsLE (base width value : Nat) :
    (digitsLE base width value).length = width := by
  induction width generalizing value with
  | zero => rfl
  | succ width ih => rw [digitsLE, List.length_cons, ih]

theorem digitsLE_lt {base : Nat} (positive : 0 < base) (width value : Nat) :
    ∀ digit ∈ digitsLE base width value, digit < base := by
  induction width generalizing value with
  | zero => simp [digitsLE]
  | succ width ih =>
    intro digit member
    rcases List.mem_cons.mp member with rfl | later
    · exact Nat.mod_lt _ positive
    · exact ih _ digit later

/-- The digits of a number are those of the number, as far as they go. -/
theorem ofDigitsLE_digitsLE (base width value : Nat) :
    ofDigitsLE base (digitsLE base width value) = value % base ^ width := by
  induction width generalizing value with
  | zero => rw [digitsLE, ofDigitsLE, Nat.pow_zero, Nat.mod_one]
  | succ width ih => rw [digitsLE, ofDigitsLE, ih, Nat.pow_succ', Nat.mod_mul]

end NcclExts.Foundation
