import Mathlib.Data.List.Nodup
import Mathlib.Data.List.Count
import Mathlib.Data.List.Perm.Basic

/-!
# Tables of reference-counted entries

A table shares entries among holders; each holder names the key of one entry. The
table is counted when keys are distinct, every holder's key has an entry, and each
entry's count is the number of holders that name it, at least one. Taking a
reference, adding an entry, releasing a reference and dropping the entry with the
last one keep it so. The order of the entries plays no part.
-/

namespace NcclExts.Foundation

universe u v

variable {Entry : Type u} {Key : Type v} [DecidableEq Key]
variable (key : Entry → Key) (refs : Entry → Int)

/-- Every entry is counted by the holders of its key, and no holder is without an
entry. -/
structure Counted (entries : List Entry) (holders : List Key) : Prop where
  distinct : (entries.map key).Nodup
  counts : ∀ entry ∈ entries, refs entry = (holders.count (key entry) : Int)
  used : ∀ entry ∈ entries, key entry ∈ holders
  present : ∀ holder ∈ holders, ∃ entry ∈ entries, key entry = holder

namespace Counted

variable {key refs}

/-- No entries and no holders. -/
theorem nil : Counted key refs [] [] :=
  ⟨List.nodup_nil, by simp, by simp, by simp⟩

/-- The order of entries and of holders is immaterial. -/
theorem perm {entries others : List Entry} {holders again : List Key}
    (counted : Counted key refs entries holders) (sameEntries : entries.Perm others)
    (sameHolders : holders.Perm again) : Counted key refs others again := by
  refine ⟨(sameEntries.map key).nodup_iff.mp counted.distinct, ?_, ?_, ?_⟩
  · intro entry member
    rw [← sameHolders.count_eq]
    exact counted.counts entry (sameEntries.mem_iff.mpr member)
  · intro entry member
    exact sameHolders.mem_iff.mp (counted.used entry (sameEntries.mem_iff.mpr member))
  · intro holder member
    obtain ⟨entry, inside, same⟩ := counted.present holder (sameHolders.mem_iff.mpr member)
    exact ⟨entry, sameEntries.mem_iff.mp inside, same⟩

/-- Two entries of one key are the same entry. -/
theorem unique {entries : List Entry} {holders : List Key}
    (counted : Counted key refs entries holders) {first second : Entry}
    (inFirst : first ∈ entries) (inSecond : second ∈ entries)
    (same : key first = key second) : first = second :=
  List.inj_on_of_nodup_map counted.distinct inFirst inSecond same

/-- Each holder has exactly one entry. -/
theorem exactly_one {entries : List Entry} {holders : List Key}
    (counted : Counted key refs entries holders) {holder : Key} (member : holder ∈ holders) :
    (entries.filter (fun entry => key entry = holder)).length = 1 := by
  obtain ⟨entry, inside, same⟩ := counted.present holder member
  have once : (entries.map key).count holder = 1 :=
    List.count_eq_one_of_mem counted.distinct (same ▸ List.mem_map_of_mem inside)
  have counting : (entries.map key).count holder =
      (entries.filter (fun entry => key entry = holder)).length := by
    rw [List.count, List.countP_map, List.countP_eq_length_filter]
    congr 1
  exact counting.symm.trans once

/-- The entries behind a first one do not carry its key. -/
theorem head_absent {entry : Entry} {rest : List Entry} {holders : List Key}
    (counted : Counted key refs (entry :: rest) holders) :
    ∀ other ∈ rest, key other ≠ key entry := by
  intro other member same
  have absent := (List.nodup_cons.mp counted.distinct).1
  exact absent (same ▸ List.mem_map_of_mem member)

/-- A new entry with one reference for its first holder. -/
theorem add {entry : Entry} {entries : List Entry} {holders : List Key}
    (counted : Counted key refs entries holders)
    (fresh : ∀ other ∈ entries, key other ≠ key entry) (once : refs entry = 1) :
    Counted key refs (entry :: entries) (key entry :: holders) := by
  have unheld : key entry ∉ holders := by
    intro member
    obtain ⟨other, inside, same⟩ := counted.present _ member
    exact fresh other inside same
  refine ⟨?_, ?_, ?_, ?_⟩
  · refine List.nodup_cons.mpr ⟨?_, counted.distinct⟩
    intro member
    obtain ⟨other, inside, same⟩ := List.mem_map.mp member
    exact fresh other inside same
  · intro other member
    rcases List.mem_cons.mp member with rfl | member
    · simp [once, List.count_eq_zero_of_not_mem unheld]
    · rw [List.count_cons_of_ne (fresh other member).symm]
      exact counted.counts other member
  · intro other member
    rcases List.mem_cons.mp member with rfl | member
    · exact List.mem_cons_self
    · exact List.mem_cons_of_mem _ (counted.used other member)
  · intro holder member
    rcases List.mem_cons.mp member with rfl | member
    · exact ⟨entry, List.mem_cons_self, rfl⟩
    · obtain ⟨other, inside, same⟩ := counted.present holder member
      exact ⟨other, List.mem_cons_of_mem _ inside, same⟩

/-- Replace the first entry by one of the same key and a count that follows the
holders, when the holders of other keys stay the same. -/
theorem recount {entry next : Entry} {rest : List Entry} {holders after : List Key}
    (counted : Counted key refs (entry :: rest) holders) (same : key next = key entry)
    (count : refs next = (after.count (key entry) : Int)) (held : key entry ∈ after)
    (others : ∀ other, other ≠ key entry → after.count other = holders.count other) :
    Counted key refs (next :: rest) after := by
  have absent := counted.head_absent
  have heldIff : ∀ other, other ≠ key entry → (other ∈ after ↔ other ∈ holders) := by
    intro other different
    rw [← List.count_pos_iff, ← List.count_pos_iff, others other different]
  refine ⟨?_, ?_, ?_, ?_⟩
  · rw [List.map_cons, same, ← List.map_cons]
    exact counted.distinct
  · intro other member
    rcases List.mem_cons.mp member with rfl | member
    · rw [same, count]
    · rw [others _ (absent other member)]
      exact counted.counts other (List.mem_cons_of_mem _ member)
  · intro other member
    rcases List.mem_cons.mp member with rfl | member
    · exact same ▸ held
    · rw [heldIff _ (absent other member)]
      exact counted.used other (List.mem_cons_of_mem _ member)
  · intro holder member
    by_cases known : holder = key entry
    · exact ⟨next, List.mem_cons_self, same.trans known.symm⟩
    · obtain ⟨other, inside, named⟩ := counted.present holder ((heldIff holder known).mp member)
      rcases List.mem_cons.mp inside with rfl | inside
      · exact absurd named.symm known
      · exact ⟨other, List.mem_cons_of_mem _ inside, named⟩

/-- One more holder of the first entry. -/
theorem take {entry next : Entry} {rest : List Entry} {holders : List Key}
    (counted : Counted key refs (entry :: rest) holders) (same : key next = key entry)
    (more : refs next = refs entry + 1) :
    Counted key refs (next :: rest) (key entry :: holders) := by
  refine counted.recount same ?_ List.mem_cons_self ?_
  · rw [more, counted.counts entry List.mem_cons_self, List.count_cons_self]
    push_cast
    rfl
  · intro other different
    exact List.count_cons_of_ne different.symm

/-- One holder of the first entry fewer, when others remain. -/
theorem release {entry : Entry} (next : Entry) {rest : List Entry} {holders : List Key}
    (counted : Counted key refs (entry :: rest) holders) (same : key next = key entry)
    (fewer : refs next = refs entry - 1) (remaining : refs entry - 1 ≠ 0) :
    Counted key refs (next :: rest) (holders.erase (key entry)) := by
  have count := counted.counts entry List.mem_cons_self
  have positive : 0 < holders.count (key entry) :=
    List.count_pos_iff.mpr (counted.used entry List.mem_cons_self)
  refine counted.recount same ?_ ?_ ?_
  · rw [fewer, count, List.count_erase_self]
    omega
  · rw [← List.count_pos_iff, List.count_erase_self]
    omega
  · intro other different
    exact List.count_erase_of_ne different

/-- The last holder of the first entry leaves, and the entry with it. -/
theorem drop {entry : Entry} {rest : List Entry} {holders : List Key}
    (counted : Counted key refs (entry :: rest) holders) (last : refs entry - 1 = 0) :
    Counted key refs rest (holders.erase (key entry)) := by
  have absent := counted.head_absent
  have count := counted.counts entry List.mem_cons_self
  have others : ∀ other ∈ rest, (holders.erase (key entry)).count (key other) =
      holders.count (key other) :=
    fun other member => List.count_erase_of_ne (absent other member)
  refine ⟨(List.nodup_cons.mp counted.distinct).2, ?_, ?_, ?_⟩
  · intro other member
    rw [others other member]
    exact counted.counts other (List.mem_cons_of_mem _ member)
  · intro other member
    rw [← List.count_pos_iff, others other member, List.count_pos_iff]
    exact counted.used other (List.mem_cons_of_mem _ member)
  · intro holder member
    have different : holder ≠ key entry := by
      rintro rfl
      have gone : (holders.erase (key entry)).count (key entry) = 0 := by
        rw [List.count_erase_self]
        omega
      exact List.count_eq_zero.mp gone member
    obtain ⟨other, inside, named⟩ := counted.present holder (List.mem_of_mem_erase member)
    rcases List.mem_cons.mp inside with rfl | inside
    · exact absurd named.symm different
    · exact ⟨other, inside, named⟩

end Counted

/-- Overwriting one position rearranges to the new element before the others. -/
theorem set_perm {entries : List Entry} {index : Nat} (inside : index < entries.length)
    (next : Entry) : (entries.set index next).Perm (next :: entries.eraseIdx index) := by
  have position : (entries.take index).length = index :=
    List.length_take_of_le (Nat.le_of_lt inside)
  rw [List.set_eq_take_append_cons_drop, if_pos inside, List.eraseIdx_eq_take_drop_succ]
  exact List.perm_middle

/-- A list rearranges to the element at a position before the others. -/
theorem getElem_perm {entries : List Entry} {index : Nat} (inside : index < entries.length) :
    entries.Perm (entries[index] :: entries.eraseIdx index) := by
  have same := set_perm inside entries[index]
  rwa [List.set_getElem_self] at same

end NcclExts.Foundation
