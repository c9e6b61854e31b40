import Mathlib.Data.List.Nodup

/-!
# The first item of each key

A pass over a list keeps an item as long as there is room and nothing kept so far has its
key. What it keeps is told without the pass: the first items of as many keys as there is
room for, in the order in which the keys come up.
-/

namespace NcclExts.Foundation

section

variable {α κ : Type} (key : α → κ) (bound : Nat)

/-- What is kept of a list: the first items of as many keys as there is room for. -/
structure FirstOfEach (items kept : List α) : Prop where
  inOrder : kept.Sublist items
  distinct : (kept.map key).Nodup
  bounded : kept.length ≤ bound
  /-- In front of a kept item nothing has its key, and every key is kept. -/
  first : ∀ item ∈ kept, ∃ front back, items = front ++ item :: back ∧
    ∀ other ∈ front, key other ≠ key item ∧ key other ∈ kept.map key
  complete : kept.length < bound → ∀ item ∈ items, key item ∈ kept.map key

variable {key bound} {items kept : List α} {item : α}

/-- Nothing is kept of nothing. -/
theorem FirstOfEach.nil : FirstOfEach key bound [] [] where
  inOrder := List.Sublist.refl _
  distinct := List.nodup_nil
  bounded := Nat.zero_le _
  first _ member := absurd member List.not_mem_nil
  complete _ _ member := absurd member List.not_mem_nil

/-- What is first in a list is first in a longer one. -/
theorem FirstOfEach.first_append (each : FirstOfEach key bound items kept) (later : List α) :
    ∀ item ∈ kept, ∃ front back, items ++ later = front ++ item :: back ∧
      ∀ other ∈ front, key other ≠ key item ∧ key other ∈ kept.map key := by
  intro item member
  obtain ⟨front, back, split, before⟩ := each.first item member
  exact ⟨front, back ++ later, by rw [split]; simp, before⟩

/-- Without room nothing more is kept. -/
theorem FirstOfEach.full (each : FirstOfEach key bound items kept)
    (noRoom : ¬ kept.length < bound) (later : List α) :
    FirstOfEach key bound (items ++ later) kept where
  inOrder := each.inOrder.trans (List.sublist_append_left _ _)
  distinct := each.distinct
  bounded := each.bounded
  first := each.first_append later
  complete room := absurd room noRoom

/-- An item with a known key is passed over. -/
theorem FirstOfEach.known (each : FirstOfEach key bound items kept)
    (known : key item ∈ kept.map key) : FirstOfEach key bound (items ++ [item]) kept where
  inOrder := each.inOrder.trans (List.sublist_append_left _ _)
  distinct := each.distinct
  bounded := each.bounded
  first := each.first_append [item]
  complete room other member := by
    rcases List.mem_append.mp member with before | last
    · exact each.complete room other before
    · rw [List.mem_singleton.mp last]
      exact known

/-- An item with a new key is kept. -/
theorem FirstOfEach.fresh (each : FirstOfEach key bound items kept) (room : kept.length < bound)
    (fresh : key item ∉ kept.map key) :
    FirstOfEach key bound (items ++ [item]) (kept ++ [item]) where
  inOrder := each.inOrder.append (List.Sublist.refl _)
  distinct := by
    rw [List.map_append, List.map_singleton, List.nodup_append]
    refine ⟨each.distinct, List.nodup_singleton _, ?_⟩
    intro old isOld new isNew same
    rw [List.mem_singleton.mp isNew] at same
    exact fresh (same ▸ isOld)
  bounded := by
    rw [List.length_append, List.length_singleton]
    exact room
  first other member := by
    have still {key' : κ} (isKept : key' ∈ kept.map key) : key' ∈ (kept ++ [item]).map key := by
      rw [List.map_append]
      exact List.mem_append_left _ isKept
    rcases List.mem_append.mp member with old | new
    · obtain ⟨front, back, split, before⟩ := each.first_append [item] other old
      exact ⟨front, back, split, fun earlier inFront =>
        ⟨(before earlier inFront).1, still (before earlier inFront).2⟩⟩
    · -- With room left the keys of all items so far are kept, and this one is not.
      rw [List.mem_singleton.mp new]
      refine ⟨items, [], rfl, fun earlier inItems => ?_⟩
      have isKept := each.complete room earlier inItems
      exact ⟨fun same => fresh (same ▸ isKept), still isKept⟩
  complete _ other member := by
    rw [List.map_append, List.mem_append]
    rcases List.mem_append.mp member with before | last
    · exact .inl (each.complete room other before)
    · exact .inr (by simp [List.mem_singleton.mp last])

/-- With room for one item, nothing is kept of nothing alone. -/
theorem FirstOfEach.eq_nil_iff (each : FirstOfEach key bound items kept) (room : 1 ≤ bound) :
    kept = [] ↔ items = [] := by
  constructor
  · rintro rfl
    refine List.eq_nil_iff_forall_not_mem.mpr fun item member => ?_
    exact absurd (each.complete room item member) List.not_mem_nil
  · rintro rfl
    exact List.eq_nil_of_sublist_nil each.inOrder

end

section

variable {α κ : Type} [DecidableEq κ] (key : α → κ) (bound : Nat)

/-- Keep an item unless its key is known. -/
def keepNew (kept : List α) (item : α) : List α :=
  if key item ∈ kept.map key then kept else kept ++ [item]

/-- The pass, which ends when there is no room left. -/
def firstByKey (kept : List α) : List α → List α
  | [] => kept
  | item :: items => if kept.length < bound then firstByKey (keepNew key kept item) items else kept

variable {key bound} {items kept : List α}

/-- Without room the pass has ended. -/
theorem firstByKey_full (noRoom : ¬ kept.length < bound) (items : List α) :
    firstByKey key bound kept items = kept := by
  cases items with
  | nil => rfl
  | cons item items => rw [firstByKey, if_neg noRoom]

/-- One item. -/
theorem FirstOfEach.keepNew (each : FirstOfEach key bound items kept)
    (room : kept.length < bound) (item : α) :
    FirstOfEach key bound (items ++ [item]) (keepNew key kept item) := by
  rw [Foundation.keepNew]
  split
  · rename_i known
    exact each.known known
  · rename_i fresh
    exact each.fresh room fresh

/-- The pass over the items behind those it has seen. -/
theorem FirstOfEach.firstByKey (each : FirstOfEach key bound items kept) (later : List α) :
    FirstOfEach key bound (items ++ later) (firstByKey key bound kept later) := by
  induction later generalizing items kept with
  | nil => rwa [List.append_nil]
  | cons item later ih =>
    rw [Foundation.firstByKey]
    by_cases room : kept.length < bound
    · rw [if_pos room, List.append_cons]
      exact ih (each.keepNew room item)
    · rw [if_neg room]
      exact each.full room (item :: later)

/-- The pass keeps the first item of each key. -/
theorem firstByKey_each (items : List α) :
    FirstOfEach key bound items (firstByKey key bound [] items) :=
  FirstOfEach.nil.firstByKey items


end

end NcclExts.Foundation
