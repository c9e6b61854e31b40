import Mathlib

/-!
# Removal by moving the last element into the hole

Constant-time removal from an array overwrites the removed position with the last
element and drops the last position. The remaining elements are exactly the
others, so multiset facts survive. Their order survives only when nothing that
stood behind the removed position has to stay before the moved element.
-/

namespace NcclExts.Foundation

universe u
variable {α : Type u}

/-- Overwrite position `index` with the last element, then drop the last position. -/
def swapRemove (items : List α) (index : Nat) : List α :=
  match items.getLast? with
  | none => []
  | some last => (items.set index last).dropLast

/-- Removing the last position only drops it. -/
theorem swapRemove_last (front : List α) (item : α) :
    swapRemove (front ++ [item]) front.length = front := by
  simp [swapRemove]

/-- An element behind an inner position ends the list. -/
theorem getLast?_inner (front between : List α) (item last : α) :
    (front ++ item :: (between ++ [last])).getLast? = some last := by
  have shape : front ++ item :: (between ++ [last]) = (front ++ item :: between) ++ [last] := by
    simp
  rw [shape, List.getLast?_append]
  rfl

/-- Removing an inner position puts the last element in its place. -/
theorem swapRemove_inner (front between : List α) (item last : α) :
    swapRemove (front ++ item :: (between ++ [last])) front.length =
      front ++ last :: between := by
  simp only [swapRemove, getLast?_inner]
  rw [List.set_append_right _ _ (Nat.le_refl _)]
  simp only [Nat.sub_self, List.set_cons_zero]
  have moved : front ++ last :: (between ++ [last]) = (front ++ last :: between) ++ [last] := by
    simp
  rw [moved, List.dropLast_concat]

/-- A position is the last one or has a last element behind it. -/
theorem last_or_inner (items : List α) (index : Nat) (inside : index < items.length) :
    (∃ front item, items = front ++ [item] ∧ index = front.length) ∨
      ∃ front item between last,
        items = front ++ item :: (between ++ [last]) ∧ index = front.length := by
  have split : items = items.take index ++ items[index] :: items.drop (index + 1) := by
    rw [← List.drop_eq_getElem_cons inside, List.take_append_drop]
  have position : index = (items.take index).length := by
    rw [List.length_take, Nat.min_eq_left (Nat.le_of_lt inside)]
  rcases List.eq_nil_or_concat (items.drop (index + 1)) with empty | ⟨between, last, behind⟩
  · left
    exact ⟨items.take index, items[index], by rw [← empty]; exact split, position⟩
  · right
    refine ⟨items.take index, items[index], between, last, ?_, position⟩
    rw [← List.concat_eq_append, ← behind]
    exact split

/-- The removed element and what is left are a rearrangement of the list. -/
theorem swapRemove_perm (items : List α) (index : Nat) (inside : index < items.length) :
    items.Perm (items[index] :: swapRemove items index) := by
  rcases last_or_inner items index inside with
    ⟨front, item, rfl, rfl⟩ | ⟨front, item, between, last, rfl, rfl⟩
  · rw [swapRemove_last]
    simp only [List.getElem_concat_length]
    exact List.perm_append_singleton item front
  · rw [swapRemove_inner]
    simp only [List.getElem_append_right (Nat.le_refl _), Nat.sub_self, List.getElem_cons_zero]
    refine List.perm_middle.trans (List.Perm.cons item ?_)
    exact List.Perm.append_left front (List.perm_append_singleton last between)

/-- What stood behind the removed position and must follow the moved element. -/
def staysBehind (items : List α) (index : Nat) : List α :=
  (items.drop (index + 1)).dropLast

/-- In an ordered list, removal keeps the order exactly when the moved last
element may stand before everything that stays behind the hole. -/
theorem swapRemove_pairwise_iff {before : α → α → Prop} (items : List α) (index : Nat)
    (inside : index < items.length) (ordered : items.Pairwise before) :
    (swapRemove items index).Pairwise before ↔
      ∀ last ∈ items.getLast?, ∀ item ∈ staysBehind items index, before last item := by
  rcases last_or_inner items index inside with
    ⟨front, item, rfl, rfl⟩ | ⟨front, item, between, last, rfl, rfl⟩
  · have kept : front.Pairwise before := (List.pairwise_append.mp ordered).1
    simp [swapRemove_last, staysBehind, kept]
  · have behind : staysBehind (front ++ item :: (between ++ [last])) front.length = between := by
      simp [staysBehind, List.drop_append]
    obtain ⟨frontOrdered, tailOrdered, crossing⟩ := List.pairwise_append.mp ordered
    obtain ⟨_, innerOrdered⟩ := List.pairwise_cons.mp tailOrdered
    have betweenOrdered : between.Pairwise before := (List.pairwise_append.mp innerOrdered).1
    simp only [swapRemove_inner, getLast?_inner, behind, Option.mem_some_iff, forall_eq']
    constructor
    · intro after
      exact (List.pairwise_cons.mp (List.pairwise_append.mp after).2.1).1
    · intro precedes
      refine List.pairwise_append.mpr
        ⟨frontOrdered, List.pairwise_cons.mpr ⟨precedes, betweenOrdered⟩, ?_⟩
      intro first inFront second inTail
      apply crossing first inFront second
      rcases List.mem_cons.mp inTail with rfl | inBetween
      · simp
      · simp [inBetween]

end NcclExts.Foundation
