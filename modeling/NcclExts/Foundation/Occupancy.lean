import Mathlib

/-!
# Counting by holders

Items that each hold some of finitely many things can be counted by what they hold.
When no thing is held by more than so many items, the items together hold at most so
many times the number of things, and if each of them holds something there are at
most as many items.
-/

namespace NcclExts.Foundation

/-- Items that each hold something are at most as many as what they hold. -/
theorem length_le_sum {α : Type} (items : List (List α))
    (some : ∀ item ∈ items, 0 < item.length) : items.length ≤ (items.map List.length).sum := by
  induction items with
  | nil => simp
  | cons item rest ih =>
    have positive := some item List.mem_cons_self
    have others := ih fun other member => some other (List.mem_cons_of_mem _ member)
    simp only [List.length_cons, List.map_cons, List.sum_cons]
    omega

/-- If they hold no more than there are items, each holds one thing. -/
theorem length_eq_one {α : Type} {items : List (List α)} (some : ∀ item ∈ items, 0 < item.length)
    (few : (items.map List.length).sum ≤ items.length) : ∀ item ∈ items, item.length = 1 := by
  induction items with
  | nil => simp
  | cons item rest ih =>
    obtain ⟨here, others⟩ := List.forall_mem_cons.mp some
    have least := length_le_sum rest others
    simp only [List.map_cons, List.sum_cons, List.length_cons] at few
    exact List.forall_mem_cons.mpr ⟨by omega, ih others (by omega)⟩

variable {α : Type} [Fintype α] [DecidableEq α]

/-- What the items hold, counted by item and by thing. -/
theorem sum_length_eq {items : List (List α)} (distinct : ∀ item ∈ items, item.Nodup) :
    (items.map List.length).sum = ∑ thing, items.countP (fun item => thing ∈ item) := by
  induction items with
  | nil => simp
  | cons item rest ih =>
    have nodup : item.Nodup := distinct item List.mem_cons_self
    have held : ∑ thing, (if thing ∈ item then 1 else 0) = item.length := by
      have filtered : Finset.univ.filter (fun thing => thing ∈ item) = item.toFinset := by
        ext thing
        simp
      rw [← Finset.sum_filter, filtered, ← Finset.card_eq_sum_ones,
        List.toFinset_card_of_nodup nodup]
    have others := ih fun other member => distinct other (List.mem_cons_of_mem _ member)
    simp only [List.map_cons, List.sum_cons, List.countP_cons, decide_eq_true_eq,
      Finset.sum_add_distrib, held, others]
    omega

/-- If no thing is held by more than `most` items, the items hold at most so many times
the number of things. -/
theorem sum_length_le (items : List (List α)) (most : Nat)
    (distinct : ∀ item ∈ items, item.Nodup)
    (few : ∀ thing, items.countP (fun item => thing ∈ item) ≤ most) :
    (items.map List.length).sum ≤ Fintype.card α * most := by
  rw [sum_length_eq distinct]
  calc ∑ thing, items.countP (fun item => thing ∈ item)
      ≤ ∑ _thing : α, most := Finset.sum_le_sum fun thing _ => few thing
    _ = Fintype.card α * most := by simp

end NcclExts.Foundation
