import Mathlib
import NcclExts.Foundation.System

/-!
# Runs that are noted down

A system can be run with a record beside it: each step adds notes to the record, and no
step reads it. The runs are those of the system.
-/

namespace NcclExts.Foundation

universe u v w

variable {State : Type u} {Event : Type v} {Note : Type w}

/-- A state, and the notes of the run so far. -/
structure Noted (State : Type u) (Note : Type w) where
  state : State
  notes : List Note

/-- The system with a record of what `note` says of each step. -/
def recording (system : System State Event) (note : State → Event → State → List Note) :
    System (Noted State Note) Event where
  starts := fun noted => system.starts noted.state ∧ noted.notes = []
  step := fun noted event => (system.step noted.state event).map fun after =>
    ⟨after, noted.notes ++ note noted.state event after⟩

namespace Noted

variable {system : System State Event} {note : State → Event → State → List Note}
  {permitted : State → Event → Prop}

/-- The states of a noted run are those of a run. -/
theorem reaches {noted : Noted State Note}
    (reached : (recording system note).Reaches (fun noted => permitted noted.state)
      noted) : system.Reaches permitted noted.state := by
  induction reached with
  | start first => exact .start first.1
  | next _ allowed stepped ih =>
    obtain ⟨_, within, rfl⟩ := Option.map_eq_some_iff.mp stepped
    exact ih.next allowed within

end Noted

/-! ## Lists that are split by where their items are -/

/-- A list is what its parts are together, where each item is in one of the parts. -/
theorem perm_flatMap_filter {α : Type u} {items : List α} {count : Nat} {part : Nat → α → Bool}
    (one : ∀ item ∈ items, ∃ k, k < count ∧ ∀ k', part k' item = decide (k' = k)) :
    ((List.range count).flatMap fun k => items.filter (part k)).Perm items := by
  induction items with
  | nil => simp
  | cons item rest ih =>
    obtain ⟨k, below, only⟩ := one item List.mem_cons_self
    have split : (fun k => (item :: rest).filter (part k)) =
        fun k => (if part k item then [item] else []) ++ rest.filter (part k) := by
      funext k
      by_cases here : part k item = true <;> simp [here]
    have alone : ((List.range count).flatMap fun k' => if part k' item then [item] else []) =
        [item] := by
      have cut : List.range count =
          List.range k ++ k :: (List.range (count - k - 1)).map (k + 1 + ·) := by
        have sizes : count = k + (1 + (count - k - 1)) := by omega
        conv_lhs => rw [sizes, List.range_add, List.range_add]
        simp [Function.comp_def, Nat.add_assoc]
      rw [cut, List.flatMap_append, List.flatMap_cons]
      have before : ((List.range k).flatMap fun k' => if part k' item then [item] else []) =
          [] := by
        rw [List.flatMap_eq_nil_iff]
        intro k' member
        rw [only, if_neg (by simpa using Nat.ne_of_lt (List.mem_range.mp member))]
      have behind : (((List.range (count - k - 1)).map (k + 1 + ·)).flatMap
          fun k' => if part k' item then [item] else []) = [] := by
        rw [List.flatMap_eq_nil_iff]
        intro k' member
        obtain ⟨more, _, rfl⟩ := List.mem_map.mp member
        rw [only, if_neg (by simp; omega)]
      rw [before, behind, only, if_pos (by simp)]
      rfl
    rw [split]
    refine (List.flatMap_append_perm _ _ _).symm.trans ?_
    rw [alone]
    exact (ih fun other member => one other (List.mem_cons_of_mem _ member)).cons item

/-- The one item with a key, where all keys differ. -/
theorem filter_eq_singleton {α : Type u} {β : Type v} [DecidableEq β] {key : α → β}
    {items : List α} (distinct : (items.map key).Nodup) {item : α} (member : item ∈ items) :
    items.filter (fun other => key other = key item) = [item] := by
  obtain ⟨before, behind, rfl⟩ := List.append_of_mem member
  rw [List.map_append, List.map_cons, List.nodup_append] at distinct
  obtain ⟨_, rest, apart⟩ := distinct
  have none {others : List α} (differ : ∀ other ∈ others, key other ≠ key item) :
      others.filter (fun other => key other = key item) = [] := by
    rw [List.filter_eq_nil_iff]
    intro other isOther
    simpa using differ other isOther
  rw [List.filter_append, List.filter_cons_of_pos (by simp), none, none, List.nil_append]
  · intro other isOther same
    exact (List.nodup_cons.mp rest).1 (same ▸ List.mem_map_of_mem isOther)
  · intro other isOther same
    exact apart _ (List.mem_map_of_mem isOther) _ List.mem_cons_self same

end NcclExts.Foundation
