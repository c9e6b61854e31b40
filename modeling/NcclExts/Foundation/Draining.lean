import Mathlib
import NcclExts.Foundation.System

/-!
# Events that use something up

Some events of a system are its own: they need nobody's wish, and each of them uses up
some of a finite amount. Then no run of such events goes on for ever, and from every state
some run of them ends where none is possible.
-/

namespace NcclExts.Foundation.System

universe u v

variable {State : Type u} {Event : Type v} {system : System State Event} {own : Event → Prop}
  {amount : State → Nat}

/-- None of the system's own events is possible. -/
def Quiet (system : System State Event) (own : Event → Prop) (state : State) : Prop :=
  ∀ event, own event → system.step state event = none

/-- Each of the system's own events uses up some of an amount. -/
def Drains (system : System State Event) (own : Event → Prop) (amount : State → Nat) : Prop :=
  ∀ state event after, own event → system.step state event = some after →
    amount after < amount state

/-- As many own events as there is of the amount, at most. -/
theorem Drains.bounded (drains : system.Drains own amount) {events : List Event}
    (all : ∀ event ∈ events, own event) {state after : State}
    (replayed : system.replay state events = some after) :
    amount after + events.length ≤ amount state := by
  induction events generalizing state with
  | nil =>
    obtain rfl : state = after := by simpa [System.replay] using replayed
    exact Nat.le_refl _
  | cons event rest ih =>
    simp only [System.replay, List.foldlM_cons, Option.bind_eq_bind,
      Option.bind_eq_some_iff] at replayed
    obtain ⟨middle, stepped, remaining⟩ := replayed
    have first := drains state event middle (all event List.mem_cons_self) stepped
    have later := ih (fun other member => all other (List.mem_cons_of_mem _ member)) remaining
    rw [List.length_cons]
    omega

/-- Own events lead to where none is possible. -/
theorem Drains.comes_to_rest (drains : system.Drains own amount) (state : State) :
    ∃ events after, (∀ event ∈ events, own event) ∧ system.replay state events = some after ∧
      system.Quiet own after := by
  induction size : amount state using Nat.strong_induction_on generalizing state with
  | _ size ih =>
    subst size
    by_cases quiet : system.Quiet own state
    · exact ⟨[], state, by simp, rfl, quiet⟩
    · obtain ⟨event, isOwn, possible⟩ : ∃ event, own event ∧ system.step state event ≠ none := by
        simpa [Quiet] using quiet
      obtain ⟨middle, stepped⟩ := Option.ne_none_iff_exists'.mp possible
      obtain ⟨events, after, all, replayed, rest⟩ :=
        ih _ (drains state event middle isOwn stepped) middle rfl
      refine ⟨event :: events, after, ?_, ?_, rest⟩
      · intro other member
        rcases List.mem_cons.mp member with rfl | later
        · exact isOwn
        · exact all other later
      · rw [System.replay, List.foldlM_cons, stepped]
        exact replayed

end NcclExts.Foundation.System
