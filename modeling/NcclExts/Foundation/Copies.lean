import Mathlib
import NcclExts.Foundation.Interleaving

/-!
# Copying from one memory to another

Copies are made one after the other, each from a place of one memory to a place of another.
Where the copies that go to a place all bring the same value, it does not show how many they
are, in which order they are made and which of them are made again.
-/

namespace NcclExts.Foundation

section

variable {α β : Type} [DecidableEq α]

/-- What copies leave in a memory; each goes from a place of the source to one of the memory. -/
def copyAll (source memory : α → β) (copies : List (α × α)) : α → β :=
  writeAll memory (copies.map fun copy => (copy.2, source copy.1))

/-- A place that no copy goes to keeps what it holds. -/
theorem copyAll_of_notMem {source memory : α → β} {copies : List (α × α)} {place : α}
    (untouched : ∀ copy ∈ copies, copy.2 ≠ place) :
    copyAll source memory copies place = memory place := by
  apply writeAll_of_notMem
  intro member
  rw [List.map_map] at member
  obtain ⟨copy, isCopy, rfl⟩ := List.mem_map.mp member
  exact untouched copy isCopy rfl

/-- A place holds what all copies that go there bring. -/
theorem copyAll_of_all {source memory : α → β} {copies : List (α × α)} {place : α} {value : β}
    (same : ∀ copy ∈ copies, copy.2 = place → source copy.1 = value)
    (held : memory place = value ∨ ∃ copy ∈ copies, copy.2 = place) :
    copyAll source memory copies place = value := by
  induction copies generalizing memory with
  | nil => simpa [copyAll] using held
  | cons copy rest ih =>
    change copyAll source (Function.update memory copy.2 (source copy.1)) rest place = value
    refine ih (fun other member => same other (List.mem_cons_of_mem _ member)) ?_
    by_cases here : copy.2 = place
    · left
      rw [← here, Function.update_self]
      exact same copy List.mem_cons_self here
    · rw [Function.update_of_ne (Ne.symm here)]
      rcases held with held | ⟨other, member, there⟩
      · exact .inl held
      · rcases List.mem_cons.mp member with rfl | later
        · exact absurd there here
        · exact .inr ⟨other, later, there⟩

end

/-! ## Places that follow one another -/

/-- Some places of a memory that follow one another; none, where the length is negative. -/
structure Span where
  start : Int
  length : Int

namespace Span

def Holds (span : Span) (place : Int) : Prop :=
  span.start ≤ place ∧ place < span.start + span.length

/-- Two spans have no place in common. -/
def Apart (span other : Span) : Prop :=
  span.length ≤ 0 ∨ other.length ≤ 0 ∨ span.start + span.length ≤ other.start ∨
    other.start + other.length ≤ span.start

instance (span : Span) (place : Int) : Decidable (span.Holds place) :=
  inferInstanceAs (Decidable (_ ∧ _))

instance (span other : Span) : Decidable (span.Apart other) :=
  inferInstanceAs (Decidable (_ ∨ _ ∨ _ ∨ _))

theorem Apart.symm {span other : Span} (apart : span.Apart other) : other.Apart span := by
  unfold Apart at *
  omega

theorem Apart.not_both {span other : Span} (apart : span.Apart other) {place : Int}
    (here : span.Holds place) : ¬ other.Holds place := by
  unfold Apart at apart
  unfold Holds at *
  omega

end Span

end NcclExts.Foundation
