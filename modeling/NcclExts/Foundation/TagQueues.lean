import Mathlib
import NcclExts.Foundation.System

/-!
# Queues of tagged places

Places are put up with tags and taken by tag. There is one queue for each tag: places with
one tag are taken in the order they were put up, each of them once, and a tag that has no
place left is not taken. Nothing relates places with different tags.
-/

namespace NcclExts.Foundation

universe u v

variable {Tag : Type u} {Place : Type v} [DecidableEq Tag] [DecidableEq Place]

/-- The places with each tag, and how many of them were taken. -/
@[ext]
structure TagQueues (Tag : Type u) (Place : Type v) where
  places : Tag → List Place
  taken : Tag → Nat

/-- A place is put up, or the next place with a tag is taken. -/
inductive TagEvent (Tag : Type u) (Place : Type v) where
  | put (tag : Tag) (place : Place)
  | take (tag : Tag) (place : Place)
deriving DecidableEq

namespace TagQueues

/-- A place goes to the end of the queue of its tag; taking names the place it gets. -/
def step (queues : TagQueues Tag Place) : TagEvent Tag Place → Option (TagQueues Tag Place)
  | .put tag place =>
    some { queues with
      places := Function.update queues.places tag (queues.places tag ++ [place]) }
  | .take tag place =>
    if (queues.places tag)[queues.taken tag]? = some place then
      some { queues with taken := Function.update queues.taken tag (queues.taken tag + 1) }
    else none

end TagQueues

/-- All runs of tagged queues. -/
def tagQueues (Tag : Type u) (Place : Type v) [DecidableEq Tag] [DecidableEq Place] :
    System (TagQueues Tag Place) (TagEvent Tag Place) where
  starts := fun queues => queues = ⟨fun _ => [], fun _ => 0⟩
  step := TagQueues.step

namespace TagQueues

variable {queues : TagQueues Tag Place}

/-- Putting up many places, each with its tag. -/
theorem replay_put (queues : TagQueues Tag Place) (items : List (Tag × Place)) :
    (tagQueues Tag Place).replay queues (items.map fun item => .put item.1 item.2) =
      some { queues with
        places := fun tag => queues.places tag ++
          (items.filter fun item => item.1 = tag).map Prod.snd } := by
  induction items generalizing queues with
  | nil => simp [System.replay]
  | cons item rest ih =>
    have first : (tagQueues Tag Place).step queues (.put item.1 item.2) = some { queues with
        places := Function.update queues.places item.1 (queues.places item.1 ++ [item.2]) } := rfl
    rw [List.map_cons, System.replay, List.foldlM_cons, first]
    refine (ih _).trans ?_
    congr 2
    funext tag
    by_cases here : item.1 = tag
    · subst here
      simp
    · dsimp only
      rw [Function.update_of_ne (Ne.symm here), List.filter_cons_of_neg (by simpa using here)]

/-- Taking the next place with a tag. -/
theorem replay_take (queues : TagQueues Tag Place) {tag : Tag} {place : Place}
    (isNext : (queues.places tag)[queues.taken tag]? = some place) :
    (tagQueues Tag Place).replay queues [.take tag place] =
      some { queues with taken := Function.update queues.taken tag (queues.taken tag + 1) } := by
  simp [System.replay, tagQueues, step, isNext]

end TagQueues

/-! ## Telling which place is next -/

/-- A list that starts another without repetitions ends where it is known to end: before
the first item that it lacks, when it has all items before that. -/
theorem prefix_eq_of_lacks {α : Type u} {whole initial before rest : List α} {item : α}
    (isInitial : initial <+: whole) (cut : whole = before ++ item :: rest)
    (distinct : whole.Nodup) (lacks : item ∉ initial) (has : ∀ other ∈ before, other ∈ initial) :
    initial = before := by
  subst cut
  rcases List.prefix_or_prefix_of_prefix isInitial (List.prefix_append before (item :: rest)) with
    short | long
  · obtain ⟨missing, rfl⟩ := short
    cases missing with
    | nil => exact (List.append_nil initial).symm
    | cons first missing =>
      -- the first item that is missing is among those it has, so it is there twice
      have twice := has first (by simp)
      rw [List.append_assoc] at distinct
      exact absurd rfl ((List.nodup_append.mp distinct).2.2 first twice first (by simp))
  · obtain ⟨more, rfl⟩ := long
    cases more with
    | nil => exact List.append_nil before
    | cons first more =>
      obtain ⟨_, same⟩ := isInitial
      rw [List.append_assoc, List.append_cancel_left_eq, List.cons_append,
        List.cons.injEq] at same
      exact absurd (by simp [same.1]) lacks

end NcclExts.Foundation
