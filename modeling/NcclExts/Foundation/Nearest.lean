import Mathlib.Data.Nat.Dist

/-!
# The nearest mark

A value is looked up in an increasing row of marks: the mark nearest to it, and the
larger of two that are equally near. There is one such mark at most, it lies among the
two marks around the value, and it does not fall when the value grows.
-/

namespace NcclExts.Foundation

/-- The first `size` marks increase. -/
def Increasing (marks : Nat → Nat) (size : Nat) : Prop :=
  ∀ i j, i < j → j < size → marks i < marks j

/-- The mark at `i` is nearest to the value, and the last of those that are. -/
structure NearestMark (marks : Nat → Nat) (size value i : Nat) : Prop where
  inside : i < size
  near : ∀ j, j < size → (marks i).dist value ≤ (marks j).dist value
  latest : ∀ j, j < size → (marks j).dist value = (marks i).dist value → j ≤ i

variable {marks : Nat → Nat} {size value i : Nat}

/-- Marks up to an index are at most the mark there. -/
theorem Increasing.le (increasing : Increasing marks size) {i j : Nat} (before : i ≤ j)
    (inside : j < size) : marks i ≤ marks j := by
  rcases Nat.eq_or_lt_of_le before with rfl | before
  · exact Nat.le_refl _
  · exact Nat.le_of_lt (increasing i j before inside)

/-- A larger value has no smaller nearest mark: between the two marks lies their middle,
and one value is before it and the other not. -/
theorem NearestMark.mono (increasing : Increasing marks size) {more j : Nat}
    (nearest : NearestMark marks size value i) (nearestMore : NearestMark marks size more j)
    (grown : value ≤ more) : i ≤ j := by
  by_contra falls
  have smaller := increasing j i (by omega) nearest.inside
  have upper := nearest.near j nearestMore.inside
  have lower := nearestMore.near i nearest.inside
  have tied := nearestMore.latest i nearest.inside
  unfold Nat.dist at upper lower tied
  omega

/-- The nearest mark is one. -/
theorem NearestMark.unique (increasing : Increasing marks size) {j : Nat}
    (nearest : NearestMark marks size value i) (other : NearestMark marks size value j) :
    i = j :=
  Nat.le_antisymm (nearest.mono increasing other (Nat.le_refl _))
    (other.mono increasing nearest (Nat.le_refl _))

/-- A mark is nearest when the value is past the middle between the mark before and it,
and before the middle between it and the mark behind. -/
theorem NearestMark.of_middles (increasing : Increasing marks size) (inside : i < size)
    (past : 0 < i → marks (i - 1) + marks i ≤ 2 * value)
    (before : i + 1 < size → 2 * value < marks i + marks (i + 1)) :
    NearestMark marks size value i := by
  have apart : ∀ j, j < size → (marks i).dist value ≤ (marks j).dist value ∧
      (i < j → (marks i).dist value < (marks j).dist value) := by
    intro j known
    unfold Nat.dist
    rcases Nat.lt_trichotomy j i with less | rfl | more
    · have low := increasing.le (Nat.le_sub_one_of_lt less) (by omega)
      have step := increasing (i - 1) i (by omega) inside
      have middle := past (by omega)
      omega
    · omega
    · have high : marks (i + 1) ≤ marks j := increasing.le (Nat.succ_le_of_lt more) known
      have step := increasing i (i + 1) (by omega) (by omega)
      have middle := before (by omega)
      omega
  refine ⟨inside, fun j known => (apart j known).1, fun j known same => ?_⟩
  by_contra behind
  have further := (apart j known).2 (by omega)
  omega

end NcclExts.Foundation
