import Mathlib

/-!
# Cutting a range into chunks

A range of positions is cut into pieces of one length, taken from the start on; the
last piece that is not empty may be shorter, and the pieces behind the end are empty.
Together the first pieces are the range, each position once and in order.
-/

namespace NcclExts.Foundation

/-- The positions of a range that lie in the given piece. -/
def piece (size chunk index : Nat) : List Nat :=
  List.range' (index * chunk) (min chunk (size - index * chunk))

@[simp] theorem piece_length (size chunk index : Nat) :
    (piece size chunk index).length = min chunk (size - index * chunk) := List.length_range'

/-- The first pieces are the start of the range. -/
theorem flatMap_piece (size chunk count : Nat) :
    (List.range count).flatMap (piece size chunk) = List.range (min size (count * chunk)) := by
  induction count with
  | zero => simp
  | succ count ih =>
    rw [List.range_succ, List.flatMap_append, ih, List.flatMap_singleton, piece,
      Nat.add_mul, Nat.one_mul]
    by_cases inside : count * chunk ≤ size
    · rw [Nat.min_eq_right inside, List.range_eq_range', List.range_eq_range']
      have joined := @List.range'_append_1 0 (count * chunk) (min chunk (size - count * chunk))
      rw [Nat.zero_add] at joined
      rw [joined]
      congr 1
      omega
    · have empty : min chunk (size - count * chunk) = 0 := by omega
      have whole : min size (count * chunk) = min size (count * chunk + chunk) := by omega
      rw [empty, whole, List.range'_zero, List.append_nil]

/-- Pieces that reach the end are the whole range. -/
theorem flatMap_piece_of_le {size chunk count : Nat} (covers : size ≤ count * chunk) :
    (List.range count).flatMap (piece size chunk) = List.range size := by
  rw [flatMap_piece, Nat.min_eq_left covers]

/-- So their lengths sum to its length. -/
theorem sum_piece_length {size chunk count : Nat} (covers : size ≤ count * chunk) :
    ((List.range count).map fun index => min chunk (size - index * chunk)).sum = size := by
  have lengths := congrArg List.length (flatMap_piece_of_le covers)
  simpa [List.length_flatMap] using lengths

end NcclExts.Foundation
