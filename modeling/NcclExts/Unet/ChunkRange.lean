import NcclExts.Foundation.Chunks
import NcclExts.Unet.ChunkBytes

/-!
# Chunk arithmetic in an `int`

Here every `int` expression of the loop over the queue pairs is checked: an expression
whose value is no `int` has no result. The rounding adds before it divides, twice, and
the offset moves on by whole chunks, so it ends at the number of queue pairs times the
chunk, which is the least multiple of 128 bytes that covers the send.
-/

namespace NcclExts.Unet

open NcclExts.Foundation

/-! ## Checked arithmetic -/

/-- An `int` expression with this value. -/
def checkInt (value : Int) : Option Int :=
  if -2 ^ 31 ≤ value ∧ value < 2 ^ 31 then some value else none

/-- `DIVUP`. -/
def checkedDivUp (x y : Int) : Option Int := do
  let sum ← checkInt (x + y)
  let less ← checkInt (sum - 1)
  checkInt (less.tdiv y)

/-- `DIVUP(DIVUP(size, nqps), align) * align`. -/
def checkedChunk (size : Int) (nqps : Nat) : Option Int := do
  let share ← checkedDivUp size nqps
  let rows ← checkedDivUp share 128
  checkInt (rows * 128)

/-- The loop over the queue pairs for one send, for the given number of them and from an
offset on: the lengths that are posted. -/
def chunkLoop (size : Int) (nqps : Nat) : Nat → Int → Option (List Int)
  | 0, _ => some []
  | count + 1, offset => do
    let chunk ← checkedChunk size nqps
    let left ← checkInt (size - offset)
    let length := min left chunk
    let next ← checkInt (offset + chunk)
    let rest ← chunkLoop size nqps count next
    pure (if length ≤ 0 then rest else length :: rest)

/-- The sizes whose chunks an `int` can hold: those that the largest chunks whose sum is
an `int` cover, and on one queue pair those that leave room for the rounding. -/
def ChunksFit (size : Int) (nqps : Nat) : Prop :=
  size ≤ (2 ^ 31 - 1) / (128 * nqps : Int) * 128 * nqps ∧ (nqps = 1 → size + 128 < 2 ^ 31)

instance (size : Int) (nqps : Nat) : Decidable (ChunksFit size nqps) :=
  inferInstanceAs (Decidable (_ ∧ _))

theorem checkInt_eq_some {value result : Int} :
    checkInt value = some result ↔ -2 ^ 31 ≤ value ∧ value < 2 ^ 31 ∧ result = value := by
  unfold checkInt
  split
  next inside =>
    rw [Option.some.injEq]
    exact ⟨fun same => ⟨inside.1, inside.2, same.symm⟩, fun ⟨_, _, same⟩ => same.symm⟩
  next outside =>
    constructor
    · simp
    · exact fun ⟨low, high, _⟩ => absurd ⟨low, high⟩ outside

/-! ## Rounding in exact arithmetic -/

/-- Dividing rounded up is the least that covers. -/
theorem divUp_le_iff {x y z : Int} (some : 0 < y) (nonneg : 0 ≤ x) :
    divUp id x y ≤ z ↔ x ≤ z * y := by
  have quotient : divUp id x y = (x + y - 1) / y :=
    Int.tdiv_eq_ediv_of_nonneg (by simp only [id]; omega)
  rw [quotient, ← Int.lt_add_one_iff, Int.ediv_lt_iff_lt_mul some, Int.add_mul, Int.one_mul]
  omega

theorem divUp_nonneg {x y : Int} (some : 0 < y) (nonneg : 0 ≤ x) : 0 ≤ divUp id x y :=
  Int.tdiv_nonneg (by simp only [id]; omega) (by omega)

/-- The chunk is a multiple of 128. -/
theorem chunkSize_eq (size : Int) (nqps : Nat) :
    chunkSize id size nqps = divUp id (divUp id size nqps) 128 * 128 := rfl

theorem chunkSize_nonneg {size : Int} {nqps : Nat} (some : 0 < nqps) (nonneg : 0 ≤ size) :
    0 ≤ chunkSize id size nqps := by
  have share := divUp_nonneg (by omega : (0 : Int) < nqps) nonneg
  have rows := divUp_nonneg (by omega : (0 : Int) < 128) share
  rw [chunkSize_eq]
  omega

/-- The chunks cover the send, and no smaller multiple of 128 does. -/
theorem rows_le_iff {size : Int} {nqps : Nat} {rows : Int} (some : 0 < nqps)
    (nonneg : 0 ≤ size) :
    divUp id (divUp id size nqps) 128 ≤ rows ↔ size ≤ rows * 128 * nqps := by
  rw [divUp_le_iff (by omega) (divUp_nonneg (by omega) nonneg), divUp_le_iff (by omega) nonneg]

theorem chunkSize_covers {size : Int} {nqps : Nat} (some : 0 < nqps) (nonneg : 0 ≤ size) :
    size ≤ nqps * chunkSize id size nqps := by
  have covers := (rows_le_iff some nonneg).mp (Int.le_refl _)
  rw [chunkSize_eq, Int.mul_comm]
  exact covers

/-- The end of the last chunk is an `int` exactly for sizes that chunks of so many rows
cover. -/
theorem chunks_end_iff {size : Int} {nqps : Nat} (some : 0 < nqps) (nonneg : 0 ≤ size) :
    nqps * chunkSize id size nqps < 2 ^ 31 ↔
      size ≤ (2 ^ 31 - 1) / (128 * nqps : Int) * 128 * nqps := by
  rw [← rows_le_iff some nonneg, Int.le_ediv_iff_mul_le (by omega), chunkSize_eq]
  have same : divUp id (divUp id size nqps) 128 * (128 * nqps) =
      nqps * (divUp id (divUp id size nqps) 128 * 128) := by ring
  rw [same]
  omega

/-! ## The checked chunk -/

/-- A checked rounding has a result when the sum is an `int`. -/
theorem checkedDivUp_eq_some {x y result : Int} (some : 0 < y) (nonneg : 0 ≤ x) :
    checkedDivUp x y = .some result ↔ x + y < 2 ^ 31 ∧ result = divUp id x y := by
  have least := divUp_nonneg some nonneg
  have most : divUp id x y ≤ x + y := (divUp_le_iff some nonneg).mpr (by nlinarith)
  have quotient : (x + y - 1).tdiv y = divUp id x y := rfl
  simp only [checkedDivUp, bind, Option.bind_eq_some_iff, checkInt_eq_some]
  constructor
  · rintro ⟨_, ⟨_, high, rfl⟩, _, ⟨_, _, rfl⟩, _, _, rfl⟩
    exact ⟨high, rfl⟩
  · rintro ⟨high, rfl⟩
    refine ⟨_, ⟨by omega, high, rfl⟩, _, ⟨by omega, by omega, rfl⟩, ?_, ?_, rfl⟩
    · rw [quotient]
      omega
    · rw [quotient]
      omega

/-- A checked chunk has a result when both sums and the product are. -/
theorem checkedChunk_eq_some {size result : Int} {nqps : Nat} (some : 0 < nqps)
    (nonneg : 0 ≤ size) :
    checkedChunk size nqps = .some result ↔
      size + nqps < 2 ^ 31 ∧ divUp id size nqps + 128 < 2 ^ 31 ∧
        chunkSize id size nqps < 2 ^ 31 ∧ result = chunkSize id size nqps := by
  have share := divUp_nonneg (by omega : (0 : Int) < nqps) nonneg
  have least := chunkSize_nonneg some nonneg
  simp only [checkedChunk, bind, Option.bind_eq_some_iff, checkInt_eq_some, chunkSize_eq]
    at least ⊢
  constructor
  · rintro ⟨_, first, _, second, _, high, rfl⟩
    obtain ⟨sum, rfl⟩ := (checkedDivUp_eq_some (by omega) nonneg).mp first
    obtain ⟨sum', rfl⟩ := (checkedDivUp_eq_some (by omega) share).mp second
    exact ⟨sum, sum', high, rfl⟩
  · rintro ⟨sum, sum', high, rfl⟩
    exact ⟨_, (checkedDivUp_eq_some (by omega) nonneg).mpr ⟨sum, rfl⟩, _,
      (checkedDivUp_eq_some (by omega) share).mpr ⟨sum', rfl⟩, by omega, high, rfl⟩

/-- Sizes whose chunks fit have a checked chunk. -/
theorem ChunksFit.chunk {size : Int} {nqps : Nat} (fits : ChunksFit size nqps)
    (some : 0 < nqps) (few : nqps ≤ maxQps) (nonneg : 0 ≤ size) (small : size < 2 ^ 31) :
    checkedChunk size nqps = .some (chunkSize id size nqps) := by
  obtain ⟨covered, one⟩ := fits
  have last := (chunks_end_iff some nonneg).mpr covered
  have least := chunkSize_nonneg some nonneg
  have covers := chunkSize_covers some nonneg
  have positive : (1 : Int) ≤ nqps := by omega
  have chunk : chunkSize id size nqps < 2 ^ 31 := by nlinarith
  have rows := chunkSize_eq size nqps
  have share : divUp id size nqps ≤ chunkSize id size nqps := by
    rw [rows]
    exact (divUp_le_iff (by omega) (divUp_nonneg (by omega) nonneg)).mp (Int.le_refl _)
  refine (checkedChunk_eq_some some nonneg).mpr ⟨?_, ?_, chunk, rfl⟩
  · -- the end is a multiple of 128, and of 16384 with the most queue pairs
    obtain ⟨total, isTotal⟩ : ∃ total, nqps * divUp id (divUp id size nqps) 128 = total :=
      ⟨_, rfl⟩
    have multiple : nqps * chunkSize id size nqps = total * 128 := by
      rw [rows, ← isTotal]
      ring
    unfold maxQps at few
    by_cases most : nqps = 128
    · subst most
      omega
    · omega
  · by_cases single : nqps = 1
    · have least : divUp id size nqps ≤ size :=
        (divUp_le_iff (by omega) nonneg).mpr (by rw [single]; omega)
      have room := one single
      omega
    · have twice : 2 * chunkSize id size nqps ≤ nqps * chunkSize id size nqps :=
        Int.mul_le_mul_of_nonneg_right (by omega) least
      omega

/-! ## The loop -/

/-- A loop that has a result checked its chunk, and the end of its last one. -/
theorem chunkLoop_end {size : Int} {nqps : Nat} (some : 0 < nqps) (nonneg : 0 ≤ size)
    {count : Nat} (more : 0 < count) {offset : Int} {lengths : List Int}
    (posted : chunkLoop size nqps count offset = .some lengths) :
    checkedChunk size nqps = .some (chunkSize id size nqps) ∧
      offset + count * chunkSize id size nqps < 2 ^ 31 := by
  induction count generalizing offset lengths with
  | zero => omega
  | succ count ih =>
    simp only [chunkLoop, bind, Option.bind_eq_some_iff, checkInt_eq_some] at posted
    obtain ⟨chunk, chunked, _, _, _, ⟨_, high, rfl⟩, rest, later, _⟩ := posted
    obtain ⟨_, _, _, rfl⟩ := (checkedChunk_eq_some some nonneg).mp chunked
    refine ⟨chunked, ?_⟩
    push_cast
    rw [Int.add_mul, Int.one_mul]
    rcases Nat.eq_zero_or_pos count with rfl | positive
    · push_cast
      omega
    · have last := (ih positive later).2
      omega

/-- A loop whose offsets are all `int`s posts the positive lengths. -/
theorem chunkLoop_eq {size chunk : Int} {nqps : Nat}
    (chunked : checkedChunk size nqps = some chunk) (nonneg : 0 ≤ size) (small : size < 2 ^ 31)
    (least : 0 ≤ chunk) (j count : Nat) (last : (j + count : Nat) * chunk < 2 ^ 31) :
    chunkLoop size nqps count (j * chunk) =
      some (((List.range' j count).map fun (i : Nat) => min (size - i * chunk) chunk).filter
        (0 < ·)) := by
  induction count generalizing j with
  | zero => rfl
  | succ count ih =>
    have offset : 0 ≤ (j : Int) * chunk := Int.mul_nonneg (by omega) least
    have total : ((j + (count + 1) : Nat) : Int) * chunk =
        j * chunk + chunk + count * chunk := by
      push_cast
      ring
    have later : 0 ≤ (count : Int) * chunk := Int.mul_nonneg (by omega) least
    have left : checkInt (size - j * chunk) = some (size - j * chunk) :=
      checkInt_eq_some.mpr ⟨by omega, by omega, rfl⟩
    have next : checkInt (j * chunk + chunk) = some (((j + 1 : Nat) : Int) * chunk) :=
      checkInt_eq_some.mpr ⟨by omega, by omega, by push_cast; ring⟩
    have rest := ih (j + 1) (by rwa [Nat.add_assoc, Nat.add_comm 1 count])
    rw [chunkLoop, List.range'_succ, List.map_cons]
    simp only [bind, chunked, left, next, Option.bind_some, rest, pure]
    by_cases empty : min (size - j * chunk) chunk ≤ 0
    · rw [if_pos empty, List.filter_cons_of_neg
        (by rw [decide_eq_true_eq]; exact Int.not_lt.mpr empty)]
    · rw [if_neg empty, List.filter_cons_of_pos (by simpa using empty)]

/-- The positive lengths of chunks that cover a send sum to its size. -/
theorem sum_lengths {size chunk : Int} {count : Nat} (nonneg : 0 ≤ size) (least : 0 ≤ chunk)
    (covers : size ≤ count * chunk) :
    (((List.range' 0 count).map fun (i : Nat) => min (size - i * chunk) chunk).filter
      (0 < ·)).sum = size := by
  obtain ⟨bytes, rfl⟩ := Int.eq_ofNat_of_zero_le nonneg
  obtain ⟨width, rfl⟩ := Int.eq_ofNat_of_zero_le least
  have positive (lengths : List Int) :
      (lengths.filter (0 < ·)).sum = (lengths.map (max 0)).sum := by
    induction lengths with
    | nil => rfl
    | cons length rest ih =>
      by_cases some : 0 < length
      · rw [List.filter_cons_of_pos (by simpa using some), List.map_cons, List.sum_cons,
          List.sum_cons, ih, max_eq_right (Int.le_of_lt some)]
      · rw [List.filter_cons_of_neg (by simpa using some), List.map_cons, List.sum_cons, ih,
          max_eq_left (by omega), Int.zero_add]
  have pieces : (List.range count).map
        (fun (i : Nat) => max 0 (min ((bytes : Int) - i * width) width)) =
      (List.range count).map (fun (i : Nat) => ((min width (bytes - i * width) : Nat) : Int)) := by
    apply List.map_congr_left
    intro i _
    have start : ((i * width : Nat) : Int) = i * width := by push_cast; rfl
    omega
  have sum := sum_piece_length (by exact_mod_cast covers : bytes ≤ count * width)
  rw [positive, List.map_map, ← List.range_eq_range']
  simp only [Function.comp_def]
  rw [pieces]
  calc ((List.range count).map (fun (i : Nat) => ((min width (bytes - i * width) : Nat) : Int))).sum
      = (((List.range count).map fun i => min width (bytes - i * width)).sum : Nat) := by
        rw [Nat.cast_list_sum, List.map_map]
        rfl
    _ = bytes := by rw [sum]

/-- For every size of a send and every number of queue pairs of a message, all `int`
expressions of the loop are `int`s and the posted lengths sum to the size exactly when
the chunks fit. -/
theorem chunk_arithmetic_range (size : Int32) (nqps : Nat) (nonneg : 0 ≤ size.toInt)
    (some : 1 ≤ nqps) (few : nqps ≤ maxQps) :
    (∃ lengths, chunkLoop size.toInt nqps nqps 0 = .some lengths ∧ lengths.sum = size.toInt) ↔
      ChunksFit size.toInt nqps := by
  have small := Int32.toInt_lt size
  constructor
  · rintro ⟨lengths, posted, _⟩
    obtain ⟨chunked, last⟩ := chunkLoop_end some nonneg some posted
    rw [Int.zero_add] at last
    obtain ⟨_, rounding, _, _⟩ := (checkedChunk_eq_some some nonneg).mp chunked
    refine ⟨(chunks_end_iff some nonneg).mp last, ?_⟩
    rintro rfl
    have whole : size.toInt ≤ divUp id size.toInt (1 : Nat) * (1 : Nat) :=
      (divUp_le_iff (by omega) nonneg).mp (Int.le_refl _)
    omega
  · intro fits
    have chunked := fits.chunk some few nonneg small
    have last := (chunks_end_iff some nonneg).mpr fits.1
    have least := chunkSize_nonneg some nonneg
    have posted := chunkLoop_eq chunked nonneg small least 0 nqps (by rwa [Nat.zero_add])
    rw [Nat.cast_zero, Int.zero_mul] at posted
    exact ⟨_, posted, sum_lengths nonneg least (chunkSize_covers some nonneg)⟩

/-- Three queue pairs carry a send of a million bytes. -/
theorem chunk_arithmetic_range_million : ∃ lengths,
    chunkLoop (1000000 : Int32).toInt 3 3 0 = some lengths ∧
      lengths.sum = (1000000 : Int32).toInt :=
  (chunk_arithmetic_range 1000000 3 (by decide) (by decide) (by decide)).mpr (by decide)

/-- The largest send on one queue pair: the rounding is no `int`. In the machine the
chunk comes out negative, so that the message carries nothing but the size it
announces. -/
theorem chunk_arithmetic_range_largest :
    (¬ ∀ (size : Int32) (nqps : Nat), 0 ≤ size.toInt → 1 ≤ nqps → nqps ≤ maxQps →
      ∃ lengths, chunkLoop size.toInt nqps nqps 0 = some lengths ∧
        lengths.sum = size.toInt) ∧
      ∀ req : NcclIbRequest, req.size = Int32.maxValue → req.offset = 0 →
        chunkLength wrapInt req 1 ≤ 0 := by
  constructor
  · intro everySizePosted
    obtain ⟨lengths, posted, _⟩ :=
      everySizePosted Int32.maxValue 1 (by decide) (by decide) (by decide)
    have stopped : chunkLoop Int32.maxValue.toInt 1 1 0 = none := by decide
    rw [stopped] at posted
    simp at posted
  · intro req size offset
    rw [chunkLength, size, offset]
    decide

end NcclExts.Unet
