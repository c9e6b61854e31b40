import Mathlib

/-!
# Result codes and page geometry

The result codes are those of the plugin interface. Addresses are 64-bit words,
held as natural numbers; arithmetic on them is reduced modulo `2 ^ 64` where the
program computes on `uintptr_t`.
-/

namespace NcclExts.Unet

/-- `ncclResult_t`, without the codes no modelled function returns. -/
inductive NcclResult where
  | ncclSuccess
  | ncclSystemError
  | ncclInternalError
  | ncclRemoteError
deriving DecidableEq, Repr

/-- Number of 64-bit words. -/
def wordRange : Nat := 2 ^ 64

/-- `sysconf(_SC_PAGESIZE)`: a power of two that fits a word. -/
structure PageSize where
  shift : Nat
  fits : shift < 64
deriving DecidableEq

/-- The page size in bytes. -/
def PageSize.bytes (page : PageSize) : Nat := 2 ^ page.shift

theorem PageSize.positive (page : PageSize) : 0 < page.bytes := Nat.two_pow_pos _

/-- Pages of 4096 bytes. -/
def PageSize.small : PageSize := ⟨12, by decide⟩

/-- `(uintptr_t)data & -pageSize`. -/
def PageSize.floor (page : PageSize) (data : Nat) : Nat := data &&& (wordRange - page.bytes)

/-- `((uintptr_t)data + size - addr + pageSize-1)/pageSize`, each sum and
difference taken modulo the word range. -/
def PageSize.count (page : PageSize) (data size : Nat) : Nat :=
  (data + size + (wordRange - page.floor data) + (page.bytes - 1)) % wordRange / page.bytes

/-- Masking the low bits of a word rounds it down to a page boundary. -/
theorem PageSize.floor_eq (page : PageSize) (data : Nat) (word : data < wordRange) :
    page.floor data = data / page.bytes * page.bytes := by
  have mask : wordRange - page.bytes = (2 ^ (64 - page.shift) - 1) <<< page.shift := by
    have split : (2 : Nat) ^ 64 = 2 ^ (64 - page.shift) * 2 ^ page.shift := by
      rw [← Nat.pow_add, Nat.sub_add_cancel (Nat.le_of_lt page.fits)]
    rw [Nat.shiftLeft_eq, Nat.sub_mul, Nat.one_mul, wordRange, split, PageSize.bytes]
  have rounded : data / page.bytes * page.bytes = (data >>> page.shift) <<< page.shift := by
    rw [Nat.shiftLeft_eq, Nat.shiftRight_eq_div_pow, PageSize.bytes]
  rw [PageSize.floor, mask, rounded]
  apply Nat.eq_of_testBit_eq
  intro bit
  simp only [Nat.testBit_and, Nat.testBit_shiftLeft, Nat.testBit_two_pow_sub_one,
    Nat.testBit_shiftRight]
  by_cases low : bit < page.shift
  · simp [Nat.not_le_of_lt low]
  · have high : page.shift ≤ bit := Nat.le_of_not_lt low
    have same : page.shift + (bit - page.shift) = bit := Nat.add_sub_of_le high
    by_cases inside : bit < 64
    · have below : bit - page.shift < 64 - page.shift := by omega
      simp [high, same, below]
    · have zero : data.testBit bit = false := by
        apply Nat.testBit_lt_two_pow
        exact Nat.lt_of_lt_of_le word (Nat.pow_le_pow_right (by decide) (Nat.le_of_not_lt inside))
      simp [same, zero]

/-- A byte range given by its first address and its length: it is not empty, and
neither its end nor its rounding up to whole pages wraps around the word range. -/
structure RangeOk (page : PageSize) (data size : Nat) : Prop where
  positive : 0 < size
  word : data < wordRange
  ends : data + size ≤ wordRange
  rounds : data % page.bytes + size + (page.bytes - 1) < wordRange

instance (page : PageSize) (data size : Nat) : Decidable (RangeOk page data size) :=
  decidable_of_iff (0 < size ∧ data < wordRange ∧ data + size ≤ wordRange ∧
      data % page.bytes + size + (page.bytes - 1) < wordRange)
    ⟨fun ⟨positive, word, ends, rounds⟩ => ⟨positive, word, ends, rounds⟩,
      fun ok => ⟨ok.positive, ok.word, ok.ends, ok.rounds⟩⟩

/-- On such a range the page count is the exact number of pages it touches. -/
theorem PageSize.count_eq (page : PageSize) (data size : Nat) (ok : RangeOk page data size) :
    page.count data size = (data % page.bytes + size + (page.bytes - 1)) / page.bytes := by
  have floor := page.floor_eq data ok.word
  have below : page.floor data ≤ data := by
    rw [floor]
    exact Nat.div_mul_le_self data page.bytes
  have offset : data = page.floor data + data % page.bytes := by
    rw [floor]
    exact (Nat.div_add_mod' data page.bytes).symm
  have word := ok.word
  have sum : data + size + (wordRange - page.floor data) + (page.bytes - 1) =
      (data % page.bytes + size + (page.bytes - 1)) + wordRange := by omega
  rw [PageSize.count, sum, Nat.add_mod_right, Nat.mod_eq_of_lt ok.rounds]

/-- The pages from the rounded address on reach the end of the range. -/
theorem PageSize.count_covers (page : PageSize) (data size : Nat) (ok : RangeOk page data size) :
    data + size ≤ page.floor data + page.count data size * page.bytes := by
  have positive := page.positive
  have offset : data = page.floor data + data % page.bytes := by
    rw [page.floor_eq data ok.word]
    exact (Nat.div_add_mod' data page.bytes).symm
  have rounded := Nat.div_add_mod' (data % page.bytes + size + (page.bytes - 1)) page.bytes
  have remainder := Nat.mod_lt (data % page.bytes + size + (page.bytes - 1)) positive
  rw [page.count_eq data size ok]
  omega

/-- The page that contains a byte of the range lies between the rounded address
and the end of the counted pages. -/
theorem PageSize.page_covered (page : PageSize) (data size byte : Nat)
    (ok : RangeOk page data size) (atLeast : data ≤ byte) (below : byte < data + size) :
    page.floor data ≤ byte / page.bytes * page.bytes ∧
      byte / page.bytes * page.bytes + page.bytes ≤
        page.floor data + page.count data size * page.bytes := by
  have positive := page.positive
  have floor := page.floor_eq data ok.word
  have reach := page.count_covers data size ok
  constructor
  · rw [floor]
    exact Nat.mul_le_mul_right _ (Nat.div_le_div_right atLeast)
  · rw [floor, ← Nat.add_mul] at reach ⊢
    have inside : byte < (data / page.bytes + page.count data size) * page.bytes := by omega
    have index : byte / page.bytes < data / page.bytes + page.count data size :=
      (Nat.div_lt_iff_lt_mul positive).mpr inside
    rw [← Nat.succ_mul]
    exact Nat.mul_le_mul_right _ index

end NcclExts.Unet
