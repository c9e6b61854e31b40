import Mathlib.Data.Nat.Bitwise
import Mathlib.Data.List.Basic

/-!
# Several numbers in one word

Numbers below `2 ^ width` are packed side by side by shifting each to its position
and adding, and read back by shifting down and masking.
-/

namespace NcclExts.Foundation

/-- Add the digits, each shifted to its position, from `position` on. -/
def packFrom (width : Nat) : Nat → List Nat → Nat
  | _, [] => 0
  | position, digit :: rest => digit <<< (position * width) + packFrom width (position + 1) rest

/-- The digits in one number, the first lowest. -/
def pack (width : Nat) (digits : List Nat) : Nat := packFrom width 0 digits

/-- The digit at a position. -/
def unpack (width word position : Nat) : Nat := (word >>> (position * width)) &&& (2 ^ width - 1)

theorem packFrom_succ (width position : Nat) (digits : List Nat) :
    packFrom width (position + 1) digits = packFrom width position digits * 2 ^ width := by
  induction digits generalizing position with
  | nil => simp [packFrom]
  | cons digit rest ih =>
    simp only [packFrom, ih (position + 1), Nat.add_mul, Nat.shiftLeft_eq]
    rw [Nat.mul_assoc, ← Nat.pow_add]
    congr 3
    rw [Nat.one_mul]

theorem pack_cons (width digit : Nat) (rest : List Nat) :
    pack width (digit :: rest) = digit + pack width rest * 2 ^ width := by
  simp only [pack, packFrom, packFrom_succ, Nat.zero_mul, Nat.shiftLeft_zero]

theorem unpack_eq (width word position : Nat) :
    unpack width word position = word / 2 ^ (position * width) % 2 ^ width := by
  rw [unpack, Nat.and_two_pow_sub_one_eq_mod, Nat.shiftRight_eq_div_pow]

/-- Reading back what was packed. -/
theorem unpack_pack {width position : Nat} {digits : List Nat}
    (small : ∀ digit ∈ digits, digit < 2 ^ width) (inside : position < digits.length) :
    unpack width (pack width digits) position = digits[position] := by
  have positive : 0 < 2 ^ width := Nat.two_pow_pos width
  induction digits generalizing position with
  | nil => simp at inside
  | cons digit rest ih =>
    have fits : digit < 2 ^ width := small digit List.mem_cons_self
    rw [unpack_eq, pack_cons]
    cases position with
    | zero =>
      rw [Nat.zero_mul, Nat.pow_zero, Nat.div_one, Nat.add_mul_mod_self_right,
        Nat.mod_eq_of_lt fits]
      rfl
    | succ position =>
      have below : position < rest.length := by simpa using inside
      have tail := ih (fun other member => small other (List.mem_cons_of_mem _ member)) below
      have scale : 2 ^ ((position + 1) * width) = 2 ^ width * 2 ^ (position * width) := by
        rw [← Nat.pow_add, Nat.succ_mul, Nat.add_comm]
      rw [scale, ← Nat.div_div_eq_div_mul, Nat.add_mul_div_right _ _ positive,
        Nat.div_eq_of_lt fits, Nat.zero_add, ← unpack_eq, tail]
      rfl

end NcclExts.Foundation
