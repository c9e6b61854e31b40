import Mathlib.Data.List.Basic

/-!
# Computations that record what they read

A computation over memory some of which was never written still computes a value. What
it read on the way decides whether that value means anything, so the computation
carries the list of places it read beside its value.
-/

namespace NcclExts.Foundation

universe u v

/-- A value and the places that were read for it. -/
structure Traced (Place : Type u) (α : Type v) where
  value : α
  reads : List Place

namespace Traced

variable {Place : Type u} {α β : Type v}

/-- A value that nothing was read for. -/
def pure (value : α) : Traced Place α := ⟨value, []⟩

/-- Go on with a value; what is read later comes after what was read before. -/
def bind (first : Traced Place α) (next : α → Traced Place β) : Traced Place β :=
  ⟨(next first.value).value, first.reads ++ (next first.value).reads⟩

instance : Monad (Traced Place) where
  pure := pure
  bind := bind

/-- Read a place that holds a value. -/
def read (place : Place) (value : α) : Traced Place α := ⟨value, [place]⟩

/-- Run a computation for every number below a bound, in ascending order. -/
def loop (count : Nat) (body : Nat → Traced Place α) : Traced Place (Nat → α) :=
  ⟨fun i => (body i).value, (List.range count).flatMap fun i => (body i).reads⟩

@[simp] theorem value_pure (value : α) : (Pure.pure value : Traced Place α).value = value := rfl

@[simp] theorem reads_pure (value : α) : (Pure.pure value : Traced Place α).reads = [] := rfl

@[simp] theorem value_bind (first : Traced Place α) (next : α → Traced Place β) :
    (first >>= next).value = (next first.value).value := rfl

@[simp] theorem reads_bind (first : Traced Place α) (next : α → Traced Place β) :
    (first >>= next).reads = first.reads ++ (next first.value).reads := rfl

@[simp] theorem value_map (change : α → β) (first : Traced Place α) :
    (change <$> first).value = change first.value := rfl

@[simp] theorem reads_map (change : α → β) (first : Traced Place α) :
    (change <$> first).reads = first.reads := List.append_nil _

@[simp] theorem value_read (place : Place) (value : α) : (read place value).value = value := rfl

@[simp] theorem reads_read (place : Place) (value : α) : (read place value).reads = [place] := rfl

@[simp] theorem value_loop (count : Nat) (body : Nat → Traced Place α) (i : Nat) :
    (loop count body).value i = (body i).value := rfl

/-- A loop reads what one of its rounds reads. -/
@[simp] theorem mem_reads_loop {count : Nat} {body : Nat → Traced Place α} {place : Place} :
    place ∈ (loop count body).reads ↔ ∃ i, i < count ∧ place ∈ (body i).reads := by
  simp [loop]

end Traced

end NcclExts.Foundation
