import Mathlib.Data.List.Basic

/-!
# Computations that finish

A computation that may be thrown out of finishes when it returns a value. In sequence all
of its parts have to finish, and a pass over a list finishes when the body does for every
element.
-/

namespace NcclExts.Foundation

variable {Fault α β : Type}

/-- The computation returns a value. -/
def Finishes (result : Except Fault α) : Prop := ∃ value, result = .ok value

/-- A value is returned. -/
@[simp] theorem finishes_ok (value : α) : Finishes (.ok value : Except Fault α) := ⟨value, rfl⟩

/-- A fault is not. -/
@[simp] theorem not_finishes_error (fault : Fault) :
    ¬ Finishes (.error fault : Except Fault α) := by
  rintro ⟨value, equal⟩
  cases equal

/-- What is returned in sequence the second part returns, for the value of the first. -/
theorem bind_eq_ok {first : Except Fault α} {next : α → Except Fault β} {result : β} :
    first >>= next = .ok result ↔ ∃ value, first = .ok value ∧ next value = .ok result := by
  cases first with
  | error fault =>
    refine ⟨fun equal => (nomatch equal), ?_⟩
    rintro ⟨value, equal, _⟩
    cases equal
  | ok value =>
    refine ⟨fun equal => ⟨value, rfl, equal⟩, ?_⟩
    rintro ⟨_, equal, returned⟩
    cases equal
    exact returned

/-- In sequence the first part finishes, and then the second one with its value. -/
theorem finishes_bind {first : Except Fault α} {next : α → Except Fault β} :
    Finishes (first >>= next) ↔ ∃ value, first = .ok value ∧ Finishes (next value) := by
  constructor
  · rintro ⟨result, equal⟩
    obtain ⟨value, isValue, returned⟩ := bind_eq_ok.mp equal
    exact ⟨value, isValue, result, returned⟩
  · rintro ⟨value, isValue, result, returned⟩
    exact ⟨result, bind_eq_ok.mpr ⟨value, isValue, returned⟩⟩

/-- A function of the value changes nothing about it. -/
theorem finishes_map {first : Except Fault α} {function : α → β} :
    Finishes (first.map function) ↔ Finishes first := by
  cases first with
  | error fault => exact ⟨fun finishes => absurd finishes (not_finishes_error fault),
      fun finishes => absurd finishes (not_finishes_error fault)⟩
  | ok value => exact ⟨fun _ => finishes_ok value, fun _ => finishes_ok (function value)⟩

/-- A pass over a list finishes when its body does for every element. -/
theorem finishes_mapM {items : List α} {body : α → Except Fault β} :
    Finishes (items.mapM body) ↔ ∀ item ∈ items, Finishes (body item) := by
  induction items with
  | nil => exact ⟨fun _ item member => absurd member List.not_mem_nil, fun _ => ⟨[], rfl⟩⟩
  | cons item rest ih =>
    rw [List.mapM_cons, finishes_bind, List.forall_mem_cons, ← ih]
    constructor
    · rintro ⟨value, isValue, later⟩
      obtain ⟨values, isValues, _⟩ := finishes_bind.mp later
      exact ⟨⟨value, isValue⟩, ⟨values, isValues⟩⟩
    · rintro ⟨⟨value, isValue⟩, ⟨values, isValues⟩⟩
      exact ⟨value, isValue, finishes_bind.mpr ⟨values, isValues, finishes_ok _⟩⟩

end NcclExts.Foundation
