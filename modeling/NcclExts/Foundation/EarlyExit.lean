import Mathlib.Data.List.Basic

/-!
# Programs that may leave early

A program updates a state and either runs to its end or leaves with an exit, as code
does that checks every call and jumps to a label when one fails. What a program
establishes is stated for both ways out. An invariant is the case where the same is
asked before and after, whichever way out is taken.
-/

namespace NcclExts.Foundation

variable {Exit State α β : Type}

/-- Leave when a check fails. -/
def leaveIf (condition : Prop) [Decidable condition] (exit : Exit) : EStateM Exit State PUnit :=
  if condition then throw exit else pure ⟨⟩

/-- A part of a program that runs under a condition. -/
def doIf (condition : Prop) [Decidable condition] (part : EStateM Exit State PUnit) :
    EStateM Exit State PUnit :=
  if condition then part else pure ⟨⟩

/-- From a state where `before` holds, a program that ends does so in a state where
`done` holds of its value, and one that leaves early does so where `left` holds of the
exit. -/
def Meets (before : State → Prop) (program : EStateM Exit State α)
    (done : α → State → Prop) (left : Exit → State → Prop) : Prop :=
  ∀ state, before state →
    match program state with
    | .ok value after => done value after
    | .error exit after => left exit after

namespace Meets

variable {before : State → Prop} {done : α → State → Prop} {left : Exit → State → Prop}

/-- Ask for less before, and promise more after. -/
theorem weaken {stronger : State → Prop} {weakerDone : α → State → Prop}
    {weakerLeft : Exit → State → Prop} {program : EStateM Exit State α}
    (meets : Meets before program done left) (starts : ∀ state, stronger state → before state)
    (ends : ∀ value state, done value state → weakerDone value state)
    (leaves : ∀ exit state, left exit state → weakerLeft exit state) :
    Meets stronger program weakerDone weakerLeft := by
  intro state holds
  have met := meets state (starts state holds)
  revert met
  cases program state with
  | ok value after => exact ends value after
  | error exit after => exact leaves exit after

/-- What is known before and does not depend on the state is known throughout. -/
theorem given {fact : Prop} {program : EStateM Exit State α}
    (meets : fact → Meets before program done left) :
    Meets (fun state => fact ∧ before state) program done left :=
  fun state holds => meets holds.1 state holds.2

theorem pure {value : α} (holds : ∀ state, before state → done value state) :
    Meets before (Pure.pure value) done left :=
  fun state started => holds state started

theorem throw {exit : Exit} (holds : ∀ state, before state → left exit state) :
    Meets before (MonadExcept.throw exit : EStateM Exit State α) done left :=
  fun state started => holds state started

/-- A program goes on from wherever its first part ends. -/
theorem bind (between : β → State → Prop) {first : EStateM Exit State β}
    {next : β → EStateM Exit State α} (start : Meets before first between left)
    (rest : ∀ value, Meets (between value) (next value) done left) :
    Meets before (first >>= next) done left := by
  intro state holds
  have met := start state holds
  change match EStateM.bind first next state with
    | .ok value after => done value after
    | .error exit after => left exit after
  unfold EStateM.bind
  revert met
  cases first state with
  | ok value after => exact rest value after
  | error exit after => exact id

/-- A program that reads the state goes on with the state it read. -/
theorem get_bind {next : State → EStateM Exit State α}
    (rest : ∀ state, before state → Meets (fun current => current = state) (next state) done left) :
    Meets before (get >>= next) done left :=
  fun state holds => rest state holds state rfl

theorem set {after : State} {done : PUnit → State → Prop}
    (holds : ∀ state, before state → done ⟨⟩ after) :
    Meets before (MonadStateOf.set after : EStateM Exit State PUnit) done left :=
  fun state started => holds state started

theorem modify {change : State → State} {done : PUnit → State → Prop}
    (holds : ∀ state, before state → done ⟨⟩ (change state)) :
    Meets before (modify change : EStateM Exit State PUnit) done left :=
  fun state started => holds state started

theorem ite {condition : Prop} [Decidable condition] {first second : EStateM Exit State α}
    (yes : condition → Meets before first done left)
    (no : ¬ condition → Meets before second done left) :
    Meets before (if condition then first else second) done left := by
  split
  · exact yes ‹_›
  · exact no ‹_›

/-- What is shown from each single state that qualifies. -/
theorem each {program : EStateM Exit State α}
    (meets : ∀ state, before state →
      Meets (fun current => current = state) program done left) :
    Meets before program done left :=
  fun state started => meets state started state rfl

/-- Two things that a program meets, it meets together. -/
theorem both {before' : State → Prop} {done' : α → State → Prop} {left' : Exit → State → Prop}
    {program : EStateM Exit State α} (first : Meets before program done left)
    (second : Meets before' program done' left') :
    Meets (fun state => before state ∧ before' state) program
      (fun value after => done value after ∧ done' value after)
      (fun exit after => left exit after ∧ left' exit after) := by
  intro state started
  have one := first state started.1
  have two := second state started.2
  revert one two
  cases program state with
  | ok value after => exact And.intro
  | error exit after => exact And.intro

/-- A loop over consecutive numbers, each round of which does the next piece of the work. -/
theorem rounds_from {start count : Nat} {work : Nat → State → Prop}
    {body : Nat → EStateM Exit State PUnit}
    (round : ∀ i < start + count, Meets (work i) (body i) (fun _ => work (i + 1)) left) :
    Meets (work start) ((List.range' start count).forM body) (fun _ => work (start + count))
      left := by
  induction count generalizing start with
  | zero => exact Meets.pure fun _ => id
  | succ count ih =>
    change Meets _ (body start >>= fun _ => (List.range' (start + 1) count).forM body) _ _
    apply Meets.bind fun _ => work (start + 1)
    · exact round start (by omega)
    · intro _
      have rest := @ih (start + 1) fun i inside => round i (by omega)
      rwa [Nat.add_right_comm] at rest

theorem rounds {count : Nat} {work : Nat → State → Prop} {body : Nat → EStateM Exit State PUnit}
    (round : ∀ i < count, Meets (work i) (body i) (fun _ => work (i + 1)) left) :
    Meets (work 0) ((List.range count).forM body) (fun _ => work count) left := by
  have all : Meets (work 0) ((List.range' 0 count).forM body) (fun _ => work (0 + count)) left :=
    rounds_from fun i inside => round i (by omega)
  rwa [Nat.zero_add, ← List.range_eq_range'] at all

end Meets

/-- Whichever way it goes out, the program keeps the invariant; and it leaves early only
with an allowed exit. -/
def Keeps (holds : State → Prop) (allowed : Exit → Prop) (program : EStateM Exit State α) :
    Prop :=
  Meets holds program (fun _ => holds) (fun exit after => holds after ∧ allowed exit)

namespace Keeps

variable {holds : State → Prop} {allowed : Exit → Prop}

theorem pure (value : α) : Keeps holds allowed (Pure.pure value : EStateM Exit State α) :=
  Meets.pure fun _ => id

theorem throw {exit : Exit} (permitted : allowed exit) :
    Keeps holds allowed (MonadExcept.throw exit : EStateM Exit State α) :=
  Meets.throw fun _ started => ⟨started, permitted⟩

theorem bind {first : EStateM Exit State β} {next : β → EStateM Exit State α}
    (start : Keeps holds allowed first) (rest : ∀ value, Keeps holds allowed (next value)) :
    Keeps holds allowed (first >>= next) :=
  Meets.bind _ start rest

/-- A read of the state, when what follows does not depend on having just read it. -/
theorem read {next : State → EStateM Exit State α}
    (rest : ∀ state, holds state → Keeps holds allowed (next state)) :
    Keeps holds allowed (get >>= next) :=
  fun state started => rest state started state started

/-- A program that computes its next state from the state it reads. -/
theorem update {change : State → State} {next : State → EStateM Exit State α}
    (kept : ∀ state, holds state → holds (change state) ∧ Keeps holds allowed (next state)) :
    Keeps holds allowed (get >>= fun state => MonadStateOf.set (change state) >>= fun _ =>
      next state) :=
  fun state started => (kept state started).2 (change state) (kept state started).1

theorem modify {change : State → State} (kept : ∀ state, holds state → holds (change state)) :
    Keeps holds allowed (modify change : EStateM Exit State PUnit) :=
  Meets.modify kept

theorem ite {condition : Prop} [Decidable condition] {first second : EStateM Exit State α}
    (yes : condition → Keeps holds allowed first) (no : ¬ condition → Keeps holds allowed second) :
    Keeps holds allowed (if condition then first else second) :=
  Meets.ite yes no

theorem leaveIf {condition : Prop} [Decidable condition] {exit : Exit}
    (permitted : condition → allowed exit) :
    Keeps holds allowed (Foundation.leaveIf condition exit : EStateM Exit State PUnit) :=
  Keeps.ite (fun yes => Keeps.throw (permitted yes)) fun _ => Keeps.pure _

theorem doIf {condition : Prop} [Decidable condition] {part : EStateM Exit State PUnit}
    (kept : condition → Keeps holds allowed part) :
    Keeps holds allowed (Foundation.doIf condition part) :=
  Keeps.ite kept fun _ => Keeps.pure _

/-- A loop keeps what each of its rounds keeps. -/
theorem forM {items : List β} {body : β → EStateM Exit State PUnit}
    (each : ∀ item ∈ items, Keeps holds allowed (body item)) :
    Keeps holds allowed (items.forM body) := by
  induction items with
  | nil => exact Keeps.pure PUnit.unit
  | cons item rest ih =>
    change Keeps holds allowed (body item >>= fun _ => rest.forM body)
    apply Keeps.bind
    · exact each item List.mem_cons_self
    · intro _
      exact ih fun later member => each later (List.mem_cons_of_mem item member)

theorem mapM {items : List β} {body : β → EStateM Exit State α}
    (each : ∀ item ∈ items, Keeps holds allowed (body item)) :
    Keeps holds allowed (items.mapM body) := by
  induction items with
  | nil => exact Keeps.pure _
  | cons item rest ih =>
    rw [List.mapM_cons]
    apply Keeps.bind
    · exact each item List.mem_cons_self
    intro value
    apply Keeps.bind
    · exact ih fun later member => each later (List.mem_cons_of_mem item member)
    · exact fun _ => Keeps.pure _

theorem after_ok {program : EStateM Exit State α} (keeps : Keeps holds allowed program)
    {state after : State} {value : α} (started : holds state)
    (ran : program state = .ok value after) : holds after := by
  have met := keeps state started
  rwa [ran] at met

theorem after_error {program : EStateM Exit State α} (keeps : Keeps holds allowed program)
    {state after : State} {exit : Exit} (started : holds state)
    (ran : program state = .error exit after) : holds after ∧ allowed exit := by
  have met := keeps state started
  rwa [ran] at met

end Keeps

end NcclExts.Foundation
