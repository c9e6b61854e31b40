/-!
# Guarded transition systems and their runs

A system steps by an executable partial function: `step state event` is the
successor when the event is possible in the state and `none` otherwise. One
definition therefore serves replay of a concrete run, and proof over every run.

Runs may be restricted by a condition on each step, read on the state before the
step. A statement about every run whose steps all meet a condition is a statement
about `Reaches condition`; the unrestricted runs are its trivial instance.
-/

namespace NcclExts.Foundation

universe u v w x

/-- Start states and the guarded executable step. -/
structure System (State : Type u) (Event : Type v) where
  starts : State → Prop
  step : State → Event → Option State

namespace System

variable {State : Type u} {Event : Type v}

/-- States at the end of a run each of whose steps is permitted in the state it
leaves. -/
inductive Reaches (system : System State Event) (permitted : State → Event → Prop) :
    State → Prop
  | start {state : State} (first : system.starts state) : Reaches system permitted state
  | next {state after : State} {event : Event} (before : Reaches system permitted state)
      (allowed : permitted state event) (stepped : system.step state event = some after) :
      Reaches system permitted after

/-- States at the end of any run. -/
def Reachable (system : System State Event) (state : State) : Prop :=
  system.Reaches (fun _ _ => True) state

/-- Replay a list of events; `none` as soon as one of them is not possible. -/
def replay (system : System State Event) (state : State) (events : List Event) : Option State :=
  events.foldlM system.step state

variable {system : System State Event} {permitted : State → Event → Prop}

/-- A property of the start states that every permitted step keeps holds at the
end of every permitted run. The step may use that its first state is reached. -/
theorem Reaches.invariant {holds : State → Prop}
    (initially : ∀ state, system.starts state → holds state)
    (kept : ∀ state event after, system.Reaches permitted state → holds state →
      permitted state event → system.step state event = some after → holds after)
    {state : State} (reached : system.Reaches permitted state) : holds state := by
  induction reached with
  | start first => exact initially _ first
  | next before allowed stepped ih => exact kept _ _ _ before ih allowed stepped

/-- The unrestricted form of the induction over runs. -/
theorem Reachable.invariant {holds : State → Prop}
    (initially : ∀ state, system.starts state → holds state)
    (kept : ∀ state event after, holds state → system.step state event = some after →
      holds after)
    {state : State} (reached : system.Reachable state) : holds state :=
  Reaches.invariant initially (fun state event after _ held _ stepped =>
    kept state event after held stepped) reached

/-- Weakening the condition on steps keeps every run. -/
theorem Reaches.weaken {wider : State → Event → Prop}
    (implied : ∀ state event, permitted state event → wider state event)
    {state : State} (reached : system.Reaches permitted state) : system.Reaches wider state := by
  induction reached with
  | start first => exact .start first
  | next _ allowed stepped ih => exact .next ih (implied _ _ allowed) stepped

/-- A permitted run is a run. -/
theorem Reaches.reachable {state : State} (reached : system.Reaches permitted state) :
    system.Reachable state :=
  reached.weaken (fun _ _ _ => True.intro)

/-- One further step of an unrestricted run. -/
theorem Reachable.next {state after : State} {event : Event} (before : system.Reachable state)
    (stepped : system.step state event = some after) : system.Reachable after :=
  Reaches.next before True.intro stepped

/-- Whether every step of a replay is permitted. -/
def permits (system : System State Event) (permitted : State → Event → Prop)
    [∀ state event, Decidable (permitted state event)] : State → List Event → Bool
  | _, [] => true
  | state, event :: rest =>
    decide (permitted state event) &&
      (system.step state event).any fun after => permits system permitted after rest

/-- Replaying permitted events from the end of a permitted run extends the run. -/
theorem Reaches.replay [∀ state event, Decidable (permitted state event)]
    {state after : State} (before : system.Reaches permitted state) (events : List Event)
    (allowed : system.permits permitted state events = true)
    (replayed : system.replay state events = some after) : system.Reaches permitted after := by
  induction events generalizing state with
  | nil =>
    have same : state = after := by simpa [System.replay] using replayed
    exact same ▸ before
  | cons event rest ih =>
    simp only [System.replay, List.foldlM_cons, Option.bind_eq_bind,
      Option.bind_eq_some_iff] at replayed
    obtain ⟨middle, stepped, remaining⟩ := replayed
    simp only [System.permits, stepped, Option.any_some, Bool.and_eq_true,
      decide_eq_true_eq] at allowed
    exact ih (before.next allowed.1 stepped) allowed.2 remaining

/-- Replaying possible events from a reached state reaches the final state. -/
theorem Reachable.replay {state after : State} (before : system.Reachable state)
    (events : List Event) (replayed : system.replay state events = some after) :
    system.Reachable after := by
  refine Reaches.replay before events ?_ replayed
  induction events generalizing state with
  | nil => rfl
  | cons event rest ih =>
    simp only [System.replay, List.foldlM_cons, Option.bind_eq_bind,
      Option.bind_eq_some_iff] at replayed
    obtain ⟨middle, stepped, remaining⟩ := replayed
    simpa [System.permits, stepped] using ih (before.next stepped) remaining

end System

end NcclExts.Foundation
