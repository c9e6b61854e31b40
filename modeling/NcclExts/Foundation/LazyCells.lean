import Mathlib.Logic.Function.Basic
import NcclExts.Foundation.System

/-!
# Cells that threads fill on first use

A thread that needs a cell looks at it; when the cell is blank, the thread takes a lock,
looks again, and fills the cell if it is blank still. The first look takes no lock. Filling
may take several steps, and what it leaves in between can be seen by a first look. Threads
take their steps in any order, and what they share may change from outside as well.

The cells of one lock have keys. `LazyFills` is what a user of the pattern proves of its cells:
what a cell holds partly, and what it holds in full. `LazySound` is what then holds in every
run: one thread holds the lock, and every cell is blank, full, or being filled by a thread.
-/

namespace NcclExts.Foundation

universe u v w x

variable {Shared : Type u} {Key : Type v} {Work : Type w} {Other : Type x}

/-- Where a thread is in a call for a cell; at its end, whether it filled the cell itself. -/
inductive LazyStage (Key : Type v) where
  | outside
  | waiting (key : Key)
  | holding (key : Key)
  | starting (key : Key)
  | filling (key : Key)
  | leaving (key : Key) (own : Bool)
  | returning (key : Key) (own : Bool)
deriving DecidableEq

/-- Whether a thread holds the lock. -/
def LazyStage.Inside : LazyStage Key → Prop
  | .holding _ | .starting _ | .filling _ | .leaving _ _ => True
  | .outside | .waiting _ | .returning _ _ => False

/-- What a look at a cell tells, one step of filling a cell and whether it is the last one,
and how what is shared can change from outside. -/
structure LazyCells (Shared : Type u) (Key : Type v) (Work : Type w) (Other : Type x) where
  blank : Shared → Key → Bool
  fill : Shared → Key → Work → Option (Shared × Bool)
  disturb : Shared → Other → Option Shared

/-- What threads share, who holds the lock, and where each thread is. -/
structure LazyState (Shared : Type u) (Key : Type v) where
  shared : Shared
  lock : Option Nat
  stage : Nat → LazyStage Key

inductive LazyEvent (Key : Type v) (Work : Type w) (Other : Type x) where
  | call (thread : Nat) (key : Key)
  | acquire (thread : Nat)
  | lookAgain (thread : Nat)
  | fill (thread : Nat) (work : Work)
  | release (thread : Nat)
  | finish (thread : Nat)
  | disturb (other : Other)

namespace LazyState

variable (cells : LazyCells Shared Key Work Other)

/-- The thread goes on. -/
def move (state : LazyState Shared Key) (thread : Nat) (stage : LazyStage Key) : LazyState Shared Key :=
  { state with stage := Function.update state.stage thread stage }

/-- One step of filling, and where it leaves the thread. -/
def fillStep (state : LazyState Shared Key) (thread : Nat) (key : Key) (work : Work) :
    Option (LazyState Shared Key) :=
  (cells.fill state.shared key work).map fun (shared, done) =>
    { state with shared := shared }.move thread (if done then .leaving key true else .filling key)

/-- One step of a thread, or of the world outside. -/
def step (state : LazyState Shared Key) : LazyEvent Key Work Other → Option (LazyState Shared Key)
  | .call thread key =>
    match state.stage thread with
    | .outside =>
      some (state.move thread
        (if cells.blank state.shared key then .waiting key else .returning key false))
    | _ => none
  | .acquire thread =>
    match state.stage thread, state.lock with
    | .waiting key, none => some ({ state with lock := some thread }.move thread (.holding key))
    | _, _ => none
  | .lookAgain thread =>
    match state.stage thread with
    | .holding key =>
      some (state.move thread
        (if cells.blank state.shared key then .starting key else .leaving key false))
    | _ => none
  | .fill thread work =>
    match state.stage thread with
    | .starting key => state.fillStep cells thread key work
    | .filling key => state.fillStep cells thread key work
    | _ => none
  | .release thread =>
    match state.stage thread with
    | .leaving key own => some ({ state with lock := none }.move thread (.returning key own))
    | _ => none
  | .finish thread =>
    match state.stage thread with
    | .returning _ _ => some (state.move thread .outside)
    | _ => none
  | .disturb other =>
    (cells.disturb state.shared other).map fun shared => { state with shared := shared }

end LazyState

/-- All runs of threads that use the cells, from what they share at the start. -/
def lazyRuns (cells : LazyCells Shared Key Work Other) (starts : Shared → Prop) :
    System (LazyState Shared Key) (LazyEvent Key Work Other) where
  starts := fun state =>
    starts state.shared ∧ state.lock = none ∧ state.stage = fun _ => .outside
  step := LazyState.step cells

/-- What a cell holds when it was begun to be filled, and when it was filled. Filling a blank
cell leaves it partly filled or full, or blank as before where it is in vain; and neither
filling another cell nor an allowed change from outside takes anything from it. -/
structure LazyFills (cells : LazyCells Shared Key Work Other) (allowed : Other → Prop)
    (valid : Shared → Prop) (partly full : Shared → Key → Prop) (vain : Key → Prop) : Prop where
  partlySeen : ∀ {shared key}, partly shared key → cells.blank shared key = false
  fullSeen : ∀ {shared key}, full shared key → cells.blank shared key = false
  apart : ∀ {shared key}, partly shared key → ¬ full shared key
  first : ∀ {shared key work after done}, valid shared → cells.blank shared key = true →
    cells.fill shared key work = some (after, done) →
      if done then cells.blank after key = true ∧ vain key ∨ full after key else partly after key
  further : ∀ {shared key work after done}, valid shared → partly shared key →
    cells.fill shared key work = some (after, done) →
      if done then full after key else partly after key
  filled : ∀ {shared key work after done}, valid shared →
    cells.fill shared key work = some (after, done) → valid after ∧ ∀ other, other ≠ key →
      cells.blank after other = cells.blank shared other ∧
        (partly shared other → partly after other) ∧ (full shared other → full after other)
  disturbed : ∀ {shared change after}, valid shared → allowed change →
    cells.disturb shared change = some after → valid after ∧ ∀ key,
      cells.blank after key = cells.blank shared key ∧
        (partly shared key → partly after key) ∧ (full shared key → full after key)

/-- The events that change nothing from outside but what is allowed. -/
def LazyEvent.Allowed (allowed : Other → Prop) : LazyEvent Key Work Other → Prop
  | .disturb other => allowed other
  | _ => True

instance (allowed : Other → Prop) [DecidablePred allowed] (event : LazyEvent Key Work Other) :
    Decidable (event.Allowed allowed) :=
  match event with
  | .disturb other => inferInstanceAs (Decidable (allowed other))
  | .call _ _ | .acquire _ | .lookAgain _ | .fill _ _ | .release _ | .finish _ => .isTrue trivial

/-- The thread inside is the one that holds the lock. What it is filling is blank until it
begins, and every cell is blank, full, or being filled. -/
structure LazySound (cells : LazyCells Shared Key Work Other) (valid : Shared → Prop)
    (partly full : Shared → Key → Prop) (state : LazyState Shared Key) : Prop where
  valid : valid state.shared
  locked : ∀ thread, (state.stage thread).Inside ↔ state.lock = some thread
  starting : ∀ thread key, state.stage thread = .starting key →
    cells.blank state.shared key = true
  filling : ∀ thread key, state.stage thread = .filling key → partly state.shared key
  settled : ∀ key, cells.blank state.shared key = true ∨ full state.shared key ∨
    ∃ thread, state.stage thread = .filling key

section

variable {cells : LazyCells Shared Key Work Other} {allowed : Other → Prop}
  {valid : Shared → Prop} {partly full : Shared → Key → Prop} {vain : Key → Prop}
  {state after : LazyState Shared Key}

@[simp] theorem LazyState.move_shared (thread : Nat) (stage : LazyStage Key) :
    (state.move thread stage).shared = state.shared := rfl

@[simp] theorem LazyState.move_lock (thread : Nat) (stage : LazyStage Key) :
    (state.move thread stage).lock = state.lock := rfl

@[simp] theorem LazyState.move_self (thread : Nat) (stage : LazyStage Key) :
    (state.move thread stage).stage thread = stage := Function.update_self _ _ _

theorem LazyState.move_other {thread other : Nat} (differ : other ≠ thread)
    (stage : LazyStage Key) : (state.move thread stage).stage other = state.stage other :=
  Function.update_of_ne differ _ _

/-- What each event asks of the state, and what it does to it. -/
inductive LazyStep (cells : LazyCells Shared Key Work Other) (state : LazyState Shared Key) :
    LazyEvent Key Work Other → LazyState Shared Key → Prop
  | called {thread : Nat} {key : Key} (outside : state.stage thread = .outside) :
      LazyStep cells state (.call thread key) (state.move thread
        (if cells.blank state.shared key then .waiting key else .returning key false))
  | acquired {thread : Nat} {key : Key} (waits : state.stage thread = .waiting key)
      (free : state.lock = none) :
      LazyStep cells state (.acquire thread)
        ({ state with lock := some thread }.move thread (.holding key))
  | looked {thread : Nat} {key : Key} (holds : state.stage thread = .holding key) :
      LazyStep cells state (.lookAgain thread) (state.move thread
        (if cells.blank state.shared key then .starting key else .leaving key false))
  | filled {thread : Nat} {key : Key} {work : Work} {shared : Shared} {done : Bool}
      (fills : state.stage thread = .starting key ∨ state.stage thread = .filling key)
      (made : cells.fill state.shared key work = some (shared, done)) :
      LazyStep cells state (.fill thread work) ({ state with shared := shared }.move thread
        (if done then .leaving key true else .filling key))
  | released {thread : Nat} {key : Key} {own : Bool}
      (leaves : state.stage thread = .leaving key own) :
      LazyStep cells state (.release thread)
        ({ state with lock := none }.move thread (.returning key own))
  | finished {thread : Nat} {key : Key} {own : Bool}
      (returns : state.stage thread = .returning key own) :
      LazyStep cells state (.finish thread) (state.move thread .outside)
  | disturbed {other : Other} {shared : Shared}
      (changed : cells.disturb state.shared other = some shared) :
      LazyStep cells state (.disturb other) { state with shared := shared }

/-- Every step is one of these. -/
theorem lazyStep_of_step {event : LazyEvent Key Work Other}
    (stepped : state.step cells event = some after) : LazyStep cells state event after := by
  have filled {thread : Nat} {key : Key} {work : Work}
      (fills : state.stage thread = .starting key ∨ state.stage thread = .filling key)
      (stepped : state.fillStep cells thread key work = some after) :
      LazyStep cells state (.fill thread work) after := by
    obtain ⟨⟨shared, done⟩, made, rfl⟩ := Option.map_eq_some_iff.mp stepped
    exact .filled fills made
  cases event with
  | call thread key =>
    simp only [LazyState.step] at stepped
    split at stepped
    next outside =>
      obtain rfl := Option.some.inj stepped
      exact .called outside
    next => exact absurd stepped (by simp)
  | acquire thread =>
    simp only [LazyState.step] at stepped
    split at stepped
    next waits free =>
      obtain rfl := Option.some.inj stepped
      exact .acquired waits free
    next => exact absurd stepped (by simp)
  | lookAgain thread =>
    simp only [LazyState.step] at stepped
    split at stepped
    next holds =>
      obtain rfl := Option.some.inj stepped
      exact .looked holds
    next => exact absurd stepped (by simp)
  | fill thread work =>
    simp only [LazyState.step] at stepped
    split at stepped
    next starts => exact filled (.inl starts) stepped
    next fills => exact filled (.inr fills) stepped
    next => exact absurd stepped (by simp)
  | release thread =>
    simp only [LazyState.step] at stepped
    split at stepped
    next leaves =>
      obtain rfl := Option.some.inj stepped
      exact .released leaves
    next => exact absurd stepped (by simp)
  | finish thread =>
    simp only [LazyState.step] at stepped
    split at stepped
    next returns =>
      obtain rfl := Option.some.inj stepped
      exact .finished returns
    next => exact absurd stepped (by simp)
  | disturb other =>
    obtain ⟨shared, changed, rfl⟩ := Option.map_eq_some_iff.mp stepped
    exact .disturbed changed

namespace LazySound

theorem fresh (isValid : valid state.shared) (free : state.lock = none)
    (outside : state.stage = fun _ => .outside)
    (blank : ∀ key, cells.blank state.shared key = true) :
    LazySound cells valid partly full state := by
  constructor
  · exact isValid
  · intro thread
    simp [outside, free, LazyStage.Inside]
  · intro thread key starts
    simp [outside] at starts
  · intro thread key fills
    simp [outside] at fills
  · exact fun key => .inl (blank key)

/-- Two threads are not both inside. -/
theorem alone (sound : LazySound cells valid partly full state) {thread other : Nat}
    (inside : (state.stage thread).Inside) (inside' : (state.stage other).Inside) :
    thread = other := by
  have here := (sound.locked thread).mp inside
  rw [(sound.locked other).mp inside'] at here
  exact (Option.some.inj here).symm

/-- A thread goes from a stage to another that both hold the lock, or both do not. -/
theorem move (sound : LazySound cells valid partly full state) {thread : Nat}
    {stage : LazyStage Key} (same : stage.Inside ↔ (state.stage thread).Inside)
    (starting : ∀ key, stage = .starting key → cells.blank state.shared key = true)
    (notFilling : ∀ key, stage ≠ .filling key)
    (wasNot : ∀ key, state.stage thread ≠ .filling key) :
    LazySound cells valid partly full (state.move thread stage) := by
  constructor
  · exact sound.valid
  · intro other
    by_cases here : other = thread
    · subst here
      rw [LazyState.move_self, same]
      exact sound.locked other
    · rw [LazyState.move_other here]
      exact sound.locked other
  · intro other key starts
    by_cases here : other = thread
    · subst here
      rw [LazyState.move_self] at starts
      exact starting key starts
    · rw [LazyState.move_other here] at starts
      exact sound.starting other key starts
  · intro other key fills
    by_cases here : other = thread
    · subst here
      rw [LazyState.move_self] at fills
      exact absurd fills (notFilling key)
    · rw [LazyState.move_other here] at fills
      exact sound.filling other key fills
  · intro key
    rcases sound.settled key with blank | isFull | ⟨other, fills⟩
    · exact .inl blank
    · exact .inr (.inl isFull)
    · have here : other ≠ thread := by
        rintro rfl
        exact wasNot key fills
      exact .inr (.inr ⟨other, (LazyState.move_other here stage).trans fills⟩)

/-- A thread takes the lock when no thread is inside. -/
theorem acquire (sound : LazySound cells valid partly full state) {thread : Nat} {key : Key}
    (free : state.lock = none) :
    LazySound cells valid partly full
      ({ state with lock := some thread }.move thread (.holding key)) := by
  have nobody (other : Nat) : ¬ (state.stage other).Inside := by
    rw [sound.locked, free]
    simp
  have elsewhere {other : Nat} {stage : LazyStage Key} (inside : stage.Inside)
      (is : ({ state with lock := some thread }.move thread (.holding key)).stage other = stage) :
      other = thread := by
    by_contra differ
    rw [LazyState.move_other differ] at is
    exact nobody other (show (state.stage other).Inside from is ▸ inside)
  constructor
  · exact sound.valid
  · intro other
    by_cases here : other = thread
    · subst here
      simp [LazyStage.Inside]
    · rw [LazyState.move_other here, LazyState.move_lock, Option.some.injEq]
      exact iff_of_false (nobody other) (Ne.symm here)
  · intro other key' starts
    obtain rfl := elsewhere (by trivial) starts
    simp at starts
  · intro other key' fills
    obtain rfl := elsewhere (by trivial) fills
    simp at fills
  · intro key'
    rcases sound.settled key' with blank | isFull | ⟨other, fills⟩
    · exact .inl blank
    · exact .inr (.inl isFull)
    · exact absurd (show (state.stage other).Inside by rw [fills]; trivial) (nobody other)

/-- The thread that has the lock gives it up. -/
theorem release (sound : LazySound cells valid partly full state) {thread : Nat} {key : Key}
    {own : Bool} (leaves : state.stage thread = .leaving key own) :
    LazySound cells valid partly full
      ({ state with lock := none }.move thread (.returning key own)) := by
  have only {other : Nat} (inside : (state.stage other).Inside) : other = thread :=
    sound.alone inside (by rw [leaves]; trivial)
  have elsewhere {other : Nat} {stage : LazyStage Key} (inside : stage.Inside) :
      ({ state with lock := none }.move thread (.returning key own)).stage other ≠ stage := by
    intro is
    by_cases here : other = thread
    · subst here
      rw [LazyState.move_self] at is
      exact (is ▸ inside : (LazyStage.returning key own).Inside)
    · rw [LazyState.move_other here] at is
      exact here (only (show (state.stage other).Inside from is ▸ inside))
  constructor
  · exact sound.valid
  · intro other
    rw [LazyState.move_lock]
    exact iff_of_false (fun inside => elsewhere inside rfl) (by simp)
  · intro other key' starts
    exact absurd starts (elsewhere (by trivial))
  · intro other key' fills
    exact absurd fills (elsewhere (by trivial))
  · intro key'
    rcases sound.settled key' with blank | isFull | ⟨other, fills⟩
    · exact .inl blank
    · exact .inr (.inl isFull)
    · obtain rfl := only (show (state.stage other).Inside by rw [fills]; trivial)
      rw [leaves] at fills
      exact absurd fills (by simp)

/-- What a step of filling leaves of the cell, and that the other cells keep what they have. -/
theorem filled (sound : LazySound cells valid partly full state)
    (contract : LazyFills cells allowed valid partly full vain) {thread : Nat} {key : Key} {work : Work}
    {shared : Shared} {done : Bool}
    (fills : state.stage thread = .starting key ∨ state.stage thread = .filling key)
    (made : cells.fill state.shared key work = some (shared, done)) :
    if done then cells.blank shared key = true ∧ vain key ∨ full shared key else partly shared key := by
  rcases fills with starts | fills
  · exact contract.first sound.valid (sound.starting thread key starts) made
  · have further := contract.further sound.valid (sound.filling thread key fills) made
    cases done with
    | false => exact further
    | true => exact .inr further

/-- A step of filling. -/
theorem fill (sound : LazySound cells valid partly full state)
    (contract : LazyFills cells allowed valid partly full vain) {thread : Nat} {key : Key} {work : Work}
    {shared : Shared} {done : Bool}
    (fills : state.stage thread = .starting key ∨ state.stage thread = .filling key)
    (made : cells.fill state.shared key work = some (shared, done)) :
    LazySound cells valid partly full ({ state with shared := shared }.move thread
      (if done then .leaving key true else .filling key)) := by
  have inside : (state.stage thread).Inside := by
    rcases fills with starts | fills
    · rw [starts]
      trivial
    · rw [fills]
      trivial
  have only {other : Nat} (isInside : (state.stage other).Inside) : other = thread :=
    sound.alone isInside inside
  have left := sound.filled contract fills made
  obtain ⟨isValid, others⟩ := contract.filled sound.valid made
  constructor
  · exact isValid
  · intro other
    rw [LazyState.move_lock]
    by_cases here : other = thread
    · subst here
      rw [LazyState.move_self]
      refine iff_of_true ?_ ((sound.locked other).mp inside)
      cases done <;> trivial
    · rw [LazyState.move_other here]
      exact sound.locked other
  · intro other key' starts
    by_cases here : other = thread
    · subst here
      rw [LazyState.move_self] at starts
      cases done <;> simp at starts
    · rw [LazyState.move_other here] at starts
      exact absurd (only (show (state.stage other).Inside from starts ▸ trivial)) here
  · intro other key' fills'
    by_cases here : other = thread
    · subst here
      rw [LazyState.move_self] at fills'
      cases done with
      | false =>
        obtain rfl : key = key' := by simpa using fills'
        exact left
      | true => simp at fills'
    · rw [LazyState.move_other here] at fills'
      exact absurd (only (show (state.stage other).Inside from fills' ▸ trivial)) here
  · intro key'
    by_cases same : key' = key
    · subst same
      cases done with
      | false => exact .inr (.inr ⟨thread, LazyState.move_self _ _⟩)
      | true =>
        rcases left with ⟨blank, _⟩ | isFull
        · exact .inl blank
        · exact .inr (.inl isFull)
    · obtain ⟨sameBlank, _, keepsFull⟩ := others key' same
      rcases sound.settled key' with blank | isFull | ⟨other, fills'⟩
      · exact .inl (sameBlank.trans blank)
      · exact .inr (.inl (keepsFull isFull))
      · obtain rfl := only (show (state.stage other).Inside by rw [fills']; trivial)
        rw [fills'] at fills
        simp only [reduceCtorEq, LazyStage.filling.injEq, false_or] at fills
        exact absurd fills same

/-- An allowed change from outside. -/
theorem disturb (sound : LazySound cells valid partly full state)
    (contract : LazyFills cells allowed valid partly full vain) {other : Other}
    (isAllowed : allowed other) {shared : Shared}
    (changed : cells.disturb state.shared other = some shared) :
    LazySound cells valid partly full { state with shared := shared } := by
  obtain ⟨isValid, keeps⟩ := contract.disturbed sound.valid isAllowed changed
  constructor
  · exact isValid
  · exact sound.locked
  · intro thread key starts
    exact (keeps key).1.trans (sound.starting thread key starts)
  · intro thread key fills
    exact (keeps key).2.1 (sound.filling thread key fills)
  · intro key
    rcases sound.settled key with blank | isFull | fills
    · exact .inl ((keeps key).1.trans blank)
    · exact .inr (.inl ((keeps key).2.2 isFull))
    · exact .inr (.inr fills)

/-- Every step keeps it. -/
theorem step (sound : LazySound cells valid partly full state)
    (contract : LazyFills cells allowed valid partly full vain) {event : LazyEvent Key Work Other}
    (isAllowed : event.Allowed allowed) (stepped : LazyStep cells state event after) :
    LazySound cells valid partly full after := by
  cases stepped with
  | called outside =>
    refine sound.move ?_ ?_ ?_ (by simp [outside])
    · rw [outside]
      split <;> exact Iff.rfl
    · intro key starts
      split at starts <;> simp at starts
    · intro key fills
      split at fills <;> simp at fills
  | acquired waits free => exact sound.acquire free
  | @looked thread key holds =>
    refine sound.move ?_ ?_ ?_ (by simp [holds])
    · rw [holds]
      split <;> exact Iff.rfl
    · intro key' starts
      split at starts
      next blank =>
        obtain rfl : key = key' := by simpa using starts
        exact blank
      next => simp at starts
    · intro key' fills
      split at fills <;> simp at fills
  | filled fills made => exact sound.fill contract fills made
  | released leaves => exact sound.release leaves
  | finished returns =>
    refine sound.move ?_ (by simp) (by simp) (by simp [returns])
    rw [returns]
    exact Iff.rfl
  | disturbed changed => exact sound.disturb contract isAllowed changed

/-- A cell that a thread fills is not full. -/
theorem notFull_of_fills (sound : LazySound cells valid partly full state)
    (contract : LazyFills cells allowed valid partly full vain) {thread : Nat} {key : Key}
    (fills : state.stage thread = .starting key ∨ state.stage thread = .filling key) :
    ¬ full state.shared key := by
  intro isFull
  rcases fills with starts | fills
  · have blank := sound.starting thread key starts
    rw [contract.fullSeen isFull] at blank
    exact Bool.false_ne_true blank
  · exact contract.apart (sound.filling thread key fills) isFull

/-- No thread fills a cell that is full: what the filling of the other cells and the allowed
changes keep is kept. -/
theorem keeps_while_full (sound : LazySound cells valid partly full state)
    (contract : LazyFills cells allowed valid partly full vain) {event : LazyEvent Key Work Other}
    (isAllowed : event.Allowed allowed) (stepped : LazyStep cells state event after) {key : Key}
    (isFull : full state.shared key) (holds : Shared → Prop)
    (others : ∀ other work shared done, other ≠ key →
      cells.fill state.shared other work = some (shared, done) → holds shared)
    (changes : ∀ change shared, allowed change →
      cells.disturb state.shared change = some shared → holds shared)
    (held : holds state.shared) : holds after.shared := by
  cases stepped with
  | called => exact held
  | acquired => exact held
  | looked => exact held
  | @filled thread key' work shared done fills made =>
    by_cases same : key' = key
    · subst same
      exact absurd isFull (sound.notFull_of_fills contract fills)
    · exact others key' work shared done same made
  | released => exact held
  | finished => exact held
  | disturbed changed => exact changes _ _ isAllowed changed

/-- A cell that is full stays full. -/
theorem keeps_full (sound : LazySound cells valid partly full state)
    (contract : LazyFills cells allowed valid partly full vain) {event : LazyEvent Key Work Other}
    (isAllowed : event.Allowed allowed) (stepped : LazyStep cells state event after) (key : Key)
    (isFull : full state.shared key) : full after.shared key := by
  refine sound.keeps_while_full contract isAllowed stepped isFull (full · key) ?_ ?_ isFull
  · intro other work shared done differ made
    exact ((contract.filled sound.valid made).2 key (Ne.symm differ)).2.2 isFull
  · intro change shared isAllowed changed
    exact ((contract.disturbed sound.valid isAllowed changed).2 key).2.2 isFull

end LazySound

/-- A cell that is full, that a thread is filling, or that is filled in vain. -/
def LazyState.Ready (full : Shared → Key → Prop) (vain : Key → Prop)
    (state : LazyState Shared Key) (key : Key) : Prop :=
  full state.shared key ∨ (∃ thread, state.stage thread = .filling key) ∨ vain key

/-- A cell stays ready. -/
theorem LazySound.keeps_ready (sound : LazySound cells valid partly full state)
    (contract : LazyFills cells allowed valid partly full vain)
    {event : LazyEvent Key Work Other} (isAllowed : event.Allowed allowed)
    (stepped : LazyStep cells state event after) {key : Key} (ready : state.Ready full vain key) :
    after.Ready full vain key := by
  rcases ready with isFull | ⟨thread, fills⟩ | isVain
  · exact .inl (sound.keeps_full contract isAllowed stepped key isFull)
  · -- the thread that fills the cell does nothing else until it is done
    have stays {other : Nat} {stage : LazyStage Key} {middle : LazyState Shared Key}
        (same : middle.stage = state.stage) (wasNot : state.stage other ≠ .filling key) :
        (middle.move other stage).Ready full vain key := by
      have here : thread ≠ other := by
        rintro rfl
        exact wasNot fills
      exact .inr (.inl ⟨thread, (LazyState.move_other here stage).trans (same ▸ fills)⟩)
    cases stepped with
    | called outside => exact stays rfl (by simp [outside])
    | acquired waits => exact stays rfl (by simp [waits])
    | looked holds => exact stays rfl (by simp [holds])
    | @filled other key' work shared done fills' made =>
      by_cases here : thread = other
      · subst here
        obtain rfl : key = key' := by
          rw [fills] at fills'
          simpa using fills'
        cases done with
        | false => exact .inr (.inl ⟨thread, LazyState.move_self _ _⟩)
        | true => exact .inl (contract.further sound.valid (sound.filling thread key fills) made)
      · exact .inr (.inl ⟨thread, (LazyState.move_other here _).trans fills⟩)
    | released leaves => exact stays rfl (by simp [leaves])
    | finished returns => exact stays rfl (by simp [returns])
    | disturbed => exact .inr (.inl ⟨thread, fills⟩)
  · exact .inr (.inr isVain)

/-- A cell that is not blank is ready. -/
theorem LazySound.ready_of_seen (sound : LazySound cells valid partly full state) {key : Key}
    (seen : cells.blank state.shared key = false) : state.Ready full vain key := by
  rcases sound.settled key with blank | isFull | fills
  · rw [seen] at blank
    exact absurd blank Bool.false_ne_true
  · exact .inl isFull
  · exact .inr (.inl fills)

/-- Every run of allowed changes keeps it. -/
theorem lazyRuns_sound {starts : Shared → Prop}
    (contract : LazyFills cells allowed valid partly full vain)
    (initially : ∀ shared, starts shared → valid shared ∧ ∀ key, cells.blank shared key = true)
    (reached : (lazyRuns cells starts).Reaches (fun _ event => event.Allowed allowed) state) :
    LazySound cells valid partly full state := by
  induction reached with
  | start first =>
    obtain ⟨isStart, free, outside⟩ := first
    obtain ⟨isValid, blank⟩ := initially _ isStart
    exact .fresh isValid free outside blank
  | next _ isAllowed stepped ih => exact ih.step contract isAllowed (lazyStep_of_step stepped)

/-- A thread that goes back from its call, or is about to, has a cell that is ready; and one
that is full, unless in vain, when it filled the cell itself. -/
theorem lazyRuns_ready {starts : Shared → Prop}
    (contract : LazyFills cells allowed valid partly full vain)
    (initially : ∀ shared, starts shared → valid shared ∧ ∀ key, cells.blank shared key = true)
    (reached : (lazyRuns cells starts).Reaches (fun _ event => event.Allowed allowed) state) :
    ∀ thread key own, state.stage thread = .leaving key own ∨
      state.stage thread = .returning key own →
        state.Ready full vain key ∧ (own = true → full state.shared key ∨ vain key) := by
  induction reached with
  | start first =>
    intro thread key own behind
    simp [first.2.2] at behind
  | @next state after event before isAllowed stepped ih =>
    have sound := lazyRuns_sound contract initially before
    have stepped := lazyStep_of_step stepped
    intro thread key own behind
    have keep (ready : state.Ready full vain key) : after.Ready full vain key :=
      sound.keeps_ready contract isAllowed stepped ready
    have keeps (earlier : state.stage thread = .leaving key own ∨
        state.stage thread = .returning key own) :
        after.Ready full vain key ∧ (own = true → full after.shared key ∨ vain key) := by
      obtain ⟨ready, filled⟩ := ih thread key own earlier
      exact ⟨keep ready, fun isOwn =>
        (filled isOwn).imp (sound.keeps_full contract isAllowed stepped key) id⟩
    have other {mover : Nat} {stage : LazyStage Key} {middle : LazyState Shared Key}
        (is : after = middle.move mover stage) (same : middle.stage = state.stage)
        (differ : thread ≠ mover) :
        state.stage thread = .leaving key own ∨ state.stage thread = .returning key own := by
      rw [is, LazyState.move_other differ, same] at behind
      exact behind
    cases stepped with
    | @called mover key' outside =>
      by_cases here : thread = mover
      · subst here
        rw [LazyState.move_self] at behind
        split at behind
        next => simp at behind
        next seen =>
          obtain ⟨rfl, rfl⟩ : key' = key ∧ own = false := by simpa [eq_comm] using behind
          exact ⟨keep (sound.ready_of_seen (by simpa using seen)), by simp⟩
      · exact keeps (other rfl rfl here)
    | @acquired mover _ waits _ =>
      by_cases here : thread = mover
      · subst here
        simp at behind
      · exact keeps (other rfl rfl here)
    | @looked mover key' holds =>
      by_cases here : thread = mover
      · subst here
        rw [LazyState.move_self] at behind
        split at behind
        next => simp at behind
        next seen =>
          obtain ⟨rfl, rfl⟩ : key' = key ∧ own = false := by simpa [eq_comm] using behind
          exact ⟨keep (sound.ready_of_seen (by simpa using seen)), by simp⟩
      · exact keeps (other rfl rfl here)
    | @filled mover key' work shared done fills made =>
      by_cases here : thread = mover
      · subst here
        rw [LazyState.move_self] at behind
        cases done with
        | false => simp at behind
        | true =>
          obtain ⟨rfl, rfl⟩ : key' = key ∧ own = true := by simpa [eq_comm] using behind
          rcases sound.filled contract fills made with ⟨_, isVain⟩ | isFull
          · exact ⟨.inr (.inr isVain), fun _ => .inr isVain⟩
          · exact ⟨.inl isFull, fun _ => .inl isFull⟩
      · exact keeps (other rfl rfl here)
    | @released mover key' own' leaves =>
      by_cases here : thread = mover
      · subst here
        rw [LazyState.move_self] at behind
        obtain ⟨rfl, rfl⟩ : key' = key ∧ own' = own := by simpa using behind
        exact keeps (.inl leaves)
      · exact keeps (other rfl rfl here)
    | @finished mover _ _ _ =>
      by_cases here : thread = mover
      · subst here
        simp at behind
      · exact keeps (other rfl rfl here)
    | disturbed => exact keeps behind

end

end NcclExts.Foundation
