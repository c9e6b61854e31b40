import Mathlib.Logic.Function.Basic
import Mathlib.Data.List.Basic
import NcclExts.Foundation.System

/-!
# The lock of the performance monitor

A process that publishes its stats holds an exclusive lock on a file, through a descriptor
that its `UnetPerfMonitor` keeps until it is destroyed. Numbers of descriptors are used
again in a process, so what a number stands for is told by a mark that each opening gets.
When the lock is held elsewhere, `init` closes the descriptor and goes on with its number.
-/

namespace NcclExts.Ucommd

open NcclExts.Foundation

/-- `UnetPerfMonitor::State`. -/
inductive UnetPerfState where
  | created
  | initialized
  | error
deriving DecidableEq, Repr

/-- How `flock` comes out. -/
inductive FlockAnswer where
  | locked
  | wouldBlock
  | failed
deriving DecidableEq, Repr

/-- How the calls of an `init` come out: the number that `open` returns, `flock`, and the
steps for the stats behind it, of which those of the bw stat are taken by processes with a
rank. -/
structure UnetInitAnswers where
  fd : Option Nat
  flock : FlockAnswer
  ibSteps : List Bool
  ranked : Bool
  bwSteps : List Bool
deriving DecidableEq, Repr

/-- Every step for the stats succeeds. -/
def UnetInitAnswers.published (answers : UnetInitAnswers) : Bool :=
  answers.ibSteps.all id && (!answers.ranked || answers.bwSteps.all id)

/-- A process with its monitor: what each number of a descriptor stands for, the mark of the
next opening, the marks of the monitor's own openings, what each of its closings closed,
the mark through which it holds the lock, and `state_` and `lock_fd_`. -/
structure LockLife where
  table : Nat → Option Nat
  next : Nat
  own : List Nat
  closings : List (Option Nat)
  holder : Option Nat
  state : UnetPerfState
  lockFd : Int
  destroyed : Bool

namespace LockLife

/-- `close` by the monitor: the number is free, and a lock that was held through it is
given up. -/
def close (life : LockLife) (fd : Nat) : LockLife :=
  { life with
    table := Function.update life.table fd none
    closings := life.closings ++ [life.table fd]
    holder := if life.holder = life.table fd then none else life.holder }

/-- `open` by the monitor. -/
def opening (life : LockLife) (fd : Nat) : LockLife :=
  { life with
    table := Function.update life.table fd (some life.next)
    next := life.next + 1
    own := life.own ++ [life.next] }

/-- The end of `init`, behind the lock: the stats are set up. -/
def publish (life : LockLife) (answers : UnetInitAnswers) : LockLife :=
  { life with state := if answers.published then .initialized else .error }

/-- `UnetPerfMonitor::init`. -/
def init (life : LockLife) (answers : UnetInitAnswers) : LockLife :=
  match life.state with
  | .initialized => life
  | .error => life
  | .created =>
    match answers.fd with
    | none => { life with state := .error }
    | some fd =>
      let life := life.opening fd
      match answers.flock with
      | .locked =>
        { life with holder := life.table fd, lockFd := fd }.publish answers
      | .wouldBlock => { life.close fd with lockFd := fd }.publish answers
      | .failed => { life.close fd with state := .error }

/-- `UnetPerfMonitor::~UnetPerfMonitor`. -/
def destroy (life : LockLife) : LockLife :=
  let life :=
    if 0 ≤ life.lockFd then { life.close life.lockFd.toNat with lockFd := -1 } else life
  { life with state := .error, destroyed := true }

/-- What can happen: calls of `init`, the end of the monitor, and openings and closings by
the other code of the process. -/
inductive Event where
  | init (answers : UnetInitAnswers)
  | destroy
  | othersOpen (fd : Nat)
  | othersClose (fd : Nat)
deriving DecidableEq, Repr

/-- One step. A number that is opened was free; other code closes what it opened itself;
and nothing is called of a monitor that was destroyed. -/
def step (life : LockLife) : Event → Option LockLife
  | .init answers =>
    if life.destroyed = false ∧ ∀ fd ∈ answers.fd, life.table fd = none then
      some (life.init answers)
    else none
  | .destroy => if life.destroyed = false then some life.destroy else none
  | .othersOpen fd =>
    if life.table fd = none then
      some { life with
        table := Function.update life.table fd (some life.next), next := life.next + 1 }
    else none
  | .othersClose fd =>
    match life.table fd with
    | none => none
    | some mark =>
      if mark ∈ life.own then none
      else some { life with table := Function.update life.table fd none }

/-- The constructor, in a process with some descriptors; the environment may switch the
monitor off. -/
def construct (table : Nat → Option Nat) (next : Nat) (disabled : Bool) : LockLife where
  table := table
  next := next
  own := []
  closings := []
  holder := none
  state := if disabled then .error else .created
  lockFd := -1
  destroyed := false

/-- Marks are of openings so far, and each stands for one number. -/
structure Marks (table : Nat → Option Nat) (next : Nat) : Prop where
  known : ∀ fd mark, table fd = some mark → mark < next
  once : ∀ fd other mark, table fd = some mark → table other = some mark → fd = other

/-- Every life of a monitor, in any process. -/
def monitored : System LockLife Event where
  starts := fun life => ∃ table next disabled, Marks table next ∧
    life = construct table next disabled
  step := step

/-- What is promised of a monitor at any time: `lock_fd_` is a number it opened and has not
closed; an initialised monitor holds the lock through it; what it closes it opened, each
but once; and in the end all that it opened is closed. -/
structure Lawful (life : LockLife) : Prop where
  held : 0 ≤ life.lockFd → ∃ mark ∈ life.own, life.table life.lockFd.toNat = some mark ∧
    some mark ∉ life.closings
  locked : life.state = .initialized → 0 ≤ life.lockFd ∧
    ∃ mark, life.table life.lockFd.toNat = some mark ∧ life.holder = some mark
  closedOwn : ∀ closing ∈ life.closings, ∃ mark ∈ life.own, closing = some mark
  closedOnce : life.closings.Nodup
  closedAll : life.destroyed = true → ∀ mark ∈ life.own, some mark ∈ life.closings

/-- The lock that an `init` asks for is not held elsewhere. -/
def Uncontended (life : LockLife) : Event → Prop
  | .init answers =>
    life.state = .created → answers.fd.isSome → answers.flock ≠ .wouldBlock
  | _ => True

instance (life : LockLife) : ∀ event, Decidable (life.Uncontended event)
  | .init _ => inferInstanceAs (Decidable (_ → _ → _))
  | .destroy => .isTrue trivial
  | .othersOpen _ => .isTrue trivial
  | .othersClose _ => .isTrue trivial

/-! ## A monitor whose lock is not contended -/

/-- Where the monitor stands with its descriptor: it opened none, it holds one and the lock
through it, or it closed the one it opened. -/
inductive Phase (life : LockLife) : Prop where
  | unopened (own : life.own = []) (closings : life.closings = []) (lockFd : life.lockFd = -1)
      (uninitialized : life.state ≠ .initialized)
  | holding (fd mark : Nat) (own : life.own = [mark]) (closings : life.closings = [])
      (lockFd : life.lockFd = fd) (here : life.table fd = some mark)
      (holder : life.holder = some mark) (opened : life.state ≠ .created)
      (alive : life.destroyed = false)
  | closed (mark : Nat) (own : life.own = [mark]) (closings : life.closings = [some mark])
      (lockFd : life.lockFd = -1) (nowhere : ∀ fd, life.table fd ≠ some mark)
      (failed : life.state = .error)

/-- The monitor is in a phase, among marks in order; and a created one has opened none. -/
structure Orderly (life : LockLife) : Prop where
  phase : life.Phase
  marks : Marks life.table life.next
  ownMarked : ∀ mark ∈ life.own, mark < life.next
  unopened : life.state = .created → life.own = []

/-- A monitor in order is lawful. -/
theorem Orderly.lawful {life : LockLife} (orderly : life.Orderly) : life.Lawful := by
  cases orderly.phase with
  | unopened own closings lockFd uninitialized =>
    constructor
    · intro nonneg
      rw [lockFd] at nonneg
      exact absurd nonneg (by decide)
    · exact fun initialized => absurd initialized uninitialized
    · rw [closings]
      exact fun _ member => absurd member List.not_mem_nil
    · rw [closings]
      exact List.nodup_nil
    · rw [own]
      exact fun _ _ member => absurd member List.not_mem_nil
  | holding fd mark own closings lockFd here holder opened alive =>
    have number : life.lockFd.toNat = fd := by rw [lockFd]; rfl
    constructor
    · intro _
      rw [number, closings]
      exact ⟨mark, by rw [own]; exact List.mem_singleton_self _, here, List.not_mem_nil⟩
    · intro _
      rw [number]
      exact ⟨by omega, mark, here, holder⟩
    · rw [closings]
      exact fun _ member => absurd member List.not_mem_nil
    · rw [closings]
      exact List.nodup_nil
    · intro ended
      rw [alive] at ended
      cases ended
  | closed mark own closings lockFd nowhere failed =>
    constructor
    · intro nonneg
      rw [lockFd] at nonneg
      exact absurd nonneg (by decide)
    · intro initialized
      rw [failed] at initialized
      cases initialized
    · rw [closings, own]
      intro closing member
      exact ⟨mark, List.mem_singleton_self _, List.mem_singleton.mp member⟩
    · rw [closings]
      exact List.nodup_cons.mpr ⟨List.not_mem_nil, List.nodup_nil⟩
    · intro _ other member
      rw [own] at member
      rw [closings, List.mem_singleton.mp member]
      exact List.mem_singleton_self _

/-- A monitor is constructed in order. -/
theorem construct_orderly {table : Nat → Option Nat} {next : Nat} (marks : Marks table next)
    (disabled : Bool) : (construct table next disabled).Orderly := by
  refine ⟨.unopened rfl rfl rfl ?_, marks, fun _ member => absurd member List.not_mem_nil,
    fun _ => rfl⟩
  cases disabled <;> exact nofun

/-- Opening a number keeps marks in order. -/
theorem Marks.opened {table : Nat → Option Nat} {next : Nat} (marks : Marks table next) (fd : Nat) :
    Marks (Function.update table fd (some next)) (next + 1) := by
  have entry (other mark : Nat) (here : Function.update table fd (some next) other = some mark) :
      other = fd ∧ mark = next ∨ other ≠ fd ∧ table other = some mark := by
    by_cases same : other = fd
    · rw [same, Function.update_self, Option.some.injEq] at here
      exact Or.inl ⟨same, here.symm⟩
    · rw [Function.update_of_ne same] at here
      exact Or.inr ⟨same, here⟩
  constructor
  · intro other mark here
    rcases entry other mark here with ⟨_, rfl⟩ | ⟨_, older⟩
    · exact Nat.lt_succ_self _
    · exact Nat.lt_succ_of_lt (marks.known other mark older)
  · intro first second mark here there
    rcases entry first mark here with ⟨isFd, rfl⟩ | ⟨_, older⟩
    · rcases entry second _ there with ⟨isFd', _⟩ | ⟨_, older⟩
      · rw [isFd, isFd']
      · exact absurd (marks.known _ _ older) (Nat.lt_irrefl _)
    · rcases entry second mark there with ⟨_, rfl⟩ | ⟨_, older'⟩
      · exact absurd (marks.known _ _ older) (Nat.lt_irrefl _)
      · exact marks.once first second mark older older'

/-- An entry that is left when a number is closed. -/
theorem freed_entry {table : Nat → Option Nat} {fd other mark : Nat}
    (here : Function.update table fd none other = some mark) :
    other ≠ fd ∧ table other = some mark := by
  by_cases same : other = fd
  · rw [same, Function.update_self] at here
    cases here
  · rw [Function.update_of_ne same] at here
    exact ⟨same, here⟩

/-- Closing a number keeps marks in order. -/
theorem Marks.freed {table : Nat → Option Nat} {next : Nat} (marks : Marks table next) (fd : Nat) :
    Marks (Function.update table fd none) next :=
  ⟨fun _ _ here => marks.known _ _ (freed_entry here).2,
    fun _ _ _ here there => marks.once _ _ _ (freed_entry here).2 (freed_entry there).2⟩

/-- The mark of a number that is closed is nowhere any more. -/
theorem Marks.gone {table : Nat → Option Nat} {next fd mark : Nat} (marks : Marks table next)
    (here : table fd = some mark) (other : Nat) :
    Function.update table fd none other ≠ some mark := by
  intro there
  obtain ⟨away, same⟩ := freed_entry there
  exact away (marks.once _ _ _ same here)

/-- What the end of `init` leaves. -/
theorem publish_state (life : LockLife) (answers : UnetInitAnswers) :
    (life.publish answers).state ≠ .created := by
  unfold publish
  split <;> exact nofun

/-- An `init` whose lock is not contended keeps the order. -/
theorem Orderly.init {life : LockLife} (orderly : life.Orderly) {answers : UnetInitAnswers}
    (alive : life.destroyed = false) (uncontended : life.Uncontended (.init answers)) :
    (life.init answers).Orderly := by
  unfold LockLife.init
  cases state : life.state with
  | initialized => exact orderly
  | error => exact orderly
  | created =>
    have own := orderly.unopened state
    have closings : life.closings = [] ∧ life.lockFd = -1 := by
      cases orderly.phase with
      | unopened _ closings lockFd _ => exact ⟨closings, lockFd⟩
      | holding _ _ _ _ _ _ _ opened _ => exact absurd state opened
      | closed _ _ _ _ _ failed => rw [state] at failed; cases failed
    cases opened : answers.fd with
    | none =>
      exact ⟨.unopened own closings.1 closings.2 nofun, orderly.marks, orderly.ownMarked, nofun⟩
    | some fd =>
      have marks := orderly.marks.opened fd
      have here : (life.opening fd).table fd = some life.next := Function.update_self _ _ _
      have only : life.own ++ [life.next] = [life.next] := by rw [own, List.nil_append]
      have ownMarked : ∀ mark ∈ life.own ++ [life.next], mark < life.next + 1 := by
        rw [only]
        intro mark member
        rw [List.mem_singleton.mp member]
        exact Nat.lt_succ_self _
      cases answered : answers.flock with
      | wouldBlock => exact absurd answered (uncontended state (by rw [opened]; rfl))
      | locked =>
        have published := publish_state
          { life.opening fd with holder := (life.opening fd).table fd, lockFd := fd } answers
        exact ⟨.holding fd life.next only closings.1 rfl here here published alive, marks,
          ownMarked, fun created => absurd created published⟩
      | failed =>
        have closing : life.closings ++ [(life.opening fd).table fd] = [some life.next] := by
          rw [closings.1, here, List.nil_append]
        exact ⟨.closed life.next only closing closings.2 (marks.gone here) rfl, marks.freed fd,
          ownMarked, nofun⟩

/-- The end of the monitor keeps the order. -/
theorem Orderly.destroy {life : LockLife} (orderly : life.Orderly) : life.destroy.Orderly := by
  unfold LockLife.destroy
  cases orderly.phase with
  | unopened own closings lockFd _ =>
    rw [if_neg (by rw [lockFd]; decide)]
    exact ⟨.unopened own closings lockFd nofun, orderly.marks, orderly.ownMarked, nofun⟩
  | closed mark own closings lockFd nowhere _ =>
    rw [if_neg (by rw [lockFd]; decide)]
    exact ⟨.closed mark own closings lockFd nowhere rfl, orderly.marks, orderly.ownMarked, nofun⟩
  | holding fd mark own closings lockFd here _ _ _ =>
    have number : life.lockFd.toNat = fd := by rw [lockFd]; rfl
    rw [if_pos (by omega), number]
    have closing : life.closings ++ [life.table fd] = [some mark] := by
      rw [closings, here, List.nil_append]
    exact ⟨.closed mark own closing rfl (orderly.marks.gone here) rfl, orderly.marks.freed fd,
      orderly.ownMarked, nofun⟩

/-- Openings by other code keep the order: the number was free, and the mark is new. -/
theorem Orderly.othersOpen {life : LockLife} (orderly : life.Orderly) {fd : Nat}
    (free : life.table fd = none) :
    Orderly { life with
      table := Function.update life.table fd (some life.next), next := life.next + 1 } := by
  refine ⟨?_, orderly.marks.opened fd,
    fun mark member => Nat.lt_succ_of_lt (orderly.ownMarked mark member), orderly.unopened⟩
  cases orderly.phase with
  | unopened own closings lockFd uninitialized => exact .unopened own closings lockFd uninitialized
  | holding held mark own closings lockFd here holder opened alive =>
    have away : held ≠ fd := by
      rintro rfl
      rw [free] at here
      cases here
    exact .holding held mark own closings lockFd ((Function.update_of_ne away _ _).trans here)
      holder opened alive
  | closed mark own closings lockFd nowhere failed =>
    refine .closed mark own closings lockFd (fun other there => ?_) failed
    change Function.update life.table fd (some life.next) other = some mark at there
    by_cases same : other = fd
    · rw [same, Function.update_self, Option.some.injEq] at there
      have older := orderly.ownMarked mark (by rw [own]; exact List.mem_singleton_self _)
      omega
    · rw [Function.update_of_ne same] at there
      exact nowhere other there

/-- Closings by other code keep the order: what it closes is not the monitor's. -/
theorem Orderly.othersClose {life : LockLife} (orderly : life.Orderly) {fd mark : Nat}
    (here : life.table fd = some mark) (others : mark ∉ life.own) :
    Orderly { life with table := Function.update life.table fd none } := by
  refine ⟨?_, orderly.marks.freed fd, orderly.ownMarked, orderly.unopened⟩
  cases orderly.phase with
  | unopened own closings lockFd uninitialized => exact .unopened own closings lockFd uninitialized
  | holding held mark' own closings lockFd isHeld holder opened alive =>
    have away : held ≠ fd := by
      rintro rfl
      rw [here] at isHeld
      cases isHeld
      rw [own] at others
      exact others (List.mem_singleton_self _)
    exact .holding held mark' own closings lockFd ((Function.update_of_ne away _ _).trans isHeld)
      holder opened alive
  | closed mark' own closings lockFd nowhere failed =>
    exact .closed mark' own closings lockFd
      (fun other there => nowhere other (freed_entry there).2) failed

/-- A step whose lock is not contended keeps the order. -/
theorem Orderly.step {life after : LockLife} {event : Event} (orderly : life.Orderly)
    (uncontended : life.Uncontended event) (stepped : life.step event = some after) :
    after.Orderly := by
  cases event with
  | init answers =>
    simp only [LockLife.step] at stepped
    split at stepped
    next possible =>
      rw [← Option.some.inj stepped]
      exact orderly.init possible.1 uncontended
    next => cases stepped
  | destroy =>
    simp only [LockLife.step] at stepped
    split at stepped
    · rw [← Option.some.inj stepped]
      exact orderly.destroy
    · cases stepped
  | othersOpen fd =>
    simp only [LockLife.step] at stepped
    split at stepped
    next free =>
      rw [← Option.some.inj stepped]
      exact orderly.othersOpen free
    next => cases stepped
  | othersClose fd =>
    simp only [LockLife.step] at stepped
    split at stepped
    · cases stepped
    next mark here =>
      split at stepped
      · cases stepped
      next others =>
        rw [← Option.some.inj stepped]
        exact orderly.othersClose here others

/-- A contended `init` leaves the number of a descriptor that it closed. -/
theorem contended_not_lawful {life after : LockLife} {event : Event}
    (contended : ¬ life.Uncontended event) (stepped : life.step event = some after) :
    ¬ after.Lawful := by
  cases event with
  | init answers =>
    unfold Uncontended at contended
    have created : life.state = .created := by
      by_contra other
      exact contended fun created => absurd created other
    have blocked : answers.flock = .wouldBlock := by
      by_contra other
      exact contended fun _ _ => other
    cases opened : answers.fd with
    | none => exact absurd (fun _ some => by rw [opened] at some; cases some) contended
    | some fd =>
      simp only [LockLife.step] at stepped
      split at stepped
      · rw [← Option.some.inj stepped, LockLife.init]
        rw [created, opened, blocked]
        rintro lawful
        obtain ⟨mark, _, here, _⟩ := lawful.held (Int.natCast_nonneg fd)
        have gone : Function.update (life.opening fd).table fd none fd = some mark := here
        rw [Function.update_self] at gone
        cases gone
      · cases stepped
  | destroy => exact absurd trivial contended
  | othersOpen fd => exact absurd trivial contended
  | othersClose fd => exact absurd trivial contended

/-- From a monitor in order, all states of a life are lawful exactly when no `init` finds
the lock held elsewhere. -/
theorem Orderly.lawful_iff {life after : LockLife} (orderly : life.Orderly) {events : List Event}
    (replayed : monitored.replay life events = some after) :
    (∀ front, front <+: events → ∀ middle, monitored.replay life front = some middle →
      middle.Lawful) ↔ monitored.permits Uncontended life events = true := by
  induction events generalizing life with
  | nil =>
    refine ⟨fun _ => rfl, fun _ front isFront middle reached => ?_⟩
    rw [List.prefix_nil.mp isFront] at reached
    rw [← Option.some.inj reached]
    exact orderly.lawful
  | cons event rest ih =>
    simp only [System.replay, List.foldlM_cons] at replayed
    obtain ⟨next, stepped, later⟩ := Option.bind_eq_some_iff.mp replayed
    have through {front : List Event} {middle : LockLife} :
        monitored.replay life (event :: front) = some middle ↔
          monitored.replay next front = some middle := by
      simp only [System.replay, List.foldlM_cons, stepped]
      rfl
    simp only [System.permits, stepped, Option.any_some, Bool.and_eq_true, decide_eq_true_eq]
    constructor
    · intro lawful
      have first : next.Lawful :=
        lawful [event] (List.prefix_append [event] rest) next (through.mpr rfl)
      have uncontended : life.Uncontended event := by
        by_contra contended
        exact contended_not_lawful contended stepped first
      refine ⟨uncontended, (ih (orderly.step uncontended stepped) later).mp ?_⟩
      intro front isFront middle reached
      exact lawful (event :: front) (List.cons_prefix_cons.mpr ⟨rfl, isFront⟩) middle
        (through.mpr reached)
    · rintro ⟨uncontended, permitted⟩ front isFront middle reached
      cases front with
      | nil =>
        rw [← Option.some.inj reached]
        exact orderly.lawful
      | cons first front =>
        obtain ⟨same, behind⟩ := List.cons_prefix_cons.mp isFront
        rw [same] at reached
        exact (ih (orderly.step uncontended stepped) later).mpr permitted front behind middle
          (through.mp reached)

/-- A monitor is lawful throughout a life exactly when no `init` of that life finds the lock
held elsewhere. -/
theorem lock_lawful_iff {life after : LockLife} (start : monitored.starts life)
    {events : List Event} (replayed : monitored.replay life events = some after) :
    (∀ front, front <+: events → ∀ middle, monitored.replay life front = some middle →
      middle.Lawful) ↔ monitored.permits Uncontended life events = true := by
  obtain ⟨table, next, disabled, marks, rfl⟩ := start
  exact (construct_orderly marks disabled).lawful_iff replayed

/-- A process with the three standard descriptors, and its monitor. -/
def threeOpen : LockLife := construct (fun fd => if fd < 3 then some fd else none) 3 false

/-- An `init` whose calls succeed, but for the lock. -/
def asking (flock : FlockAnswer) : UnetInitAnswers :=
  { fd := some 3, flock := flock, ibSteps := [true, true, true, true], ranked := false
    bwSteps := [] }

/-- Its marks are in order. -/
theorem threeOpen_starts : monitored.starts threeOpen := by
  have entry {fd mark : Nat} (here : (if fd < 3 then some fd else none) = some mark) :
      fd = mark ∧ mark < 3 := by
    split at here
    next inside =>
      cases here
      exact ⟨rfl, inside⟩
    next => cases here
  exact ⟨_, _, false, ⟨fun _ _ here => (entry here).2,
    fun _ _ _ here there => (entry here).1.trans (entry there).1.symm⟩, rfl⟩

/-- A life in which the lock is granted, and a socket is opened and closed. -/
def grantedEvents : List Event :=
  [.init (asking .locked), .othersOpen 4, .destroy, .othersClose 4]

/-- The monitor gets its lock, and it is lawful to its end. -/
theorem lock_lawful_granted :
    monitored.permits Uncontended threeOpen grantedEvents = true ∧
      ∀ front, front <+: grantedEvents → ∀ middle,
        monitored.replay threeOpen front = some middle → middle.Lawful := by
  have granted : monitored.permits Uncontended threeOpen grantedEvents = true := by
    decide +kernel
  exact ⟨granted, (lock_lawful_iff threeOpen_starts rfl).mpr granted⟩

/-- With the lock held elsewhere the monitor is initialised without it, and in its end it
closes a socket that was opened meanwhile. -/
theorem lock_not_lawful : ∃ contended after,
    monitored.replay threeOpen [.init (asking .wouldBlock)] = some contended ∧
      contended.state = .initialized ∧ contended.holder = none ∧ contended.lockFd = 3 ∧
      contended.table 3 = none ∧ ¬ contended.Lawful ∧
    monitored.replay threeOpen [.init (asking .wouldBlock), .othersOpen 3, .destroy] =
        some after ∧
      after.closings = [some 3, some 4] ∧ after.own = [3] ∧ ¬ after.Lawful := by
  refine ⟨_, _, rfl, rfl, by decide, rfl, by decide, fun lawful => ?_, rfl, by decide, by decide,
    fun lawful => ?_⟩
  · obtain ⟨_, mark, _, holder⟩ := lawful.locked rfl
    cases holder
  · obtain ⟨mark, own, closing⟩ := lawful.closedOwn (some 4) (by decide)
    have third : mark ∈ [3] := own
    rw [List.mem_singleton.mp third] at closing
    cases closing

end LockLife

end NcclExts.Ucommd
