import NcclExts.Foundation.System
import NcclExts.Unet.Device

/-!
# The lifetime of the protection domain of a device

Comms come and go on one device while any verbs call may fail. The count of a device
rises before the allocation it guards and falls after a call that may return early, so
a failure leaves the count and the domain apart: a failed allocation leaves a positive
count without a domain, and a failed deallocation leaves a domain with count zero. The
device serves its comms well as long as no comm is opened on such a leftover.
-/

namespace NcclExts.Unet

open NcclExts.Foundation

/-- The device, the bases that were initialized and not yet destroyed, the domains
that are allocated on it, and those a new allocation has overwritten. -/
structure PdWorld where
  dev : NcclIbDev
  bases : List (Nat × NcclIbNetCommDevBase)
  pds : List Nat
  overwritten : List Nat
deriving DecidableEq, Repr

/-- The two calls for the base of a comm, with the outcomes of the verbs calls in
them: `none` and `false` are failures. -/
inductive PdCall where
  | initCommDevBase (comm : Nat) (allocPd createCq : Option Nat)
  | destroyBase (comm : Nat) (destroyCqOk deallocPdOk : Bool)
deriving DecidableEq, Repr

namespace PdWorld

/-- The allocated domains the device points to: at most one. -/
def current (world : PdWorld) : List Nat := world.pds.filter (fun pd => world.dev.pd = some pd)

/-- Initialize a base; verbs do not hand out a domain that is still allocated. -/
def init (world : PdWorld) (comm : Nat) (allocPd createCq : Option Nat) : Option PdWorld :=
  if comm ∈ world.bases.map Prod.fst ∨ ∃ pd ∈ world.pds, allocPd = some pd then none
  else
    let outcome := ncclIbInitCommDevBase world.dev allocPd createCq
    some
      { dev := outcome.dev
        bases :=
          if outcome.result = .ncclSuccess then (comm, outcome.base) :: world.bases
          else world.bases
        pds := if outcome.allocated then allocPd.toList ++ world.pds else world.pds
        overwritten :=
          if outcome.allocated ∧ allocPd ≠ none then world.current ++ world.overwritten
          else world.overwritten }

/-- Destroy a base. It is gone once its completion queue is, whether or not the domain
could be deallocated. -/
def destroy (world : PdWorld) (comm : Nat) (destroyCqOk deallocPdOk : Bool) : Option PdWorld :=
  if comm ∈ world.bases.map Prod.fst then
    let outcome := ncclIbDestroyBase world.dev destroyCqOk deallocPdOk
    some
      { world with
        dev := outcome.dev
        bases := if destroyCqOk then world.bases.eraseP (fun base => base.1 = comm) else world.bases
        pds :=
          if outcome.deallocated ∧ deallocPdOk then
            world.pds.filter (fun pd => world.dev.pd ≠ some pd)
          else world.pds }
  else none

/-- One call. -/
def step (world : PdWorld) : PdCall → Option PdWorld
  | .initCommDevBase comm allocPd createCq => world.init comm allocPd createCq
  | .destroyBase comm destroyCqOk deallocPdOk => world.destroy comm destroyCqOk deallocPdOk

/-- A device as initialization leaves it. -/
def Fresh (world : PdWorld) : Prop :=
  world.dev.pdRefs = 0 ∧ world.dev.pd = none ∧ world.bases = [] ∧ world.pds = [] ∧
    world.overwritten = []

/-- No comm is opened on a leftover: none gets its completion queue where a failed
allocation left a positive count without a domain, and none allocates a domain where a
failed deallocation left one. -/
def Undisturbed (world : PdWorld) : PdCall → Prop
  | .initCommDevBase _ allocPd createCq =>
    (world.dev.pdRefs ≠ 0 → createCq ≠ none → world.dev.pd ≠ none) ∧
      (world.dev.pdRefs = 0 → allocPd ≠ none → world.current = [])
  | .destroyBase .. => True

/-- The call's allocation and deallocation of the domain succeed. -/
def Healthy (_ : PdWorld) : PdCall → Prop
  | .initCommDevBase _ allocPd _ => allocPd ≠ none
  | .destroyBase _ _ deallocPdOk => deallocPdOk = true

instance (world : PdWorld) (call : PdCall) : Decidable (world.Healthy call) := by
  cases call <;> unfold Healthy <;> infer_instance

/-- Every initialized base has an allocated domain, and no domain was overwritten while
it was allocated. -/
structure PdSafe (world : PdWorld) : Prop where
  usable : ∀ base ∈ world.bases, ∃ pd ∈ world.pds, base.2.pd = some pd
  kept : world.overwritten = []

/-- The count covers the initialized bases, which all share the device's domain; a
domain the device points to with a positive count is allocated. -/
structure Counted (world : PdWorld) : Prop where
  refs : (world.bases.length : Int) ≤ world.dev.pdRefs
  shared : ∀ base ∈ world.bases, base.2.pd = world.dev.pd ∧ world.dev.pd ≠ none
  held : world.dev.pdRefs ≠ 0 → ∀ pd, world.dev.pd = some pd → pd ∈ world.pds
  kept : world.overwritten = []

theorem Counted.safe {world : PdWorld} (counted : world.Counted) : world.PdSafe := by
  refine ⟨fun base member => ?_, counted.kept⟩
  obtain ⟨same, some⟩ := counted.shared base member
  obtain ⟨pd, isSome⟩ := Option.ne_none_iff_exists'.mp some
  have positive : 0 < world.bases.length := List.length_pos_of_mem member
  have refs := counted.refs
  exact ⟨pd, counted.held (by omega) pd isSome, same.trans isSome⟩

theorem Fresh.counted {world : PdWorld} (fresh : world.Fresh) : world.Counted := by
  obtain ⟨refs, pd, bases, pds, overwritten⟩ := fresh
  constructor
  · rw [refs, bases]
    decide
  · rw [bases]
    simp
  · intro nonzero
    exact absurd refs nonzero
  · exact overwritten

/-- What opening a comm does, by whether it is the first on the device. -/
theorem init_cases {world after : PdWorld} {comm : Nat} {allocPd createCq : Option Nat}
    (opened : world.init comm allocPd createCq = some after) :
    (world.dev.pdRefs ≠ 0 ∧ after =
      { world with
        dev := { world.dev with pdRefs := world.dev.pdRefs + 1 }
        bases := (createCq.map fun cq =>
          (comm, NcclIbNetCommDevBase.mk world.dev.pd (some cq))).toList ++ world.bases }) ∨
    (world.dev.pdRefs = 0 ∧ allocPd = none ∧ after =
      { world with dev := { world.dev with pdRefs := 1, pd := none } }) ∨
    (world.dev.pdRefs = 0 ∧ ∃ pd, allocPd = some pd ∧ after =
      { dev := { world.dev with pdRefs := 1, pd := some pd }
        bases := (createCq.map fun cq =>
          (comm, NcclIbNetCommDevBase.mk (some pd) (some cq))).toList ++ world.bases
        pds := pd :: world.pds
        overwritten := world.current ++ world.overwritten }) := by
  unfold init at opened
  split at opened
  · simp at opened
  · rw [← Option.some.inj opened]
    by_cases first : world.dev.pdRefs = 0
    · cases allocPd with
      | none =>
        refine Or.inr (Or.inl ⟨first, rfl, ?_⟩)
        simp [ncclIbInitCommDevBase, first]
      | some pd =>
        refine Or.inr (Or.inr ⟨first, pd, rfl, ?_⟩)
        cases createCq <;> simp [ncclIbInitCommDevBase, first]
    · refine Or.inl ⟨first, ?_⟩
      cases createCq <;> simp [ncclIbInitCommDevBase, first]

/-- What closing a comm does, by whether its queue goes and whether it is the last. -/
theorem destroy_cases {world after : PdWorld} {comm : Nat} {destroyCqOk deallocPdOk : Bool}
    (closed : world.destroy comm destroyCqOk deallocPdOk = some after) :
    comm ∈ world.bases.map Prod.fst ∧
    ((destroyCqOk = false ∧ after = world) ∨
    (destroyCqOk = true ∧ after =
      { world with
        dev := { world.dev with pdRefs := world.dev.pdRefs - 1 }
        bases := world.bases.eraseP (fun base => base.1 = comm)
        pds :=
          if world.dev.pdRefs = 1 ∧ deallocPdOk then
            world.pds.filter (fun pd => world.dev.pd ≠ some pd)
          else world.pds })) := by
  unfold destroy at closed
  split at closed
  next member =>
    refine ⟨member, ?_⟩
    rw [← Option.some.inj closed]
    cases destroyCqOk with
    | false => exact Or.inl ⟨rfl, by simp [ncclIbDestroyBase]⟩
    | true =>
      refine Or.inr ⟨rfl, ?_⟩
      by_cases last : world.dev.pdRefs = 1
      · simp [ncclIbDestroyBase, last]
      · have others : world.dev.pdRefs - 1 ≠ 0 := by omega
        simp [ncclIbDestroyBase, last, others]
  next => simp at closed

/-- Opening a comm away from leftovers keeps the count and the domain together. -/
theorem Counted.init {world after : PdWorld} {comm : Nat} {allocPd createCq : Option Nat}
    (counted : world.Counted)
    (undisturbed : world.Undisturbed (.initCommDevBase comm allocPd createCq))
    (opened : world.init comm allocPd createCq = some after) : after.Counted := by
  have refs := counted.refs
  rcases init_cases opened with ⟨nonzero, rfl⟩ | ⟨zero, rfl, rfl⟩ | ⟨zero, pd, rfl, rfl⟩
  · constructor
    · cases createCq <;> simp only [Option.map_none, Option.toList_none, List.nil_append,
        Option.map_some, Option.toList_some, List.cons_append, List.length_cons] <;> omega
    · intro base member
      rcases List.mem_append.mp member with new | old
      · cases createCq with
        | none => simp at new
        | some cq =>
          have same : base = (comm, ⟨world.dev.pd, some cq⟩) := by simpa using new
          rw [same]
          exact ⟨rfl, undisturbed.1 nonzero (by simp)⟩
      · exact counted.shared base old
    · intro _
      exact counted.held nonzero
    · exact counted.kept
  · have none : world.bases = [] := List.length_eq_zero_iff.mp (by omega)
    constructor
    · rw [none]
      exact Int.one_nonneg
    · rw [none]
      simp
    · intro _ pd impossible
      simp at impossible
    · exact counted.kept
  · have none : world.bases = [] := List.length_eq_zero_iff.mp (by omega)
    constructor
    · rw [none]
      cases createCq <;> simp
    · rw [none]
      cases createCq <;> simp
    · intro _ other same
      rw [← Option.some.inj same]
      exact List.mem_cons_self
    · rw [undisturbed.2 zero (by simp), counted.kept]
      rfl

/-- Closing a comm keeps the count and the domain together. -/
theorem Counted.destroy {world after : PdWorld} {comm : Nat} {destroyCqOk deallocPdOk : Bool}
    (counted : world.Counted) (closed : world.destroy comm destroyCqOk deallocPdOk = some after) :
    after.Counted := by
  obtain ⟨member, ⟨_, rfl⟩ | ⟨_, rfl⟩⟩ := destroy_cases closed
  · exact counted
  · obtain ⟨base, isBase, named⟩ := List.mem_map.mp member
    have shorter : (world.bases.eraseP (fun base => base.1 = comm)).length + 1 =
        world.bases.length := by
      have erased := List.length_eraseP_of_mem (p := fun base => decide (base.1 = comm)) isBase
        (by simpa using named)
      have positive := List.length_pos_of_mem isBase
      omega
    have refs := counted.refs
    constructor
    · simp only
      omega
    · intro other remains
      exact counted.shared other (List.mem_of_mem_eraseP remains)
    · intro nonzero pd same
      have before : world.dev.pdRefs ≠ 1 := by
        intro one
        apply nonzero
        simp only
        omega
      simp only [before, false_and, if_false]
      exact counted.held (by omega) pd same
    · exact counted.kept

/-- Opening a comm on a leftover breaks the service. -/
theorem unsafe_of_disturbed {world after : PdWorld} {comm : Nat} {allocPd createCq : Option Nat}
    (disturbed : ¬ world.Undisturbed (.initCommDevBase comm allocPd createCq))
    (opened : world.init comm allocPd createCq = some after) : ¬ after.PdSafe := by
  rintro ⟨usable, kept⟩
  apply disturbed
  rcases init_cases opened with ⟨nonzero, rfl⟩ | ⟨zero, rfl, rfl⟩ | ⟨zero, pd, rfl, rfl⟩
  · refine ⟨fun _ queued unallocated => ?_, fun zero => absurd zero nonzero⟩
    obtain ⟨cq, isCq⟩ := Option.ne_none_iff_exists'.mp queued
    obtain ⟨pd, _, same⟩ := usable (comm, ⟨world.dev.pd, some cq⟩) (by simp [isCq])
    rw [unallocated] at same
    simp at same
  · exact ⟨fun nonzero => absurd zero nonzero, fun _ failed => absurd rfl failed⟩
  · exact ⟨fun nonzero => absurd zero nonzero, fun _ _ => (List.append_eq_nil_iff.mp kept).1⟩

end PdWorld

open PdWorld

/-- All runs of calls on the base of comms on one device, with any failures. -/
def protecting : System PdWorld PdCall where
  starts := Fresh
  step := PdWorld.step

/-- A call out of a counted state stays counted exactly when it is away from leftovers. -/
theorem PdWorld.Counted.step {world after : PdWorld} {call : PdCall} (counted : world.Counted)
    (stepped : world.step call = some after) :
    (world.Undisturbed call → after.Counted) ∧ (after.PdSafe ↔ world.Undisturbed call) := by
  cases call with
  | initCommDevBase comm allocPd createCq =>
    refine ⟨fun undisturbed => counted.init undisturbed stepped, fun safe => ?_,
      fun undisturbed => (counted.init undisturbed stepped).safe⟩
    by_contra disturbed
    exact unsafe_of_disturbed disturbed stepped safe
  | destroyBase comm destroyCqOk deallocPdOk =>
    exact ⟨fun _ => counted.destroy stepped, fun _ => True.intro,
      fun _ => (counted.destroy stepped).safe⟩

/-- In every run whose calls stay away from leftovers the count and the domain stay
together. -/
theorem protecting_counted {world : PdWorld} (reached : protecting.Reaches Undisturbed world) :
    world.Counted := by
  induction reached with
  | start first => exact first.counted
  | next _ undisturbed stepped ih => exact (ih.step stepped).1 undisturbed

/-- Nothing is left behind: a positive count comes with a domain, and count zero
without one. -/
structure PdWorld.Settled (world : PdWorld) : Prop where
  counted : world.Counted
  some : world.dev.pdRefs ≠ 0 → world.dev.pd ≠ none
  none : world.dev.pdRefs = 0 → world.current = []

theorem PdWorld.Settled.undisturbed {world : PdWorld} (settled : world.Settled) (call : PdCall) :
    world.Undisturbed call := by
  cases call with
  | initCommDevBase comm allocPd createCq =>
    exact ⟨fun nonzero _ => settled.some nonzero, fun zero _ => settled.none zero⟩
  | destroyBase comm destroyCqOk deallocPdOk => exact True.intro

theorem PdWorld.Settled.step {world after : PdWorld} {call : PdCall} (settled : world.Settled)
    (healthy : world.Healthy call) (stepped : world.step call = .some after) : after.Settled := by
  have counted := (settled.counted.step stepped).1 (settled.undisturbed call)
  cases call with
  | initCommDevBase comm allocPd createCq =>
    have refs := settled.counted.refs
    rcases init_cases stepped with ⟨nonzero, rfl⟩ | ⟨_, failed, _⟩ | ⟨_, pd, rfl, rfl⟩
    · refine ⟨counted, fun _ => settled.some nonzero, fun zero => ?_⟩
      simp only at zero
      omega
    · exact absurd failed healthy
    · exact ⟨counted, fun _ => by simp, fun zero => by simp at zero⟩
  | destroyBase comm destroyCqOk deallocPdOk =>
    have deallocated : deallocPdOk = true := healthy
    obtain ⟨member, ⟨_, rfl⟩ | ⟨_, rfl⟩⟩ := destroy_cases stepped
    · exact settled
    · have positive : 0 < world.bases.length := by
        obtain ⟨base, isBase, _⟩ := List.mem_map.mp member
        exact List.length_pos_of_mem isBase
      have refs := settled.counted.refs
      refine ⟨counted, fun _ => settled.some (by omega), fun zero => ?_⟩
      have last : world.dev.pdRefs = 1 := by
        simp only at zero
        omega
      simp only [current, last, deallocated, and_self, if_true, List.filter_filter,
        List.filter_eq_nil_iff]
      intro pd _ both
      simp at both

/-- A run whose allocations and deallocations of domains succeed leaves nothing behind,
whatever happens to its completion queues. -/
theorem reaches_of_healthy {world : PdWorld} (reached : protecting.Reaches Healthy world) :
    protecting.Reaches Undisturbed world ∧ world.Settled := by
  induction reached with
  | start first =>
    refine ⟨.start first, first.counted, fun nonzero => absurd first.1 nonzero, fun _ => ?_⟩
    rw [current, first.2.2.2.1]
    rfl
  | next _ healthy stepped ih =>
    exact ⟨ih.1.next (ih.2.undisturbed _) stepped, ih.2.step healthy stepped⟩

/-- A device before any comm. -/
def PdWorld.idle : PdWorld :=
  { dev := { portNum := 1
             portAttr := { lid := 1, activeMtu := 5, linkLayer := .infiniband, grhRequired := false
                           gidTblLen := 1 }
             ar := 1, pdRefs := 0, pd := none, mrCache := .empty }
    bases := [], pds := [], overwritten := [] }

end NcclExts.Unet
