import NcclExts.Unet.MergedDevs
import NcclExts.Unet.MultiSend

/-!
# The adaptive routing flag of a comm

A device has adaptive routing when its link is InfiniBand, unless the environment decides
for all of them. Connecting goes over the devices of the merged device and keeps one flag
for the comm, which is meant to say that all of them have it; a large message is split
into its data and an empty write with immediate when it does. The loop asks the table of
physical devices with the index of the merged device.
-/

namespace NcclExts.Unet

open NcclExts.Foundation

/-- The flag of a device in `ncclIbInit`, with `NCCL_IB_ADAPTIVE_ROUTING`. -/
def adaptiveRouting (link : LinkLayer) (param : Int) : Int :=
  if param ≠ -2 then param else if link = .infiniband then 1 else 0

/-- What the device loop of `ncclIbConnect` works on: the devices, what the comm holds on
each of its devices, and its flag. -/
structure DevLoop where
  ibDevs : Nat → NcclIbDev
  devs : Nat → NcclIbNetCommDevBase
  ar : Int

/-- One round of the device loop: the comm opens its `i`-th device, and `comm->ar` stays
set when `ncclIbDevs[dev].ar` is. -/
def connectDev (dev : Nat) (mergedDev : NcclIbMergedDev) (allocPd createCq : Nat → Option Nat)
    (state : DevLoop) (i : Nat) : Except NcclResult DevLoop :=
  let ibDevN := mergedDev.devs i
  let outcome := ncclIbInitCommDevBase (state.ibDevs ibDevN) (allocPd i) (createCq i)
  let ibDevs := Function.update state.ibDevs ibDevN outcome.dev
  if outcome.result ≠ .ncclSuccess then .error outcome.result
  else
    .ok { ibDevs := ibDevs
          devs := Function.update state.devs i outcome.base
          ar := if state.ar ≠ 0 ∧ (ibDevs dev).ar ≠ 0 then 1 else 0 }

/-- The device loop of `ncclIbConnect` for the merged device `dev`. -/
def connectDevs (merged : Nat → NcclIbMergedDev) (dev : Nat)
    (allocPd createCq : Nat → Option Nat) (ibDevs : Nat → NcclIbDev) :
    Except NcclResult DevLoop :=
  (List.range (merged dev).ndevs).foldlM (connectDev dev (merged dev) allocPd createCq)
    { ibDevs := ibDevs, devs := fun _ => ⟨none, none⟩, ar := 1 }

/-! ## What the loop leaves -/

/-- Every device of the merged device has adaptive routing. -/
def AllRouted (ibDevs : Nat → NcclIbDev) (mergedDev : NcclIbMergedDev) : Prop :=
  ∀ i, i < mergedDev.ndevs → (ibDevs (mergedDev.devs i)).ar ≠ 0

instance (ibDevs : Nat → NcclIbDev) (mergedDev : NcclIbMergedDev) :
    Decidable (AllRouted ibDevs mergedDev) :=
  inferInstanceAs (Decidable (∀ i, i < mergedDev.ndevs → _))

/-- Opening a device leaves its flag. -/
theorem ncclIbInitCommDevBase_ar (ibDev : NcclIbDev) (allocPd createCq : Option Nat) :
    (ncclIbInitCommDevBase ibDev allocPd createCq).dev.ar = ibDev.ar := by
  unfold ncclIbInitCommDevBase
  dsimp only
  split_ifs <;> rfl

/-- A round leaves the flags of the devices, and asks one of them. -/
theorem connectDev_ok {dev : Nat} {mergedDev : NcclIbMergedDev}
    {allocPd createCq : Nat → Option Nat} {state after : DevLoop} {i : Nat}
    (done : connectDev dev mergedDev allocPd createCq state i = .ok after) :
    (∀ p, (after.ibDevs p).ar = (state.ibDevs p).ar) ∧
      after.ar = if state.ar ≠ 0 ∧ (state.ibDevs dev).ar ≠ 0 then 1 else 0 := by
  unfold connectDev at done
  dsimp only at done
  split at done
  · cases done
  have flags : ∀ p, (Function.update state.ibDevs (mergedDev.devs i)
      (ncclIbInitCommDevBase (state.ibDevs (mergedDev.devs i)) (allocPd i) (createCq i)).dev p).ar =
        (state.ibDevs p).ar := by
    intro p
    by_cases same : p = mergedDev.devs i
    · rw [same, Function.update_self, ncclIbInitCommDevBase_ar]
    · rw [Function.update_of_ne same]
  cases done
  exact ⟨flags, by rw [flags dev]⟩

/-- After some rounds the flags of the devices are as before, and the comm's is set if no
round was taken, or if the one device that every round asks has its flag. -/
theorem foldlM_connectDev {dev : Nat} {mergedDev : NcclIbMergedDev}
    {allocPd createCq : Nat → Option Nat} (rounds : List Nat) {state after : DevLoop}
    (start : state.ar = 1)
    (done : rounds.foldlM (connectDev dev mergedDev allocPd createCq) state = .ok after) :
    (∀ p, (after.ibDevs p).ar = (state.ibDevs p).ar) ∧
      after.ar = if rounds = [] ∨ (state.ibDevs dev).ar ≠ 0 then 1 else 0 := by
  induction rounds using List.reverseRecOn generalizing after with
  | nil =>
    cases done
    exact ⟨fun _ => rfl, by rw [start, if_pos (Or.inl rfl)]⟩
  | append_singleton rounds i ih =>
    simp only [List.foldlM_append, List.foldlM_cons, List.foldlM_nil, bind_pure] at done
    cases before : rounds.foldlM (connectDev dev mergedDev allocPd createCq) state with
    | error failed =>
      rw [before] at done
      cases done
    | ok middle =>
      rw [before] at done
      obtain ⟨flags, ar⟩ := ih before
      obtain ⟨flagsLast, arLast⟩ := @connectDev_ok _ _ _ _ middle _ _ done
      refine ⟨fun p => (flagsLast p).trans (flags p), ?_⟩
      have some : ¬ rounds ++ [i] = [] := by simp
      rw [arLast, ar, flags dev]
      by_cases flag : (state.ibDevs dev).ar = 0
      · rw [if_neg (fun both => both.2 flag), if_neg (by simp [flag])]
      · rw [if_pos (Or.inr flag), if_pos ⟨one_ne_zero, flag⟩, if_pos (Or.inr flag)]

/-- The flag that the device loop leaves. -/
theorem connectDevs_ar {merged : Nat → NcclIbMergedDev} {dev : Nat}
    {allocPd createCq : Nat → Option Nat} {ibDevs : Nat → NcclIbDev} {after : DevLoop}
    (done : connectDevs merged dev allocPd createCq ibDevs = .ok after) :
    after.ar = if (merged dev).ndevs = 0 ∨ (ibDevs dev).ar ≠ 0 then 1 else 0 := by
  have left := (foldlM_connectDev (List.range (merged dev).ndevs) rfl done).2
  simpa only [List.range_eq_nil] using left

/-! ## When it says what it is meant to say -/

/-- The flag of the physical device with the index of the merged device stands for the
flags of its devices: it is not set while one of them is not, and it is set when all of
them are. -/
def Represented (ibDevs : Nat → NcclIbDev) (merged : Nat → NcclIbMergedDev) (dev : Nat) : Prop :=
  (merged dev).ndevs = 0 ∨ ((ibDevs dev).ar ≠ 0 ↔ AllRouted ibDevs (merged dev))

/-- The comm's flag says that all devices have adaptive routing, and messages are split by
it: those of several sends, and large ones over such devices. -/
def RoutedByDevs (ibDevs : Nat → NcclIbDev) (mergedDev : NcclIbMergedDev) (ar : Int) : Prop :=
  (ar = 1 ↔ AllRouted ibDevs mergedDev) ∧
    ∀ (setup : SendSetup) (comm : SendComm) (slot nreqs : Nat) (reqs : List ReqId)
      (firstSize : Int32), setup.ar = decide (ar ≠ 0) →
      ((messageOf setup comm slot nreqs reqs firstSize).trailed = true ↔
        nreqs > 1 ∨ (AllRouted ibDevs mergedDev ∧ firstSize.toInt > setup.arThreshold))

/-- The flag of the comm, and with it the split of messages, follows the devices of the
merged device exactly when the physical device of the same index stands for them. -/
theorem ar_follows_devs_iff {merged : Nat → NcclIbMergedDev} {dev : Nat}
    {allocPd createCq : Nat → Option Nat} {ibDevs : Nat → NcclIbDev} {after : DevLoop}
    (done : connectDevs merged dev allocPd createCq ibDevs = .ok after) :
    RoutedByDevs ibDevs (merged dev) after.ar ↔ Represented ibDevs merged dev := by
  have flag : RoutedByDevs ibDevs (merged dev) after.ar ↔
      (after.ar = 1 ↔ AllRouted ibDevs (merged dev)) := by
    refine ⟨fun routed => routed.1, fun flag => ⟨flag, ?_⟩⟩
    intro setup comm slot nreqs reqs firstSize isAr
    have binary : after.ar ≠ 0 ↔ after.ar = 1 := by
      rw [connectDevs_ar done]
      split_ifs <;> decide
    simp only [messageOf, isAr, decide_eq_true_eq, binary, flag]
  rw [flag, connectDevs_ar done, Represented]
  by_cases empty : (merged dev).ndevs = 0
  · have all : AllRouted ibDevs (merged dev) := fun i inside => by omega
    simp only [empty, true_or, if_true, all]
  · simp only [empty, false_or, ite_eq_left_iff, zero_ne_one, imp_false, not_not]

namespace IbTables

/-- Without merging the physical devices and the merged ones have the same indices. -/
theorem foldl_addPort_unmerged (ports : List IbDevEntry) :
    let tables := ports.foldl (addPort false) .empty
    tables.nMerged = tables.ibDevs.length ∧ ∀ d, d < tables.nMerged →
      (tables.merged d).ndevs = 1 ∧ (tables.merged d).devs 0 = d := by
  induction ports using List.reverseRecOn with
  | nil => exact ⟨rfl, fun d inside => absurd inside (Nat.not_lt_zero d)⟩
  | append_singleton ports dev ih =>
    obtain ⟨counted, single⟩ := ih
    rw [List.foldl_append]
    have added : (ports.foldl (addPort false) .empty).addPort false dev =
        (ports.foldl (addPort false) .empty).opened dev := if_pos rfl
    simp only [List.foldl_cons, List.foldl_nil, added]
    refine ⟨by simp [opened, counted], fun d inside => ?_⟩
    by_cases new : d = (ports.foldl (addPort false) .empty).nMerged
    · simp only [opened, new, Function.update_self, true_and]
      exact counted.symm
    · simp only [opened, Function.update_of_ne new]
      exact single d (Nat.lt_of_le_of_ne (Nat.le_of_lt_succ inside) new)

/-- So there each physical device stands for itself. -/
theorem represented_unmerged (ports : List IbDevEntry) (ibDevs : Nat → NcclIbDev) {d : Nat}
    (inside : d < (ports.foldl (addPort false) .empty).nMerged) :
    Represented ibDevs (ports.foldl (addPort false) .empty).merged d := by
  obtain ⟨one, self⟩ := (foldl_addPort_unmerged ports).2 d inside
  refine Or.inr ⟨fun flag i within => ?_, fun all => ?_⟩
  · have first : i = 0 := by omega
    rwa [first, self]
  · have flag := all 0 (by omega)
    rwa [self] at flag

end IbTables

/-! ## Two cards with two ports each -/

/-- The ports of an InfiniBand card and of an Ethernet card. -/
def mixedLinks : List IbvDevice :=
  [⟨"mlx5_0", "0000:3b:00.0".toList, 17, [IbTables.fastPort]⟩,
    ⟨"mlx5_1", "0000:3b:00.1".toList, 17, [IbTables.fastPort]⟩,
    ⟨"mlx5_2", "0000:86:00.0".toList, 18, [{ IbTables.fastPort with linkLayer := some .ethernet }]⟩,
    ⟨"mlx5_3", "0000:86:00.1".toList, 18, [{ IbTables.fastPort with linkLayer := some .ethernet }]⟩]

/-- The tables of the two cards. -/
def mixedTables : IbTables := (IbTables.ncclIbInit IbTables.IbEnv.default true mixedLinks).2

/-- Their devices, with adaptive routing by link layer. -/
def mixedDevs (p : Nat) : NcclIbDev :=
  let link := (mixedTables.ibDevs[p]?.map IbDevEntry.link).getD .infiniband
  { portNum := 1
    portAttr :=
      { lid := p, activeMtu := 5, linkLayer := link, grhRequired := false, gidTblLen := 4 }
    ar := adaptiveRouting link (-2)
    pdRefs := 0
    pd := none
    mrCache := .empty }

/-- The flag that a comm over a merged device of the two cards gets. -/
def mixedFlag (dev : Nat) : Option Int :=
  match connectDevs mixedTables.merged dev some some mixedDevs with
  | .ok after => some after.ar
  | .error _ => none

/-- The first merged device is the InfiniBand card, and there the flag is right. -/
theorem ar_follows_devs_infiniband : ∃ after,
    connectDevs mixedTables.merged 0 some some mixedDevs = .ok after ∧
      RoutedByDevs mixedDevs (mixedTables.merged 0) after.ar := by
  cases done : connectDevs mixedTables.merged 0 some some mixedDevs with
  | error failed =>
    have finished : mixedFlag 0 = some 1 := by decide +kernel
    rw [mixedFlag, done] at finished
    cases finished
  | ok after =>
    refine ⟨after, rfl, (ar_follows_devs_iff done).mpr (Or.inr ?_)⟩
    decide +kernel

/-- The second one is the Ethernet card, whose devices have no adaptive routing; but the
second physical device is a port of the InfiniBand card, and the flag is set. -/
theorem ar_astray : ∃ after,
    connectDevs mixedTables.merged 1 some some mixedDevs = .ok after ∧ after.ar = 1 ∧
      (∀ i, i < (mixedTables.merged 1).ndevs → (mixedDevs ((mixedTables.merged 1).devs i)).ar = 0) ∧
      ¬ RoutedByDevs mixedDevs (mixedTables.merged 1) after.ar := by
  have finished : mixedFlag 1 = some 1 := by decide +kernel
  have unrouted : ¬ AllRouted mixedDevs (mixedTables.merged 1) := by decide +kernel
  cases done : connectDevs mixedTables.merged 1 some some mixedDevs with
  | error failed =>
    rw [mixedFlag, done] at finished
    cases finished
  | ok after =>
    rw [mixedFlag, done] at finished
    have flag : after.ar = 1 := Option.some.inj finished
    exact ⟨after, rfl, flag, by decide +kernel, fun routed => unrouted (routed.1.mp flag)⟩

end NcclExts.Unet
