import NcclExts.Unet.MergedDevs

/-!
# Where initialization writes the device tables

An eligible port is written to the next entry of the table of devices, and to a place in a
merged device. The tables have `MAX_IB_DEVS` entries. Whether there is room is checked once
for each verbs device, and a device can have more than one eligible port.
-/

namespace NcclExts.Unet

namespace IbTables

/-- The entries that entering a port writes: in the table of devices, in the table of
merged devices, and in the list of ports of the merged device. -/
structure TableWrite where
  ibDev : Nat
  mergedDev : Nat
  slot : Nat
deriving DecidableEq, Repr

/-- The write stays inside the tables. -/
def TableWrite.InBounds (write : TableWrite) : Prop :=
  write.ibDev < maxIbDevs ∧ write.mergedDev < maxIbDevs ∧ write.slot < maxDevsPerNic

instance (write : TableWrite) : Decidable write.InBounds :=
  inferInstanceAs (Decidable (_ ∧ _ ∧ _))

/-- Where the end of the loop over the ports writes a port. -/
def portWrite (mergeNics : Bool) (tables : IbTables) (dev : IbDevEntry) : TableWrite :=
  let mergedDev := if mergeNics then tables.ncclIbFindMatchingDev dev else tables.nMerged
  { ibDev := tables.ibDevs.length
    mergedDev := mergedDev
    slot := if mergedDev = tables.nMerged then 0 else (tables.merged mergedDev).ndevs }

/-- The writes of the loop over the ports of a device. -/
def portWrites (env : IbEnv) (mergeNics : Bool) (device : Nat) (dev : IbvDevice) :
    Nat → List IbvPort → IbTables → List TableWrite
  | _, [], _ => []
  | portNum, port :: rest, tables =>
    match port.entry env device dev portNum with
    | none => portWrites env mergeNics device dev (portNum + 1) rest tables
    | some entry =>
      tables.portWrite mergeNics entry ::
        portWrites env mergeNics device dev (portNum + 1) rest (tables.addPort mergeNics entry)

/-- The writes of the loop over the devices. -/
def deviceWrites (env : IbEnv) (mergeNics : Bool) :
    Nat → List IbvDevice → IbTables → List TableWrite
  | _, [], _ => []
  | device, dev :: rest, tables =>
    if tables.ibDevs.length < maxIbDevs then
      portWrites env mergeNics device dev 1 dev.ports tables ++
        deviceWrites env mergeNics (device + 1) rest
          (addPorts env mergeNics device dev 1 dev.ports tables)
    else []

/-- The writes of `ncclIbInit`, in both passes when the list is built again. -/
def initWrites (env : IbEnv) (mergeNics : Bool) (devices : List IbvDevice) : List TableWrite :=
  deviceWrites env mergeNics 0 devices .empty ++
    if mergeNics && (addDevices env mergeNics 0 devices .empty).mixed then
      deviceWrites env false 0 devices .empty
    else []

/-! ## The writes of a port -/

/-- Entering a port writes where it says, and nowhere else among the merged devices. -/
theorem addPort_writes (mergeNics : Bool) (tables : IbTables) (dev : IbDevEntry) :
    let write := tables.portWrite mergeNics dev
    let after := tables.addPort mergeNics dev
    after.ibDevs[write.ibDev]? = some dev ∧
      (after.merged write.mergedDev).devs write.slot = write.ibDev ∧
      ∀ d, d ≠ write.mergedDev → after.merged d = tables.merged d := by
  simp only [portWrite, addPort]
  generalize (if mergeNics then tables.ncclIbFindMatchingDev dev else tables.nMerged) = mergedDev
  by_cases new : mergedDev = tables.nMerged
  · rw [if_pos new, if_pos new, new]
    refine ⟨by simp [opened], by simp [opened], fun d other => ?_⟩
    exact Function.update_of_ne other _ _
  · rw [if_neg new, if_neg new]
    refine ⟨by simp [joined], by simp [joined], fun d other => ?_⟩
    exact Function.update_of_ne other _ _

/-- No more merged devices than devices. -/
def Sparse (tables : IbTables) : Prop := tables.nMerged ≤ tables.ibDevs.length

theorem addPort_sparse {tables : IbTables} (sparse : tables.Sparse) (mergeNics : Bool)
    (dev : IbDevEntry) : (tables.addPort mergeNics dev).Sparse := by
  have listed := addPort_ibDevs mergeNics tables dev
  have merged : (tables.addPort mergeNics dev).nMerged ≤ tables.nMerged + 1 := by
    simp only [addPort]
    generalize (if mergeNics then tables.ncclIbFindMatchingDev dev else tables.nMerged) = mergedDev
    split
    · exact Nat.le_refl _
    · exact Nat.le_succ _
  have before : tables.nMerged ≤ tables.ibDevs.length := sparse
  rw [Sparse, listed, List.length_append, List.length_singleton]
  omega

/-- The merged device found for a port has room, or is a new one. -/
theorem matchingDev_room (tables : IbTables) (dev : IbDevEntry) :
    tables.ncclIbFindMatchingDev dev = tables.nMerged ∨
      tables.ncclIbFindMatchingDev dev < tables.nMerged ∧
        (tables.merged (tables.ncclIbFindMatchingDev dev)).ndevs < maxDevsPerNic := by
  cases found : (List.range tables.nMerged).find? (tables.matchesDev dev) with
  | none => exact .inl (by rw [ncclIbFindMatchingDev, found, Option.getD_none])
  | some d =>
    have chosen : tables.ncclIbFindMatchingDev dev = d := by
      rw [ncclIbFindMatchingDev, found, Option.getD_some]
    have matched := List.find?_some found
    simp only [matchesDev, Bool.and_eq_true, decide_eq_true_eq] at matched
    rw [chosen]
    exact .inr ⟨List.mem_range.mp (List.mem_of_find?_eq_some found), matched.1⟩

/-- The writes of a port are inside the tables as long as the table of devices has room. -/
theorem portWrite_inBounds {tables : IbTables} (sparse : tables.Sparse) (mergeNics : Bool)
    (dev : IbDevEntry) :
    (tables.portWrite mergeNics dev).InBounds ↔ tables.ibDevs.length < maxIbDevs := by
  have before : tables.nMerged ≤ tables.ibDevs.length := sparse
  have capacity : maxDevsPerNic = 2 := rfl
  constructor
  · exact fun inside => inside.1
  · intro room
    cases mergeNics with
    | false =>
      simp only [portWrite, Bool.false_eq_true, if_false, if_true]
      refine ⟨room, ?_, ?_⟩
      · show tables.nMerged < maxIbDevs
        omega
      · show 0 < maxDevsPerNic
        omega
    | true =>
      rcases matchingDev_room tables dev with new | ⟨known, open_⟩
      · simp only [portWrite, if_true, new]
        refine ⟨room, ?_, ?_⟩
        · show tables.nMerged < maxIbDevs
          omega
        · show 0 < maxDevsPerNic
          omega
      · simp only [portWrite, if_true, if_neg (Nat.ne_of_lt known)]
        refine ⟨room, ?_, open_⟩
        show tables.ncclIbFindMatchingDev dev < maxIbDevs
        omega

/-! ## The writes of a pass -/

/-- The writes of the ports of a device are inside the tables exactly when all of its
eligible ports fit. -/
theorem portWrites_inBounds {env : IbEnv} (mergeNics : Bool) (device : Nat) (dev : IbvDevice)
    (portNum : Nat) (ports : List IbvPort) {tables : IbTables} (sparse : tables.Sparse) :
    (∀ write ∈ portWrites env mergeNics device dev portNum ports tables, write.InBounds) ↔
      (eligibleOf env device dev portNum ports = [] ∨
        tables.ibDevs.length + (eligibleOf env device dev portNum ports).length ≤ maxIbDevs) := by
  induction ports generalizing portNum tables with
  | nil => simp [portWrites, eligibleOf]
  | cons port rest ih =>
    rw [eligibleOf, List.zipIdx_cons, List.filterMap_cons, portWrites]
    cases port.entry env device dev portNum with
    | none => exact ih (portNum + 1) sparse
    | some entry =>
      rw [← eligibleOf]
      have later := ih (portNum + 1) (addPort_sparse sparse mergeNics entry)
      rw [addPort_ibDevs, List.length_append, List.length_singleton] at later
      simp only [List.forall_mem_cons, portWrite_inBounds sparse, later, List.length_cons,
        reduceCtorEq, false_or]
      constructor
      · rintro ⟨room, none | fits⟩
        · rw [none, List.length_nil]
          omega
        · omega
      · intro fits
        exact ⟨by omega, .inr (by omega)⟩

theorem foldl_addPort_sparse (mergeNics : Bool) (ports : List IbDevEntry) {tables : IbTables}
    (sparse : tables.Sparse) : (ports.foldl (addPort mergeNics) tables).Sparse := by
  induction ports generalizing tables with
  | nil => exact sparse
  | cons dev rest ih => exact ih (addPort_sparse sparse mergeNics dev)

/-- No device that finds room in the table has more eligible ports than there is room, for
devices from a number on and so many ports before them. -/
def FitsFrom (env : IbEnv) : Nat → Nat → List IbvDevice → Prop
  | _, _, [] => True
  | device, count, dev :: rest =>
    let ports := (eligibleOf env device dev 1 dev.ports).length
    count < maxIbDevs → count + ports ≤ maxIbDevs ∧ FitsFrom env (device + 1) (count + ports) rest

/-- The writes of a pass are inside the tables exactly when every device that finds room
fits. -/
theorem deviceWrites_inBounds {env : IbEnv} (mergeNics : Bool) (device : Nat)
    (devices : List IbvDevice) {tables : IbTables} (sparse : tables.Sparse) :
    (∀ write ∈ deviceWrites env mergeNics device devices tables, write.InBounds) ↔
      FitsFrom env device tables.ibDevs.length devices := by
  induction devices generalizing device tables with
  | nil => simp [deviceWrites, FitsFrom]
  | cons dev rest ih =>
    rw [deviceWrites, FitsFrom]
    by_cases room : tables.ibDevs.length < maxIbDevs
    · have after := foldl_addPort_sparse mergeNics (eligibleOf env device dev 1 dev.ports) sparse
      have later := ih (device + 1) after
      rw [foldl_addPort_ibDevs, List.length_append] at later
      rw [if_pos room, List.forall_mem_append, portWrites_inBounds _ _ _ _ _ sparse, addPorts_eq,
        later]
      constructor
      · rintro ⟨none | fits, rest⟩ _
        · rw [none, List.length_nil] at rest ⊢
          exact ⟨Nat.le_of_lt room, rest⟩
        · exact ⟨fits, rest⟩
      · intro fits
        exact ⟨.inr (fits room).1, (fits room).2⟩
    · rw [if_neg room]
      simp [room]

/-- Some device finds room in the table and has more eligible ports than there is room. -/
def Overfills (env : IbEnv) (devices : List IbvDevice) : Prop :=
  ∃ front dev back, devices = front ++ dev :: back ∧
    (eligible env 0 front).length < maxIbDevs ∧
    maxIbDevs < (eligible env 0 (front ++ [dev])).length

/-- The eligible ports of further devices come after those before. -/
theorem eligible_append (env : IbEnv) (device : Nat) (front back : List IbvDevice) :
    eligible env device (front ++ back) =
      eligible env device front ++ eligible env (device + front.length) back := by
  simp [eligible, List.zipIdx_append]

theorem eligible_singleton (env : IbEnv) (device : Nat) (dev : IbvDevice) :
    eligible env device [dev] = eligibleOf env device dev 1 dev.ports := by
  simp [eligible]

/-- Every device that finds room fits when none of them overfills the table. -/
theorem fitsFrom_iff (env : IbEnv) (devices : List IbvDevice) :
    FitsFrom env 0 0 devices ↔ ¬ Overfills env devices := by
  suffices general : ∀ (back front : List IbvDevice),
      FitsFrom env front.length (eligible env 0 front).length back ↔
        ¬ ∃ more dev rest, back = more ++ dev :: rest ∧
          (eligible env 0 (front ++ more)).length < maxIbDevs ∧
          maxIbDevs < (eligible env 0 (front ++ more ++ [dev])).length by
    simpa [Overfills, eligible] using general devices []
  intro back
  induction back with
  | nil =>
    intro front
    constructor
    · rintro _ ⟨more, dev, rest, split, _⟩
      simp at split
    · exact fun _ => trivial
  | cons first later ih =>
    intro front
    have counted : (eligible env 0 (front ++ [first])).length = (eligible env 0 front).length +
        (eligibleOf env front.length first 1 first.ports).length := by
      rw [eligible_append, eligible_singleton, List.length_append, Nat.zero_add]
    have next := ih (front ++ [first])
    rw [counted, List.length_append, List.length_singleton] at next
    constructor
    · rintro fits ⟨more, dev, rest, split, room, beyond⟩
      have grows : (eligible env 0 front).length ≤ (eligible env 0 (front ++ more)).length := by
        rw [eligible_append, List.length_append]
        exact Nat.le_add_right _ _
      obtain ⟨fit, fitsLater⟩ := fits (Nat.lt_of_le_of_lt grows room)
      cases more with
      | nil =>
        obtain ⟨rfl, rfl⟩ := List.cons.inj split
        rw [List.append_nil, counted] at beyond
        omega
      | cons head more =>
        obtain ⟨rfl, tail⟩ := List.cons.inj split
        refine next.mp fitsLater ⟨more, dev, rest, tail, ?_, ?_⟩
        · simpa using room
        · simpa using beyond
    · intro never room
      constructor
      · refine Nat.not_lt.mp fun beyond => never ⟨[], first, later, rfl, ?_, ?_⟩
        · rwa [List.append_nil]
        · rwa [List.append_nil, counted]
      · refine next.mpr ?_
        rintro ⟨more, dev, rest, rfl, room, beyond⟩
        refine never ⟨first :: more, dev, rest, rfl, ?_, ?_⟩
        · simpa using room
        · simpa using beyond

/-- Initialization writes inside the tables, in both passes of a rebuild, exactly when no
device that finds room in the table has more eligible ports than there is room. -/
theorem device_table_bounds (env : IbEnv) (mergeNics : Bool) (devices : List IbvDevice) :
    (∀ write ∈ initWrites env mergeNics devices, write.InBounds) ↔ ¬ Overfills env devices := by
  have sparse : empty.Sparse := Nat.le_refl 0
  have pass (mergeNics : Bool) : (∀ write ∈ deviceWrites env mergeNics 0 devices .empty,
      write.InBounds) ↔ FitsFrom env 0 0 devices :=
    deviceWrites_inBounds mergeNics 0 devices sparse
  rw [initWrites, List.forall_mem_append, pass, ← fitsFrom_iff]
  constructor
  · exact fun both => both.1
  · intro fits
    refine ⟨fits, ?_⟩
    split
    · exact (pass false).mpr fits
    · simp

/-- 31 cards with one port, and one with two. -/
def tooManyPorts : List IbvDevice :=
  List.replicate 31 ⟨"mlx5_0", "0000:3b:00.0".toList, 17, [fastPort]⟩ ++
    [⟨"mlx5_1", "0000:86:00.0".toList, 18, [fastPort, fastPort]⟩]

/-- The second port of the last card is written behind the table of devices. -/
theorem device_table_overrun :
    ¬ ∀ (env : IbEnv) (mergeNics : Bool) (devices : List IbvDevice),
      ∀ write ∈ initWrites env mergeNics devices, write.InBounds := by
  intro always
  have inside := always IbEnv.default false tooManyPorts
  exact absurd inside (by decide +kernel)

end IbTables

end NcclExts.Unet
