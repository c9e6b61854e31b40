import NcclExts.Unet.MrCache

/-!
# The cache when memory or verbs fail

The array of a cache grows before the region that needs the room is registered, and
the capacity is raised before the array is. A registration that fails therefore leaves
the populated slots alone, but one that fails to get memory leaves a capacity that the
array does not have. The next registration sees no need to grow, and writes past it.
-/

namespace NcclExts.Unet

/-- A call on the cache of a device, with the outcomes of its allocation and of its
verbs call. -/
inductive MrCall where
  | register (pd : Option Nat) (data size offset : Nat) (fd : Int) (mallocOk : Bool)
      (registered : Option Nat)
  | deregister (mhandle : Nat) (deregOk : Bool)

namespace MrCall

/-- The result of a call and the cache afterwards; `none` is an access past the array. -/
def run (page : PageSize) (relaxed : Bool) (cache : NcclIbMrCache) :
    MrCall → Option (NcclResult × NcclIbMrCache)
  | register pd data size offset fd mallocOk registered =>
    (ncclIbRegMrDmaBufInternal page relaxed cache pd data size offset fd mallocOk registered).map
      fun outcome => (outcome.result, outcome.cache)
  | deregister mhandle deregOk =>
    let outcome := ncclIbDeregMrInternal cache mhandle deregOk
    some (outcome.result, outcome.cache)

/-- A call that fails leaves the populated slots alone, unless it deregisters. -/
def KeepsOnFailure (cache : NcclIbMrCache) (result : NcclResult) (after : NcclIbMrCache) :
    MrCall → Prop
  | register .. => result ≠ .ncclSuccess → after.slots = cache.slots
  | deregister .. => True

/-- The call needs room in a full array, and does not get the memory for it. -/
def GrowthFails (page : PageSize) (cache : NcclIbMrCache) : MrCall → Prop
  | register _ data size _ _ mallocOk _ =>
    (∃ slot, scan page (page.floor data) (page.count data size) cache.slots = .miss slot) ∧
      cache.population = cache.capacity ∧ mallocOk = false
  | deregister .. => False

end MrCall

/-- What is asked of a run, from a cache on: the capacity is that of the array and bounds
the populated slots in every state, no call leaves the array, and no registration that
fails changes a slot. -/
def Intact (page : PageSize) (relaxed : Bool) : NcclIbMrCache → List MrCall → Prop
  | cache, [] => cache.Sized
  | cache, call :: rest =>
    cache.Sized ∧ ∃ result after, call.run page relaxed cache = some (result, after) ∧
      call.KeepsOnFailure cache result after ∧ Intact page relaxed after rest

/-- Every growth in a run gets its memory. -/
def GrowthsSucceed (page : PageSize) (relaxed : Bool) : NcclIbMrCache → List MrCall → Prop
  | _, [] => True
  | cache, call :: rest =>
    ¬ call.GrowthFails page cache ∧ ∀ result after,
      call.run page relaxed cache = some (result, after) → GrowthsSucceed page relaxed after rest

/-! ## One call -/

/-- A reallocation to more slots that gets no memory leaves the array as it is. -/
theorem ncclRealloc_fails (allocated : Nat) {oldNelem nelem : Nat} (larger : oldNelem < nelem) :
    ncclRealloc allocated oldNelem nelem false = (.ncclSystemError, allocated) := by
  simp [ncclRealloc, Nat.not_lt_of_lt larger, Nat.ne_of_gt larger]

/-- A cache that grows without memory keeps its slots and its array, and claims more. -/
theorem grow_fails {cache : NcclIbMrCache} (full : cache.population = cache.capacity) :
    grow cache false = (.ncclSystemError, { cache with
      capacity := grownCapacity cache.capacity, allocated := cache.allocated }) := by
  have larger : cache.population < grownCapacity cache.capacity := by
    rw [full]
    exact grownCapacity_larger cache.capacity
  simp only [grow, if_pos full, ncclRealloc_fails cache.allocated larger]

/-- A cache that does not have to grow without memory has room for one more slot. -/
theorem grow_kept {cache : NcclIbMrCache} {mallocOk : Bool} (sized : cache.Sized)
    (gets : cache.population = cache.capacity → mallocOk = true) :
    ∃ grown, grow cache mallocOk = (.ncclSuccess, grown) ∧ grown.slots = cache.slots ∧
      grown.capacity = grown.allocated ∧ grown.population < grown.allocated := by
  by_cases full : cache.population = cache.capacity
  · rw [gets full]
    exact grow_success cache sized
  · obtain ⟨exact, bounded⟩ := sized
    refine ⟨cache, by simp [grow, full], rfl, exact, ?_⟩
    omega

/-- Writing a slot into an array with room stays inside the array. -/
theorem insertSlot_sized {cache : NcclIbMrCache} {slot : Nat} (fresh : NcclIbMr)
    (exact : cache.capacity = cache.allocated) (room : cache.population < cache.allocated)
    (bound : slot ≤ cache.population) :
    ∃ inserted, insertSlot cache slot fresh = some inserted ∧ inserted.Sized := by
  refine ⟨_, if_pos room, exact, ?_⟩
  simp only [NcclIbMrCache.population, List.length_append, List.length_take, List.length_cons,
    List.length_drop] at room bound ⊢
  omega

/-- A registration that no slot covers, once the array has room: verbs fails, or the new
slot is written. -/
theorem register_grown {page : PageSize} (relaxed : Bool) {cache grown : NcclIbMrCache}
    (pd : Option Nat) {data size slot : Nat} (offset : Nat) (fd : Int) {mallocOk : Bool}
    (registered : Option Nat) (growth : grow cache mallocOk = (.ncclSuccess, grown))
    (missed : scan page (page.floor data) (page.count data size) cache.slots = .miss slot) :
    ∃ call, ncclIbRegMrDmaBufInternal page relaxed cache pd data size offset fd mallocOk
        registered = match registered with
      | none => some ⟨.ncclSystemError, grown, none, some call⟩
      | some mr => (insertSlot grown slot ⟨page.floor data, page.count data size, 1, mr⟩).map
        fun inserted => ⟨.ncclSuccess, inserted, some mr, some call⟩ := by
  refine ⟨⟨if fd ≠ -1 then .dmabuf offset fd else if relaxed then .iova2 else .plain, pd,
    page.floor data, page.count data size * page.bytes, relaxed⟩, ?_⟩
  simp only [ncclIbRegMrDmaBufInternal, missed, registerMiss, growth, ne_eq, not_true_eq_false,
    if_false]
  cases registered with
  | none => rfl
  | some mr => rfl

/-- A registration that gets the memory it needs keeps the cache sized. -/
theorem register_intact {page : PageSize} (relaxed : Bool) {cache : NcclIbMrCache}
    (pd : Option Nat) {data size : Nat} (offset : Nat) (fd : Int) {mallocOk : Bool}
    (registered : Option Nat) (sized : cache.Sized)
    (gets : ∀ slot, scan page (page.floor data) (page.count data size) cache.slots = .miss slot →
      cache.population = cache.capacity → mallocOk = true) :
    ∃ outcome, ncclIbRegMrDmaBufInternal page relaxed cache pd data size offset fd mallocOk
        registered = some outcome ∧ outcome.cache.Sized ∧
      (outcome.result ≠ .ncclSuccess → outcome.cache.slots = cache.slots) := by
  cases found : scan page (page.floor data) (page.count data size) cache.slots with
  | hit slot =>
    obtain ⟨entry, placed, _⟩ := scan_hit found
    refine ⟨_, register_hit found placed, ?_, fun failed => absurd rfl failed⟩
    simpa [NcclIbMrCache.Sized, NcclIbMrCache.population] using sized
  | miss slot =>
    obtain ⟨grown, growth, kept, exact, room⟩ := grow_kept sized (gets slot found)
    obtain ⟨call, outcome⟩ := register_grown relaxed pd offset fd registered growth found
    rw [outcome]
    cases registered with
    | none => exact ⟨_, rfl, ⟨exact, exact ▸ Nat.le_of_lt room⟩, fun _ => kept⟩
    | some mr =>
      have bound : slot ≤ grown.population := by
        rw [NcclIbMrCache.population, kept]
        exact (scan_miss found).1
      obtain ⟨inserted, written, sizedAfter⟩ :=
        insertSlot_sized ⟨page.floor data, page.count data size, 1, mr⟩ exact room bound
      refine ⟨⟨.ncclSuccess, inserted, some mr, some call⟩, ?_, sizedAfter,
        fun failed => absurd rfl failed⟩
      simp only [written, Option.map_some]

/-- A deregistration keeps the cache sized. -/
theorem deregister_sized {cache : NcclIbMrCache} (mhandle : Nat) (deregOk : Bool)
    (sized : cache.Sized) : (ncclIbDeregMrInternal cache mhandle deregOk).cache.Sized := by
  unfold ncclIbDeregMrInternal
  cases located : cache.slots.findIdx? (fun slot => mhandle = slot.mr) with
  | none => exact sized
  | some slot =>
    cases placed : cache.slots[slot]? with
    | none =>
      simp only [placed]
      exact sized
    | some found =>
      simp only [placed]
      obtain ⟨inside, _⟩ := List.getElem?_eq_some_iff.mp placed
      by_cases last : found.refs - 1 = 0
      · rw [if_pos last]
        exact dropSlot_sized cache slot inside sized
      · rw [if_neg last]
        simpa [NcclIbMrCache.Sized, NcclIbMrCache.population] using sized

/-- A call whose growth gets its memory keeps the cache sized. -/
theorem run_intact {page : PageSize} (relaxed : Bool) {cache : NcclIbMrCache} {call : MrCall}
    (sized : cache.Sized) (gets : ¬ call.GrowthFails page cache) :
    ∃ result after, call.run page relaxed cache = some (result, after) ∧ after.Sized ∧
      call.KeepsOnFailure cache result after := by
  cases call with
  | register pd data size offset fd mallocOk registered =>
    have memory : ∀ slot, scan page (page.floor data) (page.count data size) cache.slots =
        .miss slot → cache.population = cache.capacity → mallocOk = true := by
      intro slot missed full
      cases mallocOk with
      | true => rfl
      | false => exact absurd ⟨⟨slot, missed⟩, full, rfl⟩ gets
    obtain ⟨outcome, returned, sizedAfter, unchanged⟩ :=
      register_intact relaxed pd offset fd registered sized memory
    exact ⟨outcome.result, outcome.cache, by rw [MrCall.run, returned]; rfl, sizedAfter,
      unchanged⟩
  | deregister mhandle deregOk =>
    exact ⟨_, _, rfl, deregister_sized mhandle deregOk sized, trivial⟩

/-- A call whose growth gets no memory leaves a capacity the array does not have. -/
theorem run_overstated {page : PageSize} {relaxed : Bool} {cache after : NcclIbMrCache}
    {call : MrCall} {result : NcclResult} (sized : cache.Sized)
    (fails : call.GrowthFails page cache)
    (returned : call.run page relaxed cache = some (result, after)) :
    after.slots = cache.slots ∧ after.allocated < after.capacity := by
  cases call with
  | deregister mhandle deregOk => exact absurd fails not_false
  | register pd data size offset fd mallocOk registered =>
    obtain ⟨⟨slot, missed⟩, full, rfl⟩ := fails
    simp only [MrCall.run, ncclIbRegMrDmaBufInternal, missed, registerMiss, grow_fails full,
      ne_eq, reduceCtorEq, not_false_eq_true, if_true, Option.map_some, Option.some.injEq,
      Prod.mk.injEq] at returned
    obtain ⟨_, rfl⟩ := returned
    refine ⟨rfl, ?_⟩
    have larger := grownCapacity_larger cache.capacity
    have exact := sized.1
    show cache.allocated < grownCapacity cache.capacity
    omega

/-- A cache that claims more than its array writes past it at the next region that it
registers. -/
theorem register_overruns {page : PageSize} (relaxed : Bool) {cache : NcclIbMrCache}
    (pd : Option Nat) {data size slot : Nat} (offset mr : Nat) (fd : Int) (mallocOk : Bool)
    (full : cache.population = cache.allocated) (overstated : cache.allocated < cache.capacity)
    (missed : scan page (page.floor data) (page.count data size) cache.slots = .miss slot) :
    ncclIbRegMrDmaBufInternal page relaxed cache pd data size offset fd mallocOk (some mr) =
      none := by
  have noGrowth : grow cache mallocOk = (.ncclSuccess, cache) := if_neg (by omega)
  have noRoom : ¬ cache.population < cache.allocated := by omega
  simp only [ncclIbRegMrDmaBufInternal, missed, registerMiss, noGrowth, ne_eq, not_true_eq_false,
    if_false, insertSlot, if_neg noRoom, Option.map_none]

/-! ## Every run -/

/-- From a sized cache on, a run keeps the cache intact exactly when its growths get their
memory. -/
theorem intact_iff (page : PageSize) (relaxed : Bool) (calls : List MrCall)
    {cache : NcclIbMrCache} (sized : cache.Sized) :
    Intact page relaxed cache calls ↔ GrowthsSucceed page relaxed cache calls := by
  induction calls generalizing cache with
  | nil => exact ⟨fun _ => trivial, fun _ => sized⟩
  | cons call rest ih =>
    constructor
    · rintro ⟨_, result, after, returned, _, later⟩
      have sizedAfter : after.Sized := by
        cases rest with
        | nil => exact later
        | cons next more => exact later.1
      refine ⟨fun fails => ?_, fun result' after' returned' => ?_⟩
      · have overstated := (run_overstated sized fails returned).2
        have exact := sizedAfter.1
        omega
      · have same := Option.some.inj (returned.symm.trans returned')
        obtain ⟨_, rfl⟩ := Prod.mk.injEq .. ▸ same
        exact (ih sizedAfter).mp later
    · rintro ⟨gets, later⟩
      obtain ⟨result, after, returned, sizedAfter, keeps⟩ := run_intact relaxed sized gets
      exact ⟨sized, result, after, returned, keeps, (ih sizedAfter).mpr (later _ _ returned)⟩

/-- A run of registrations and deregistrations on one device, with any outcomes of their
allocations and verbs calls, keeps the cache of the device intact exactly when no
registration has to grow the array and gets no memory for it. -/
theorem cache_under_failure (page : PageSize) (relaxed : Bool) (calls : List MrCall) :
    Intact page relaxed .empty calls ↔ GrowthsSucceed page relaxed .empty calls :=
  intact_iff page relaxed calls NcclIbMrCache.empty_sized

/-- A first registration without memory, and a second one. -/
def withoutMemory : List MrCall :=
  [.register (some 10) 4096 100 0 (-1) false (some 100),
    .register (some 10) 4096 100 0 (-1) true (some 100)]

/-- The second registration writes to an array that was never allocated. -/
theorem cache_overrun : ¬ ∀ page relaxed calls, Intact page relaxed .empty calls := by
  intro always
  obtain ⟨_, result, after, first, _, _, result', after', second, _⟩ :=
    always .small false withoutMemory
  have failed : after = ⟨[], 32, 0⟩ := by
    have ran : (MrCall.register (some 10) 4096 100 0 (-1) false (some 100)).run .small false
      .empty = some (.ncclSystemError, ⟨[], 32, 0⟩) := by decide
    exact (congrArg Prod.snd (Option.some.inj (ran.symm.trans first))).symm
  subst failed
  have ran : (MrCall.register (some 10) 4096 100 0 (-1) true (some 100)).run .small false
    ⟨[], 32, 0⟩ = none := by decide
  rw [ran] at second
  exact absurd second (by simp)

end NcclExts.Unet
