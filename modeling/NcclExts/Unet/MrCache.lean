import NcclExts.Foundation.SwapRemove
import NcclExts.Unet.Result

/-!
# The memory region cache of a device

Every comm on a device registers memory through one array of cached regions. A
registration scans the array for a region that covers its pages, stopping at the
first slot with a larger address; it either takes a reference to the slot found or
registers a new region and shifts it into place. A deregistration drops one
reference and, on the last, moves the last slot into the hole.

The functions follow the source step by step, with the outcomes of allocation and
of the verbs calls as arguments. `none` is an access outside the slot array.
-/

namespace NcclExts.Unet

open NcclExts.Foundation

/-- `struct ncclIbMr`; the region is named by its `ibv_mr` pointer. -/
structure NcclIbMr where
  addr : Nat
  pages : Nat
  refs : Int
  mr : Nat
deriving DecidableEq, Repr

/-- `struct ncclIbMrCache`. The list holds the populated slots, so its length is
`population`; `allocated` is the number of slots of the array behind the pointer. -/
structure NcclIbMrCache where
  slots : List NcclIbMr
  capacity : Nat
  allocated : Nat
deriving DecidableEq, Repr

namespace NcclIbMrCache

/-- The cache of a device that `ncclIbInit` set up, and of one just emptied. -/
def empty : NcclIbMrCache := ⟨[], 0, 0⟩

def population (cache : NcclIbMrCache) : Nat := cache.slots.length

/-- The recorded capacity is the number of allocated slots, and bounds the
populated ones. -/
def Sized (cache : NcclIbMrCache) : Prop :=
  cache.capacity = cache.allocated ∧ cache.population ≤ cache.capacity

end NcclIbMrCache

/-- `ncclRealloc`: the result and the number of slots allocated afterwards. -/
def ncclRealloc (allocated oldNelem nelem : Nat) (mallocOk : Bool) : NcclResult × Nat :=
  if nelem < oldNelem then (.ncclInternalError, allocated)
  else if nelem = oldNelem then (.ncclSuccess, allocated)
  else if mallocOk then (.ncclSuccess, nelem)
  else (.ncclSystemError, allocated)

/-- The capacity a full cache grows to. -/
def grownCapacity (capacity : Nat) : Nat := if capacity < 32 then 32 else 2 * capacity

/-- Growth of a full cache. The capacity is raised before the reallocation, and
stays raised when that fails. -/
def grow (cache : NcclIbMrCache) (mallocOk : Bool) : NcclResult × NcclIbMrCache :=
  if cache.population = cache.capacity then
    let capacity := grownCapacity cache.capacity
    let (result, allocated) := ncclRealloc cache.allocated cache.population capacity mallocOk
    (result, { cache with capacity := capacity, allocated := allocated })
  else (.ncclSuccess, cache)

/-- Where the scan over the slots ends. -/
inductive Found where
  | miss (slot : Nat)
  | hit (slot : Nat)
deriving DecidableEq, Repr

/-- Count one more slot in front. -/
def Found.later : Found → Found
  | .miss slot => .miss (slot + 1)
  | .hit slot => .hit (slot + 1)

/-- The pages of the request lie inside the slot's pages. -/
def NcclIbMr.covers (page : PageSize) (slot : NcclIbMr) (addr pages : Nat) : Prop :=
  slot.addr ≤ addr ∧ (addr - slot.addr) / page.bytes + pages ≤ slot.pages

instance (page : PageSize) (slot : NcclIbMr) (addr pages : Nat) :
    Decidable (slot.covers page addr pages) :=
  inferInstanceAs (Decidable (_ ∧ _))

/-- The loop over the slots: stop at the end or at a larger address, take a slot
that covers the request, and go on otherwise. -/
def scan (page : PageSize) (addr pages : Nat) : List NcclIbMr → Found
  | [] => .miss 0
  | slot :: rest =>
    if addr < slot.addr then .miss 0
    else if slot.covers page addr pages then .hit 0
    else (scan page addr pages rest).later

/-- Which verbs function a registration calls. -/
inductive RegKind where
  | dmabuf (offset : Nat) (fd : Int)
  | iova2
  | plain
deriving DecidableEq, Repr

/-- One verbs registration; the access flags are local write, remote write and
remote read, and relaxed ordering when it is enabled. -/
structure RegCall where
  kind : RegKind
  pd : Option Nat
  addr : Nat
  length : Nat
  relaxed : Bool
deriving DecidableEq, Repr

/-- What a registration leaves behind: its result, the cache, the handle it stores
through `mhandle`, and the verbs registration it made. -/
structure RegOutcome where
  result : NcclResult
  cache : NcclIbMrCache
  mhandle : Option Nat
  call : Option RegCall
deriving DecidableEq, Repr

/-- Shift the slots from `slot` on by one and write the new slot; the shift reaches
one slot past the populated ones. -/
def insertSlot (cache : NcclIbMrCache) (slot : Nat) (fresh : NcclIbMr) : Option NcclIbMrCache :=
  if cache.population < cache.allocated then
    some { cache with slots := cache.slots.take slot ++ fresh :: cache.slots.drop slot }
  else none

/-- The branch of the registration for a request no slot covers. `registered` is
what the verbs registration returns, `none` when it fails. -/
def registerMiss (page : PageSize) (relaxed : Bool) (cache : NcclIbMrCache) (pd : Option Nat)
    (addr pages slot offset : Nat) (fd : Int) (mallocOk : Bool) (registered : Option Nat) :
    Option RegOutcome :=
  let (grown, cache) := grow cache mallocOk
  if grown ≠ .ncclSuccess then some ⟨grown, cache, none, none⟩
  else
    let kind : RegKind :=
      if fd ≠ -1 then .dmabuf offset fd else if relaxed then .iova2 else .plain
    let call : RegCall := ⟨kind, pd, addr, pages * page.bytes, relaxed⟩
    match registered with
    | none => some ⟨.ncclSystemError, cache, none, some call⟩
    | some mr =>
      (insertSlot cache slot ⟨addr, pages, 1, mr⟩).map
        (fun inserted => ⟨.ncclSuccess, inserted, some mr, some call⟩)

/-- The branch for a request some slot covers: one more reference to it. -/
def registerHit (cache : NcclIbMrCache) (slot : Nat) : Option RegOutcome :=
  cache.slots[slot]?.map (fun found =>
    ⟨.ncclSuccess,
      { cache with slots := cache.slots.set slot { found with refs := found.refs + 1 } },
      some found.mr, none⟩)

/-- `ncclIbRegMrDmaBufInternal` on the cache of its device; `pd` is the comm's
protection domain and `relaxed` is `ncclIbRelaxedOrderingEnabled`. -/
def ncclIbRegMrDmaBufInternal (page : PageSize) (relaxed : Bool) (cache : NcclIbMrCache)
    (pd : Option Nat) (data size offset : Nat) (fd : Int) (mallocOk : Bool)
    (registered : Option Nat) : Option RegOutcome :=
  let addr := page.floor data
  let pages := page.count data size
  match scan page addr pages cache.slots with
  | .miss slot =>
    registerMiss page relaxed cache pd addr pages slot offset fd mallocOk registered
  | .hit slot => registerHit cache slot

/-- What a deregistration leaves behind, and whether it called the verbs
deregistration. -/
structure DeregOutcome where
  result : NcclResult
  cache : NcclIbMrCache
  deregistered : Bool
deriving DecidableEq, Repr

/-- Take a slot out of the cache: the last slot moves into the hole, and an empty
cache gives its array back. -/
def dropSlot (cache : NcclIbMrCache) (slot : Nat) : NcclIbMrCache :=
  let left := swapRemove cache.slots slot
  if left.length = 0 then .empty else { cache with slots := left }

/-- `ncclIbDeregMrInternal` on the cache of its device; `deregOk` is the outcome of
the verbs deregistration. -/
def ncclIbDeregMrInternal (cache : NcclIbMrCache) (mhandle : Nat) (deregOk : Bool) :
    DeregOutcome :=
  match cache.slots.findIdx? (fun slot => mhandle = slot.mr) with
  | none => ⟨.ncclInternalError, cache, false⟩
  | some slot =>
    match cache.slots[slot]? with
    | none => ⟨.ncclInternalError, cache, false⟩
    | some found =>
      if found.refs - 1 = 0 then
        ⟨if deregOk then .ncclSuccess else .ncclSystemError, dropSlot cache slot, true⟩
      else
        ⟨.ncclSuccess,
          { cache with slots := cache.slots.set slot { found with refs := found.refs - 1 } },
          false⟩

/-! ## What the scan establishes -/

/-- A hit names a slot that covers the request. -/
theorem scan_hit {page : PageSize} {addr pages : Nat} {slots : List NcclIbMr} {slot : Nat}
    (found : scan page addr pages slots = .hit slot) :
    ∃ entry, slots[slot]? = some entry ∧ entry.covers page addr pages := by
  induction slots generalizing slot with
  | nil => simp [scan] at found
  | cons first rest ih =>
    simp only [scan] at found
    split at found
    · simp at found
    · split at found
      · rename_i covering
        have same : 0 = slot := Found.hit.inj found
        exact ⟨first, by simp [← same], covering⟩
      · cases tail : scan page addr pages rest with
        | miss position => simp [tail, Found.later] at found
        | hit position =>
          have same : position + 1 = slot := by simpa [tail, Found.later] using found
          obtain ⟨entry, placed, covering⟩ := ih tail
          exact ⟨entry, by simpa [← same] using placed, covering⟩

/-- A miss splits the slots: none of those in front covers the request and none has
a larger address, and the first of the others has a larger address. -/
theorem scan_miss {page : PageSize} {addr pages : Nat} {slots : List NcclIbMr} {slot : Nat}
    (missed : scan page addr pages slots = .miss slot) :
    slot ≤ slots.length ∧
      (∀ entry ∈ slots.take slot, entry.addr ≤ addr ∧ ¬ entry.covers page addr pages) ∧
      ∀ entry ∈ (slots.drop slot).head?, addr < entry.addr := by
  induction slots generalizing slot with
  | nil =>
    have same : 0 = slot := Found.miss.inj missed
    subst same
    simp
  | cons first rest ih =>
    simp only [scan] at missed
    split at missed
    · rename_i larger
      have same : 0 = slot := Found.miss.inj missed
      subst same
      simpa using larger
    · rename_i notLarger
      split at missed
      · simp at missed
      · rename_i notCovering
        cases tail : scan page addr pages rest with
        | hit position => simp [tail, Found.later] at missed
        | miss position =>
          have same : position + 1 = slot := by simpa [tail, Found.later] using missed
          subst same
          obtain ⟨bound, front, behind⟩ := ih tail
          refine ⟨by simpa using bound, ?_, by simpa using behind⟩
          intro entry member
          rcases List.mem_cons.mp (by simpa using member) with rfl | member
          · exact ⟨Nat.le_of_not_lt notLarger, notCovering⟩
          · exact front entry member

/-- The pages of the range lie inside the slot's pages. -/
def NcclIbMr.Contains (page : PageSize) (slot : NcclIbMr) (data size : Nat) : Prop :=
  slot.addr ≤ page.floor data ∧
    page.floor data + page.count data size * page.bytes ≤ slot.addr + slot.pages * page.bytes

/-- For a slot on a page boundary, the test of the scan is containment of the pages. -/
theorem NcclIbMr.covers_iff {page : PageSize} {slot : NcclIbMr} {data size : Nat}
    (aligned : page.bytes ∣ slot.addr) (word : data < wordRange) :
    slot.covers page (page.floor data) (page.count data size) ↔ slot.Contains page data size := by
  have positive := page.positive
  have floorAligned : page.bytes ∣ page.floor data := by
    rw [page.floor_eq data word]
    exact Nat.dvd_mul_left _ _
  have exact : (page.floor data - slot.addr) / page.bytes * page.bytes =
      page.floor data - slot.addr :=
    Nat.div_mul_cancel (Nat.dvd_sub floorAligned aligned)
  have scaled : (page.floor data - slot.addr) / page.bytes + page.count data size ≤ slot.pages ↔
      page.floor data - slot.addr + page.count data size * page.bytes ≤
        slot.pages * page.bytes := by
    rw [← Nat.mul_le_mul_right_iff positive, Nat.add_mul, exact]
  unfold covers Contains
  rw [scaled]
  constructor
  · rintro ⟨below, inside⟩
    exact ⟨below, by omega⟩
  · rintro ⟨below, inside⟩
    exact ⟨below, by omega⟩

/-- When the addresses ascend, the scan finds every slot that covers the request. -/
theorem scan_finds {page : PageSize} {addr pages : Nat} {slots : List NcclIbMr}
    (ascending : slots.Pairwise (fun first second => first.addr ≤ second.addr))
    {entry : NcclIbMr} (member : entry ∈ slots) (covering : entry.covers page addr pages) :
    ∃ slot, scan page addr pages slots = .hit slot := by
  induction slots with
  | nil => simp at member
  | cons first rest ih =>
    obtain ⟨firstLeast, restAscending⟩ := List.pairwise_cons.mp ascending
    have notLarger : ¬ addr < first.addr := by
      apply Nat.not_lt_of_le
      rcases List.mem_cons.mp member with rfl | member
      · exact covering.1
      · exact Nat.le_trans (firstLeast entry member) covering.1
    simp only [scan, notLarger, if_false]
    by_cases taken : first.covers page addr pages
    · exact ⟨0, by simp [taken]⟩
    · have later : entry ∈ rest := by
        rcases List.mem_cons.mp member with rfl | member
        · exact absurd covering taken
        · exact member
      obtain ⟨slot, found⟩ := ih restAscending later
      exact ⟨slot + 1, by simp [taken, found, Found.later]⟩

/-! ## What the two calls do to a sized cache -/

theorem NcclIbMrCache.empty_sized : NcclIbMrCache.empty.Sized := by
  simp [Sized, empty, population]

theorem grownCapacity_larger (capacity : Nat) : capacity < grownCapacity capacity := by
  unfold grownCapacity
  split <;> omega

/-- A reallocation to more slots that gets its memory succeeds. -/
theorem ncclRealloc_larger (allocated : Nat) {oldNelem nelem : Nat} (larger : oldNelem < nelem) :
    ncclRealloc allocated oldNelem nelem true = (.ncclSuccess, nelem) := by
  simp [ncclRealloc, Nat.not_lt_of_lt larger, Nat.ne_of_gt larger]

/-- With allocation succeeding, growth leaves room for one more slot and changes no
populated slot. -/
theorem grow_success (cache : NcclIbMrCache) (sized : cache.Sized) :
    ∃ grown, grow cache true = (.ncclSuccess, grown) ∧ grown.slots = cache.slots ∧
      grown.capacity = grown.allocated ∧ grown.population < grown.allocated := by
  obtain ⟨exact, bounded⟩ := sized
  by_cases full : cache.population = cache.capacity
  · have larger : cache.population < grownCapacity cache.capacity := by
      rw [full]
      exact grownCapacity_larger cache.capacity
    refine ⟨⟨cache.slots, grownCapacity cache.capacity, grownCapacity cache.capacity⟩,
      ?_, rfl, rfl, larger⟩
    simp only [grow, if_pos full, ncclRealloc_larger cache.allocated larger]
  · refine ⟨cache, by simp [grow, full], rfl, exact, ?_⟩
    omega

/-- A registration that finds no covering slot makes one verbs registration of its
rounded range and puts a slot with one reference where the scan stopped. -/
theorem register_miss {page : PageSize} (relaxed : Bool) {cache : NcclIbMrCache}
    (pd : Option Nat) {data size slot : Nat} (offset mr : Nat) (fd : Int) (sized : cache.Sized)
    (missed : scan page (page.floor data) (page.count data size) cache.slots = .miss slot) :
    ∃ after call,
      ncclIbRegMrDmaBufInternal page relaxed cache pd data size offset fd true (some mr) =
        some ⟨.ncclSuccess, after, some mr, some call⟩ ∧
      after.Sized ∧
      after.slots = cache.slots.take slot ++
        ⟨page.floor data, page.count data size, 1, mr⟩ :: cache.slots.drop slot ∧
      call.pd = pd ∧ call.addr = page.floor data ∧
      call.length = page.count data size * page.bytes := by
  obtain ⟨grown, growth, kept, exact, room⟩ := grow_success cache sized
  have bound := (scan_miss missed).1
  refine ⟨{ grown with slots := cache.slots.take slot ++
      ⟨page.floor data, page.count data size, 1, mr⟩ :: cache.slots.drop slot },
    ⟨if fd ≠ -1 then .dmabuf offset fd else if relaxed then .iova2 else .plain, pd,
      page.floor data, page.count data size * page.bytes, relaxed⟩, ?_, ?_, rfl, rfl, rfl, rfl⟩
  · simp [ncclIbRegMrDmaBufInternal, missed, registerMiss, growth, insertSlot, room, kept]
  · refine ⟨exact, ?_⟩
    simp only [NcclIbMrCache.population, kept] at room ⊢
    simp only [List.length_append, List.length_take, List.length_cons, List.length_drop, exact]
    omega

/-- A registration that finds a covering slot makes no verbs registration and
returns that slot's region with one more reference. -/
theorem register_hit {page : PageSize} {relaxed : Bool} {cache : NcclIbMrCache}
    {pd : Option Nat} {data size offset slot : Nat} {fd : Int} {mallocOk : Bool}
    {registered : Option Nat} {entry : NcclIbMr}
    (found : scan page (page.floor data) (page.count data size) cache.slots = .hit slot)
    (placed : cache.slots[slot]? = some entry) :
    ncclIbRegMrDmaBufInternal page relaxed cache pd data size offset fd mallocOk registered =
      some ⟨.ncclSuccess,
        { cache with slots := cache.slots.set slot { entry with refs := entry.refs + 1 } },
        some entry.mr, none⟩ := by
  simp [ncclIbRegMrDmaBufInternal, found, registerHit, placed]

/-- Dropping a slot keeps the cache sized and leaves the other slots. -/
theorem dropSlot_slots (cache : NcclIbMrCache) (slot : Nat) :
    (dropSlot cache slot).slots = swapRemove cache.slots slot := by
  by_cases last : (swapRemove cache.slots slot).length = 0
  · simp [dropSlot, NcclIbMrCache.empty, List.length_eq_zero_iff.mp last]
  · simp [dropSlot, last]

theorem dropSlot_sized (cache : NcclIbMrCache) (slot : Nat) (inside : slot < cache.slots.length)
    (sized : cache.Sized) : (dropSlot cache slot).Sized := by
  by_cases last : (swapRemove cache.slots slot).length = 0
  · simpa [dropSlot, last] using NcclIbMrCache.empty_sized
  · obtain ⟨exact, bounded⟩ := sized
    have fewer := (swapRemove_perm cache.slots slot inside).length_eq
    simp only [List.length_cons] at fewer
    simp only [dropSlot, last, if_false, NcclIbMrCache.Sized, NcclIbMrCache.population] at bounded ⊢
    omega

end NcclExts.Unet
