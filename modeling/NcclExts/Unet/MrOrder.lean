import NcclExts.Foundation.System
import NcclExts.Unet.MrCache

/-!
# The order of the memory region cache

The scan of a registration gives up at the first slot with a larger address, so it
finds a covering slot for certain only while the addresses ascend. An insertion keeps
that order, since it shifts the new slot in front of the first larger one. A last
release does not: the slot it moves into the hole has the largest address of all, and
stands out of order unless nothing with a smaller address stays behind the hole.
-/

namespace NcclExts.Unet

open NcclExts.Foundation

/-- The two calls on the cache of one device, with the outcomes of allocation and of
the verbs calls. -/
inductive CacheCall where
  | regMr (pd : Option Nat) (data size offset : Nat) (fd : Int) (mallocOk : Bool)
      (registered : Option Nat)
  | deregMr (mhandle : Nat) (deregOk : Bool)
deriving DecidableEq, Repr

namespace NcclIbMrCache

/-- A call that succeeds. -/
def step (page : PageSize) (relaxed : Bool) (cache : NcclIbMrCache) :
    CacheCall → Option NcclIbMrCache
  | .regMr pd data size offset fd mallocOk registered =>
    if data < wordRange then
      (ncclIbRegMrDmaBufInternal page relaxed cache pd data size offset fd mallocOk
        registered).bind fun outcome =>
          if outcome.result = .ncclSuccess then some outcome.cache else none
    else none
  | .deregMr mhandle deregOk =>
    let outcome := ncclIbDeregMrInternal cache mhandle deregOk
    if outcome.result = .ncclSuccess then some outcome.cache else none

/-- The addresses of the slots, in slot order. -/
def addrs (cache : NcclIbMrCache) : List Nat := cache.slots.map NcclIbMr.addr

/-- The slots stand in ascending address order. -/
def Ascending (cache : NcclIbMrCache) : Prop := cache.addrs.Pairwise (· ≤ ·)

instance (cache : NcclIbMrCache) : Decidable cache.Ascending :=
  inferInstanceAs (Decidable (List.Pairwise _ _))

/-- A slot whose last reference a call drops leaves a hole that the last slot may
fill: everything that stays behind it has an address at least as large. -/
def InOrder (cache : NcclIbMrCache) : CacheCall → Prop
  | .regMr .. => True
  | .deregMr mhandle _ =>
    ∀ slot ∈ cache.slots.findIdx? (fun slot => mhandle = slot.mr),
      ∀ found ∈ cache.slots[slot]?, found.refs = 1 →
        ∀ last ∈ cache.slots.getLast?, ∀ entry ∈ staysBehind cache.slots slot,
          last.addr ≤ entry.addr

instance (cache : NcclIbMrCache) (call : CacheCall) : Decidable (cache.InOrder call) := by
  cases call <;> unfold InOrder <;> infer_instance

end NcclIbMrCache

/-- All runs of successful calls on the cache of one device. -/
def caching (page : PageSize) (relaxed : Bool) : System NcclIbMrCache CacheCall where
  starts := fun cache => cache = .empty
  step := NcclIbMrCache.step page relaxed

/-- Every registration of a range inside some slot takes one more reference to a slot
around the range and registers nothing. -/
def NcclIbMrCache.HitComplete (page : PageSize) (relaxed : Bool) (cache : NcclIbMrCache) :
    Prop :=
  ∀ (pd : Option Nat) (data size offset : Nat) (fd : Int) (mallocOk : Bool)
    (registered : Option Nat), data < wordRange →
    (∃ entry ∈ cache.slots, entry.Contains page data size) →
    ∃ slot entry, cache.slots[slot]? = some entry ∧ entry.Contains page data size ∧
      ncclIbRegMrDmaBufInternal page relaxed cache pd data size offset fd mallocOk registered =
        some ⟨.ncclSuccess,
          { cache with slots := cache.slots.set slot { entry with refs := entry.refs + 1 } },
          some entry.mr, none⟩

/-! ## One call -/

/-- Growth keeps the slots, whether or not it succeeds. -/
theorem grow_slots (cache : NcclIbMrCache) (mallocOk : Bool) :
    (grow cache mallocOk).2.slots = cache.slots := by
  unfold grow
  split <;> rfl

/-- A successful registration without a covering slot puts its slot where the scan
stopped. -/
theorem registerMiss_slots {page : PageSize} {relaxed mallocOk : Bool} {cache : NcclIbMrCache}
    {pd registered : Option Nat} {addr pages slot offset : Nat} {fd : Int} {outcome : RegOutcome}
    (called : registerMiss page relaxed cache pd addr pages slot offset fd mallocOk registered =
      some outcome) (success : outcome.result = .ncclSuccess) :
    ∃ mr, outcome.cache.slots =
      cache.slots.take slot ++ ⟨addr, pages, 1, mr⟩ :: cache.slots.drop slot := by
  have kept := grow_slots cache mallocOk
  simp only [registerMiss] at called
  split at called
  · rename_i failed
    rw [← Option.some.inj called] at success
    exact absurd success failed
  · cases registered with
    | none =>
      rw [← Option.some.inj called] at success
      simp at success
    | some mr =>
      simp only [insertSlot, Option.map_eq_some_iff] at called
      obtain ⟨inserted, isInserted, rfl⟩ := called
      split at isInserted
      · rw [← Option.some.inj isInserted, kept]
        exact ⟨mr, rfl⟩
      · simp at isInserted

/-- Writing a count leaves the addresses of the slots. -/
theorem set_addrs {slots : List NcclIbMr} {index : Nat} {found : NcclIbMr} (refs : Int)
    (placed : slots[index]? = some found) :
    (slots.set index { found with refs := refs }).map NcclIbMr.addr = slots.map NcclIbMr.addr := by
  obtain ⟨inside, rfl⟩ := List.getElem?_eq_some_iff.mp placed
  have within : index < (slots.map NcclIbMr.addr).length := by simpa using inside
  have written := List.set_getElem_self within
  rw [List.getElem_map] at written
  rw [List.map_set, written]

/-- A successful registration keeps the addresses or inserts its own where the scan
stopped. -/
theorem register_addrs {page : PageSize} {relaxed mallocOk : Bool} {cache : NcclIbMrCache}
    {pd registered : Option Nat} {data size offset : Nat} {fd : Int} {outcome : RegOutcome}
    (called : ncclIbRegMrDmaBufInternal page relaxed cache pd data size offset fd mallocOk
      registered = some outcome) (success : outcome.result = .ncclSuccess) :
    outcome.cache.addrs = cache.addrs ∨
      ∃ slot, scan page (page.floor data) (page.count data size) cache.slots = .miss slot ∧
        outcome.cache.addrs =
          cache.addrs.take slot ++ page.floor data :: cache.addrs.drop slot := by
  cases scanned : scan page (page.floor data) (page.count data size) cache.slots with
  | hit slot =>
    left
    obtain ⟨entry, placed, _⟩ := scan_hit scanned
    rw [register_hit scanned placed] at called
    rw [← Option.some.inj called]
    exact set_addrs _ placed
  | miss slot =>
    right
    simp only [ncclIbRegMrDmaBufInternal, scanned] at called
    obtain ⟨mr, slots⟩ := registerMiss_slots called success
    exact ⟨slot, rfl, by simp [NcclIbMrCache.addrs, slots]⟩

/-- What a successful deregistration does to the addresses. -/
theorem deregister_addrs {cache : NcclIbMrCache} {mhandle : Nat} {deregOk : Bool}
    (success : (ncclIbDeregMrInternal cache mhandle deregOk).result = .ncclSuccess) :
    ∃ slot found, cache.slots.findIdx? (fun slot => mhandle = slot.mr) = some slot ∧
      cache.slots[slot]? = some found ∧
      (ncclIbDeregMrInternal cache mhandle deregOk).cache.addrs =
        if found.refs = 1 then (swapRemove cache.slots slot).map NcclIbMr.addr
        else cache.addrs := by
  cases located : cache.slots.findIdx? (fun slot => mhandle = slot.mr) with
  | none => simp [ncclIbDeregMrInternal, located] at success
  | some slot =>
    obtain ⟨bound, _, _⟩ := List.findIdx?_eq_some_iff_getElem.mp located
    have placed := List.getElem?_eq_getElem bound
    refine ⟨slot, cache.slots[slot], rfl, placed, ?_⟩
    simp only [ncclIbDeregMrInternal, located, placed]
    by_cases last : cache.slots[slot].refs = 1
    · have zero : cache.slots[slot].refs - 1 = 0 := by omega
      simp [last, NcclIbMrCache.addrs, dropSlot_slots]
    · have nonzero : cache.slots[slot].refs - 1 ≠ 0 := by omega
      simp only [nonzero, last, if_false]
      exact set_addrs _ placed

/-! ## The invariant -/

/-- Page-aligned slots in ascending address order. -/
structure Ordered (page : PageSize) (cache : NcclIbMrCache) : Prop where
  aligned : ∀ addr ∈ cache.addrs, page.bytes ∣ addr
  ascending : cache.Ascending

theorem Ordered.empty (page : PageSize) : Ordered page .empty :=
  ⟨by simp [NcclIbMrCache.empty, NcclIbMrCache.addrs], List.Pairwise.nil⟩

/-- Where the scan gave up, every later address is larger. -/
theorem Ordered.behind {page : PageSize} {cache : NcclIbMrCache} {addr pages slot : Nat}
    (ordered : Ordered page cache) (missed : scan page addr pages cache.slots = .miss slot) :
    ∀ other ∈ cache.addrs.drop slot, addr < other := by
  have first := (scan_miss missed).2.2
  have ascending : (cache.addrs.drop slot).Pairwise (· ≤ ·) :=
    ordered.ascending.sublist (List.drop_sublist _ _)
  rw [NcclIbMrCache.addrs, ← List.map_drop] at ascending ⊢
  intro other member
  cases remaining : cache.slots.drop slot with
  | nil => simp [remaining] at member
  | cons head rest =>
    rw [remaining, List.map_cons] at ascending member
    have larger := first head (by simp [remaining])
    rcases List.mem_cons.mp member with rfl | member
    · exact larger
    · exact Nat.lt_of_lt_of_le larger ((List.pairwise_cons.mp ascending).1 other member)

/-- A registration keeps the order. -/
theorem Ordered.register {page : PageSize} {relaxed mallocOk : Bool} {cache : NcclIbMrCache}
    {pd registered : Option Nat} {data size offset : Nat} {fd : Int} {outcome : RegOutcome}
    (ordered : Ordered page cache) (word : data < wordRange)
    (called : ncclIbRegMrDmaBufInternal page relaxed cache pd data size offset fd mallocOk
      registered = some outcome) (success : outcome.result = .ncclSuccess) :
    Ordered page outcome.cache := by
  rcases register_addrs called success with same | ⟨slot, missed, inserted⟩
  · exact ⟨same ▸ ordered.aligned, by rw [NcclIbMrCache.Ascending, same]; exact ordered.ascending⟩
  · have behind := ordered.behind missed
    have front : ∀ other ∈ cache.addrs.take slot, other ≤ page.floor data := by
      intro other member
      rw [NcclIbMrCache.addrs, ← List.map_take] at member
      obtain ⟨entry, inside, rfl⟩ := List.mem_map.mp member
      exact ((scan_miss missed).2.1 entry inside).1
    constructor
    · intro addr member
      rw [inserted] at member
      rcases List.mem_append.mp member with member | member
      · exact ordered.aligned addr (List.mem_of_mem_take member)
      · rcases List.mem_cons.mp member with rfl | member
        · rw [page.floor_eq data word]
          exact Nat.dvd_mul_left _ _
        · exact ordered.aligned addr (List.mem_of_mem_drop member)
    · have ascending := ordered.ascending
      rw [NcclIbMrCache.Ascending, ← List.take_append_drop slot cache.addrs] at ascending
      obtain ⟨frontAscending, behindAscending, crossing⟩ := List.pairwise_append.mp ascending
      rw [NcclIbMrCache.Ascending, inserted]
      refine List.pairwise_append.mpr ⟨frontAscending, List.pairwise_cons.mpr
        ⟨fun other member => Nat.le_of_lt (behind other member), behindAscending⟩, ?_⟩
      intro first inFront second inTail
      rcases List.mem_cons.mp inTail with rfl | inTail
      · exact front first inFront
      · exact crossing first inFront second inTail

/-- A deregistration keeps the alignment. -/
theorem Ordered.deregister_aligned {page : PageSize} {cache : NcclIbMrCache} {mhandle : Nat}
    {deregOk : Bool} (ordered : Ordered page cache)
    (success : (ncclIbDeregMrInternal cache mhandle deregOk).result = .ncclSuccess) :
    ∀ addr ∈ (ncclIbDeregMrInternal cache mhandle deregOk).cache.addrs, page.bytes ∣ addr := by
  obtain ⟨slot, found, _, placed, after⟩ := deregister_addrs success
  obtain ⟨inside, _⟩ := List.getElem?_eq_some_iff.mp placed
  intro addr member
  rw [after] at member
  split at member
  · obtain ⟨entry, isKept, rfl⟩ := List.mem_map.mp member
    apply ordered.aligned
    exact List.mem_map_of_mem
      ((swapRemove_perm cache.slots slot inside).mem_iff.mpr (List.mem_cons_of_mem _ isKept))
  · exact ordered.aligned addr member

/-- A deregistration keeps the order exactly when the hole it leaves may be filled by
the last slot. -/
theorem Ordered.deregister_iff {page : PageSize} {cache : NcclIbMrCache} {mhandle : Nat}
    {deregOk : Bool} (ordered : Ordered page cache)
    (success : (ncclIbDeregMrInternal cache mhandle deregOk).result = .ncclSuccess) :
    (ncclIbDeregMrInternal cache mhandle deregOk).cache.Ascending ↔
      cache.InOrder (.deregMr mhandle deregOk) := by
  obtain ⟨slot, found, located, placed, after⟩ := deregister_addrs success
  obtain ⟨inside, _⟩ := List.getElem?_eq_some_iff.mp placed
  simp only [NcclIbMrCache.InOrder, located, placed, Option.mem_some_iff, forall_eq']
  rw [NcclIbMrCache.Ascending, after]
  by_cases last : found.refs = 1
  · have sorted : cache.slots.Pairwise (fun first second => first.addr ≤ second.addr) :=
      List.pairwise_map.mp ordered.ascending
    rw [if_pos last, List.pairwise_map, swapRemove_pairwise_iff cache.slots slot inside sorted]
    simp [last]
  · rw [if_neg last]
    have kept : cache.addrs.Pairwise (· ≤ ·) := ordered.ascending
    simp [last, kept]

/-- While the addresses ascend, every range inside a slot is served from the cache. -/
theorem Ordered.hitComplete {page : PageSize} {relaxed : Bool} {cache : NcclIbMrCache}
    (ordered : Ordered page cache) : cache.HitComplete page relaxed := by
  have aligned : ∀ slot ∈ cache.slots, page.bytes ∣ slot.addr :=
    fun slot member => ordered.aligned slot.addr (List.mem_map_of_mem member)
  intro pd data size offset fd mallocOk registered word ⟨entry, member, contained⟩
  have covering := (NcclIbMr.covers_iff (aligned entry member) word).mpr contained
  obtain ⟨slot, found⟩ := scan_finds (List.pairwise_map.mp ordered.ascending) member covering
  obtain ⟨hit, placed, hitCovers⟩ := scan_hit found
  have hitAligned := aligned hit (List.mem_of_getElem? placed)
  exact ⟨slot, hit, placed, (NcclIbMr.covers_iff hitAligned word).mp hitCovers,
    register_hit found placed⟩

/-! ## Every run -/

variable {page : PageSize} {relaxed : Bool}

/-- One permitted call keeps the invariant. -/
theorem Ordered.step {cache after : NcclIbMrCache} {call : CacheCall}
    (ordered : Ordered page cache) (permitted : cache.InOrder call)
    (stepped : (caching page relaxed).step cache call = some after) : Ordered page after := by
  cases call with
  | regMr pd data size offset fd mallocOk registered =>
    simp only [caching, NcclIbMrCache.step] at stepped
    split at stepped
    · rename_i word
      obtain ⟨outcome, called, result⟩ := Option.bind_eq_some_iff.mp stepped
      split at result
      · rename_i success
        rw [← Option.some.inj result]
        exact ordered.register word called success
      · simp at result
    · simp at stepped
  | deregMr mhandle deregOk =>
    simp only [caching, NcclIbMrCache.step] at stepped
    split at stepped
    · rename_i success
      rw [← Option.some.inj stepped]
      exact ⟨ordered.deregister_aligned success, (ordered.deregister_iff success).mpr permitted⟩
    · simp at stepped

/-- Every run of permitted calls keeps the invariant. -/
theorem reaches_ordered {cache : NcclIbMrCache}
    (reached : (caching page relaxed).Reaches NcclIbMrCache.InOrder cache) :
    Ordered page cache :=
  reached.invariant (fun _ first => first ▸ Ordered.empty page)
    (fun _ _ _ _ ordered permitted stepped => ordered.step permitted stepped)

/-- When every last release of a run leaves a hole that the last slot may fill, the
addresses ascend in the state reached and every range inside a cached region is
served from the cache. There, a further successful call keeps the order exactly when
it is such a call itself. -/
theorem mr_cache_in_order (page : PageSize) (relaxed : Bool) (cache : NcclIbMrCache)
    (reached : (caching page relaxed).Reaches NcclIbMrCache.InOrder cache) :
    cache.Ascending ∧ cache.HitComplete page relaxed ∧
      ∀ call after, (caching page relaxed).step cache call = some after →
        (after.Ascending ↔ cache.InOrder call) := by
  have ordered := reaches_ordered reached
  refine ⟨ordered.ascending, ordered.hitComplete, ?_⟩
  intro call after stepped
  cases call with
  | regMr pd data size offset fd mallocOk registered =>
    have permitted : cache.InOrder
        (.regMr pd data size offset fd mallocOk registered) := True.intro
    simp only [permitted, (ordered.step permitted stepped).ascending]
  | deregMr mhandle deregOk =>
    simp only [caching, NcclIbMrCache.step] at stepped
    split at stepped
    · rename_i success
      rw [← Option.some.inj stepped]
      exact ordered.deregister_iff success
    · simp at stepped

/-- Three regions of one page each, of which the last is released again. -/
theorem mr_cache_in_order_released : (NcclIbMrCache.mk
    [⟨4096, 1, 1, 100⟩, ⟨8192, 1, 1, 101⟩] 32 32).HitComplete .small false := by
  have start : (caching .small false).Reaches NcclIbMrCache.InOrder .empty := .start rfl
  have first : (caching .small false).Reaches NcclIbMrCache.InOrder
      ⟨[⟨4096, 1, 1, 100⟩], 32, 32⟩ :=
    start.next (by decide : NcclIbMrCache.InOrder _ (.regMr none 4096 4096 0 (-1) true (some 100)))
      (by decide)
  have second : (caching .small false).Reaches NcclIbMrCache.InOrder
      ⟨[⟨4096, 1, 1, 100⟩, ⟨8192, 1, 1, 101⟩], 32, 32⟩ :=
    first.next (by decide : NcclIbMrCache.InOrder _ (.regMr none 8192 4096 0 (-1) true (some 101)))
      (by decide)
  have third : (caching .small false).Reaches NcclIbMrCache.InOrder
      ⟨[⟨4096, 1, 1, 100⟩, ⟨8192, 1, 1, 101⟩, ⟨12288, 1, 1, 102⟩], 32, 32⟩ :=
    second.next
      (by decide : NcclIbMrCache.InOrder _ (.regMr none 12288 4096 0 (-1) true (some 102)))
      (by decide)
  have released : (caching .small false).Reaches NcclIbMrCache.InOrder
      ⟨[⟨4096, 1, 1, 100⟩, ⟨8192, 1, 1, 101⟩], 32, 32⟩ :=
    third.next (by decide : NcclIbMrCache.InOrder _ (.deregMr 102 true)) (by decide)
  exact (mr_cache_in_order .small false _ released).2.1

/-- Releasing the first of three regions puts the last slot in front of the second:
the addresses no longer ascend, and registering the second range again registers it
anew although its region is cached. -/
theorem mr_cache_out_of_order :
    ¬ ∀ cache, (caching .small false).Reachable cache →
        cache.Ascending ∧ cache.HitComplete .small false := by
  intro always
  have start : (caching .small false).Reachable .empty := .start rfl
  have reached : (caching .small false).Reachable
      ⟨[⟨12288, 1, 1, 102⟩, ⟨8192, 1, 1, 101⟩], 32, 32⟩ :=
    System.Reachable.replay start
      [.regMr none 4096 4096 0 (-1) true (some 100), .regMr none 8192 4096 0 (-1) true (some 101),
        .regMr none 12288 4096 0 (-1) true (some 102), .deregMr 100 true]
      (by decide)
  obtain ⟨_, complete⟩ := always _ reached
  obtain ⟨slot, entry, _, _, served⟩ := complete none 8192 4096 0 (-1) true (some 103) (by decide)
    ⟨⟨8192, 1, 1, 101⟩, by decide, by decide, by decide⟩
  have anew : (ncclIbRegMrDmaBufInternal .small false
      ⟨[⟨12288, 1, 1, 102⟩, ⟨8192, 1, 1, 101⟩], 32, 32⟩ none 8192 4096 0 (-1) true (some 103)).map
        (fun outcome => outcome.call.isSome) = some true := by decide
  rw [served] at anew
  simp at anew

end NcclExts.Unet
