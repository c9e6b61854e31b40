import NcclExts.Unet.MrFailures
import NcclExts.Unet.MrSharing

/-!
# Registering memory on all devices of a comm

A comm registers memory on each of its devices in turn, in caches it shares with the
other comms of these devices. When a device fails, the registration returns an error and
frees the handle, and nothing gives back what the devices before it have taken.
-/

namespace NcclExts.Unet

open NcclExts.Foundation

/-- A device of a comm that registers memory: its position among the devices, the
protection domain of the comm on it, and the outcomes of the allocation and of verbs. -/
structure RegDev where
  ibDevN : Nat
  pd : Option Nat
  mallocOk : Bool
  registered : Option Nat

/-- The caches of all devices. -/
abbrev MrCaches := Nat → NcclIbMrCache

/-- The memory a registration is about. -/
structure RegRange where
  data : Nat
  size : Nat
  offset : Nat
  fd : Int

/-- What a registration on several devices leaves behind: its result, the regions in the
handle, which is freed on an error, and the caches. -/
structure RegsOutcome where
  result : NcclResult
  mrs : List Nat
  caches : MrCaches

/-- The loop over the devices; `none` is an access outside the slots of a cache. -/
def regDevs (page : PageSize) (relaxed : Bool) (range : RegRange) :
    List RegDev → MrCaches → Option RegsOutcome
  | [], caches => some ⟨.ncclSuccess, [], caches⟩
  | dev :: rest, caches =>
    (ncclIbRegMrDmaBufInternal page relaxed (caches dev.ibDevN) dev.pd range.data range.size
      range.offset range.fd dev.mallocOk dev.registered).bind fun outcome =>
        let caches := Function.update caches dev.ibDevN outcome.cache
        if outcome.result ≠ .ncclSuccess then some ⟨outcome.result, [], caches⟩
        else
          (regDevs page relaxed range rest caches).map fun later =>
            { later with mrs := outcome.mhandle.toList ++ later.mrs }

/-- `ncclIbRegMrDmaBuf`. -/
def ncclIbRegMrDmaBuf (page : PageSize) (relaxed : Bool) (range : RegRange) (devs : List RegDev)
    (caches : MrCaches) : Option RegsOutcome :=
  (regDevs page relaxed range devs caches).map fun outcome =>
    if outcome.result = .ncclSuccess then outcome else { outcome with mrs := [] }

/-- The registration on a device fails: no slot covers the range, and the array gets no
room or verbs no region. -/
def RegDev.Fails (page : PageSize) (range : RegRange) (caches : MrCaches) (dev : RegDev) : Prop :=
  let cache := caches dev.ibDevN
  (∃ slot, scan page (page.floor range.data) (page.count range.data range.size) cache.slots =
    .miss slot) ∧
    ((cache.population = cache.capacity ∧ dev.mallocOk = false) ∨ dev.registered = none)

/-! ## Releasing the handles of a device -/

/-- Deregister one region after the other. -/
def releaseAll (cache : NcclIbMrCache) (mrs : List Nat) : NcclIbMrCache :=
  mrs.foldl (fun cache mr => (ncclIbDeregMrInternal cache mr true).cache) cache

/-- Each device counts the references of its holders, and when these are released in any
order nothing stays registered. -/
def Settled (caches : MrCaches) (holders : Nat → List Nat) : Prop :=
  ∀ dev, Counted NcclIbMr.mr NcclIbMr.refs (caches dev).slots (holders dev) ∧
    ∀ order : List Nat, order.Perm (holders dev) → (releaseAll (caches dev) order).slots = []

/-- Releasing a held region leaves a cache that counts the other holders. -/
theorem deregister_counted {cache : NcclIbMrCache} {holders : List Nat} {mr : Nat}
    (counted : Counted NcclIbMr.mr NcclIbMr.refs cache.slots holders) (held : mr ∈ holders)
    (deregOk : Bool) :
    Counted NcclIbMr.mr NcclIbMr.refs (ncclIbDeregMrInternal cache mr deregOk).cache.slots
      (holders.erase mr) := by
  obtain ⟨slot, found, placed, named, _, outcome⟩ := deregister_held counted held deregOk
  rw [outcome]
  by_cases last : found.refs - 1 = 0
  · obtain ⟨bound, isSlot⟩ := List.getElem?_eq_some_iff.mp placed
    have split : cache.slots.Perm (found :: swapRemove cache.slots slot) :=
      isSlot ▸ swapRemove_perm cache.slots slot bound
    rw [if_pos last, dropSlot_slots, ← named]
    exact (counted.perm split (List.Perm.refl _)).drop last
  · rw [if_neg last, ← named]
    refine set_counted placed counted (fun infront => ?_)
    exact infront.release { found with refs := found.refs - 1 } rfl rfl last

/-- Once all holders are released the cache is empty. -/
theorem releaseAll_slots {cache : NcclIbMrCache} {holders order : List Nat}
    (counted : Counted NcclIbMr.mr NcclIbMr.refs cache.slots holders)
    (all : order.Perm holders) : (releaseAll cache order).slots = [] := by
  induction order generalizing cache holders with
  | nil =>
    have none : holders = [] := all.symm.eq_nil
    apply List.eq_nil_iff_forall_not_mem.mpr
    intro slot member
    have held := counted.used slot member
    simp [none] at held
  | cons mr rest ih =>
    have held : mr ∈ holders := all.subset List.mem_cons_self
    have others : rest.Perm (holders.erase mr) :=
      (List.perm_cons mr).mp (all.trans (List.perm_cons_erase held))
    exact ih (deregister_counted counted held true) others

/-- Caches that count their holders are settled. -/
theorem settled_of_counted {caches : MrCaches} {holders : Nat → List Nat}
    (counted : ∀ dev, Counted NcclIbMr.mr NcclIbMr.refs (caches dev).slots (holders dev)) :
    Settled caches holders :=
  fun dev => ⟨counted dev, fun _ all => releaseAll_slots (counted dev) all⟩

/-! ## One device -/

/-- An array that does not have to grow without memory grows, and keeps its slots. -/
theorem grow_gets {cache : NcclIbMrCache} {mallocOk : Bool}
    (gets : cache.population = cache.capacity → mallocOk = true) :
    ∃ grown, grow cache mallocOk = (.ncclSuccess, grown) ∧ grown.slots = cache.slots := by
  by_cases full : cache.population = cache.capacity
  · have larger : cache.population < grownCapacity cache.capacity := by
      rw [full]
      exact grownCapacity_larger cache.capacity
    refine ⟨⟨cache.slots, grownCapacity cache.capacity, grownCapacity cache.capacity⟩, ?_, rfl⟩
    rw [gets full]
    simp only [grow, if_pos full, ncclRealloc_larger cache.allocated larger]
  · exact ⟨cache, if_neg full, rfl⟩

/-- What a registration did to the slots of a device. -/
inductive Registered (page : PageSize) (range : RegRange) (caches : MrCaches) (dev : RegDev)
    (outcome : RegOutcome) : Prop
  | failed (fails : dev.Fails page range caches) (error : outcome.result ≠ .ncclSuccess)
      (same : outcome.cache.slots = (caches dev.ibDevN).slots)
  | shared (works : ¬ dev.Fails page range caches) (success : outcome.result = .ncclSuccess)
      (slot : Nat) (found : NcclIbMr) (placed : (caches dev.ibDevN).slots[slot]? = some found)
      (taken : outcome.cache.slots =
        (caches dev.ibDevN).slots.set slot { found with refs := found.refs + 1 })
  | added (works : ¬ dev.Fails page range caches) (success : outcome.result = .ncclSuccess)
      (fresh : NcclIbMr) (placed : outcome.cache.slots.Perm (fresh :: (caches dev.ibDevN).slots))

/-- A registration that returns fails, takes a reference to a slot, or adds a slot. -/
theorem register_cases {page : PageSize} {relaxed : Bool} {range : RegRange} {caches : MrCaches}
    {dev : RegDev} {outcome : RegOutcome}
    (returned : ncclIbRegMrDmaBufInternal page relaxed (caches dev.ibDevN) dev.pd range.data
      range.size range.offset range.fd dev.mallocOk dev.registered = some outcome) :
    Registered page range caches dev outcome := by
  cases found : scan page (page.floor range.data) (page.count range.data range.size)
      (caches dev.ibDevN).slots with
  | hit slot =>
    obtain ⟨entry, placed, _⟩ := scan_hit found
    rw [register_hit found placed, Option.some.injEq] at returned
    subst returned
    refine .shared ?_ rfl slot entry placed rfl
    rintro ⟨⟨other, missed⟩, _⟩
    simp [found] at missed
  | miss slot =>
    by_cases starved : (caches dev.ibDevN).population = (caches dev.ibDevN).capacity ∧
        dev.mallocOk = false
    · rw [starved.2] at returned
      simp only [ncclIbRegMrDmaBufInternal, found, registerMiss, grow_fails starved.1, ne_eq,
        reduceCtorEq, not_false_eq_true, if_true, Option.some.injEq] at returned
      subst returned
      exact .failed ⟨⟨slot, found⟩, .inl starved⟩ (by simp) rfl
    · have gets : (caches dev.ibDevN).population = (caches dev.ibDevN).capacity →
          dev.mallocOk = true :=
        fun full => (Bool.not_eq_false _).mp fun none => starved ⟨full, none⟩
      obtain ⟨grown, growth, kept⟩ := grow_gets gets
      obtain ⟨call, outcomeIs⟩ :=
        register_grown relaxed dev.pd range.offset range.fd dev.registered growth found
      rw [outcomeIs] at returned
      cases verbs : dev.registered with
      | none =>
        simp only [verbs, Option.some.injEq] at returned
        subst returned
        exact .failed ⟨⟨slot, found⟩, .inr verbs⟩ (by simp) kept
      | some mr =>
        simp only [verbs, insertSlot] at returned
        split at returned
        · simp only [Option.map_some, Option.some.injEq] at returned
          subst returned
          refine .added ?_ rfl ⟨page.floor range.data, page.count range.data range.size, 1, mr⟩ ?_
          · rintro ⟨_, short | unregistered⟩
            · exact starved short
            · simp [verbs] at unregistered
          · rw [← kept]
            exact List.perm_middle.trans
              (by rw [List.take_append_drop])
        · simp at returned

/-- A registration that succeeds leaves a cache that counts one more reference than its
holders. -/
theorem register_uncounted {page : PageSize} {range : RegRange} {caches : MrCaches} {dev : RegDev}
    {outcome : RegOutcome} {holders : List Nat}
    (counted : Counted NcclIbMr.mr NcclIbMr.refs (caches dev.ibDevN).slots holders)
    (did : Registered page range caches dev outcome) (works : ¬ dev.Fails page range caches) :
    ¬ Counted NcclIbMr.mr NcclIbMr.refs outcome.cache.slots holders := by
  intro after
  cases did with
  | failed fails _ _ => exact works fails
  | shared _ _ slot found placed taken =>
    obtain ⟨bound, isFound⟩ := List.getElem?_eq_some_iff.mp placed
    have before := counted.counts found (List.mem_of_getElem? placed)
    have more := after.counts { found with refs := found.refs + 1 } (by
      rw [taken]
      exact List.mem_set bound _)
    have same : (holders.count found.mr : Int) = found.refs + 1 := more.symm
    omega
  | added _ _ fresh placed =>
    have infront := after.perm placed (List.Perm.refl _)
    have held := infront.used fresh List.mem_cons_self
    obtain ⟨other, inside, same⟩ := counted.present fresh.mr held
    exact infront.head_absent other inside same

/-! ## All devices -/

/-- The devices behind do not touch the cache of a device in front. -/
theorem regDevs_other {page : PageSize} {relaxed : Bool} {range : RegRange} {devs : List RegDev}
    {caches : MrCaches} {outcome : RegsOutcome} {dev : Nat}
    (returned : regDevs page relaxed range devs caches = some outcome)
    (other : dev ∉ devs.map RegDev.ibDevN) : outcome.caches dev = caches dev := by
  induction devs generalizing caches outcome with
  | nil =>
    simp only [regDevs, Option.some.injEq] at returned
    rw [← returned]
  | cons first rest ih =>
    rw [List.map_cons, List.mem_cons, not_or] at other
    obtain ⟨one, _, left⟩ := Option.bind_eq_some_iff.mp returned
    have apart : Function.update caches first.ibDevN one.cache dev = caches dev :=
      Function.update_of_ne other.1 _ _
    split at left
    · rw [← Option.some.inj left]
      exact apart
    · obtain ⟨later, isLater, rfl⟩ := Option.map_eq_some_iff.mp left
      exact (ih isLater other.2).trans apart

/-- A registration on several devices succeeds exactly when it fails on none of them. -/
theorem regDevs_success {page : PageSize} {relaxed : Bool} {range : RegRange}
    {devs : List RegDev} {caches : MrCaches} {outcome : RegsOutcome}
    (distinct : (devs.map RegDev.ibDevN).Nodup)
    (returned : regDevs page relaxed range devs caches = some outcome) :
    outcome.result = .ncclSuccess ↔ ∀ dev ∈ devs, ¬ dev.Fails page range caches := by
  induction devs generalizing caches outcome with
  | nil =>
    simp only [regDevs, Option.some.injEq] at returned
    simp [← returned]
  | cons first rest ih =>
    obtain ⟨notLater, restDistinct⟩ := List.nodup_cons.mp distinct
    obtain ⟨one, isOne, left⟩ := Option.bind_eq_some_iff.mp returned
    have did := register_cases isOne
    split at left
    · rename_i error
      rw [← Option.some.inj left]
      constructor
      · exact fun success => absurd success error
      · intro works
        cases did with
        | failed fails _ _ => exact absurd fails (works first List.mem_cons_self)
        | shared _ success _ _ _ _ => exact absurd success error
        | added _ success _ _ => exact absurd success error
    · rename_i success
      obtain ⟨later, isLater, rfl⟩ := Option.map_eq_some_iff.mp left
      have firstWorks : ¬ first.Fails page range caches := by
        cases did with
        | failed _ error _ => exact absurd error success
        | shared works _ _ _ _ _ => exact works
        | added works _ _ _ => exact works
      have sameCache : ∀ dev ∈ rest, (dev.Fails page range
          (Function.update caches first.ibDevN one.cache) ↔ dev.Fails page range caches) := by
        intro dev member
        have apart : dev.ibDevN ≠ first.ibDevN := by
          intro same
          exact notLater (same ▸ List.mem_map_of_mem member)
        simp only [RegDev.Fails, Function.update_of_ne apart]
      rw [ih restDistinct isLater, List.forall_mem_cons]
      constructor
      · exact fun works => ⟨firstWorks, fun dev member => by
          rw [← sameCache dev member]
          exact works dev member⟩
      · rintro ⟨_, works⟩ dev member
        rw [sameCache dev member]
        exact works dev member

/-- Over caches that count their holders, a registration on distinct devices that returns
an error leaves the caches to these holders exactly when it fails on the first device,
if it fails at all. -/
theorem registration_atomic (page : PageSize) (relaxed : Bool) (range : RegRange)
    (devs : List RegDev) (caches : MrCaches) (holders : Nat → List Nat)
    (distinct : (devs.map RegDev.ibDevN).Nodup)
    (counted : ∀ dev, Counted NcclIbMr.mr NcclIbMr.refs (caches dev).slots (holders dev))
    (outcome : RegsOutcome)
    (returned : ncclIbRegMrDmaBuf page relaxed range devs caches = some outcome) :
    (outcome.result ≠ .ncclSuccess → Settled outcome.caches holders) ↔
      ((∀ dev ∈ devs, ¬ dev.Fails page range caches) ∨
        ∃ first ∈ devs.head?, first.Fails page range caches) := by
  obtain ⟨whole, isWhole, wrapped⟩ := Option.map_eq_some_iff.mp returned
  have sameResult : outcome.result = whole.result := by
    rw [← wrapped]
    split <;> rfl
  have sameCaches : outcome.caches = whole.caches := by
    rw [← wrapped]
    split <;> rfl
  rw [sameResult, sameCaches, ne_eq, regDevs_success distinct isWhole]
  cases devs with
  | nil => simp
  | cons first rest =>
    obtain ⟨notLater, _⟩ := List.nodup_cons.mp distinct
    obtain ⟨one, isOne, left⟩ := Option.bind_eq_some_iff.mp isWhole
    have did := register_cases isOne
    constructor
    · intro settles
      by_cases works : ∀ dev ∈ first :: rest, ¬ dev.Fails page range caches
      · exact .inl works
      · refine .inr ⟨first, rfl, ?_⟩
        by_contra firstWorks
        have success : one.result = .ncclSuccess := by
          cases did with
          | failed fails _ _ => exact absurd fails firstWorks
          | shared _ success _ _ _ _ => exact success
          | added _ success _ _ => exact success
        rw [if_neg (not_not_intro success)] at left
        obtain ⟨later, isLater, rfl⟩ := Option.map_eq_some_iff.mp left
        have kept := regDevs_other isLater notLater
        rw [Function.update_self] at kept
        refine register_uncounted (counted first.ibDevN) did firstWorks ?_
        rw [← kept]
        exact (settles works first.ibDevN).1
    · rintro (works | ⟨other, isFirst, fails⟩) failed
      · exact absurd works failed
      · obtain rfl : first = other := by simpa using isFirst
        cases did with
        | shared works _ _ _ _ _ => exact absurd fails works
        | added works _ _ _ => exact absurd fails works
        | failed _ error same =>
          rw [if_pos error] at left
          rw [← Option.some.inj left]
          apply settled_of_counted
          intro dev
          by_cases here : dev = first.ibDevN
          · subst here
            simp only [Function.update_self, same]
            exact counted first.ibDevN
          · simp only [Function.update_of_ne here]
            exact counted dev

/-- No cache holds anything. -/
def emptyCaches : MrCaches := fun _ => .empty

/-- One page of memory. -/
def onePage : RegRange := ⟨4096, 4096, 0, -1⟩

/-- Two devices, of which verbs registers memory on the first only. -/
def halfRegistered : List RegDev := [⟨0, some 10, true, some 100⟩, ⟨1, some 11, true, none⟩]

/-- Two devices, of which verbs registers memory on the second only. -/
def unregistered : List RegDev := [⟨0, some 10, true, none⟩, ⟨1, some 11, true, some 101⟩]

/-- What the registration of a page leaves when it fails on the first device. -/
def nothingTaken : RegsOutcome :=
  ⟨.ncclSystemError, [], Function.update emptyCaches 0 ⟨[], 32, 32⟩⟩

/-- A registration that fails on the first device takes nothing. -/
theorem registration_atomic_unregistered : Settled nothingTaken.caches (fun _ => []) := by
  refine (registration_atomic .small false onePage unregistered emptyCaches (fun _ => [])
    (by decide) (fun _ => Counted.nil) nothingTaken rfl).mpr ?_ (by decide)
  exact .inr ⟨_, rfl, ⟨0, rfl⟩, .inr rfl⟩

/-- A registration that fails on the second device keeps the region of the first. -/
theorem registration_leaks :
    ¬ ∀ page relaxed range devs caches holders outcome, (devs.map RegDev.ibDevN).Nodup →
      (∀ dev, Counted NcclIbMr.mr NcclIbMr.refs (caches dev).slots (holders dev)) →
      ncclIbRegMrDmaBuf page relaxed range devs caches = some outcome →
      outcome.result ≠ .ncclSuccess → Settled outcome.caches holders := by
  intro always
  have settled := always .small false onePage halfRegistered emptyCaches (fun _ => [])
    ⟨.ncclSystemError, [], Function.update (Function.update emptyCaches 0
      ⟨[⟨4096, 1, 1, 100⟩], 32, 32⟩) 1 ⟨[], 32, 32⟩⟩ (by decide) (fun _ => Counted.nil) rfl
    (by decide)
  have held := (settled 0).1.used ⟨4096, 1, 1, 100⟩ (by decide)
  exact absurd held (by decide)

end NcclExts.Unet
