import NcclExts.Foundation.RefTable
import NcclExts.Foundation.System
import NcclExts.Unet.Device

/-!
# Sharing memory regions and the protection domain on one device

Comms open and close on a device in any order, and register and deregister memory
through its cache while they are open. Verbs and allocation succeed, verbs never
hand out the pointer of a live region or domain again, a deregistration releases a
handle that was obtained and not yet released, and a comm closes only after
releasing its handles.

The invariant ties four things together: the cache counts the handles, every cached
region is live under the domain the device holds, every handle's region spans the
pages of its range, and the device counts its open comms.
-/

namespace NcclExts.Unet

open NcclExts.Foundation

/-- A handle given to a comm for a range and not yet released. -/
structure Handle where
  comm : Nat
  data : Nat
  size : Nat
  mr : Nat
deriving DecidableEq, Repr

/-- A region that verbs registered and did not deregister. -/
structure VerbsMr where
  mr : Nat
  pd : Option Nat
  addr : Nat
  length : Nat
deriving DecidableEq, Repr

/-- The device, its open comms with what each holds on it, the handles not yet
released, and the live domains and regions on the verbs side. -/
structure World where
  dev : NcclIbDev
  comms : List (Nat × NcclIbNetCommDevBase)
  handles : List Handle
  pds : List Nat
  mrs : List VerbsMr
deriving DecidableEq, Repr

/-- The calls, with the pointers verbs return in them. -/
inductive Call where
  | initCommDevBase (comm pd cq : Nat)
  | regMr (comm data size offset : Nat) (fd : Int) (mr : Nat)
  | deregMr (handle : Handle)
  | destroyBase (comm : Nat)
deriving DecidableEq, Repr

namespace World

/-- Open a comm; the domain returned, if one is allocated, is not a live one. -/
def init (world : World) (comm pd cq : Nat) : Option World :=
  if comm ∈ world.comms.map Prod.fst ∨ pd ∈ world.pds then none
  else
    let outcome := ncclIbInitCommDevBase world.dev (some pd) (some cq)
    some { world with
      dev := outcome.dev
      comms := (comm, outcome.base) :: world.comms
      pds := if outcome.allocated then pd :: world.pds else world.pds }

/-- Register a range through an open comm; the region returned, if one is
registered, is not a live one. -/
def register (page : PageSize) (relaxed : Bool) (world : World) (comm data size offset : Nat)
    (fd : Int) (mr : Nat) : Option World :=
  if RangeOk page data size ∧ mr ∉ world.mrs.map VerbsMr.mr then
    (world.comms.lookup comm).bind fun base =>
      (ncclIbRegMrDmaBufInternal page relaxed world.dev.mrCache base.pd data size offset fd
        true (some mr)).bind fun outcome =>
          outcome.mhandle.map fun handle =>
            { world with
              dev := { world.dev with mrCache := outcome.cache }
              handles := ⟨comm, data, size, handle⟩ :: world.handles
              mrs := (outcome.call.map fun call =>
                VerbsMr.mk mr call.pd call.addr call.length).toList ++ world.mrs }
  else none

/-- Release a handle. -/
def deregister (world : World) (handle : Handle) : Option World :=
  if handle ∈ world.handles then
    let outcome := ncclIbDeregMrInternal world.dev.mrCache handle.mr true
    some { world with
      dev := { world.dev with mrCache := outcome.cache }
      handles := world.handles.erase handle
      mrs := if outcome.deregistered then world.mrs.filter (fun live => live.mr ≠ handle.mr)
        else world.mrs }
  else none

/-- Close a comm that has released its handles. -/
def destroy (world : World) (comm : Nat) : Option World :=
  if comm ∈ world.comms.map Prod.fst ∧ comm ∉ world.handles.map Handle.comm then
    let outcome := ncclIbDestroyBase world.dev true true
    some { world with
      dev := outcome.dev
      comms := world.comms.eraseP (fun entry => entry.1 = comm)
      pds := if outcome.deallocated then world.pds.filter (fun pd => some pd ≠ world.dev.pd)
        else world.pds }
  else none

def step (page : PageSize) (relaxed : Bool) (world : World) : Call → Option World
  | .initCommDevBase comm pd cq => world.init comm pd cq
  | .regMr comm data size offset fd mr =>
    world.register page relaxed comm data size offset fd mr
  | .deregMr handle => world.deregister handle
  | .destroyBase comm => world.destroy comm

/-- A device as `ncclIbInit` leaves it, with no comm on it. -/
def Fresh (world : World) : Prop :=
  world.dev.pdRefs = 0 ∧ world.dev.mrCache = .empty ∧ world.comms = [] ∧ world.handles = [] ∧
    world.pds = [] ∧ world.mrs = []

end World

/-- All runs of the calls on one device. -/
def sharing (page : PageSize) (relaxed : Bool) : System World Call where
  starts := World.Fresh
  step := World.step page relaxed

/-- The region spans the pages from the rounded address of the range on. -/
def VerbsMr.Spans (page : PageSize) (live : VerbsMr) (data size : Nat) : Prop :=
  live.addr ≤ page.floor data ∧
    page.floor data + page.count data size * page.bytes ≤ live.addr + live.length

/-- The region verbs hold for a cache slot. -/
def NcclIbMr.region (page : PageSize) (pd : Option Nat) (slot : NcclIbMr) : VerbsMr :=
  ⟨slot.mr, pd, slot.addr, slot.pages * page.bytes⟩

/-- The invariant of the runs. -/
structure Sound (page : PageSize) (world : World) : Prop where
  sized : world.dev.mrCache.Sized
  counted : Counted NcclIbMr.mr NcclIbMr.refs world.dev.mrCache.slots
    (world.handles.map Handle.mr)
  aligned : ∀ slot ∈ world.dev.mrCache.slots, page.bytes ∣ slot.addr
  live : ∀ slot ∈ world.dev.mrCache.slots, slot.region page world.dev.pd ∈ world.mrs
  spans : ∀ handle ∈ world.handles, ∃ live ∈ world.mrs,
    live.mr = handle.mr ∧ live.Spans page handle.data handle.size
  ranged : ∀ handle ∈ world.handles, RangeOk page handle.data handle.size
  owned : ∀ handle ∈ world.handles, handle.comm ∈ world.comms.map Prod.fst
  opened : world.dev.pdRefs = world.comms.length
  shared : ∀ entry ∈ world.comms, entry.2.pd = world.dev.pd
  held : world.comms ≠ [] → ∃ pd ∈ world.pds, world.dev.pd = some pd

theorem Sound.fresh {page : PageSize} {world : World} (fresh : world.Fresh) : Sound page world := by
  obtain ⟨noRefs, noSlots, noComms, noHandles, _, _⟩ := fresh
  refine ⟨?_, ?_, ?_, ?_, ?_, ?_, ?_, ?_, ?_, ?_⟩
  · rw [noSlots]
    exact NcclIbMrCache.empty_sized
  · rw [noSlots, noHandles]
    exact Counted.nil
  all_goals simp [noRefs, noSlots, noComms, noHandles, NcclIbMrCache.empty]

/-- Without open comms there are no handles and nothing is cached. -/
theorem Sound.idle {page : PageSize} {world : World} (sound : Sound page world)
    (closed : world.comms = []) : world.handles = [] ∧ world.dev.mrCache.slots = [] := by
  have noHandles : world.handles = [] := by
    apply List.eq_nil_iff_forall_not_mem.mpr
    intro handle member
    have inside := sound.owned handle member
    simp [closed] at inside
  refine ⟨noHandles, List.eq_nil_iff_forall_not_mem.mpr ?_⟩
  intro slot member
  have inside := sound.counted.used slot member
  simp [noHandles] at inside

/-- Opening a comm. A first comm finds nothing cached, so the new domain contradicts
no cached region; a later one takes the domain the others hold. -/
theorem Sound.init {page : PageSize} {world after : World} {comm pd cq : Nat}
    (sound : Sound page world) (stepped : world.init comm pd cq = some after) :
    Sound page after := by
  simp only [World.init] at stepped
  split at stepped
  · simp at stepped
  · have result := Option.some.inj stepped
    by_cases first : world.dev.pdRefs = 0
    · have closed : world.comms = [] := by
        have none := sound.opened
        rw [first] at none
        exact List.length_eq_zero_iff.mp (by omega)
      obtain ⟨noHandles, noSlots⟩ := sound.idle closed
      simp only [ncclIbInitCommDevBase, first, if_true, reduceCtorEq, and_false, if_false,
        decide_true] at result
      subst result
      refine ⟨sound.sized, sound.counted, sound.aligned, ?_, ?_, ?_, ?_, ?_, ?_, ?_⟩
      · simp [noSlots]
      · simp [noHandles]
      · simp [noHandles]
      · simp [noHandles]
      · simp [closed]
      · simp [closed]
      · exact fun _ => ⟨pd, List.mem_cons_self, rfl⟩
    · obtain ⟨pd', inside, same⟩ := sound.held (by
        intro closed
        have opened := sound.opened
        simp [closed] at opened
        exact first opened)
      simp only [ncclIbInitCommDevBase, first, if_false, reduceCtorEq, and_false,
        decide_false, Bool.false_eq_true] at result
      subst result
      refine ⟨sound.sized, sound.counted, sound.aligned, sound.live, sound.spans, sound.ranged,
        ?_, ?_, ?_, fun _ => ⟨pd', inside, same⟩⟩
      · intro handle member
        exact List.mem_cons_of_mem _ (sound.owned handle member)
      · simp [sound.opened]
      · intro entry member
        rcases List.mem_cons.mp member with rfl | member
        · rfl
        · exact sound.shared entry member

/-- Closing a comm. The last one finds nothing cached; an earlier one leaves the
domain to the others. -/
theorem Sound.destroy {page : PageSize} {world after : World} {comm : Nat}
    (sound : Sound page world) (stepped : world.destroy comm = some after) :
    Sound page after := by
  simp only [World.destroy] at stepped
  split at stepped
  · rename_i allowed
    obtain ⟨isOpen, released⟩ := allowed
    have result := Option.some.inj stepped
    obtain ⟨entry, member, named⟩ := List.mem_map.mp isOpen
    have fewer : (world.comms.eraseP (fun entry => entry.1 = comm)).length + 1 =
        world.comms.length := by
      have positive := List.length_pos_of_mem member
      have shorter := List.length_eraseP_of_mem member
        (p := fun entry : Nat × NcclIbNetCommDevBase => entry.1 = comm) (by simp [named])
      omega
    have opened := sound.opened
    have kept : ∀ other ∈ world.comms.eraseP (fun entry => entry.1 = comm),
        other ∈ world.comms := fun other inside => List.mem_of_mem_eraseP inside
    have owned : ∀ handle ∈ world.handles,
        handle.comm ∈ (world.comms.eraseP (fun entry => entry.1 = comm)).map Prod.fst := by
      intro handle inside
      obtain ⟨other, isOther, same⟩ := List.mem_map.mp (sound.owned handle inside)
      have different : ¬ other.1 = comm := by
        intro equal
        exact released (equal ▸ same ▸ List.mem_map_of_mem inside)
      have stays := (List.mem_eraseP_of_neg
        (p := fun entry : Nat × NcclIbNetCommDevBase => entry.1 = comm)
        (by simpa using different)).mpr isOther
      exact List.mem_map.mpr ⟨other, stays, same⟩
    by_cases last : world.dev.pdRefs - 1 = 0
    · have closed : world.comms.eraseP (fun entry => entry.1 = comm) = [] :=
        List.length_eq_zero_iff.mp (by omega)
      simp only [ncclIbDestroyBase, Bool.true_eq_false, if_false, last, if_true] at result
      subst result
      refine ⟨sound.sized, sound.counted, sound.aligned, sound.live, sound.spans, sound.ranged,
        owned, ?_, ?_, ?_⟩
      · simp [closed]
      · simp [closed]
      · simp [closed]
    · simp only [ncclIbDestroyBase, Bool.true_eq_false, if_false, last, Bool.false_eq_true]
        at result
      subst result
      refine ⟨sound.sized, sound.counted, sound.aligned, sound.live, sound.spans, sound.ranged,
        owned, ?_, ?_, ?_⟩
      · show world.dev.pdRefs - 1 =
          ((world.comms.eraseP (fun entry => entry.1 = comm)).length : Int)
        omega
      · exact fun other inside => sound.shared other (kept other inside)
      · intro _
        exact sound.held (List.ne_nil_of_mem member)
  · simp at stepped

/-- A slot after one write is an old one, up to its count. -/
theorem set_origin {slots : List NcclIbMr} {index : Nat} {found : NcclIbMr} (refs : Int)
    (placed : slots[index]? = some found) {slot : NcclIbMr}
    (member : slot ∈ slots.set index { found with refs := refs }) :
    ∃ old ∈ slots, old.mr = slot.mr ∧ old.addr = slot.addr ∧ old.pages = slot.pages := by
  rcases List.mem_or_eq_of_mem_set member with member | rfl
  · exact ⟨slot, member, rfl, rfl, rfl⟩
  · exact ⟨found, List.mem_of_getElem? placed, rfl, rfl, rfl⟩

/-- A count changed in place is a count changed in front of the other slots. -/
theorem set_counted {slots : List NcclIbMr} {index : Nat} {found : NcclIbMr} {refs : Int}
    {holders after : List Nat} (placed : slots[index]? = some found)
    (counted : Counted NcclIbMr.mr NcclIbMr.refs slots holders)
    (changed : Counted NcclIbMr.mr NcclIbMr.refs (found :: slots.eraseIdx index) holders →
      Counted NcclIbMr.mr NcclIbMr.refs ({ found with refs := refs } :: slots.eraseIdx index)
        after) :
    Counted NcclIbMr.mr NcclIbMr.refs (slots.set index { found with refs := refs }) after := by
  obtain ⟨inside, rfl⟩ := List.getElem?_eq_some_iff.mp placed
  have infront := counted.perm (getElem_perm inside) (List.Perm.refl _)
  exact (changed infront).perm (set_perm inside _).symm (List.Perm.refl _)

/-- A new handle of an open comm, over a cache that counts it and live regions among
which one spans its range. -/
theorem Sound.hold {page : PageSize} {world : World} {comm data size mr : Nat}
    {cache : NcclIbMrCache} {mrs : List VerbsMr} (sound : Sound page world)
    (ok : RangeOk page data size) (isOpen : comm ∈ world.comms.map Prod.fst)
    (sized : cache.Sized)
    (counted : Counted NcclIbMr.mr NcclIbMr.refs cache.slots
      (mr :: world.handles.map Handle.mr))
    (aligned : ∀ slot ∈ cache.slots, page.bytes ∣ slot.addr)
    (live : ∀ slot ∈ cache.slots, slot.region page world.dev.pd ∈ mrs)
    (grown : ∀ region ∈ world.mrs, region ∈ mrs)
    (spanning : ∃ region ∈ mrs, region.mr = mr ∧ region.Spans page data size) :
    Sound page { world with
      dev := { world.dev with mrCache := cache }
      handles := ⟨comm, data, size, mr⟩ :: world.handles
      mrs := mrs } := by
  refine ⟨sized, counted, aligned, live, ?_, ?_, ?_, sound.opened, sound.shared, sound.held⟩
  · intro handle member
    rcases List.mem_cons.mp member with rfl | member
    · exact spanning
    · obtain ⟨region, inside, facts⟩ := sound.spans handle member
      exact ⟨region, grown region inside, facts⟩
  · intro handle member
    rcases List.mem_cons.mp member with rfl | member
    · exact ok
    · exact sound.ranged handle member
  · intro handle member
    rcases List.mem_cons.mp member with rfl | member
    · exact isOpen
    · exact sound.owned handle member

/-- Registering. A hit adds a reference to a slot that covers the range; a miss adds
a slot for a region registered under the comm's domain, which is the device's. -/
theorem Sound.register {page : PageSize} {relaxed : Bool} {world after : World}
    {comm data size offset mr : Nat} {fd : Int} (sound : Sound page world)
    (stepped : world.register page relaxed comm data size offset fd mr = some after) :
    Sound page after := by
  simp only [World.register] at stepped
  split at stepped
  · rename_i allowed
    obtain ⟨ok, unused⟩ := allowed
    obtain ⟨base, looked, called⟩ := Option.bind_eq_some_iff.mp stepped
    have inComms : (comm, base) ∈ world.comms := by
      obtain ⟨front, rest, same, _⟩ := List.lookup_eq_some_iff.mp looked
      simp [same]
    have domain : base.pd = world.dev.pd := sound.shared _ inComms
    have isOpen : comm ∈ world.comms.map Prod.fst := List.mem_map_of_mem inComms
    cases scanned : scan page (page.floor data) (page.count data size)
        world.dev.mrCache.slots with
    | hit slot =>
      obtain ⟨entry, placed, covering⟩ := scan_hit scanned
      have isSlot := List.mem_of_getElem? placed
      rw [register_hit scanned placed] at called
      simp only [Option.bind_some, Option.map_some, Option.map_none, Option.toList_none,
        List.nil_append, Option.some.injEq] at called
      subst called
      refine sound.hold ok isOpen
        ⟨sound.sized.1, by simpa [NcclIbMrCache.population] using sound.sized.2⟩
        (set_counted placed sound.counted (fun infront => infront.take rfl rfl)) ?_ ?_
        (fun _ inside => inside)
        ⟨entry.region page world.dev.pd, sound.live entry isSlot, rfl,
          (NcclIbMr.covers_iff (sound.aligned entry isSlot) ok.word).mp covering⟩
      · intro slot' member
        obtain ⟨old, inside, _, sameAddr, _⟩ := set_origin _ placed member
        exact sameAddr ▸ sound.aligned old inside
      · intro slot' member
        obtain ⟨old, inside, sameMr, sameAddr, samePages⟩ := set_origin _ placed member
        have live := sound.live old inside
        simpa [NcclIbMr.region, sameMr, sameAddr, samePages] using live
    | miss slot =>
      obtain ⟨cache, call, outcome, sized, slots, callPd, callAddr, callLength⟩ :=
        register_miss relaxed base.pd offset mr fd sound.sized scanned
      rw [outcome] at called
      simp only [Option.bind_some, Option.map_some, Option.toList_some, List.cons_append,
        List.nil_append, Option.some.injEq] at called
      subst called
      have shifted : (⟨page.floor data, page.count data size, 1, mr⟩ ::
          world.dev.mrCache.slots).Perm cache.slots := by
        rw [slots]
        refine (List.perm_middle.trans (List.Perm.cons _ ?_)).symm
        rw [List.take_append_drop]
      have origin : ∀ entry ∈ cache.slots,
          entry = ⟨page.floor data, page.count data size, 1, mr⟩ ∨
            entry ∈ world.dev.mrCache.slots := by
        intro entry member
        exact List.mem_cons.mp (shifted.mem_iff.mpr member)
      have counted : Counted NcclIbMr.mr NcclIbMr.refs cache.slots
          (mr :: world.handles.map Handle.mr) := by
        refine Counted.perm (Counted.add sound.counted ?_ rfl) shifted (List.Perm.refl _)
        intro entry member same
        exact unused (List.mem_map.mpr ⟨_, sound.live entry member, same⟩)
      refine sound.hold ok isOpen sized counted ?_ ?_
        (fun _ inside => List.mem_cons_of_mem _ inside) ⟨_, List.mem_cons_self, rfl, ?_⟩
      · intro entry member
        rcases origin entry member with rfl | member
        · rw [page.floor_eq data ok.word]
          exact Nat.dvd_mul_left _ _
        · exact sound.aligned entry member
      · intro entry member
        rcases origin entry member with rfl | member
        · simp [NcclIbMr.region, callPd, callAddr, callLength, domain]
        · exact List.mem_cons_of_mem _ (sound.live entry member)
      · simp [VerbsMr.Spans, callAddr, callLength]
  · simp at stepped

/-! ## Releasing a handle -/

/-- The slot a held handle's deregistration works on, and what it does there. -/
theorem deregister_held {cache : NcclIbMrCache} {holders : List Nat} {mhandle : Nat}
    (counted : Counted NcclIbMr.mr NcclIbMr.refs cache.slots holders)
    (held : mhandle ∈ holders) (deregOk : Bool) :
    ∃ slot found, cache.slots[slot]? = some found ∧ found.mr = mhandle ∧
      found.refs = (holders.count mhandle : Int) ∧
      ncclIbDeregMrInternal cache mhandle deregOk =
        if found.refs - 1 = 0 then
          ⟨if deregOk then .ncclSuccess else .ncclSystemError, dropSlot cache slot, true⟩
        else
          ⟨.ncclSuccess,
            { cache with slots := cache.slots.set slot { found with refs := found.refs - 1 } },
            false⟩ := by
  obtain ⟨entry, inside, same⟩ := counted.present mhandle held
  cases located : cache.slots.findIdx? (fun slot => mhandle = slot.mr) with
  | none =>
    have missing := List.findIdx?_eq_none_iff.mp located entry inside
    simp [same] at missing
  | some slot =>
    obtain ⟨bound, named, _⟩ := List.findIdx?_eq_some_iff_getElem.mp located
    have named : mhandle = cache.slots[slot].mr := of_decide_eq_true named
    have placed := List.getElem?_eq_getElem bound
    refine ⟨slot, cache.slots[slot], placed, named.symm, ?_, ?_⟩
    · rw [counted.counts _ (List.getElem_mem bound), ← named]
    · simp only [ncclIbDeregMrInternal, located, placed]

/-- Releasing. The cache keeps counting the other handles; when the region is
deregistered no other handle names it. -/
theorem Sound.deregister {page : PageSize} {world after : World} {handle : Handle}
    (sound : Sound page world) (stepped : world.deregister handle = some after) :
    Sound page after := by
  simp only [World.deregister] at stepped
  split at stepped
  · rename_i member
    have held : handle.mr ∈ world.handles.map Handle.mr := List.mem_map_of_mem member
    have holders : (world.handles.erase handle).map Handle.mr |>.Perm
        ((world.handles.map Handle.mr).erase handle.mr) := by
      have whole := (List.perm_cons_erase member).map Handle.mr
      have other := List.perm_cons_erase held
      rw [List.map_cons] at whole
      exact (List.perm_cons _).mp (whole.symm.trans other)
    have remaining : ∀ other ∈ world.handles.erase handle, other ∈ world.handles :=
      fun other inside => List.mem_of_mem_erase inside
    obtain ⟨slot, found, placed, named, count, outcome⟩ :=
      deregister_held sound.counted held true
    obtain ⟨bound, isSlot⟩ := List.getElem?_eq_some_iff.mp placed
    rw [outcome] at stepped
    by_cases last : found.refs - 1 = 0
    · simp only [last, if_true, Option.some.injEq] at stepped
      subst stepped
      have split : world.dev.mrCache.slots.Perm
          (found :: swapRemove world.dev.mrCache.slots slot) :=
        isSlot ▸ swapRemove_perm world.dev.mrCache.slots slot bound
      have infront := sound.counted.perm split (List.Perm.refl _)
      have kept : ∀ entry ∈ swapRemove world.dev.mrCache.slots slot,
          entry ∈ world.dev.mrCache.slots ∧ entry.mr ≠ handle.mr := by
        intro entry inside
        refine ⟨split.mem_iff.mpr (List.mem_cons_of_mem _ inside), ?_⟩
        rw [← named]
        exact infront.head_absent entry inside
      have unnamed : ∀ other ∈ world.handles.erase handle, other.mr ≠ handle.mr := by
        intro other inside same
        obtain ⟨entry, isKept, entryNamed⟩ := (infront.drop last).present other.mr (by
          rw [named, ← holders.mem_iff]
          exact List.mem_map_of_mem inside)
        exact (kept entry isKept).2 (entryNamed.trans same)
      refine ⟨dropSlot_sized _ slot bound sound.sized, ?_, ?_, ?_, ?_, ?_, ?_, sound.opened,
        sound.shared, sound.held⟩
      · simp only [dropSlot_slots]
        exact (infront.drop last).perm (List.Perm.refl _) (named ▸ holders.symm)
      · intro entry inside
        rw [dropSlot_slots] at inside
        exact sound.aligned entry (kept entry inside).1
      · intro entry inside
        rw [dropSlot_slots] at inside
        obtain ⟨isOld, different⟩ := kept entry inside
        exact List.mem_filter.mpr ⟨sound.live entry isOld, decide_eq_true different⟩
      · intro other inside
        obtain ⟨region, isLive, sameMr, spanning⟩ := sound.spans other (remaining other inside)
        refine ⟨region, List.mem_filter.mpr ⟨isLive, ?_⟩, sameMr, spanning⟩
        simpa [sameMr] using unnamed other inside
      · exact fun other inside => sound.ranged other (remaining other inside)
      · exact fun other inside => sound.owned other (remaining other inside)
    · simp only [last, if_false, Bool.false_eq_true, Option.some.injEq] at stepped
      subst stepped
      refine ⟨⟨sound.sized.1, by simpa [NcclIbMrCache.population] using sound.sized.2⟩,
        ?_, ?_, ?_, ?_, ?_, ?_, sound.opened, sound.shared, sound.held⟩
      · refine set_counted placed sound.counted (fun infront => ?_)
        have released := infront.release { found with refs := found.refs - 1 } rfl rfl last
        exact released.perm (List.Perm.refl _) (named ▸ holders.symm)
      · intro entry inside
        obtain ⟨old, isOld, _, sameAddr, _⟩ := set_origin _ placed inside
        exact sameAddr ▸ sound.aligned old isOld
      · intro entry inside
        obtain ⟨old, isOld, sameMr, sameAddr, samePages⟩ := set_origin _ placed inside
        have live := sound.live old isOld
        simpa [NcclIbMr.region, sameMr, sameAddr, samePages] using live
      · exact fun other inside => sound.spans other (remaining other inside)
      · exact fun other inside => sound.ranged other (remaining other inside)
      · exact fun other inside => sound.owned other (remaining other inside)
  · simp at stepped

/-! ## Every run -/

variable {page : PageSize} {relaxed : Bool}

/-- One call keeps the invariant. -/
theorem Sound.step {world after : World} {call : Call} (sound : Sound page world)
    (stepped : (sharing page relaxed).step world call = some after) : Sound page after := by
  cases call with
  | initCommDevBase comm pd cq => exact sound.init stepped
  | regMr comm data size offset fd mr => exact sound.register stepped
  | deregMr handle => exact sound.deregister stepped
  | destroyBase comm => exact sound.destroy stepped

/-- Every run keeps the invariant. -/
theorem reachable_sound {world : World} (reached : (sharing page relaxed).Reachable world) :
    Sound page world :=
  reached.invariant (fun _ fresh => Sound.fresh fresh)
    (fun _ _ _ sound stepped => sound.step stepped)

/-- Number of handles that name a region. -/
def World.outstanding (world : World) (mr : Nat) : Nat :=
  world.handles.countP (fun handle => handle.mr = mr)

theorem World.outstanding_eq (world : World) (mr : Nat) :
    world.outstanding mr = (world.handles.map Handle.mr).count mr := by
  rw [List.count, List.countP_map]
  rfl

/-- An InfiniBand device before its first comm. -/
def NcclIbDev.fresh : NcclIbDev :=
  { portNum := 1
    portAttr := { lid := 7, activeMtu := 5, linkLayer := .infiniband, grhRequired := false,
                  gidTblLen := 1 }
    ar := 1
    pdRefs := 0
    pd := none
    mrCache := .empty }

/-- Two comms hold a region that the first registered and the second only uses. -/
def World.sharedRegion : World :=
  { dev := { NcclIbDev.fresh with
      pdRefs := 2
      pd := some 10
      mrCache := ⟨[⟨4096, 3, 2, 100⟩], 32, 32⟩ }
    comms := [(2, ⟨some 10, some 21⟩), (1, ⟨some 10, some 20⟩)]
    handles := [⟨2, 8200, 50, 100⟩, ⟨1, 4100, 9000, 100⟩]
    pds := [10]
    mrs := [⟨100, some 10, 4096, 12288⟩] }

theorem World.sharedRegion_reached :
    (sharing .small false).Reachable World.sharedRegion :=
  have start : (sharing .small false).Reachable ⟨.fresh, [], [], [], []⟩ :=
    .start (by simp [sharing, World.Fresh, NcclIbDev.fresh])
  start.replay
    [.initCommDevBase 1 10 20, .regMr 1 4100 9000 0 (-1) 100, .initCommDevBase 2 11 21,
      .regMr 2 8200 50 0 (-1) 101]
    (by decide)

end NcclExts.Unet
