import NcclExts.Unet.AttemptRules
import NcclExts.Unet.MrOrder
import NcclExts.Unet.ProcessCalls

/-!
# The gauges of a process

Every object that a process creates or destroys is counted in the ib stat, but only while
`ib_stat_` is set, and only listening sets it. From then on each call moves the counters
together with what it counts, so they differ from the live objects by what was live when
the stat was obtained. They are exact when that was nothing.
-/

namespace NcclExts.Unet

open NcclExts.Foundation NcclExts.Ucommd

/-- The counters of live objects. -/
inductive Gauge where
  | cq
  | qp
  | mr
deriving DecidableEq, Repr

/-- The name of a counter in the ib stat. -/
def Gauge.name : Gauge → String
  | .cq => "cq_count"
  | .qp => "qp_count"
  | .mr => "mr_count"

/-- The position of a counter in the ib stat. -/
def Gauge.counter : Gauge → UInt64
  | .cq => unetIbCqCount
  | .qp => unetIbQpCount
  | .mr => unetIbMrCount

/-- What a gauge counts: live completion queues, live queue pairs, cached regions. -/
def Process.live (process : Process) : Gauge → Nat
  | .cq => process.cqs.length
  | .qp => process.qps.length
  | .mr => ∑ ibDevN, (process.cache ibDevN).population

/-- The ib stat, when there is one, has its counters where their names say, and each gauge
is the number of live objects. -/
def Process.Exact (process : Process) : Prop :=
  ∀ stat ∈ process.ibStat, stat.counterList = ibCounterList ∧
    ∀ gauge : Gauge, stat.cells (Stat.offset gauge.counter) = UInt64.ofNat (process.live gauge)

theorem Gauge.offset_injective {gauge other : Gauge} (different : gauge ≠ other) :
    Stat.offset gauge.counter ≠ Stat.offset other.counter := by
  cases gauge <;> cases other <;> first | exact absurd rfl different | decide

/-- Where a gauge is found by name. -/
theorem Gauge.find (gauge : Gauge) {stat : Stat} (listed : stat.counterList = ibCounterList) :
    stat.find gauge.name = some (Stat.offset gauge.counter) := by
  cases gauge <;> simp [Stat.find, listed, ibCounterList, List.findIdx?_cons, Gauge.name,
    Gauge.counter, unetIbCqCount, unetIbQpCount, unetIbMrCount]

namespace Process

namespace Exact

variable {before after : Process}

/-- Without a change of the stat or of what is counted. -/
theorem same (exact : before.Exact) (stat : after.ibStat = before.ibStat)
    (live : ∀ gauge, after.live gauge = before.live gauge) : after.Exact := by
  intro now isStat
  rw [stat] at isStat
  obtain ⟨listed, counted⟩ := exact now isStat
  exact ⟨listed, fun gauge => by rw [counted, live]⟩

/-- One more of something that is counted. -/
theorem more (exact : before.Exact) (gauge : Gauge)
    (stat : after.ibStat = before.ibStat.map fun stat => stat.inc gauge.counter)
    (one : after.live gauge = before.live gauge + 1)
    (others : ∀ other, other ≠ gauge → after.live other = before.live other) : after.Exact := by
  intro now isStat
  rw [stat] at isStat
  obtain ⟨old, isOld, rfl⟩ := Option.map_eq_some_iff.mp isStat
  obtain ⟨listed, counted⟩ := exact old isOld
  refine ⟨listed, fun other => ?_⟩
  by_cases same : other = gauge
  · rw [same, Stat.inc, Stat.add_cell, counted, one, UInt64.ofNat_add]
    rfl
  · rw [Stat.inc, Stat.add_other _ _ _ (Gauge.offset_injective same), counted, others other same]

/-- One less of something that is counted. -/
theorem less (exact : before.Exact) (gauge : Gauge)
    (stat : after.ibStat = before.ibStat.map fun stat => stat.dec gauge.counter)
    (one : before.live gauge = after.live gauge + 1)
    (others : ∀ other, other ≠ gauge → after.live other = before.live other) : after.Exact := by
  intro now isStat
  rw [stat] at isStat
  obtain ⟨old, isOld, rfl⟩ := Option.map_eq_some_iff.mp isStat
  obtain ⟨listed, counted⟩ := exact old isOld
  refine ⟨listed, fun other => ?_⟩
  by_cases same : other = gauge
  · rw [same]
    simp only [Stat.dec, Stat.sub, Function.update_self]
    rw [counted, one, UInt64.ofNat_add]
    exact UInt64.add_sub_cancel _ _
  · simp only [Stat.dec, Stat.sub, Function.update_of_ne (Gauge.offset_injective same)]
    rw [counted, others other same]

end Exact

/-- Replacing a device exchanges the population of its cache. -/
theorem sum_population_update (ibDevs : Fin 32 → NcclIbDev) (ibDevN : Fin 32)
    (dev : NcclIbDev) :
    ∑ other, (Function.update ibDevs ibDevN dev other).mrCache.population +
        (ibDevs ibDevN).mrCache.population =
      ∑ other, (ibDevs other).mrCache.population + dev.mrCache.population := by
  have others : ∑ other ∈ Finset.univ.erase ibDevN,
      (Function.update ibDevs ibDevN dev other).mrCache.population =
      ∑ other ∈ Finset.univ.erase ibDevN, (ibDevs other).mrCache.population := by
    apply Finset.sum_congr rfl
    intro other member
    rw [Function.update_of_ne (Finset.ne_of_mem_erase member)]
  rw [← Finset.add_sum_erase _ _ (Finset.mem_univ ibDevN),
    ← Finset.add_sum_erase _ (fun other => (ibDevs other).mrCache.population)
      (Finset.mem_univ ibDevN), others, Function.update_self]
  omega

/-- A device that keeps its cache changes no gauge. -/
theorem Exact.setDev {process : Process} (exact : process.Exact) (ibDevN : Fin 32)
    (dev : NcclIbDev) (same : dev.mrCache = process.cache ibDevN) :
    { process with ibDevs := Function.update process.ibDevs ibDevN dev }.Exact := by
  apply exact.same
  · rfl
  intro gauge
  cases gauge with
  | cq => rfl
  | qp => rfl
  | mr =>
    have exchanged := sum_population_update process.ibDevs ibDevN dev
    rw [same, cache] at exchanged
    simp only [live, cache]
    exact Nat.add_right_cancel exchanged

theorem Exact.addCq {process : Process} (exact : process.Exact) (cq : VerbsObject) :
    (process.addCq cq).Exact := by
  apply exact.more .cq
  · rfl
  · rfl
  intro other different
  cases other with
  | cq => exact absurd rfl different
  | qp => rfl
  | mr => rfl

theorem Exact.addQp {process : Process} (exact : process.Exact) (qp : VerbsObject) :
    (process.addQp qp).Exact := by
  apply exact.more .qp
  · rfl
  · rfl
  intro other different
  cases other with
  | cq => rfl
  | qp => exact absurd rfl different
  | mr => rfl

/-- Destroying a live object leaves one less. -/
theorem length_eraseP_handle {objects : List VerbsObject} {handle : Nat}
    (live : handle ∈ objects.map VerbsObject.handle) :
    objects.length = (objects.eraseP fun object => object.handle = handle).length + 1 := by
  obtain ⟨object, member, named⟩ := List.mem_map.mp live
  have erased := List.length_eraseP_of_mem (p := fun object => decide (object.handle = handle))
    member (by simpa using named)
  have positive := List.length_pos_of_mem member
  omega

theorem Exact.dropCq {process : Process} (exact : process.Exact) {cq : Nat}
    (live : cq ∈ process.cqs.map VerbsObject.handle) : (process.dropCq cq).Exact := by
  apply exact.less .cq
  · rfl
  · exact length_eraseP_handle live
  intro other different
  cases other with
  | cq => exact absurd rfl different
  | qp => rfl
  | mr => rfl

theorem Exact.dropQp {process : Process} (exact : process.Exact) {qp : Nat}
    (live : qp ∈ process.qps.map VerbsObject.handle) : (process.dropQp qp).Exact := by
  apply exact.less .qp
  · rfl
  · exact length_eraseP_handle live
  intro other different
  cases other with
  | cq => rfl
  | qp => exact absurd rfl different
  | mr => rfl

end Process

/-! ## Connecting and accepting -/

open Process

/-- Acquiring counts what it creates. -/
theorem Process.Exact.acquired {before after : Process} {address : Nat} (exact : before.Exact)
    (acquired : before.Acquired address after) : after.Exact := by
  cases acquired with
  | refs ibDevN dev same => exact exact.setDev ibDevN dev same
  | cq handle => exact exact.addCq _
  | qp handle => exact exact.addQp _
  | mr handle => exact exact.same rfl fun _ => rfl

theorem exact_closed : Closed (fun attempt => attempt.process.Exact) (fun _ => True) where
  stage := fun exact _ => exact
  comm := fun exact _ _ _ => exact
  process := fun exact acquired => exact.acquired acquired
  again := True.intro
  waiting := fun _ => True.intro
  failed := fun _ _ _ => True.intro
  bailed := fun _ => True.intro

theorem exact_connecting :
    Connecting (fun attempt => attempt.process.Exact) (fun _ => True) where
  toSteady := exact_closed.toSteady
  sock := fun exact _ _ => exact

/-- A program that leaves the gauges exact, however it goes out. -/
abbrev KeepsExact (program : Setup α) : Prop :=
  Keeps (fun attempt => attempt.process.Exact) (fun _ => True) program

namespace Setup

theorem exact_socketTryAccept (answer : AcceptAnswer) :
    KeepsExact (socketTryAccept answer) := by
  cases answer with
  | accepted fd =>
    apply Keeps.bind
    · exact Keeps.modify fun _ exact => exact
    · intro _
      exact Keeps.modify fun _ exact => exact
  | again => exact Keeps.modify fun _ exact => exact
  | failed =>
    apply Keeps.bind
    · exact Keeps.modify fun _ exact => exact
    · exact fun _ => Keeps.throw True.intro

theorem exact_socketFinalizeAccept (answers : SocketAnswers) :
    KeepsExact (socketFinalizeAccept answers) := by
  have steady := exact_closed.toSteady
  unfold socketFinalizeAccept
  apply Keeps.bind
  · exact Keeps.leaveIf fun _ => True.intro
  intro _
  apply Keeps.bind
  · exact steady.recvSome _ _ rfl
  intro first
  apply Keeps.doIf
  intro _
  apply Keeps.bind
  · exact steady.recvAll _ _ rfl
  intro rest
  apply Keeps.read
  intro _ _
  apply Keeps.ite
  · intro _
    apply Keeps.bind
    · exact Keeps.modify fun _ exact => exact
    · exact fun _ => Keeps.modify fun _ exact => exact
  · intro _
    apply Keeps.bind
    · exact steady.recvAll _ _ rfl
    intro type
    apply Keeps.read
    intro _ _
    apply Keeps.ite
    · intro _
      apply Keeps.bind
      · exact Keeps.modify fun _ exact => exact
      intro _
      apply Keeps.bind
      · exact Keeps.modify fun _ exact => exact
      · exact fun _ => Keeps.throw True.intro
    · intro _
      exact Keeps.modify fun _ exact => exact

theorem exact_progress (answers : SocketAnswers) :
    KeepsExact (socketProgressState answers) :=
  socketProgressState_keeps (whenState_keeps (exact_socketTryAccept _))
    (whenState_keeps (exact_socketFinalizeAccept answers)) exact_connecting

theorem exact_mallocComm (answers : Answers) : KeepsExact (mallocComm answers) := by
  unfold mallocComm
  split
  · exact Keeps.throw True.intro
  · apply Keeps.bind
    · exact Keeps.modify fun _ exact => exact
    · exact fun _ => Keeps.pure _

/-- Initializing a socket changes the descriptors and the socket only. -/
theorem ncclSocketInit_keeps {holds : Attempt → Prop}
    (kept : ∀ attempt fds sock, holds attempt →
      holds { attempt with process.fds := fds, comm.sock := sock })
    (answers : Answers) (addr : Option SockFamily) (magic type : Nat) :
    Keeps holds (fun _ => True) (ncclSocketInit answers addr magic type) := by
  have opens : Keeps holds (fun _ => True) (openSocket answers) := by
    unfold openSocket demand
    apply Keeps.bind
    · split
      · exact Keeps.pure _
      · exact Keeps.throw True.intro
    intro fd
    apply Keeps.bind
    · exact Keeps.modify fun attempt held => kept attempt _ _ held
    intro _
    apply Keeps.ite
    · intro _
      apply Keeps.bind
      · exact Keeps.modify fun attempt held => kept attempt _ _ held
      · exact fun _ => Keeps.throw True.intro
    · exact fun _ => Keeps.pure _
  unfold ncclSocketInit
  apply Keeps.bind
  · exact Keeps.modify fun attempt held => kept attempt attempt.process.fds _ held
  intro _
  split
  · exact Keeps.pure _
  · exact Keeps.throw True.intro
  · exact opens
  · exact opens

theorem exact_ncclSocketInit (answers : Answers) (addr : Option SockFamily) (magic type : Nat) :
    KeepsExact (ncclSocketInit answers addr magic type) :=
  ncclSocketInit_keeps (fun _ _ _ exact => exact) answers addr magic type

theorem exact_connectFrom (config : Config) (addr : ConnectAddr) (answers : Answers)
    (state : NcclIbCommState) : KeepsExact (connectFrom config addr answers state) := by
  have checks := exact_closed.ibConnectCheck config answers (exact_progress _)
  cases state with
  | connect => exact checks
  | send => exact exact_closed.ibSend config answers
  | connecting => exact exact_closed.ibConnect config answers
  | connected => exact exact_closed.ibSendReady answers
  | accept => exact Keeps.throw True.intro
  | recv => exact Keeps.throw True.intro
  | pendingReady => exact Keeps.throw True.intro
  | start =>
    apply Keeps.bind
    · exact Keeps.modify fun _ exact => exact
    intro _
    apply Keeps.bind
    · exact exact_mallocComm answers
    intro address
    apply Keeps.bind
    · exact exact_ncclSocketInit answers _ _ _
    intro _
    apply Keeps.bind
    · exact Keeps.modify fun _ exact => exact
    intro _
    apply Keeps.bind
    · exact ncclSocketConnect_keeps exact_connecting (exact_progress _)
    intro _
    exact checks

theorem exact_ibAcceptCheck (config : Config) (answers : Answers) :
    KeepsExact (ibAcceptCheck config answers) := by
  unfold ibAcceptCheck
  apply Keeps.bind
  · exact ncclSocketReady_keeps exact_closed.toSteady (exact_progress _)
  intro ready
  apply Keeps.bind
  · exact Keeps.leaveIf fun _ => True.intro
  intro _
  apply Keeps.bind
  · exact Keeps.modify fun _ exact => exact
  intro _
  apply Keeps.bind
  · exact exact_closed.demand answers _ rfl
  intro _
  apply Keeps.bind
  · exact Keeps.modify fun _ exact => exact
  intro _
  exact exact_closed.ibRecv config answers

theorem exact_acceptFrom (config : Config) (listenSock : NcclSocket) (answers : Answers)
    (state : NcclIbCommState) : KeepsExact (acceptFrom config listenSock answers state) := by
  cases state with
  | accept => exact exact_ibAcceptCheck config answers
  | recv => exact exact_closed.ibRecv config answers
  | send => exact exact_closed.ibReply answers
  | pendingReady => exact exact_closed.ibRecvReady answers
  | connect => exact Keeps.throw True.intro
  | connecting => exact Keeps.throw True.intro
  | connected => exact Keeps.throw True.intro
  | start =>
    apply Keeps.bind
    · exact exact_mallocComm answers
    intro address
    apply Keeps.bind
    · exact Keeps.modify fun _ exact => exact
    intro _
    apply Keeps.bind
    · exact exact_ncclSocketInit answers _ _ _
    intro _
    apply Keeps.bind
    · unfold ncclSocketAccept
      apply Keeps.bind
      · exact Keeps.leaveIf fun _ => True.intro
      intro _
      apply Keeps.bind
      · exact Keeps.modify fun _ exact => exact
      intro _
      apply Keeps.bind
      · exact exact_progress _
      intro _
      exact checkState_keeps _ exact_closed.toSteady
    intro _
    exact exact_ibAcceptCheck config answers

end Setup

/-- Whatever a call returns, the gauges are exact where they were. -/
theorem Attempt.finish_exact {exit : Attempt → Attempt} {program : Setup PUnit}
    {attempt : Attempt} (leaves : ∀ attempt, (exit attempt).process = attempt.process)
    (keeps : KeepsExact program) (exact : attempt.process.Exact) :
    (Attempt.finish exit (program attempt)).2.process.Exact := by
  have met := keeps attempt exact
  revert met
  cases program attempt with
  | ok value after =>
    intro met
    simpa only [finish, leaves] using met
  | error left after =>
    intro met
    cases left with
    | again => exact met.1
    | failed point result =>
      simp only [finish, leaves]
      exact met.1
    | bailed point result => exact met.1
    | waiting point => exact met.1

/-! ## Registering memory -/

/-- A registration adds a region exactly when verbs made it. -/
theorem register_population {page : PageSize} {relaxed mallocOk : Bool} {cache : NcclIbMrCache}
    {pd registered : Option Nat} {data size offset : Nat} {fd : Int} {outcome : RegOutcome}
    (called : ncclIbRegMrDmaBufInternal page relaxed cache pd data size offset fd mallocOk
      registered = some outcome) :
    outcome.cache.population = cache.population +
      if outcome.result = .ncclSuccess ∧ outcome.call ≠ none then 1 else 0 := by
  cases scanned : scan page (page.floor data) (page.count data size) cache.slots with
  | hit slot =>
    obtain ⟨entry, placed, _⟩ := scan_hit scanned
    rw [register_hit scanned placed] at called
    rw [← Option.some.inj called]
    simp [NcclIbMrCache.population]
  | miss slot =>
    have slots := grow_slots cache mallocOk
    obtain ⟨inside, _, _⟩ := scan_miss scanned
    simp only [ncclIbRegMrDmaBufInternal, scanned, registerMiss] at called
    split at called
    next failed =>
      rw [← Option.some.inj called]
      simp [NcclIbMrCache.population, slots]
    next =>
      cases registered with
      | none =>
        rw [← Option.some.inj called]
        simp [NcclIbMrCache.population, slots]
      | some mr =>
        simp only [insertSlot, Option.map_eq_some_iff] at called
        obtain ⟨inserted, isInserted, rfl⟩ := called
        split at isInserted
        · rw [← Option.some.inj isInserted]
          simp only [NcclIbMrCache.population, slots, List.length_append, List.length_take,
            List.length_cons, List.length_drop]
          simp only [ne_eq, reduceCtorEq, not_false_eq_true, and_self, if_true]
          omega
        · simp at isInserted

/-- A deregistration that verbs does not fail removes a region exactly when verbs made it. -/
theorem deregister_population (cache : NcclIbMrCache) (mhandle : Nat) :
    cache.population = (ncclIbDeregMrInternal cache mhandle true).cache.population +
      if (ncclIbDeregMrInternal cache mhandle true).result = .ncclSuccess ∧
        (ncclIbDeregMrInternal cache mhandle true).deregistered then 1 else 0 := by
  cases located : cache.slots.findIdx? (fun slot => mhandle = slot.mr) with
  | none => simp [ncclIbDeregMrInternal, located]
  | some slot =>
    obtain ⟨bound, _, _⟩ := List.findIdx?_eq_some_iff_getElem.mp located
    have placed := List.getElem?_eq_getElem bound
    simp only [ncclIbDeregMrInternal, located, placed]
    split
    · have fewer := (swapRemove_perm cache.slots slot bound).length_eq
      simp only [List.length_cons] at fewer
      simp [NcclIbMrCache.population, dropSlot_slots, fewer]
    · simp [NcclIbMrCache.population]

namespace Process

/-- Exchanging a cache exchanges what it holds. -/
theorem live_setCache (process : Process) (ibDevN : Fin 32) (cache : NcclIbMrCache) :
    (process.setCache ibDevN cache).live .mr + (process.cache ibDevN).population =
      process.live .mr + cache.population := by
  have exchanged := sum_population_update process.ibDevs ibDevN
    { process.ibDevs ibDevN with mrCache := cache }
  simp only [live, Process.cache, setCache]
  exact exchanged

theorem Exact.registered {process : Process} (exact : process.Exact) (ibDevN : Fin 32)
    {outcome : RegOutcome}
    (population : outcome.cache.population = (process.cache ibDevN).population +
      if outcome.result = .ncclSuccess ∧ outcome.call ≠ none then 1 else 0) :
    (process.registered ibDevN outcome).Exact := by
  have exchanged := process.live_setCache ibDevN outcome.cache
  unfold Process.registered
  split
  next made =>
    rw [if_pos made] at population
    apply exact.more .mr
    · rfl
    · change (process.setCache ibDevN outcome.cache).live .mr = process.live .mr + 1
      omega
    · intro other different
      cases other with
      | cq => rfl
      | qp => rfl
      | mr => exact absurd rfl different
  next unmade =>
    rw [if_neg unmade] at population
    apply exact.same
    · rfl
    · intro gauge
      cases gauge with
      | cq => rfl
      | qp => rfl
      | mr => omega

theorem Exact.deregistered {process : Process} (exact : process.Exact) (ibDevN : Fin 32)
    {outcome : DeregOutcome}
    (population : (process.cache ibDevN).population = outcome.cache.population +
      if outcome.result = .ncclSuccess ∧ outcome.deregistered then 1 else 0) :
    (process.deregistered ibDevN outcome).Exact := by
  have exchanged := process.live_setCache ibDevN outcome.cache
  unfold Process.deregistered
  split
  next made =>
    rw [if_pos made] at population
    apply exact.less .mr
    · rfl
    · change process.live .mr = (process.setCache ibDevN outcome.cache).live .mr + 1
      omega
    · intro other different
      cases other with
      | cq => rfl
      | qp => rfl
      | mr => exact absurd rfl different
  next unmade =>
    rw [if_neg unmade] at population
    apply exact.same
    · rfl
    · intro gauge
      cases gauge with
      | cq => rfl
      | qp => rfl
      | mr => omega

end Process

namespace ProcessCall

theorem regMrInternal_keeps (request : RegRequest) (dev : SetupDev) (i : Nat) :
    Keeps Process.Exact (fun _ => True) (regMrInternal request dev i) := by
  unfold regMrInternal
  apply Meets.get_bind
  intro process exact
  split
  · exact Meets.throw fun _ same => ⟨same ▸ exact, True.intro⟩
  next outcome called =>
    apply Meets.bind fun _ => Process.Exact
    · exact Meets.set fun _ _ => exact.registered dev.ibDevN (register_population called)
    intro _
    apply Keeps.bind
    · exact Keeps.leaveIf fun _ => True.intro
    · exact fun _ => Keeps.pure _

theorem ncclIbRegMrDmaBuf_keeps (comm : SetupComm) (request : RegRequest) :
    Keeps Process.Exact (fun _ => True) (ncclIbRegMrDmaBuf comm request) :=
  Keeps.mapM fun i _ => regMrInternal_keeps request (comm.devs i) i

theorem ncclIbDeregMr_keeps (comm : SetupComm) (mhandles : Nat → Nat) {deregOk : Nat → Bool}
    (succeeds : ∀ i, deregOk i = true) :
    Keeps Process.Exact (fun _ => True) (ncclIbDeregMr comm mhandles deregOk) := by
  apply Keeps.forM
  intro i _
  unfold deregMrInternal
  apply Keeps.update
  intro process exact
  rw [succeeds i]
  refine ⟨exact.deregistered _ (deregister_population _ _), ?_⟩
  exact Keeps.leaveIf fun _ => True.intro

/-! ## Closing -/

theorem destroyQp_keeps (comm : SetupComm) (answers : CloseAnswers) (slot : QpSlot) :
    Keeps Process.Exact (fun _ => True) (destroyQp comm answers slot) := by
  unfold destroyQp
  split
  · exact Keeps.pure _
  next qp _ =>
    apply Meets.get_bind
    intro process exact
    apply Meets.bind fun _ now => now = process ∧ qp.qp ∈ process.qps.map VerbsObject.handle
    · apply Meets.ite
      · intro _
        exact Meets.throw fun _ same => ⟨same ▸ exact, True.intro⟩
      · intro able
        exact Meets.pure fun _ same => ⟨same, not_not.mp fun gone => able (Or.inr gone)⟩
    · intro _
      exact Meets.set fun _ live => exact.dropQp live.2

theorem deregMr_keeps (comm : SetupComm) (answers : CloseAnswers) (slot : MrSlot) :
    Keeps Process.Exact (fun _ => True) (deregMr comm answers slot) := by
  unfold deregMr
  split
  · exact Keeps.pure _
  · apply Keeps.bind
    · exact Keeps.leaveIf fun _ => True.intro
    · intro _
      exact Keeps.modify fun _ exact => exact

theorem ncclIbDestroyBase_keeps (comm : SetupComm) (answers : CloseAnswers) (i : Nat) :
    Keeps Process.Exact (fun _ => True) (ncclIbDestroyBase comm answers i) := by
  unfold ncclIbDestroyBase
  apply Keeps.update
  intro process exact
  refine ⟨?_, Keeps.leaveIf fun _ => True.intro⟩
  set cqOk := decide (answers.destroyCq i ∧
    ∃ cq ∈ (comm.devs i).base.cq, cq ∈ process.cqs.map VerbsObject.handle) with isOk
  set outcome := Unet.ncclIbDestroyBase (process.ibDevs (comm.devs i).ibDevN) cqOk
    (answers.deallocPd i) with outcomeIs
  have cache : outcome.dev.mrCache = process.cache (comm.devs i).ibDevN := by
    simp only [outcomeIs, Unet.ncclIbDestroyBase]
    split_ifs <;> rfl
  have moved := exact.setDev (comm.devs i).ibDevN outcome.dev cache
  unfold destroyed
  split
  next cq isCq =>
    split
    next ok =>
      rw [isOk, isCq] at ok
      obtain ⟨_, live, same, isLive⟩ := of_decide_eq_true ok
      rw [← Option.some.inj same] at isLive
      exact moved.dropCq isLive
    next => exact moved
  next => exact moved

theorem closeSock_keeps (comm : SetupComm) :
    Keeps Process.Exact (fun _ => True)
      (modify fun process => process.closeSock comm : ProcessCall PUnit) :=
  Keeps.modify fun _ exact => exact

theorem ncclIbCloseSend_keeps (comm : SetupComm) (answers : CloseAnswers) :
    Keeps Process.Exact (fun _ => True) (ncclIbCloseSend comm answers) := by
  unfold ncclIbCloseSend
  apply Keeps.bind
  · exact closeSock_keeps comm
  intro _
  apply Keeps.bind
  · exact Keeps.forM fun q _ => destroyQp_keeps comm answers (.data q)
  intro _
  apply Keeps.bind
  · apply Keeps.forM
    intro i _
    apply Keeps.bind
    · exact deregMr_keeps comm answers (.fifo i)
    intro _
    apply Keeps.bind
    · exact deregMr_keeps comm answers (.sizes i)
    · exact fun _ => ncclIbDestroyBase_keeps comm answers i
  · exact fun _ => Keeps.modify fun _ exact => exact

theorem ncclIbCloseRecv_keeps (comm : SetupComm) (answers : CloseAnswers) :
    Keeps Process.Exact (fun _ => True) (ncclIbCloseRecv comm answers) := by
  unfold ncclIbCloseRecv
  apply Keeps.bind
  · exact closeSock_keeps comm
  intro _
  apply Keeps.bind
  · exact Keeps.forM fun q _ => destroyQp_keeps comm answers (.data q)
  intro _
  apply Keeps.bind
  · apply Keeps.forM
    intro i _
    apply Keeps.bind
    · apply Keeps.doIf
      intro _
      apply Keeps.bind
      · exact destroyQp_keeps comm answers (.flush i)
      · exact fun _ => deregMr_keeps comm answers (.flush i)
    intro _
    apply Keeps.bind
    · exact deregMr_keeps comm answers (.fifo i)
    intro _
    apply Keeps.bind
    · exact deregMr_keeps comm answers (.sizes i)
    · exact fun _ => ncclIbDestroyBase_keeps comm answers i
  · exact fun _ => Keeps.modify fun _ exact => exact

end ProcessCall

/-! ## Listening -/

/-- The inputs on which a call to listen gets as far as its stats. -/
structure ListenAnswers.Listens (answers : ListenAnswers) (family : SockFamily) : Prop where
  mallocOk : answers.mallocOk = true
  family : ∀ other, family ≠ .other other
  socket : answers.init.outcome .socket ≠ none
  fcntl : answers.init.outcome .fcntl ≠ none
  listenOk : answers.listenOk = true

/-- Nothing is live that a gauge counts. -/
def Process.Idle (process : Process) : Prop := ∀ gauge, process.live gauge = 0

/-- A stat just set up counts nothing. -/
theorem initStats_gauges {env : RankEnv} {pid : Int32}
    {ibMemory bwMemory : Option (UInt64 → UInt64)} {ib : Stat} {bw : Option Stat}
    (created : initStats env pid ibMemory bwMemory = some (ib, bw)) :
    ib.counterList = ibCounterList ∧
      ∀ gauge : Gauge, ib.cells (Stat.offset gauge.counter) = 0 := by
  have ibIs : ∃ memory, ib = ((allocStat ibCounterList memory).setAt unetPid (toSizeT pid)).setAt
      unetRank (toSizeT env.rank) := by
    simp only [initStats, Option.bind_eq_bind, Option.bind_eq_some_iff] at created
    obtain ⟨memory, _, rest⟩ := created
    refine ⟨memory, ?_⟩
    split at rest
    · simp only [Option.bind_eq_some_iff] at rest
      obtain ⟨_, _, _, _, same⟩ := rest
      exact (Prod.mk.inj (Option.some.inj same)).1.symm
    · exact (Prod.mk.inj (Option.some.inj rest)).1.symm
  obtain ⟨memory, rfl⟩ := ibIs
  refine ⟨rfl, fun gauge => ?_⟩
  cases gauge <;> simp [Stat.setAt, allocStat, Stat.clear, Gauge.counter, Stat.offset,
    unetIbCqCount, unetIbQpCount, unetIbMrCount, unetPid, unetRank, ibCounterList,
    Function.update]

/-- Obtaining the stat while nothing is live makes the gauges exact. -/
theorem PerfProcess.obtainIbStat_exact {perf : PerfProcess} (answers : ListenAnswers)
    (exact : perf.process.Exact)
    (idle : perf.process.ibStat = none → perf.perfFailed = false →
      initStats answers.env answers.pid answers.ibMemory answers.bwMemory ≠ none →
      perf.process.Idle) :
    (perf.obtainIbStat answers).process.Exact := by
  unfold obtainIbStat
  split
  next first =>
    split
    next stats created =>
      intro stat isStat
      obtain ⟨listed, zero⟩ := initStats_gauges created
      rw [← Option.some.inj isStat]
      refine ⟨listed, fun gauge => ?_⟩
      have nothing : perf.process.live gauge = 0 :=
        idle first.1 first.2 (by simp [created]) gauge
      change _ = UInt64.ofNat (perf.process.live gauge)
      rw [zero, nothing]
      rfl
    next => exact exact
  next => exact exact

end NcclExts.Unet
