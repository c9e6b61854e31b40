import NcclExts.Unet.ConnectAccept

/-!
# What a phase of connecting makes

Between its transfers a side runs the phases of its setup. A phase makes objects and moves
queue pairs, and leaves the conversation on the socket alone: the bytes that were sent and
received, the stage, and what was copied out of its buffer. How many objects a phase makes
is known beforehand, so counting them tells how often it ran.
-/

namespace NcclExts.Unet

open NcclExts.Foundation

/-- How many comms, completion queues, queue pairs and memory regions there are. -/
structure Objects where
  comms : Nat
  cqs : Nat
  qps : Nat
  mrs : Nat
deriving DecidableEq, Repr

/-- A process has so many objects more than it had before. -/
structure Process.Grown (before : Process) (made : Objects) (after : Process) : Prop where
  comms : after.comms.length = before.comms.length + made.comms
  cqs : after.cqs.length = before.cqs.length + made.cqs
  qps : after.qps.length = before.qps.length + made.qps
  mrs : after.mrs.length = before.mrs.length + made.mrs

theorem Process.Grown.refl (process : Process) : process.Grown ⟨0, 0, 0, 0⟩ process :=
  ⟨rfl, rfl, rfl, rfl⟩

/-- Two phases make what each of them makes. -/
theorem Process.Grown.trans {before middle after : Process} {first second : Objects}
    (one : before.Grown first middle) (two : middle.Grown second after) :
    before.Grown ⟨first.comms + second.comms, first.cqs + second.cqs, first.qps + second.qps,
      first.mrs + second.mrs⟩ after :=
  ⟨by rw [two.comms, one.comms, Nat.add_assoc], by rw [two.cqs, one.cqs, Nat.add_assoc],
    by rw [two.qps, one.qps, Nat.add_assoc], by rw [two.mrs, one.mrs, Nat.add_assoc]⟩

/-- Whether something that was called fails at the point. Otherwise it is the metadata that
cannot be used. -/
def Point.called : Point → Bool
  | .linkLayer => false
  | _ => true

/-- The exits of calls that are not made again: something failed that was called, or is waited
for. -/
def Exit.Breaks : Exit → Prop
  | .again => False
  | .failed point _ | .bailed point _ => point.called = true
  | .waiting _ => True

/-- The states of the queue pairs of a comm, where there are any. -/
def SetupComm.states (comm : SetupComm) (slot : QpSlot) : Option IbvQpState :=
  (comm.qps slot).map SetupQp.state

/-- What is known of the states of queue pairs. -/
abbrev QpStates := (QpSlot → Option IbvQpState) → Prop

/-- An attempt within a phase that began at `start`: it made objects, and moved queue
pairs. -/
structure Doing (start : Attempt) (made : Objects) (moved : QpStates) (now : Attempt) :
    Prop where
  stage : now.stage = start.stage
  sock : now.comm.sock = start.comm.sock
  ready : now.comm.ready = start.comm.ready
  remMeta : now.comm.remMeta = start.comm.remMeta
  address : now.comm.address = start.comm.address
  grown : start.process.Grown made now.process
  moved : moved now.comm.states

/-- A phase begins where it has made nothing. -/
theorem Doing.start {start : Attempt} {moved : QpStates} (already : moved start.comm.states) :
    Doing start ⟨0, 0, 0, 0⟩ moved start :=
  ⟨rfl, rfl, rfl, rfl, rfl, .refl _, already⟩

theorem Doing.weaken {start now : Attempt} {made : Objects} {moved moved' : QpStates}
    (doing : Doing start made moved now) (implied : ∀ states, moved states → moved' states) :
    Doing start made moved' now :=
  ⟨doing.stage, doing.sock, doing.ready, doing.remMeta, doing.address, doing.grown,
    implied _ doing.moved⟩

/-- So many queue pairs of the connection are in a state. -/
def DataIn (count : Nat) (state : IbvQpState) : QpStates :=
  fun states => ∀ q < count, states (.data q) = some state

/-- Another queue pair changes. -/
theorem DataIn.other {count : Nat} {state : IbvQpState} {states : QpSlot → Option IbvQpState}
    (before : DataIn count state states) {slot : QpSlot} (apart : ∀ q < count, .data q ≠ slot)
    (change : Option IbvQpState) : DataIn count state (Function.update states slot change) := by
  intro q inside
  rw [Function.update_of_ne (apart q inside)]
  exact before q inside

/-- One more queue pair gets there. -/
theorem DataIn.next {count : Nat} {state : IbvQpState} {states : QpSlot → Option IbvQpState}
    (before : DataIn count state states) :
    DataIn (count + 1) state (Function.update states (.data count) (some state)) := by
  have others : DataIn count state (Function.update states (.data count) (some state)) :=
    before.other (fun q inside => by simpa using Nat.ne_of_lt inside) _
  intro q inside
  rcases Nat.lt_succ_iff_lt_or_eq.mp inside with earlier | rfl
  · exact others q earlier
  · exact Function.update_self ..

/-- A base that was initialized has a completion queue. -/
theorem ncclIbInitCommDevBase_cq (ibDev : NcclIbDev) (allocPd createCq : Option Nat)
    (success : (ncclIbInitCommDevBase ibDev allocPd createCq).result = .ncclSuccess) :
    ∃ cq, (ncclIbInitCommDevBase ibDev allocPd createCq).base.cq = some cq := by
  cases createCq with
  | none =>
    simp only [ncclIbInitCommDevBase, if_true] at success
    split at success <;> cases success
  | some cq =>
    refine ⟨cq, ?_⟩
    simp only [ncclIbInitCommDevBase, reduceCtorEq, if_false] at success ⊢
    split at success
    next failed => cases success
    next fine => rw [if_neg fine]

namespace Setup

variable {start : Attempt} {made made' : Objects} {moved moved' : QpStates}

/-- A program that goes from one point of a phase to a later one, unless it breaks. -/
def Does (start : Attempt) (made : Objects) (moved : QpStates) (part : Setup α)
    (made' : Objects) (moved' : QpStates) : Prop :=
  Meets (Doing start made moved) part (fun _ => Doing start made' moved')
    (fun exit _ => exit.Breaks)

theorem Does.bind {part : Setup α} {next : α → Setup β} (made₁ : Objects) (moved₁ : QpStates)
    (first : Does start made moved part made₁ moved₁)
    (rest : ∀ value, Does start made₁ moved₁ (next value) made' moved') :
    Does start made moved (part >>= next) made' moved' :=
  Meets.bind _ first rest

/-- The first part of a phase. -/
theorem Does.first {part : Setup α} (does : Does start ⟨0, 0, 0, 0⟩ moved part made' moved')
    (already : moved start.comm.states) :
    Meets (fun now => now = start) part (fun _ => Doing start made' moved')
      (fun exit _ => exit.Breaks) :=
  Meets.weaken does (fun now same => by subst same; exact .start already) (fun _ _ => id)
    (fun _ _ => id)

/-- A loop, each round of which does the next piece of the phase. -/
theorem Does.rounds {count : Nat} {made : Nat → Objects} {moved : Nat → QpStates}
    {body : Nat → Setup PUnit}
    (round : ∀ i < count, Does start (made i) (moved i) (body i) (made (i + 1)) (moved (i + 1))) :
    Does start (made 0) (moved 0) ((List.range count).forM body) (made count) (moved count) :=
  Meets.rounds round

theorem Does.weaken {part : Setup α} {before after : QpStates}
    (does : Does start made before part made' after)
    (starts : ∀ states, moved states → before states)
    (ends : ∀ states, after states → moved' states) : Does start made moved part made' moved' :=
  Meets.weaken does (fun _ doing => doing.weaken starts) (fun _ _ doing => doing.weaken ends)
    (fun _ _ => id)

/-- A part that runs under a condition and makes nothing. -/
theorem Does.doIf {condition : Prop} [Decidable condition] {part : Setup PUnit}
    (does : Does start made moved part made moved) :
    Does start made moved (Foundation.doIf condition part) made moved :=
  Meets.ite (fun _ => does) fun _ => Meets.pure fun _ => id

theorem demand_breaks {holds : Attempt → Prop} (answers : Answers) {point : Point}
    (result : NcclResult) (called : point.called = true) :
    Meets holds (demand answers point result) (fun _ => holds) (fun exit _ => exit.Breaks) := by
  unfold demand
  split
  · exact Meets.pure fun _ => id
  · exact Meets.throw fun _ _ => called

theorem does_demand (answers : Answers) {point : Point} (result : NcclResult)
    (called : point.called = true) :
    Does start made moved (demand answers point result) made moved :=
  demand_breaks answers result called

/-- A call that can only fail, in front of a program. -/
theorem does_check {answers : Answers} {point : Point} {result : NcclResult} {rest : Setup α}
    (called : point.called = true) (does : Does start made moved rest made' moved') :
    Does start made moved (do let _ ← demand answers point result; rest) made' moved' :=
  (does_demand answers result called).bind made moved fun _ => does

/-! ## The verbs calls -/

theorem does_regMr (answers : Answers) (slot : MrSlot) :
    Does start made moved (regMr answers slot) { made with mrs := made.mrs + 1 } moved := by
  unfold regMr
  apply (does_demand answers _ rfl).bind
  intro mr
  apply Meets.modify
  intro now doing
  exact ⟨doing.stage, doing.sock, doing.ready, doing.remMeta, doing.address,
    ⟨doing.grown.comms, doing.grown.cqs, doing.grown.qps, congrArg (· + 1) doing.grown.mrs⟩,
    doing.moved⟩

theorem does_ncclIbInitCommDevBase (answers : Answers) (ibDevN : Fin 32) (i : Nat) :
    Does start made moved (ncclIbInitCommDevBase answers ibDevN i)
      { made with cqs := made.cqs + 1 } moved := by
  unfold ncclIbInitCommDevBase
  apply Meets.get_bind
  intro now doing
  have created := ncclIbInitCommDevBase_cq (now.process.ibDevs ibDevN)
    (answers.outcome (.allocPd i)) (answers.outcome (.createCq i))
  generalize Unet.ncclIbInitCommDevBase (now.process.ibDevs ibDevN)
    (answers.outcome (.allocPd i)) (answers.outcome (.createCq i)) = outcome at created
  apply Meets.bind fun _ after => after = initialized now ibDevN i outcome
  · exact Meets.set fun _ _ => rfl
  intro _
  apply Meets.ite
  · intro _
    apply Meets.throw
    intro _ _
    change Point.called (if _ then _ else _) = true
    split <;> rfl
  · intro success
    apply Meets.pure
    rintro _ rfl
    rw [not_not] at success
    obtain ⟨cq, isCq⟩ := created success
    refine ⟨doing.stage, doing.sock, doing.ready, doing.remMeta, doing.address, ?_, doing.moved⟩
    simp only [initialized, success, isCq]
    exact ⟨doing.grown.comms, congrArg (· + 1) doing.grown.cqs, doing.grown.qps, doing.grown.mrs⟩

theorem does_moveQp (slot : QpSlot) (state : IbvQpState)
    (moves : ∀ states, moved states →
      moved' (Function.update states slot ((states slot).map fun _ => state))) :
    Does start made moved (moveQp slot state) made moved' := by
  apply Meets.modify
  intro now doing
  refine ⟨doing.stage, doing.sock, doing.ready, doing.remMeta, doing.address, doing.grown, ?_⟩
  convert moves _ doing.moved using 1
  funext other
  by_cases same : other = slot
  · subst same
    simp only [SetupComm.states, Function.update_self, Option.map_map]
    rfl
  · simp only [SetupComm.states, Function.update_of_ne same]

theorem does_ncclIbCreateQp (answers : Answers) (slot : QpSlot)
    (moves : ∀ states, moved states → moved' (Function.update states slot (some .init))) :
    Does start made moved (ncclIbCreateQp answers slot) { made with qps := made.qps + 1 }
      moved' := by
  unfold ncclIbCreateQp
  apply (does_demand answers _ rfl).bind
  intro qp
  apply Does.bind { made with qps := made.qps + 1 } fun states =>
    states slot = some .reset ∧ ∃ before, moved before ∧
      states = Function.update before slot (some .reset)
  · apply Meets.modify
    intro now doing
    refine ⟨doing.stage, doing.sock, doing.ready, doing.remMeta, doing.address,
      ⟨doing.grown.comms, doing.grown.cqs, congrArg (· + 1) doing.grown.qps, doing.grown.mrs⟩,
      ?_, now.comm.states, doing.moved, ?_⟩
    · simp [SetupComm.states]
    funext other
    by_cases same : other = slot
    · subst same
      simp [SetupComm.states]
    · simp only [SetupComm.states, Function.update_of_ne same]
  intro _
  apply does_check rfl
  apply does_moveQp slot .init
  rintro states ⟨created, before, was, rfl⟩
  rw [created, Function.update_idem]
  exact moves before was

theorem does_readyQp (answers : Answers) (slot : QpSlot)
    (moves : ∀ states, moved states →
      (states slot).isSome ∧ moved' (Function.update states slot (some .rts))) :
    Does start made moved (readyQp answers slot) made moved' := by
  unfold readyQp
  apply does_check rfl
  apply (does_moveQp slot .rtr _).bind made fun states => states slot = some .rtr ∧
    ∃ before, moved before ∧ states = Function.update before slot (some .rtr)
  · intro _
    apply does_check rfl
    apply does_moveQp slot .rts
    rintro states ⟨isRtr, before, was, rfl⟩
    rw [isRtr, Function.update_idem]
    exact (moves before was).2
  · intro states was
    obtain ⟨state, isState⟩ := Option.isSome_iff_exists.mp (moves states was).1
    rw [isState]
    exact ⟨Function.update_self .., states, was, rfl⟩

theorem does_findGid (answers : Answers) (i : Nat) :
    Does start made moved (findGid answers i) made moved := by
  unfold findGid
  apply does_check rfl
  apply does_check rfl
  exact Meets.pure fun _ => id

theorem does_sizeComm (config : Config) : Does start made moved (sizeComm config) made moved :=
  Meets.modify fun _ doing => ⟨doing.stage, doing.sock, doing.ready, doing.remMeta,
    doing.address, doing.grown, doing.moved⟩

/-! ## The phases of a side that connects -/

theorem does_createQps (config : Config) (answers : Answers) :
    Does start made moved (createQps config answers)
      { made with qps := made.qps + config.side.numQps } (DataIn config.side.numQps .init) := by
  apply (@Does.rounds start config.side.numQps (fun q => { made with qps := made.qps + q })
    (fun q => DataIn q .init) _ _).weaken
  · exact fun _ _ => nofun
  · exact fun _ => id
  intro q _
  apply (does_ncclIbCreateQp answers (.data q) fun _ before => before.next).bind
  intro _
  exact (does_check rfl (Meets.pure fun _ => id)).doIf

theorem does_prepareFifos (config : Config) (answers : Answers) :
    Does start made moved (prepareFifos config answers)
      { made with mrs := made.mrs + config.side.ndevs } moved := by
  apply @Does.rounds start config.side.ndevs (fun i => { made with mrs := made.mrs + i })
    (fun _ => moved)
  intro i _
  apply (does_regMr answers _).bind
  intro _
  exact (does_findGid answers i).doIf

theorem does_initDevs (config : Config) (answers : Answers) :
    Does start made moved
      (eachDev config fun i => ncclIbInitCommDevBase answers (config.mergedDevs i) i)
      { made with cqs := made.cqs + config.side.ndevs } moved :=
  @Does.rounds start config.side.ndevs (fun i => { made with cqs := made.cqs + i })
    (fun _ => moved) _ fun i _ => does_ncclIbInitCommDevBase answers _ i

theorem does_regSizes (config : Config) (answers : Answers) :
    Does start made moved (eachDev config fun i => regMr answers (.sizes i))
      { made with mrs := made.mrs + config.side.ndevs } moved :=
  @Does.rounds start config.side.ndevs (fun i => { made with mrs := made.mrs + i })
    (fun _ => moved) _ fun i _ => does_regMr answers (.sizes i)

/-- Queue pairs that were created are moved to RTS. -/
theorem does_connectQps (config : Config) (answers : Answers)
    (remMeta : NcclIbConnectionMetadata) :
    Does start made (DataIn config.side.numQps .init) (connectQps config answers remMeta) made
      (DataIn config.side.numQps .rts) := by
  apply (@Does.rounds start config.side.numQps (fun _ => made)
    (fun i states => DataIn i .rts states ∧
      ∀ q, i ≤ q → q < config.side.numQps → states (.data q) = some .init) _ _).weaken
  · exact fun states created => ⟨nofun, fun q _ inside => created q inside⟩
  · exact fun _ ready => ready.1
  intro i inside
  apply Does.bind made _ (does_check rfl (Meets.pure fun _ => id)).doIf
  intro _
  apply does_readyQp
  rintro states ⟨before, further⟩
  refine ⟨by rw [further i (Nat.le_refl i) inside]; rfl, before.next, fun q behind within => ?_⟩
  rw [Function.update_of_ne (by simp; omega)]
  exact further q (by omega) within

/-! ## The phase of a side that accepts -/

theorem does_acceptQps (config : Config) (answers : Answers)
    (remMeta : NcclIbConnectionMetadata) :
    Does start made moved (acceptQps config answers remMeta)
      { made with qps := made.qps + config.side.numQps } (DataIn config.side.numQps .rts) := by
  apply (@Does.rounds start config.side.numQps (fun q => { made with qps := made.qps + q })
    (fun q => DataIn q .rts) _ _).weaken
  · exact fun _ _ => nofun
  · exact fun _ => id
  intro q _
  apply Does.bind { made with qps := made.qps + (q + 1) }
    fun states => DataIn q .rts states ∧ states (.data q) = some .init
  · apply does_ncclIbCreateQp
    intro states before
    refine ⟨before.other (fun earlier inside => ?_) _, Function.update_self ..⟩
    simpa using Nat.ne_of_lt inside
  intro _
  apply Does.bind { made with qps := made.qps + (q + 1) } _
    (does_check rfl (does_check rfl (Meets.pure fun _ => id)).doIf).doIf
  intro _
  apply does_readyQp
  rintro states ⟨before, created⟩
  exact ⟨by rw [created]; rfl, before.next⟩

/-- Where reads are flushed, a device gets a queue pair and memory for that. -/
def flushes (config : Config) : Nat := (Config.flushEnabled config).toNat

theorem does_flush (config : Config) (answers : Answers) (i : Nat) {count : Nat} :
    Does start made (DataIn count .rts)
      (doIf (Config.flushEnabled config) do
        regMr answers (.flush i)
        ncclIbCreateQp answers (.flush i)
        readyQp answers (.flush i))
      { made with qps := made.qps + flushes config, mrs := made.mrs + flushes config }
      (DataIn count .rts) := by
  unfold flushes
  apply Meets.ite
  · intro enabled
    rw [enabled]
    apply (does_regMr answers _).bind
    intro _
    apply Does.bind { made with qps := made.qps + 1, mrs := made.mrs + 1 }
      fun states => DataIn count .rts states ∧ states (.flush i) = some .init
    · apply does_ncclIbCreateQp
      intro states before
      exact ⟨before.other (fun _ _ => by simp) _, Function.update_self ..⟩
    intro _
    apply does_readyQp
    rintro states ⟨before, created⟩
    exact ⟨by rw [created]; rfl, before.other (fun _ _ => by simp) _⟩
  · intro disabled
    rw [Bool.not_eq_true] at disabled
    rw [disabled]
    exact Meets.pure fun _ => id

/-- What accepting creates and registers on each device, beside its completion queue. -/
theorem does_acceptDevs (config : Config) (answers : Answers) {count : Nat} :
    Does start made (DataIn count .rts) (acceptDevs config answers)
      { made with
        qps := made.qps + config.side.ndevs * flushes config
        mrs := made.mrs + config.side.ndevs * (2 + flushes config) }
      (DataIn count .rts) := by
  have rounds := @Does.rounds start config.side.ndevs
    (fun i =>
      { made with
        qps := made.qps + i * flushes config, mrs := made.mrs + i * (2 + flushes config) })
    (fun _ => DataIn count .rts)
  simp only [Nat.zero_mul, Nat.add_zero] at rounds
  apply rounds
  intro i _
  have qps : made.qps + (i + 1) * flushes config =
      made.qps + i * flushes config + flushes config := by ring
  have mrs : made.mrs + (i + 1) * (2 + flushes config) =
      made.mrs + i * (2 + flushes config) + 1 + flushes config + 1 := by ring
  rw [qps, mrs]
  apply (does_regMr answers _).bind
  intro _
  apply (does_flush config answers i).bind
  intro _
  exact does_regMr answers _

theorem does_flushEnabled (config : Config) :
    Does start made moved
      (modify fun attempt =>
        { attempt with comm.flushEnabled := Config.flushEnabled config } : Setup PUnit)
      made moved :=
  Meets.modify fun _ doing => ⟨doing.stage, doing.sock, doing.ready, doing.remMeta,
    doing.address, doing.grown, doing.moved⟩

/-- A device is initialized and its GID is found. -/
theorem does_acceptBases (config : Config) (answers : Answers) :
    Does start made moved
      (eachDev config fun i => do
        ncclIbInitCommDevBase answers (config.mergedDevs i) i
        findGid answers i)
      { made with cqs := made.cqs + config.side.ndevs } moved := by
  apply @Does.rounds start config.side.ndevs (fun i => { made with cqs := made.cqs + i })
    (fun _ => moved)
  intro i _
  apply (does_ncclIbInitCommDevBase answers _ i).bind
  exact fun _ => does_findGid answers i

end Setup

end NcclExts.Unet
