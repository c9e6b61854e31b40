import Mathlib
import NcclExts.Foundation.System

/-!
# The tuner plugin

The tuner chooses an algorithm and a protocol for a collective, from tables that were
measured for a few sizes of a communicator. Three versions of the interface share the
choice. The second and third keep the index of a table in a context of the communicator;
the first has no context, and keeps one index for the whole process.
-/

namespace NcclExts.Utuner

open NcclExts.Foundation

/-! ## The tables -/

/-- `ncclFunc_t`. -/
inductive NcclFunc where
  | ncclFuncBroadcast
  | ncclFuncReduce
  | ncclFuncAllGather
  | ncclFuncReduceScatter
  | ncclFuncAllReduce
  | ncclFuncSendRecv
  | ncclFuncSend
  | ncclFuncRecv
deriving DecidableEq, Repr

def ncclNumAlgorithms : Nat := 7
def ncclAlgoUndef : Int := -1
def ncclAlgoTree : Int := 0
def ncclAlgoRing : Int := 1

def ncclNumProtocols : Nat := 3
def ncclProtoUndef : Int := -1
def ncclProtoLl : Int := 0
def ncclProtoLl128 : Int := 1
def ncclProtoSimple : Int := 2

/-- `struct AlgoProto`: what is chosen for up to about `nbytes` bytes. -/
structure AlgoProto where
  algo : Int
  proto : Int
  nbytes : UInt64
deriving DecidableEq, Repr

/-- `struct TunerConfig`: the choices for communicators of one size, by increasing size of
the collective. -/
structure TunerConfig where
  nranks : UInt64
  nnodes : UInt64
  nchoices : Nat
  apChoices : List AlgoProto
deriving DecidableEq, Repr

def kTunerCfgNum : Nat := 8

def allreduceTunerCfgs : List TunerConfig := [
  { nranks := 16, nnodes := 2, nchoices := 2
    apChoices := [
      ⟨ncclAlgoTree, ncclProtoLl128, (1 : UInt64) <<< 20⟩,
      ⟨ncclAlgoTree, ncclProtoLl128, (1 : UInt64) <<< 23⟩] },
  { nranks := 32, nnodes := 4, nchoices := 7
    apChoices := [
      ⟨ncclAlgoTree, ncclProtoLl128, (1 : UInt64) <<< 21⟩,
      ⟨ncclAlgoUndef, ncclProtoUndef, (1 : UInt64) <<< 22⟩,
      ⟨ncclAlgoUndef, ncclProtoUndef, (1 : UInt64) <<< 24⟩,
      ⟨ncclAlgoTree, ncclProtoLl128, (1 : UInt64) <<< 25⟩,
      ⟨ncclAlgoUndef, ncclProtoUndef, (1 : UInt64) <<< 26⟩,
      ⟨ncclAlgoUndef, ncclProtoUndef, (1 : UInt64) <<< 27⟩,
      ⟨ncclAlgoRing, ncclProtoSimple, (1 : UInt64) <<< 28⟩] },
  { nranks := 48, nnodes := 6, nchoices := 7
    apChoices := [
      ⟨ncclAlgoTree, ncclProtoLl128, (1 : UInt64) <<< 21⟩,
      ⟨ncclAlgoUndef, ncclProtoUndef, (1 : UInt64) <<< 22⟩,
      ⟨ncclAlgoUndef, ncclProtoUndef, (1 : UInt64) <<< 24⟩,
      ⟨ncclAlgoTree, ncclProtoLl128, (1 : UInt64) <<< 25⟩,
      ⟨ncclAlgoRing, ncclProtoLl128, (1 : UInt64) <<< 26⟩,
      ⟨ncclAlgoRing, ncclProtoLl128, (1 : UInt64) <<< 27⟩,
      ⟨ncclAlgoRing, ncclProtoSimple, (1 : UInt64) <<< 28⟩] },
  { nranks := 64, nnodes := 8, nchoices := 8
    apChoices := [
      ⟨ncclAlgoTree, ncclProtoLl128, (1 : UInt64) <<< 21⟩,
      ⟨ncclAlgoUndef, ncclProtoUndef, (1 : UInt64) <<< 22⟩,
      ⟨ncclAlgoUndef, ncclProtoUndef, (1 : UInt64) <<< 24⟩,
      ⟨ncclAlgoTree, ncclProtoLl128, (1 : UInt64) <<< 25⟩,
      ⟨ncclAlgoTree, ncclProtoLl128, (1 : UInt64) <<< 26⟩,
      ⟨ncclAlgoRing, ncclProtoLl128, (1 : UInt64) <<< 27⟩,
      ⟨ncclAlgoUndef, ncclProtoUndef, (1 : UInt64) <<< 28⟩,
      ⟨ncclAlgoRing, ncclProtoSimple, (1 : UInt64) <<< 29⟩] },
  { nranks := 80, nnodes := 10, nchoices := 4
    apChoices := [
      ⟨ncclAlgoTree, ncclProtoLl128, (1 : UInt64) <<< 25⟩,
      ⟨ncclAlgoTree, ncclProtoLl128, (1 : UInt64) <<< 26⟩,
      ⟨ncclAlgoRing, ncclProtoLl128, (1 : UInt64) <<< 27⟩,
      ⟨ncclAlgoRing, ncclProtoLl128, (1 : UInt64) <<< 28⟩] },
  { nranks := 96, nnodes := 12, nchoices := 4
    apChoices := [
      ⟨ncclAlgoTree, ncclProtoLl128, (1 : UInt64) <<< 25⟩,
      ⟨ncclAlgoTree, ncclProtoLl128, (1 : UInt64) <<< 26⟩,
      ⟨ncclAlgoRing, ncclProtoLl128, (1 : UInt64) <<< 27⟩,
      ⟨ncclAlgoRing, ncclProtoLl128, (1 : UInt64) <<< 28⟩] },
  { nranks := 112, nnodes := 14, nchoices := 5
    apChoices := [
      ⟨ncclAlgoTree, ncclProtoLl128, (1 : UInt64) <<< 25⟩,
      ⟨ncclAlgoTree, ncclProtoLl128, (1 : UInt64) <<< 27⟩,
      ⟨ncclAlgoRing, ncclProtoLl128, (1 : UInt64) <<< 28⟩,
      ⟨ncclAlgoUndef, ncclProtoUndef, (1 : UInt64) <<< 29⟩,
      ⟨ncclAlgoRing, ncclProtoSimple, (1 : UInt64) <<< 30⟩] },
  { nranks := 128, nnodes := 16, nchoices := 5
    apChoices := [
      ⟨ncclAlgoTree, ncclProtoLl128, (1 : UInt64) <<< 26⟩,
      ⟨ncclAlgoTree, ncclProtoLl128, (1 : UInt64) <<< 27⟩,
      ⟨ncclAlgoRing, ncclProtoLl128, (1 : UInt64) <<< 28⟩,
      ⟨ncclAlgoRing, ncclProtoLl128, (1 : UInt64) <<< 29⟩,
      ⟨ncclAlgoRing, ncclProtoSimple, (1 : UInt64) <<< 30⟩] }]

def reducescatterTunerCfgs : List TunerConfig := [
  { nranks := 16, nnodes := 2, nchoices := 1
    apChoices := [
      ⟨ncclAlgoRing, ncclProtoLl, (1 : UInt64) <<< 20⟩] },
  { nranks := 32, nnodes := 4, nchoices := 2
    apChoices := [
      ⟨ncclAlgoRing, ncclProtoLl, (1 : UInt64) <<< 20⟩,
      ⟨ncclAlgoRing, ncclProtoLl, (1 : UInt64) <<< 21⟩] },
  { nranks := 48, nnodes := 6, nchoices := 2
    apChoices := [
      ⟨ncclAlgoRing, ncclProtoLl, (1 : UInt64) <<< 21⟩,
      ⟨ncclAlgoRing, ncclProtoLl, (1 : UInt64) <<< 22⟩] },
  { nranks := 64, nnodes := 8, nchoices := 2
    apChoices := [
      ⟨ncclAlgoRing, ncclProtoLl, (1 : UInt64) <<< 21⟩,
      ⟨ncclAlgoRing, ncclProtoLl, (1 : UInt64) <<< 22⟩] },
  { nranks := 80, nnodes := 10, nchoices := 2
    apChoices := [
      ⟨ncclAlgoRing, ncclProtoLl, (1 : UInt64) <<< 21⟩,
      ⟨ncclAlgoRing, ncclProtoLl, (1 : UInt64) <<< 22⟩] },
  { nranks := 96, nnodes := 12, nchoices := 1
    apChoices := [
      ⟨ncclAlgoRing, ncclProtoLl, (1 : UInt64) <<< 22⟩] },
  { nranks := 112, nnodes := 14, nchoices := 0, apChoices := [] },
  { nranks := 128, nnodes := 16, nchoices := 0, apChoices := [] }]

def allgatherTunerCfgs : List TunerConfig := [
  { nranks := 16, nnodes := 2, nchoices := 1
    apChoices := [
      ⟨ncclAlgoRing, ncclProtoLl, (1 : UInt64) <<< 20⟩] },
  { nranks := 32, nnodes := 4, nchoices := 2
    apChoices := [
      ⟨ncclAlgoRing, ncclProtoLl, (1 : UInt64) <<< 20⟩,
      ⟨ncclAlgoRing, ncclProtoLl, (1 : UInt64) <<< 21⟩] },
  { nranks := 48, nnodes := 6, nchoices := 1
    apChoices := [
      ⟨ncclAlgoRing, ncclProtoLl, (1 : UInt64) <<< 21⟩] },
  { nranks := 64, nnodes := 8, nchoices := 2
    apChoices := [
      ⟨ncclAlgoRing, ncclProtoLl, (1 : UInt64) <<< 21⟩,
      ⟨ncclAlgoRing, ncclProtoLl, (1 : UInt64) <<< 22⟩] },
  { nranks := 80, nnodes := 10, nchoices := 2
    apChoices := [
      ⟨ncclAlgoRing, ncclProtoLl, (1 : UInt64) <<< 21⟩,
      ⟨ncclAlgoRing, ncclProtoLl, (1 : UInt64) <<< 22⟩] },
  { nranks := 96, nnodes := 12, nchoices := 1
    apChoices := [
      ⟨ncclAlgoRing, ncclProtoLl, (1 : UInt64) <<< 22⟩] },
  { nranks := 112, nnodes := 14, nchoices := 0, apChoices := [] },
  { nranks := 128, nnodes := 16, nchoices := 0, apChoices := [] }]

/-! ## The choice -/

/-- An entry of `ap_choices`; the entries behind those that are given are zero. -/
def TunerConfig.choice (cfg : TunerConfig) (i : Nat) : AlgoProto :=
  cfg.apChoices.getD i ⟨0, 0, 0⟩

/-- `get_tuner_cfg_index`. -/
def getTunerCfgIndex (nRanks nNodes : UInt64) : Int32 :=
  match allreduceTunerCfgs.findIdx? fun cfg => cfg.nranks = nRanks ∧ cfg.nnodes = nNodes with
  | some i => Int32.ofNat i
  | none => -1

/-- The table for a collective and an index inside the tables. -/
def tunerConfig (collType : NcclFunc) (cfgIndex : Nat) : Option TunerConfig :=
  match collType with
  | .ncclFuncAllReduce => allreduceTunerCfgs[cfgIndex]?
  | .ncclFuncAllGather => allgatherTunerCfgs[cfgIndex]?
  | .ncclFuncReduceScatter => reducescatterTunerCfgs[cfgIndex]?
  | _ => none

/-- The loop of `get_algo_proto`: the first choice that is not for fewer bytes, or the
last one. -/
def TunerConfig.upTo (cfg : TunerConfig) (nBytes : UInt64) : Nat :=
  (List.range (cfg.nchoices - 1)).findIdx fun i => ¬ (cfg.choice i).nbytes < nBytes

/-- The end of `get_algo_proto`, with the choice at which the loop stops: none when the
size is far from all that were measured, and the choice before when the size is nearer
to it. -/
def TunerConfig.nearest (cfg : TunerConfig) (nBytes : UInt64) (i : Nat) : Option AlgoProto :=
  if i = 0 ∧ nBytes < (cfg.choice 0).nbytes * 3 / 4 then none
  else
    let last := (cfg.choice (cfg.nchoices - 1)).nbytes
    if i = cfg.nchoices - 1 ∧ nBytes > last + min (last / 2) ((2 : UInt64) <<< 27) then none
    else if i > 0 ∧ nBytes < ((cfg.choice (i - 1)).nbytes + (cfg.choice i).nbytes) / 2 then
      some (cfg.choice (i - 1))
    else some (cfg.choice i)

/-- `get_algo_proto`: the algorithm and the protocol. -/
def getAlgoProto (cfgIndex : Int32) (collType : NcclFunc) (nBytes : UInt64) : Int × Int :=
  if cfgIndex < 0 ∨ cfgIndex.toInt ≥ kTunerCfgNum then (ncclAlgoUndef, ncclAlgoUndef)
  else
    match tunerConfig collType cfgIndex.toInt.toNat with
    | none => (ncclAlgoUndef, ncclAlgoUndef)
    | some tuner =>
      if tuner.nchoices = 0 then (ncclAlgoUndef, ncclAlgoUndef)
      else
        match tuner.nearest nBytes (tuner.upTo nBytes) with
        | none => (ncclAlgoUndef, ncclAlgoUndef)
        | some chosen => (chosen.algo, chosen.proto)

/-- What is chosen is either nothing, or an algorithm and a protocol of the cost table. -/
def Chosen (chosen : Int × Int) : Prop :=
  chosen = (ncclAlgoUndef, ncclProtoUndef) ∨
    (0 ≤ chosen.1 ∧ chosen.1 < ncclNumAlgorithms ∧ 0 ≤ chosen.2 ∧ chosen.2 < ncclNumProtocols)

instance (chosen : Int × Int) : Decidable (Chosen chosen) :=
  inferInstanceAs (Decidable (_ ∨ _))

theorem tables_chosen : ∀ cfg ∈ allreduceTunerCfgs ++ reducescatterTunerCfgs ++ allgatherTunerCfgs,
    ∀ entry ∈ cfg.apChoices, Chosen (entry.algo, entry.proto) := by
  decide

/-- The entries behind those that are given are choices too. -/
theorem TunerConfig.choice_chosen {cfg : TunerConfig}
    (entries : ∀ entry ∈ cfg.apChoices, Chosen (entry.algo, entry.proto)) (i : Nat) :
    Chosen ((cfg.choice i).algo, (cfg.choice i).proto) := by
  unfold choice
  rw [List.getD_eq_getElem?_getD]
  cases found : cfg.apChoices[i]? with
  | none => decide
  | some entry => exact entries entry (List.mem_of_getElem? found)

/-- The end of the choice is one of the choices, or none. -/
theorem TunerConfig.nearest_eq (cfg : TunerConfig) (nBytes : UInt64) (i : Nat) :
    cfg.nearest nBytes i = none ∨ ∃ j, cfg.nearest nBytes i = some (cfg.choice j) := by
  unfold nearest
  dsimp only
  split_ifs
  · exact Or.inl rfl
  · exact Or.inl rfl
  · exact Or.inr ⟨_, rfl⟩
  · exact Or.inr ⟨_, rfl⟩

theorem getAlgoProto_chosen (cfgIndex : Int32) (collType : NcclFunc) (nBytes : UInt64) :
    Chosen (getAlgoProto cfgIndex collType nBytes) := by
  have undefined : Chosen (ncclAlgoUndef, ncclAlgoUndef) := by decide
  unfold getAlgoProto
  split
  · exact undefined
  split
  · exact undefined
  next tuner found =>
    have member : tuner ∈ allreduceTunerCfgs ++ reducescatterTunerCfgs ++ allgatherTunerCfgs := by
      cases collType <;> simp only [tunerConfig, reduceCtorEq] at found
      · simp [List.mem_of_getElem? found]
      · simp [List.mem_of_getElem? found]
      · simp [List.mem_of_getElem? found]
    have entries := tuner.choice_chosen (tables_chosen tuner member)
    split
    · exact undefined
    rcases tuner.nearest_eq nBytes (tuner.upTo nBytes) with none | ⟨j, some⟩
    · rw [none]
      exact undefined
    · rw [some]
      exact entries j

/-! ## The versions of the interface -/

/-- What the functions of the plugin return. -/
inductive TunerResult where
  | ncclSuccess
  | ncclInvalidArgument
deriving DecidableEq, Repr

/-- `pluginInit_v2`: the index in the context. -/
def pluginInit_v2 (nRanks nNodes : UInt64) : Int32 := getTunerCfgIndex nRanks nNodes

/-- `pluginGetCollInfo_v2`. -/
def pluginGetCollInfo_v2 (context : Int32) (collType : NcclFunc) (nBytes : UInt64) : Int × Int :=
  getAlgoProto context collType nBytes

/-- A cost table, with a row for each algorithm. -/
abbrev CostTable (Cost : Type) := Fin ncclNumAlgorithms × Fin ncclNumProtocols → Cost

/-- `pluginGetCollInfo_v3`, which returns early when a pointer is NULL. A cost can be zero
or marked as ignored. -/
def pluginGetCollInfo_v3 {Cost : Type} (zero : Cost) (ignored : Cost → Bool) (anyNull : Bool)
    (context : Int32) (collType : NcclFunc) (nBytes : UInt64) (collCostTable : CostTable Cost) :
    TunerResult × CostTable Cost :=
  if anyNull then (.ncclInvalidArgument, collCostTable)
  else
    let (algo, proto) := getAlgoProto context collType nBytes
    if inside : (ncclAlgoUndef < algo ∧ algo < ncclNumAlgorithms) ∧
        ncclProtoUndef < proto ∧ proto < ncclNumProtocols then
      let entry : Fin ncclNumAlgorithms × Fin ncclNumProtocols :=
        (⟨algo.toNat, by simp only [ncclAlgoUndef] at inside; omega⟩,
          ⟨proto.toNat, by simp only [ncclProtoUndef] at inside; omega⟩)
      if ignored (collCostTable entry) = false then
        (.ncclSuccess, Function.update collCostTable entry zero)
      else (.ncclSuccess, collCostTable)
    else (.ncclSuccess, collCostTable)

/-- The static variables of the first version; the number of calls is an `int`. -/
structure TunerV1 where
  n : Int32
  nranks : UInt64
  nnodes : UInt64
  tunerCfgIndex : Int32
deriving DecidableEq, Repr

/-- The variables before any call. -/
def TunerV1.start : TunerV1 := { n := 0, nranks := 0, nnodes := 0, tunerCfgIndex := -1 }

/-- `pluginInit_v1`. -/
def pluginInit_v1 (tuner : TunerV1) (nRanks nNodes : UInt64) : TunerV1 :=
  if tuner.n = 0 then
    { n := tuner.n + 1, nranks := nRanks, nnodes := nNodes,
      tunerCfgIndex := getTunerCfgIndex nRanks nNodes }
  else if ¬ (tuner.nranks = nRanks ∧ tuner.nnodes = nNodes) then
    { tuner with n := tuner.n + 1, tunerCfgIndex := -1 }
  else { tuner with n := tuner.n + 1 }

/-- `pluginGetCollInfo_v1`. -/
def pluginGetCollInfo_v1 (tuner : TunerV1) (collType : NcclFunc) (nBytes : UInt64) : Int × Int :=
  getAlgoProto tuner.tunerCfgIndex collType nBytes

/-! ## The first version -/

/-- A call of the first version. -/
inductive TunerCall where
  | init (nRanks nNodes : UInt64)
  | getCollInfo (collType : NcclFunc) (nBytes : UInt64)

/-- The first version, and the numbers it was initialized with so far. -/
structure Tuning where
  tuner : TunerV1
  inits : List (UInt64 × UInt64)

/-- Every order of calls of the first version. -/
def tuning : System Tuning TunerCall where
  starts := fun state => state = ⟨.start, []⟩
  step := fun state call =>
    match call with
    | .init nRanks nNodes =>
      some ⟨pluginInit_v1 state.tuner nRanks nNodes, state.inits ++ [(nRanks, nNodes)]⟩
    | .getCollInfo _ _ => some state

/-- The first version answers as the second one does for the numbers of the first call,
until a call has other numbers; from then on it leaves every choice open. -/
def Tuning.Agrees (state : Tuning) : Prop :=
  ∀ nRanks nNodes later, state.inits = (nRanks, nNodes) :: later →
    ((∀ call ∈ later, call = (nRanks, nNodes)) → ∀ collType nBytes,
      pluginGetCollInfo_v1 state.tuner collType nBytes =
        pluginGetCollInfo_v2 (pluginInit_v2 nRanks nNodes) collType nBytes) ∧
    ((∃ call ∈ later, call ≠ (nRanks, nNodes)) → ∀ collType nBytes,
      pluginGetCollInfo_v1 state.tuner collType nBytes = (ncclAlgoUndef, ncclProtoUndef))

/-- The count of calls is zero in front of the first one only. -/
def TunerCall.Counted (state : Tuning) : TunerCall → Prop
  | .init _ _ => state.tuner.n = 0 → state.inits = []
  | .getCollInfo _ _ => True

instance (state : Tuning) (call : TunerCall) : Decidable (call.Counted state) := by
  cases call <;> unfold TunerCall.Counted <;> infer_instance

/-- The third version sets exactly the entry of what the second one chooses to zero, if it
chooses something and the entry is not ignored. -/
def SetsChosen {Cost : Type} (zero : Cost) (ignored : Cost → Bool) (context : Int32)
    (collType : NcclFunc) (nBytes : UInt64) (collCostTable : CostTable Cost) : Prop :=
  let chosen := pluginGetCollInfo_v2 context collType nBytes
  let after := (pluginGetCollInfo_v3 zero ignored false context collType nBytes collCostTable).2
  (chosen = (ncclAlgoUndef, ncclProtoUndef) ∧ after = collCostTable) ∨
    ∃ entry : Fin ncclNumAlgorithms × Fin ncclNumProtocols,
      chosen = ((entry.1.val : Int), (entry.2.val : Int)) ∧
      after entry = (if ignored (collCostTable entry) then collCostTable entry else zero) ∧
      ∀ other, other ≠ entry → after other = collCostTable other

theorem getAlgoProto_negative (collType : NcclFunc) (nBytes : UInt64) :
    getAlgoProto (-1) collType nBytes = (ncclAlgoUndef, ncclProtoUndef) := by
  unfold getAlgoProto
  rw [if_pos (Or.inl (by decide))]
  rfl

theorem sets_chosen {Cost : Type} (zero : Cost) (ignored : Cost → Bool) (context : Int32)
    (collType : NcclFunc) (nBytes : UInt64) (collCostTable : CostTable Cost) :
    SetsChosen zero ignored context collType nBytes collCostTable := by
  have chosen := getAlgoProto_chosen context collType nBytes
  unfold SetsChosen pluginGetCollInfo_v2 pluginGetCollInfo_v3
  generalize getAlgoProto context collType nBytes = pair at chosen ⊢
  obtain ⟨algo, proto⟩ := pair
  rw [if_neg Bool.false_ne_true]
  rcases chosen with undefined | ⟨atLeast, below, atLeast', below'⟩
  · obtain ⟨rfl, rfl⟩ := Prod.mk.inj undefined
    have outside : ¬ ((ncclAlgoUndef < ncclAlgoUndef ∧ ncclAlgoUndef < ncclNumAlgorithms) ∧
        ncclProtoUndef < ncclProtoUndef ∧ ncclProtoUndef < ncclNumProtocols) := by decide
    exact Or.inl ⟨rfl, by simp only [dif_neg outside]⟩
  · have inside : (ncclAlgoUndef < algo ∧ algo < ncclNumAlgorithms) ∧
        ncclProtoUndef < proto ∧ proto < ncclNumProtocols := by
      simp only [ncclAlgoUndef, ncclProtoUndef] at *
      omega
    simp only at atLeast below atLeast' below'
    refine Or.inr ⟨(⟨algo.toNat, by omega⟩, ⟨proto.toNat, by omega⟩), ?_, ?_, ?_⟩
    · simp only [Int.toNat_of_nonneg atLeast, Int.toNat_of_nonneg atLeast']
    · simp only [dif_pos inside]
      by_cases marked : ignored (collCostTable
          (⟨algo.toNat, by omega⟩, ⟨proto.toNat, by omega⟩)) = true
      · simp [marked]
      · simp [Bool.not_eq_true _ ▸ marked]
    · intro other different
      simp only [dif_pos inside]
      split_ifs
      · exact Function.update_of_ne different _ _
      · rfl

/-- What the static variables tell of the calls so far. -/
structure Tuning.Sound (state : Tuning) : Prop where
  unused : state.inits = [] → state.tuner = .start
  used : ∀ nRanks nNodes later, state.inits = (nRanks, nNodes) :: later →
    state.tuner.nranks = nRanks ∧ state.tuner.nnodes = nNodes ∧
      state.tuner.tunerCfgIndex =
        if ∀ call ∈ later, call = (nRanks, nNodes) then getTunerCfgIndex nRanks nNodes else -1

theorem Tuning.Sound.init {state : Tuning} (sound : state.Sound) {nRanks nNodes : UInt64}
    (counted : state.tuner.n = 0 → state.inits = []) :
    Tuning.Sound ⟨pluginInit_v1 state.tuner nRanks nNodes, state.inits ++ [(nRanks, nNodes)]⟩ := by
  refine ⟨by simp, fun firstRanks firstNodes later calls => ?_⟩
  cases before : state.inits with
  | nil =>
    simp only [before, List.nil_append, List.cons.injEq, Prod.mk.injEq] at calls
    obtain ⟨⟨rfl, rfl⟩, rfl⟩ := calls
    simp [sound.unused before, pluginInit_v1, TunerV1.start]
  | cons first rest =>
    obtain ⟨ranks, nodes⟩ := first
    simp only [before, List.cons_append, List.cons.injEq, Prod.mk.injEq] at calls
    obtain ⟨⟨rfl, rfl⟩, rfl⟩ := calls
    obtain ⟨sameRanks, sameNodes, index⟩ := sound.used ranks nodes rest before
    have again : state.tuner.n ≠ 0 := by
      intro none
      simp [counted none] at before
    simp only [pluginInit_v1, if_neg again, sameRanks, sameNodes, List.forall_mem_append,
      List.forall_mem_singleton, Prod.mk.injEq]
    by_cases same : ranks = nRanks ∧ nodes = nNodes
    · obtain ⟨rfl, rfl⟩ := same
      simpa only [and_self, and_true, not_true_eq_false, if_false, true_and] using index
    · have other : ¬ (nRanks = ranks ∧ nNodes = nodes) := fun equal =>
        same ⟨equal.1.symm, equal.2.symm⟩
      simp [same, other]

/-- What is true of the static variables is what the first version promises. -/
theorem Tuning.Sound.agrees {state : Tuning} (sound : state.Sound) : state.Agrees := by
  intro nRanks nNodes later calls
  obtain ⟨_, _, index⟩ := sound.used nRanks nNodes later calls
  constructor
  · intro same collType nBytes
    rw [if_pos same] at index
    rw [pluginGetCollInfo_v1, index]
    rfl
  · rintro ⟨call, member, other⟩ collType nBytes
    rw [if_neg fun same => other (same call member)] at index
    rw [pluginGetCollInfo_v1, index]
    exact getAlgoProto_negative collType nBytes

/-- In every run in which the count of calls does not come back to zero, the first version
agrees with the second; and always does the third. -/
theorem tuner_agreement {state : Tuning}
    (reached : tuning.Reaches (fun state call => call.Counted state) state) {Cost : Type}
    (zero : Cost) (ignored : Cost → Bool) (context : Int32) (collType : NcclFunc)
    (nBytes : UInt64) (collCostTable : CostTable Cost) :
    state.Agrees ∧ SetsChosen zero ignored context collType nBytes collCostTable := by
  have sound : state.Sound := by
    apply reached.invariant
    · rintro _ rfl
      exact ⟨fun _ => rfl, nofun⟩
    · intro state call after _ sound counted stepped
      cases call with
      | init nRanks nNodes => exact Option.some.inj stepped ▸ sound.init counted
      | getCollInfo collType nBytes => exact Option.some.inj stepped ▸ sound
  exact ⟨sound.agrees, sets_chosen zero ignored context collType nBytes collCostTable⟩

/-- Queries for two communicators of 16 ranks, and then for another one. -/
def tunedTwice : Tuning :=
  (tuning.replay ⟨.start, []⟩
    [.init 16 2, .getCollInfo .ncclFuncAllReduce 1048576, .init 16 2, .init 32 4]).get rfl

/-- The first version leaves the choice open after the third communicator, and the third
version marks the choice of the second one. -/
theorem tuner_agreement_twice :
    pluginGetCollInfo_v1 tunedTwice.tuner .ncclFuncAllReduce 1048576 =
        (ncclAlgoUndef, ncclProtoUndef) ∧
      SetsChosen (0 : Int) (fun cost => cost = -1) 0 .ncclFuncAllReduce 1048576 fun _ => 7 := by
  have start : tuning.Reaches (fun state call => call.Counted state) ⟨.start, []⟩ := .start rfl
  have reached : tuning.Reaches (fun state call => call.Counted state) tunedTwice :=
    start.replay [.init 16 2, .getCollInfo .ncclFuncAllReduce 1048576, .init 16 2, .init 32 4]
      (by decide) rfl
  have agreed := tuner_agreement reached (0 : Int) (fun cost => cost = -1) 0 .ncclFuncAllReduce
    1048576 fun _ => 7
  exact ⟨(agreed.1 16 2 [(16, 2), (32, 4)] rfl).2 (by decide) _ _, agreed.2⟩

/-- Any number of communicators of 16 ranks behind one of those and another one. -/
theorem forgotten_reached (k : Nat) : ∃ state, tuning.Reachable state ∧
    state.tuner.n = Int32.ofNat (k + 2) ∧ state.tuner.nranks = 16 ∧ state.tuner.nnodes = 2 ∧
      ∃ later, state.inits = (16, 2) :: (32, 4) :: later := by
  induction k with
  | zero =>
    have start : tuning.Reachable ⟨.start, []⟩ := .start rfl
    exact ⟨_, start.replay [.init 16 2, .init 32 4] rfl, rfl, rfl, rfl, [], rfl⟩
  | succ k ih =>
    obtain ⟨state, reached, n, ranks, nodes, later, inits⟩ := ih
    have stepped : tuning.step state (.init 16 2) =
      some ⟨pluginInit_v1 state.tuner 16 2, state.inits ++ [(16, 2)]⟩ := rfl
    refine ⟨_, reached.next stepped, ?_, ?_, ?_, later ++ [(16, 2)], by simp [inits]⟩
    · have counted : (pluginInit_v1 state.tuner 16 2).n = state.tuner.n + 1 := by
        unfold pluginInit_v1
        split_ifs <;> rfl
      rw [counted, n, Nat.add_right_comm k 1 2, Int32.ofNat_add (k + 2) 1]
      rfl
    · unfold pluginInit_v1
      split_ifs <;> first | rfl | exact ranks
    · unfold pluginInit_v1
      split_ifs <;> first | rfl | exact nodes

/-- After as many calls as an `int` can count, the first version forgets that there were
several communicators. -/
theorem tuner_agreement_forgotten : ¬ ∀ state, tuning.Reachable state → state.Agrees := by
  intro always
  obtain ⟨state, reached, n, ranks, nodes, later, inits⟩ := forgotten_reached (2 ^ 32 - 2)
  have wrapped : state.tuner.n = 0 := n.trans (by decide)
  have stepped : tuning.step state (.init 16 2) =
    some ⟨pluginInit_v1 state.tuner 16 2, state.inits ++ [(16, 2)]⟩ := rfl
  have agrees := always _ (reached.next stepped) 16 2 ((32, 4) :: later ++ [(16, 2)])
    (by simp [inits])
  have open' := agrees.2 ⟨(32, 4), by simp, by decide⟩ .ncclFuncAllReduce 1048576
  rw [pluginGetCollInfo_v1, pluginInit_v1, if_pos wrapped] at open'
  change getAlgoProto (getTunerCfgIndex 16 2) .ncclFuncAllReduce 1048576 = _ at open'
  exact absurd open' (by decide)

end NcclExts.Utuner
