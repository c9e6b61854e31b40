import NcclExts.Foundation.Nearest
import NcclExts.Utuner.Plugin

/-!
# The choice of the tuner

The lookup in a table scans for the first threshold that is not below the size, refuses
sizes far from the first and from the last threshold, and steps back when the size is
nearer to the threshold before. For thresholds that grow and can be halved and quartered,
that is the nearest threshold.
-/

namespace NcclExts.Utuner

open NcclExts.Foundation

/-! ## Tables and what a lookup in them is for -/

/-- The threshold of an entry. -/
def TunerConfig.threshold (cfg : TunerConfig) (i : Nat) : Nat := (cfg.choice i).nbytes.toNat

/-- A table with entries whose thresholds grow, are multiples of four and stay far below
the range of a size. -/
structure TunerConfig.Graded (cfg : TunerConfig) : Prop where
  nonempty : 1 ≤ cfg.nchoices
  growing : Increasing cfg.threshold cfg.nchoices
  quartered : ∀ i, i < cfg.nchoices → 4 ∣ cfg.threshold i
  bounded : ∀ i, i < cfg.nchoices → cfg.threshold i ≤ 2 ^ 30

/-- The sizes that a table speaks about: from three quarters of the first threshold to
half of the last one, and `2 ^ 28` at most, behind it. -/
def TunerConfig.Covers (cfg : TunerConfig) (nBytes : UInt64) : Prop :=
  3 * cfg.threshold 0 ≤ 4 * nBytes.toNat ∧
    nBytes.toNat ≤ cfg.threshold (cfg.nchoices - 1) +
      min (cfg.threshold (cfg.nchoices - 1) / 2) (2 ^ 28)

instance (cfg : TunerConfig) (nBytes : UInt64) : Decidable (cfg.Covers nBytes) :=
  inferInstanceAs (Decidable (_ ∧ _))

/-- `get_algo_proto` once the table is found: the entry that is chosen, or none. -/
def TunerConfig.lookup (cfg : TunerConfig) (nBytes : UInt64) : Option AlgoProto :=
  if cfg.nchoices = 0 then none else cfg.nearest nBytes (cfg.upTo nBytes)

/-- `get_algo_proto` is the lookup in the table of the index. An entry may leave the
choice to the library too. -/
theorem getAlgoProto_lookup {cfgIndex : Int32} {collType : NcclFunc} {cfg : TunerConfig}
    (inside : ¬ (cfgIndex < 0 ∨ cfgIndex.toInt ≥ kTunerCfgNum))
    (found : tunerConfig collType cfgIndex.toInt.toNat = some cfg) (nBytes : UInt64) :
    getAlgoProto cfgIndex collType nBytes =
      ((cfg.lookup nBytes).map fun entry => (entry.algo, entry.proto)).getD
        (ncclAlgoUndef, ncclProtoUndef) := by
  unfold getAlgoProto TunerConfig.lookup
  rw [if_neg inside, found]
  dsimp only
  by_cases empty : cfg.nchoices = 0
  · rw [if_pos empty, if_pos empty]
    rfl
  · rw [if_neg empty, if_neg empty]
    cases cfg.nearest nBytes (cfg.upTo nBytes) <;> rfl

/-! ## The scan -/

/-- The scan stops inside the table. -/
theorem TunerConfig.upTo_le (cfg : TunerConfig) (nBytes : UInt64) :
    cfg.upTo nBytes ≤ cfg.nchoices - 1 := by
  have bound : cfg.upTo nBytes ≤ (List.range (cfg.nchoices - 1)).length :=
    List.findIdx_le_length
  rwa [List.length_range] at bound

/-- The thresholds that the scan has passed are below the size. -/
theorem TunerConfig.passed {cfg : TunerConfig} {nBytes : UInt64} {i : Nat}
    (before : i < cfg.upTo nBytes) : cfg.threshold i < nBytes.toNat := by
  have below := List.not_of_lt_findIdx before
  rw [List.getElem_range, decide_eq_false_iff_not, not_not] at below
  exact UInt64.lt_iff_toNat_lt.mp below

/-- Where the scan stops before the last entry, the threshold is not below the size. -/
theorem TunerConfig.stopped {cfg : TunerConfig} {nBytes : UInt64}
    (early : cfg.upTo nBytes < cfg.nchoices - 1) :
    nBytes.toNat ≤ cfg.threshold (cfg.upTo nBytes) := by
  have inside : cfg.upTo nBytes < (List.range (cfg.nchoices - 1)).length := by
    rwa [List.length_range]
  have holds := @List.findIdx_getElem _
    (fun i => decide (¬ (cfg.choice i).nbytes < nBytes)) (List.range (cfg.nchoices - 1)) inside
  simp only [List.getElem_range, decide_eq_true_iff, UInt64.lt_iff_toNat_lt] at holds
  exact Nat.le_of_not_lt holds

/-! ## The end of the lookup -/

section Words

variable {cfg : TunerConfig} (graded : cfg.Graded) (nBytes : UInt64)
include graded

/-- Three quarters of the first threshold, in 64 bits. -/
theorem TunerConfig.Graded.belowFirst :
    nBytes < (cfg.choice 0).nbytes * 3 / 4 ↔ 4 * nBytes.toNat < 3 * cfg.threshold 0 := by
  have bound := graded.bounded 0 graded.nonempty
  have quarter := graded.quartered 0 graded.nonempty
  unfold threshold at *
  rw [UInt64.lt_iff_toNat_lt, UInt64.toNat_div, UInt64.toNat_mul,
    show (3 : UInt64).toNat = 3 from rfl, show (4 : UInt64).toNat = 4 from rfl]
  omega

omit graded in
/-- `MIN` of two sizes. -/
theorem toNat_min (fewer more : UInt64) :
    (min fewer more).toNat = min fewer.toNat more.toNat := by
  change (if fewer ≤ more then fewer else more).toNat = _
  split
  next less => rw [Nat.min_eq_left (UInt64.le_iff_toNat_le.mp less)]
  next above =>
    rw [Nat.min_eq_right (Nat.le_of_not_le fun less => above (UInt64.le_iff_toNat_le.mpr less))]

/-- The end of the range behind the last threshold, in 64 bits. -/
theorem TunerConfig.Graded.behindLast :
    nBytes > (cfg.choice (cfg.nchoices - 1)).nbytes +
        min ((cfg.choice (cfg.nchoices - 1)).nbytes / 2) ((2 : UInt64) <<< 27) ↔
      cfg.threshold (cfg.nchoices - 1) +
        min (cfg.threshold (cfg.nchoices - 1) / 2) (2 ^ 28) < nBytes.toNat := by
  have nonempty := graded.nonempty
  have bound := graded.bounded (cfg.nchoices - 1) (by omega)
  unfold threshold at *
  rw [gt_iff_lt, UInt64.lt_iff_toNat_lt, UInt64.toNat_add, toNat_min, UInt64.toNat_div,
    show ((2 : UInt64) <<< 27).toNat = 2 ^ 28 from rfl, show (2 : UInt64).toNat = 2 from rfl]
  omega

/-- The middle between two thresholds, in 64 bits. -/
theorem TunerConfig.Graded.belowMiddle {i : Nat} (inside : i < cfg.nchoices) :
    nBytes < ((cfg.choice (i - 1)).nbytes + (cfg.choice i).nbytes) / 2 ↔
      2 * nBytes.toNat < cfg.threshold (i - 1) + cfg.threshold i := by
  have bound := graded.bounded i inside
  have boundBefore := graded.bounded (i - 1) (by omega)
  have quarter := graded.quartered i inside
  have quarterBefore := graded.quartered (i - 1) (by omega)
  unfold threshold at *
  rw [UInt64.lt_iff_toNat_lt, UInt64.toNat_div, UInt64.toNat_add,
    show (2 : UInt64).toNat = 2 from rfl]
  omega

end Words

/-- Outside the range of the table nothing is chosen: such a size stops the scan at the
first entry, or at the last one. -/
theorem TunerConfig.Graded.uncovered {cfg : TunerConfig} (graded : cfg.Graded) {nBytes : UInt64}
    (far : ¬ cfg.Covers nBytes) : cfg.lookup nBytes = none := by
  have nonempty := graded.nonempty
  have within := cfg.upTo_le nBytes
  unfold lookup nearest
  rw [if_neg (by omega)]
  simp only [graded.belowFirst nBytes, graded.behindLast nBytes]
  unfold Covers at far
  by_cases low : 4 * nBytes.toNat < 3 * cfg.threshold 0
  · have first : cfg.upTo nBytes = 0 := by
      by_contra later
      have below := cfg.passed (Nat.pos_of_ne_zero later)
      omega
    rw [if_pos ⟨first, low⟩]
  · have high : cfg.threshold (cfg.nchoices - 1) +
        min (cfg.threshold (cfg.nchoices - 1) / 2) (2 ^ 28) < nBytes.toNat := by omega
    have last : cfg.upTo nBytes = cfg.nchoices - 1 := by
      by_contra early
      have stop : nBytes.toNat ≤ cfg.threshold (cfg.upTo nBytes) := TunerConfig.stopped (by omega)
      have most := graded.growing.le within (by omega)
      omega
    rw [if_neg (fun both => low both.2), if_pos ⟨last, high⟩]

/-- Inside the range the nearest entry is chosen. -/
theorem TunerConfig.Graded.covered {cfg : TunerConfig} (graded : cfg.Graded) {nBytes : UInt64}
    (near : cfg.Covers nBytes) :
    ∃ i, NearestMark cfg.threshold cfg.nchoices nBytes.toNat i ∧
      cfg.lookup nBytes = some (cfg.choice i) := by
  have nonempty := graded.nonempty
  have within := cfg.upTo_le nBytes
  have inside : cfg.upTo nBytes < cfg.nchoices := by omega
  unfold lookup nearest
  rw [if_neg (by omega)]
  simp only [graded.belowFirst nBytes, graded.behindLast nBytes, graded.belowMiddle nBytes inside]
  unfold Covers at near
  rw [if_neg (by omega), if_neg (by omega)]
  by_cases nearer : cfg.upTo nBytes > 0 ∧
      2 * nBytes.toNat < cfg.threshold (cfg.upTo nBytes - 1) + cfg.threshold (cfg.upTo nBytes)
  · rw [if_pos nearer]
    obtain ⟨later, low⟩ := nearer
    -- the threshold before is below the size, so the middle before it is passed too
    have below : cfg.threshold (cfg.upTo nBytes - 1) < nBytes.toNat :=
      TunerConfig.passed (by omega)
    refine ⟨_, NearestMark.of_middles graded.growing (by omega) (fun positive => ?_)
      (fun _ => ?_), rfl⟩
    · have step := graded.growing (cfg.upTo nBytes - 1 - 1) (cfg.upTo nBytes - 1) (by omega)
        (by omega)
      omega
    · rw [Nat.sub_add_cancel later]
      omega
  · rw [if_neg nearer]
    refine ⟨_, NearestMark.of_middles graded.growing inside (fun positive => by omega)
      (fun more => ?_), rfl⟩
    have stop : nBytes.toNat ≤ cfg.threshold (cfg.upTo nBytes) := TunerConfig.stopped (by omega)
    have step := graded.growing (cfg.upTo nBytes) (cfg.upTo nBytes + 1) (by omega) more
    omega

/-- Entries of different thresholds are different, so the entry tells its index. -/
theorem TunerConfig.Graded.choice_inj {cfg : TunerConfig} (graded : cfg.Graded) {i j : Nat}
    (inside : i < cfg.nchoices) (insideOther : j < cfg.nchoices)
    (same : cfg.choice i = cfg.choice j) : i = j := by
  have thresholds : cfg.threshold i = cfg.threshold j := by unfold threshold; rw [same]
  rcases Nat.lt_trichotomy i j with less | equal | more
  · have step := graded.growing i j less insideOther
    omega
  · exact equal
  · have step := graded.growing j i more inside
    omega

/-- The tables of the plugin that have entries are graded. -/
theorem tables_graded : ∀ cfg ∈ allreduceTunerCfgs ++ reducescatterTunerCfgs ++ allgatherTunerCfgs,
    cfg.nchoices ≠ 0 → cfg.Graded := by
  have checked : ∀ cfg ∈ allreduceTunerCfgs ++ reducescatterTunerCfgs ++ allgatherTunerCfgs,
      ∀ j, j < cfg.nchoices → (∀ i, i < j → cfg.threshold i < cfg.threshold j) ∧
        4 ∣ cfg.threshold j ∧ cfg.threshold j ≤ 2 ^ 30 := by
    decide +kernel
  intro cfg member nonempty
  exact ⟨Nat.one_le_iff_ne_zero.mpr nonempty,
    fun i j less inside => (checked cfg member j inside).1 i less,
    fun i inside => (checked cfg member i inside).2.1,
    fun i inside => (checked cfg member i inside).2.2⟩

/-- The lookup of the tuner chooses nothing exactly outside the range of the table, and
the entry of the nearest threshold inside it; so a larger size has no earlier entry. -/
theorem tuner_choice {cfg : TunerConfig} (graded : cfg.Graded) :
    (∀ nBytes, cfg.lookup nBytes = none ↔ ¬ cfg.Covers nBytes) ∧
    (∀ nBytes, cfg.Covers nBytes → ∃ i,
      NearestMark cfg.threshold cfg.nchoices nBytes.toNat i ∧
        cfg.lookup nBytes = some (cfg.choice i)) ∧
    (∀ nBytes more i j, nBytes ≤ more → i < cfg.nchoices → j < cfg.nchoices →
      cfg.lookup nBytes = some (cfg.choice i) → cfg.lookup more = some (cfg.choice j) →
      i ≤ j) := by
  refine ⟨fun nBytes => ⟨fun none near => ?_, graded.uncovered⟩,
    fun nBytes near => graded.covered near, ?_⟩
  · obtain ⟨i, -, some⟩ := graded.covered near
    rw [none] at some
    cases some
  · intro nBytes more i j grown inside insideMore chosen chosenMore
    have nearestOf : ∀ {size : UInt64} {k}, k < cfg.nchoices →
        cfg.lookup size = some (cfg.choice k) →
        NearestMark cfg.threshold cfg.nchoices size.toNat k := by
      intro size k known chosen
      have near : cfg.Covers size := by
        by_contra far
        rw [graded.uncovered far] at chosen
        cases chosen
      obtain ⟨l, nearest, entry⟩ := graded.covered near
      rw [chosen, Option.some.injEq] at entry
      rwa [graded.choice_inj known nearest.inside entry]
    exact (nearestOf inside chosen).mono graded.growing (nearestOf insideMore chosenMore)
      (UInt64.le_iff_toNat_le.mp grown)

/-- The table for two nodes, whose two thresholds are a megabyte and eight. -/
def twoNodes : TunerConfig :=
  { nranks := 16, nnodes := 2, nchoices := 2, apChoices := [
      ⟨ncclAlgoTree, ncclProtoLl128, (1 : UInt64) <<< 20⟩,
      ⟨ncclAlgoTree, ncclProtoLl128, (1 : UInt64) <<< 23⟩] }

/-- In the table for two nodes: too few bytes, the first threshold, and the middle between
the two, which gets the larger one. -/
theorem tuner_choice_twoNodes :
    twoNodes.lookup 0 = none ∧
    twoNodes.lookup 1048576 = some (twoNodes.choice 0) ∧
    twoNodes.lookup 4718592 = some (twoNodes.choice 1) ∧
    ∃ i, NearestMark twoNodes.threshold twoNodes.nchoices 4718592 i ∧
      twoNodes.lookup 4718592 = some (twoNodes.choice i) := by
  have graded := tables_graded twoNodes (by decide +kernel) (by decide)
  exact ⟨((tuner_choice graded).1 0).mpr (by decide +kernel), by decide +kernel,
    by decide +kernel, (tuner_choice graded).2.1 4718592 (by decide +kernel)⟩

end NcclExts.Utuner
