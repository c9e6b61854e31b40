import NcclExts.Ucommd.RoundTrip

/-!
# Segments in any state

The monitor finds a segment at any time, also while the process still writes it, and what
it finds need not come from such a process at all. It takes the file for what it says
unless it cannot be mapped, and so all depends on the bytes: on a text for the time that
is a number, on counts that keep the records and the counters inside the file, and on
names that are already there.
-/

namespace NcclExts.Ucommd

open NcclExts.Foundation

/-- The records and the counters of an info lie inside its mapping, the counters from
its data pointer on. -/
structure InMapping (info : StatsShmInfo) : Prop where
  descs : sizeofMeta + sizeofDesc * info.counterNum.toNat ≤ info.size
  data : info.data =
    info.addr + UInt64.ofNat sizeofMeta + UInt64.ofNat sizeofDesc * info.counterNum
  cells : sizeofMeta + sizeofDesc * info.counterNum.toNat +
    8 * (info.counterNum.toNat * info.statNum.toNat) ≤ info.size

/-- The check either refuses the file with a code, or accepts it with its ranges inside
the mapping and with the names that the process publishes. -/
def Robust (names : List Bytes) (shm : Bytes) (answers : FileAnswers) : Prop :=
  match checkStats shm answers with
  | .ok (code, none) => code ≠ 0
  | .ok (_, some info) => InMapping info ∧ info.desc = names
  | .error _ => False

/-- The file cannot be accessed, opened or mapped; an empty file is one that cannot be
mapped. -/
def Unreadable (shm : Bytes) (answers : FileAnswers) : Prop :=
  shm = [] ∨ answers.content = none ∨ answers.opened = false ∨ answers.content = some [] ∨
    answers.mapped = none

/-- The bytes of a segment are in order: the texts of the metadata end, the time is a
number, the counts, taken as words, keep the records and the counters inside the file,
and the records hold the names. -/
structure InOrder (names : List Bytes) (file : Bytes) : Prop where
  shm : (textAt nul (pages file) metaShm).isSome
  time : ((textAt nul (pages file) metaTime).bind stoi).isSome
  cells : sizeofMeta + sizeofDesc * (toSizeT (intAt (pages file) metaCounterNum)).toNat +
    8 * ((toSizeT (intAt (pages file) metaCounterNum)).toNat *
      (toSizeT (intAt (pages file) metaStatNum)).toNat) ≤ file.length
  count : (intAt (pages file) metaCounterNum).toInt.toNat = names.length
  names : ∀ i (inside : i < names.length),
    textAt nul (pages file) (sizeofMeta + sizeofDesc * i) = some names[i]

/-- What the names are that are read one after the other. -/
theorem readDescs_eq_some {memory : Bytes} {i count : Nat} {names : List Bytes}
    (read : readDescs memory i count = some names) : names.length = count ∧
      ∀ j (inside : j < names.length),
        textAt nul memory (sizeofMeta + sizeofDesc * (i + j)) = some names[j] := by
  induction count generalizing i names with
  | zero =>
    rw [readDescs, Option.some.injEq] at read
    subst read
    exact ⟨rfl, fun j inside => absurd inside (Nat.not_lt_zero j)⟩
  | succ count ih =>
    simp only [readDescs, Option.bind_eq_bind, Option.bind_eq_some_iff, Option.pure_def,
      Option.some.injEq] at read
    obtain ⟨name, first, rest, later, rfl⟩ := read
    obtain ⟨length, found⟩ := ih later
    constructor
    · rw [List.length_cons, length]
    · intro j inside
      cases j with
      | zero => exact first
      | succ j =>
        have next := found j (by simpa using inside)
        rwa [Nat.add_assoc, Nat.add_comm 1 j] at next

/-- What the monitor makes of a mapped file is all right exactly when the bytes are in
order. -/
theorem readSegment_iff (names : List Bytes) (shm file : Bytes) (addr : UInt64) :
    (∃ info, readSegment shm file addr = .ok info ∧ InMapping info ∧ info.desc = names) ↔
      InOrder names file := by
  constructor
  · rintro ⟨info, read, mapping, listed⟩
    simp only [readSegment] at read
    split at read
    · rename_i text time isText isTime
      split at read
      · simp at read
      · rename_i value isValue
        split at read
        · simp at read
        · rename_i desc isDesc
          simp only [Except.ok.injEq] at read
          subst read
          simp only at listed
          subst listed
          obtain ⟨length, found⟩ := readDescs_eq_some isDesc
          constructor
          · rw [isText, Option.isSome_some]
          · rw [isTime, Option.bind_some, isValue, Option.isSome_some]
          · exact mapping.cells
          · exact length.symm
          · intro i inside
            have read := found i inside
            rwa [Nat.zero_add] at read
    · simp at read
  · intro order
    obtain ⟨text, isText⟩ := Option.isSome_iff_exists.mp order.shm
    obtain ⟨value, isValue⟩ := Option.isSome_iff_exists.mp order.time
    obtain ⟨time, isTime, isValue⟩ := Option.bind_eq_some_iff.mp isValue
    have read : readDescs (pages file) 0 names.length = some names := by
      apply ShmSource.readDescs_eq
      intro j inside
      rw [Nat.zero_add]
      exact order.names j inside
    simp only [readSegment, isText, isTime, isValue, order.count, read]
    refine ⟨_, rfl, ?_, rfl⟩
    constructor
    · exact le_trans (Nat.le_add_right _ _) order.cells
    · rfl
    · exact order.cells

/-- A file that cannot be read is refused. -/
theorem Unreadable.refused {shm : Bytes} {answers : FileAnswers}
    (unreadable : Unreadable shm answers) :
    ∃ code, code ≠ 0 ∧ checkStats shm answers = .ok (code, none) := by
  by_cases unnamed : shm = []
  · exact ⟨1, by decide, by rw [checkStats, if_pos unnamed]⟩
  · rcases isFile : answers.content with _ | file
    · exact ⟨-1, by decide, by simp only [checkStats, if_neg unnamed, isFile]⟩
    · by_cases closed : answers.opened = false
      · exact ⟨1, by decide, by simp only [checkStats, if_neg unnamed, isFile, if_pos closed]⟩
      · by_cases empty : file = []
        · exact ⟨-1, by decide, by
            simp only [checkStats, if_neg unnamed, isFile, if_neg closed, if_pos empty]⟩
        · have unmapped : answers.mapped = none := by
            rcases unreadable with named | missing | shut | cleared | unmapped
            · exact absurd named unnamed
            · rw [isFile] at missing
              simp at missing
            · exact absurd shut closed
            · rw [isFile, Option.some.injEq] at cleared
              exact absurd cleared empty
            · exact unmapped
          exact ⟨-1, by decide, by
            simp only [checkStats, if_neg unnamed, isFile, if_neg closed, if_neg empty, unmapped]⟩

/-- Any other file is read. -/
theorem checkStats_read {shm : Bytes} {answers : FileAnswers}
    (readable : ¬ Unreadable shm answers) : ∃ file addr, answers.content = some file ∧
      checkStats shm answers = (readSegment shm file addr).map fun info => (0, some info) := by
  simp only [Unreadable, not_or] at readable
  obtain ⟨named, found, opened, some, mapped⟩ := readable
  obtain ⟨file, isFile⟩ := Option.ne_none_iff_exists'.mp found
  obtain ⟨addr, isAddr⟩ := Option.ne_none_iff_exists'.mp mapped
  have filled : file ≠ [] := by
    rintro rfl
    exact some isFile
  refine ⟨file, addr, isFile, ?_⟩
  simp only [checkStats, if_neg named, isFile, if_neg opened, if_neg filled, isAddr]

/-- To refuse a file is robust. -/
theorem Unreadable.robust {shm : Bytes} {answers : FileAnswers} (names : List Bytes)
    (unreadable : Unreadable shm answers) : Robust names shm answers := by
  obtain ⟨code, failed, checked⟩ := unreadable.refused
  rw [Robust, checked]
  exact failed

/-- Of a file that is read the bytes must be in order. -/
theorem robust_iff_inOrder (names : List Bytes) {shm : Bytes} {answers : FileAnswers}
    (readable : ¬ Unreadable shm answers) : ∃ file, answers.content = some file ∧
      (Robust names shm answers ↔ InOrder names file) := by
  obtain ⟨file, addr, isFile, checked⟩ := checkStats_read readable
  have accepted : Robust names shm answers ↔
      ∃ info, readSegment shm file addr = .ok info ∧ InMapping info ∧ info.desc = names := by
    rw [Robust, checked]
    cases readSegment shm file addr with
    | error fault => simp [Except.map]
    | ok info => simp [Except.map]
  exact ⟨file, isFile, accepted.trans (readSegment_iff names shm file addr)⟩

/-! ## While the process writes -/

namespace ShmSource

variable {source : ShmSource}

/-- A segment that is cleared and not stamped yet has no time, and the check throws. -/
theorem Fits.readSegment_zeroed (fits : source.Fits) (shm : Bytes) (addr : UInt64) :
    readSegment shm source.zeroed addr = .error .threw := by
  have long := length_resized source
  have length := length_zeroed source
  have total := fits.totalSize
  have size : sizeofMeta = 536 := rfl
  have text {offset : Nat} (inside : offset + 1 ≤ sizeofMeta) :
      textAt nul (pages source.zeroed) offset = some [] := by
    have read : slice (pages source.zeroed) offset 1 = [] ++ nul :: [] := by
      rw [pages, slice_append (by omega), slice_zeroed (by omega)]
      rfl
    exact textAt_of_slice List.not_mem_nil read
  have unread : stoi [] = none := by decide
  have shmText : textAt nul (pages source.zeroed) metaShm = some [] := text (by decide)
  have timeText : textAt nul (pages source.zeroed) metaTime = some [] := text (by decide)
  simp only [readSegment, shmText, timeText, unread]

/-- Once a segment is stamped, its bytes are in order as soon as the names that are
missing are empty. -/
theorem Fits.inOrder_described_iff (fits : source.Fits) (plain : source.Plain)
    (readable : source.Readable) (count : Nat) :
    InOrder source.counterList (source.contents (.described count)) ↔
      ∀ name ∈ source.counterList.drop count, name = [] := by
  have long := fits.length_described count
  have total := fits.totalSize
  have counters := fits.numCounters
  have cells : sizeofMeta + sizeofDesc * source.numCounters.toNat +
      8 * (source.numCounters.toNat * source.numStats.toNat) ≤
        (source.contents (.described count)).length := by
    rw [counters, ← Nat.mul_assoc, ← total]
    exact long
  have mapping : InMapping (source.seenInfo count 0) := by
    have stats : (source.seenInfo count 0).statNum = source.numStats :=
      toSizeT_toInt readable.stats
    constructor
    · exact le_trans (Nat.le_add_right _ _) cells
    · rfl
    · rw [stats]
      exact cells
  have listed : source.seenNames count = source.counterList ↔
      ∀ name ∈ source.counterList.drop count, name = [] := by
    have front : (source.counterList.take count).map (upTo nul) =
        source.counterList.take count := by
      have same : ∀ counter ∈ source.counterList.take count, upTo nul counter = counter := by
        intro counter member
        exact upTo_of_notMem (readable.counters counter (List.mem_of_mem_take member))
      rw [List.map_congr_left same, List.map_id']
    have halves : source.seenNames count = source.counterList ↔
        List.replicate (source.counterList.length - count) [] = source.counterList.drop count := by
      have whole := List.take_append_drop count source.counterList
      rw [seenNames, front]
      constructor
      · intro same
        exact List.append_cancel_left (same.trans whole.symm)
      · intro same
        rw [same, whole]
    rw [halves, eq_comm, List.eq_replicate_iff, List.length_drop]
    exact and_iff_right rfl
  rw [← readSegment_iff source.counterList source.fileName _ 0,
    fits.readSegment_described plain count 0, ← listed]
  constructor
  · rintro ⟨info, same, _, names⟩
    rwa [← Except.ok.inj same] at names
  · intro names
    exact ⟨_, rfl, mapping, names⟩

/-- Of the stages of `init` on a new file the monitor gets through the first, in which the
file is empty, and from the metadata on those in which no name is missing but empty
ones. -/
theorem Fits.stage_robust_iff (fits : source.Fits) (plain : source.Plain)
    (readable : source.Readable) (new : source.old = []) (stage : InitStage) (addr : UInt64) :
    Robust source.counterList source.fileName ⟨some (source.contents stage), true, some addr⟩ ↔
      match stage with
      | .created => True
      | .resized => False
      | .zeroed => False
      | .stamped => ∀ name ∈ source.counterList, name = []
      | .described count => ∀ name ∈ source.counterList.drop count, name = [] := by
  have cleared : source.resized = source.zeroed := by
    rw [zeroed, resized, new, List.nil_append, List.length_nil, Nat.sub_zero, overwrite]
    simp
  have named : source.fileName ≠ [] := plain.fileName_ne_nil readable.toNamed
  have filled {file : Bytes} (long : 0 < file.length) : ¬ Unreadable source.fileName
      ⟨some file, true, some addr⟩ := by
    have some : file ≠ [] := List.length_pos_iff.mp long
    simp [Unreadable, named, some]
  have size : sizeofMeta = 536 := rfl
  have total := fits.totalSize
  have long := length_resized source
  have throws : ¬ Robust source.counterList source.fileName
      ⟨some source.zeroed, true, some addr⟩ := by
    have some : 0 < source.zeroed.length := by
      rw [length_zeroed]
      omega
    obtain ⟨file, other, isFile, checked⟩ := checkStats_read (filled some)
    rw [Robust, checked, ← Option.some.inj isFile, fits.readSegment_zeroed]
    exact not_false
  have written (count : Nat) : Robust source.counterList source.fileName
      ⟨some (source.contents (.described count)), true, some addr⟩ ↔
      ∀ name ∈ source.counterList.drop count, name = [] := by
    have behind := fits.length_described count
    have some : 0 < (source.contents (.described count)).length := by omega
    obtain ⟨file, isFile, robust⟩ := robust_iff_inOrder source.counterList (filled some)
    rw [robust, ← Option.some.inj isFile]
    exact fits.inOrder_described_iff plain readable count
  cases stage with
  | created =>
    have unreadable : Unreadable source.fileName ⟨some [], true, some addr⟩ :=
      .inr (.inr (.inr (.inl rfl)))
    rw [contents, new]
    exact iff_of_true (unreadable.robust _) trivial
  | resized =>
    rw [contents, cleared]
    exact iff_of_false throws not_false
  | zeroed => exact iff_of_false throws not_false
  | stamped => exact written 0
  | described count => exact written count

end ShmSource

/-! ## Robustness -/

/-- The check is robust exactly on files that cannot be read and on segments whose bytes
are in order. -/
theorem segment_robust_iff (names : List Bytes) (shm : Bytes) (answers : FileAnswers) :
    Robust names shm answers ↔ Unreadable shm answers ∨
      ∃ file, answers.content = some file ∧ InOrder names file := by
  by_cases unreadable : Unreadable shm answers
  · exact iff_of_true (unreadable.robust names) (.inl unreadable)
  · obtain ⟨file, isFile, robust⟩ := robust_iff_inOrder names unreadable
    rw [robust, or_iff_right unreadable, isFile]
    simp only [Option.some.injEq, exists_eq_left']

/-- The check throws at a segment that is only cleared, and accepts one of whose two names
the second is missing. -/
theorem segment_half_written :
    checkStats (sampleSource 1 [ascii "a", ascii "b"]).fileName
        ⟨some ((sampleSource 1 [ascii "a", ascii "b"]).contents .zeroed), true, some 0⟩ =
      .error .threw ∧
    ∃ info, checkStats (sampleSource 1 [ascii "a", ascii "b"]).fileName
        ⟨some ((sampleSource 1 [ascii "a", ascii "b"]).contents (.described 1)), true, some 0⟩ =
      .ok (0, some info) ∧ info.desc = [ascii "a", []] := by
  have plain : (sampleSource 1 [ascii "a", ascii "b"]).Plain := by constructor <;> decide
  have fits : (sampleSource 1 [ascii "a", ascii "b"]).Fits := ⟨by decide⟩
  have named : (sampleSource 1 [ascii "a", ascii "b"]).Named := by constructor <;> decide
  have some : (sampleSource 1 [ascii "a", ascii "b"]).fileName ≠ [] :=
    plain.fileName_ne_nil named
  constructor
  · have filled : (sampleSource 1 [ascii "a", ascii "b"]).zeroed ≠ [] := by decide
    simp only [ShmSource.contents, checkStats, if_neg some, if_neg filled, Bool.true_eq_false,
      if_false, fits.readSegment_zeroed]
    rfl
  · exact ⟨_, fits.checkStats_described plain named 1 0, by decide⟩

end NcclExts.Ucommd
