import NcclExts.Ucommd.Monitor

/-!
# A segment is read as it was written

The monitor takes a segment apart by offsets and field numbers of its own. For plain
names, in which neither the separator of file names nor the terminator of C strings
occurs, it finds what the process put there, and its counters are the cells that the
stats of the process write to.
-/

namespace NcclExts.Ucommd

open NcclExts.Foundation

/-! ## The file name -/

namespace ShmSource

/-- The sources whose names have no separator or are short, and whose numbers are of
type `int`. -/
structure Plain (source : ShmSource) : Prop where
  id : dot ∉ source.id
  name : dot ∉ source.name
  counters : ∀ counter ∈ source.counterList, counter.length < descLenMax
  time : -2 ^ 31 ≤ source.time ∧ source.time < 2 ^ 31
  pid : source.pid < 2 ^ 31

/-- The name of the segment has no zero in it. -/
structure Named (source : ShmSource) : Prop where
  id : nul ∉ source.id
  name : nul ∉ source.name

/-- Nor has that of a counter, and the number of stats is an `int`. -/
structure Readable (source : ShmSource) : Prop extends Named source where
  counters : ∀ counter ∈ source.counterList, nul ∉ counter
  stats : source.numStats.toNat < 2 ^ 31

/-- Every byte of a pointer is a digit or a letter. -/
theorem notMem_pointerText {byte : UInt8} (front : byte < 48) (pointer : UInt64) :
    byte ∉ pointerText pointer := by
  intro member
  rcases List.mem_append.mp member with zeroX | digits
  · have listed : ascii "0x" = [48, 120] := by decide
    rw [listed] at zeroX
    simp only [List.mem_cons, List.not_mem_nil, or_false] at zeroX
    rcases zeroX with rfl | rfl <;> simp at front
  · obtain ⟨digit, inside, rfl⟩ := List.mem_map.mp digits
    have listed := List.mem_reverse.mp ((List.dropWhile_sublist _).subset inside)
    have small := digitsLE_lt (by decide) 16 _ digit listed
    have above : ∀ digit < 16, ¬ byteOf (Nat.digitChar digit) < 48 := by decide
    exact above digit small front

theorem pointerText_ne_nil (pointer : UInt64) : pointerText pointer ≠ [] := by
  have listed : ascii "0x" = [48, 120] := by decide
  rw [pointerText, listed]
  exact List.cons_ne_nil _ _

section

variable {source : ShmSource}

/-- A plain name ends nowhere before its end. -/
theorem Named.shm (named : source.Named) : nul ∉ source.shm := by
  have front : nul ∉ kPrefix := by decide
  have process : nul ∉ decimal source.pid := notMem_decimal (by decide) source.pid
  have address : nul ∉ pointerText source.this := notMem_pointerText (by decide) source.this
  have id := named.id
  have name := named.name
  simp only [ShmSource.shm, List.mem_append, List.mem_singleton, not_or]
  have apart : nul ≠ dot := by decide
  exact ⟨⟨⟨⟨⟨⟨⟨front, id⟩, apart⟩, name⟩, apart⟩, process⟩, apart⟩, address⟩

/-- The file has the name of the segment. -/
theorem Named.fileName (named : source.Named) : source.fileName = source.shm :=
  upTo_of_notMem named.shm

/-- The fields of the name of a segment. -/
theorem Plain.fields_shm (plain : source.Plain) : fields dot source.shm =
    [[], ascii "ucommd_stats", source.id, source.name, decimal source.pid,
      pointerText source.this] := by
  have front : kPrefix = [] ++ dot :: (ascii "ucommd_stats" ++ [dot]) := by decide
  have label : dot ∉ ascii "ucommd_stats" := by decide
  have process : dot ∉ decimal source.pid := notMem_decimal (by decide) source.pid
  have address : dot ∉ pointerText source.this := notMem_pointerText (by decide) source.this
  have joined : source.shm = [] ++ dot :: (ascii "ucommd_stats" ++ dot :: (source.id ++
      dot :: (source.name ++ dot :: (decimal source.pid ++ dot :: pointerText source.this)))) := by
    rw [ShmSource.shm, front]
    simp
  rw [joined, fields_append List.not_mem_nil, fields_append label, fields_append plain.id,
    fields_append plain.name, fields_append process, fields_last address (pointerText_ne_nil _)]

/-- The number of a process is read back from its field. -/
theorem atoi_decimal {pid : Nat} (small : pid < 2 ^ 31) : atoi (decimal pid) = Int32.ofNat pid := by
  have inside : max (-2 ^ 63) (min (2 ^ 63 - 1) (pid : Int)) = pid := by omega
  rw [atoi, scanInt_decimal]
  simp only [inside]
  rfl

/-- A time is read back from its text. -/
theorem stoi_signedDecimal {time : Int} (range : -2 ^ 31 ≤ time ∧ time < 2 ^ 31) :
    stoi (signedDecimal time) = some (Int32.ofInt time) := by
  rw [stoi, scanInt_signedDecimal, Option.bind_some, if_pos range]

/-! ## The bytes -/

/-- A word below the range of `int` is what it is converted to and back. -/
theorem toSizeT_toInt {value : UInt64} (small : value.toNat < 2 ^ 31) :
    toSizeT (toInt value) = value := by
  have same := toInt_of_lt small
  apply UInt64.toNat_inj.mp
  rw [toNat_toSizeT_of_nonneg (by omega), same, Int.toNat_natCast]

/-- The time is shorter than its field. -/
theorem length_signedDecimal {time : Int} (range : -2 ^ 31 ≤ time ∧ time < 2 ^ 31) :
    (signedDecimal time).length < nameLenMax - 1 := by
  have digits : (decimal time.natAbs).length ≤ 10 := by
    rw [decimal, List.length_map]
    exact Nat.toDigits_length 10 time.natAbs 10 (by decide) (by omega)
  have room : nameLenMax - 1 = 127 := rfl
  rw [signedDecimal, room]
  split
  · rw [List.length_cons]
    omega
  · omega

theorem notMem_signedDecimal (time : Int) : nul ∉ signedDecimal time := by
  have digits : nul ∉ decimal time.natAbs := notMem_decimal (by decide) _
  rw [signedDecimal]
  split
  · rw [List.mem_cons, not_or]
    exact ⟨by decide, digits⟩
  · exact digits

/-- A file of a segment that is stamped has room for all its cells. -/
theorem Fits.length_described (fits : source.Fits) (count : Nat) :
    source.totalSize.toNat ≤ (source.contents (.described count)).length := by
  have few : (source.counterList.take count).length ≤ source.counterList.length := by simp
  have long := length_resized source
  have kept := length_overwriteAll (fits.descRecords_fit few)
  have same : (source.contents (.described count)).length = source.resized.length :=
    kept.trans fits.length_stamped
  omega

/-- A field of the metadata, in memory. -/
theorem Fits.memory_meta (fits : source.Fits) (count : Nat) {record : Nat × Bytes}
    (member : record ∈ source.metaRecords) :
    slice (pages (source.contents (.described count))) record.1 record.2.length = record.2 := by
  have long := fits.length_described count
  have total := fits.totalSize
  have within := metaRecords_fit source record member
  rw [Vector.length_toList] at within
  rw [pages, slice_append (by omega)]
  exact fits.slice_described_meta count member

/-- The time is found in memory, and so is some text at the front. -/
theorem Fits.memory_texts (fits : source.Fits) (plain : source.Plain) (count : Nat) :
    textAt nul (pages (source.contents (.described count))) metaTime =
        some (signedDecimal source.time) ∧
      (textAt nul (pages (source.contents (.described count))) metaShm).isSome := by
  have listed : (metaTime, padded nul (nameLenMax - 1) (signedDecimal source.time)) ∈
      source.metaRecords := by simp [metaRecords]
  have field := fits.memory_meta count listed
  rw [length_padded, padded_of_lt (notMem_signedDecimal _) (length_signedDecimal plain.time)]
    at field
  constructor
  · exact textAt_of_slice (notMem_signedDecimal _) field
  · have inside : nul ∈ pages (source.contents (.described count)) := by
      have read : nul ∈ slice (pages (source.contents (.described count))) metaTime
          (nameLenMax - 1) := by
        rw [field]
        simp
      exact List.mem_of_mem_drop (List.mem_of_mem_take read)
    rw [textAt, metaShm, List.drop_zero, if_pos inside, Option.isSome_some]

/-- A name that is written is found in memory up to its first zero, and where none is
written, no text. -/
theorem Fits.memory_desc (fits : source.Fits) (plain : source.Plain) (count : Nat) {i : Nat}
    (inside : i < source.counterList.length) :
    textAt nul (pages (source.contents (.described count))) (sizeofMeta + sizeofDesc * i) =
      some (if i < count then upTo nul source.counterList[i] else []) := by
  have long := fits.length_described count
  have total := fits.totalSize
  have read := fits.slice_described count inside
  rw [sizeofDesc] at total
  have room : sizeofMeta + sizeofDesc * i + sizeofDesc ≤
      (source.contents (.described count)).length := by
    rw [sizeofDesc]
    omega
  rw [← slice_append room, ← pages] at read
  split at read
  · rename_i early
    have short := plain.counters _ (List.getElem_mem inside)
    have shorter : (upTo nul source.counterList[i]).length ≤ source.counterList[i].length :=
      length_upTo_le _
    have ends : nul ∉ upTo nul source.counterList[i] := notMem_upTo _
    rw [← padded_upTo, padded_append_stop ends (by omega)] at read
    rw [if_pos early]
    exact textAt_of_slice ends read
  · rename_i late
    have cleared : List.replicate (descLenMax - 1) 0 ++ [nul] =
        [] ++ nul :: List.replicate (descLenMax - 1) 0 := by decide
    rw [cleared] at read
    rw [if_neg late]
    exact textAt_of_slice List.not_mem_nil read

/-- Names that are found one after the other are read. -/
theorem readDescs_eq {memory : Bytes} {names : List Bytes} {i : Nat}
    (found : ∀ j (inside : j < names.length),
      textAt nul memory (sizeofMeta + sizeofDesc * (i + j)) = some names[j]) :
    readDescs memory i names.length = some names := by
  induction names generalizing i with
  | nil => rfl
  | cons name rest ih =>
    have first := found 0 (by simp)
    have later := ih (i := i + 1) (fun j inside => by
      have next := found (j + 1) (by simpa using inside)
      rwa [List.getElem_cons_succ, ← Nat.add_assoc, Nat.add_right_comm] at next)
    rw [Nat.add_zero, List.getElem_cons_zero] at first
    rw [List.length_cons, readDescs, first, later]
    rfl

/-- The names of the counters as the monitor finds them when so many are written. -/
def seenNames (source : ShmSource) (count : Nat) : List Bytes :=
  (source.counterList.take count).map (upTo nul) ++
    List.replicate (source.counterList.length - count) []

theorem seenNames_getElem? (source : ShmSource) (count : Nat) {i : Nat}
    (inside : i < source.counterList.length) : (source.seenNames count)[i]? =
      some (if i < count then upTo nul source.counterList[i] else []) := by
  have front : ((source.counterList.take count).map (upTo nul)).length =
      min count source.counterList.length := by
    rw [List.length_map, List.length_take]
  rw [seenNames]
  split
  · rename_i early
    rw [List.getElem?_append_left (by omega), List.getElem?_map, List.getElem?_take_of_lt early,
      List.getElem?_eq_getElem inside, Option.map_some]
  · rename_i late
    rw [List.getElem?_append_right (by omega), List.getElem?_replicate, if_pos (by omega)]

theorem length_seenNames (source : ShmSource) (count : Nat) :
    (source.seenNames count).length = source.counterList.length := by
  rw [seenNames, List.length_append, List.length_map, List.length_take, List.length_replicate]
  omega

/-- Once all names are written they are seen as they are. -/
theorem Readable.seenNames_all (readable : source.Readable) :
    source.seenNames source.counterList.length = source.counterList := by
  rw [seenNames, List.take_length, Nat.sub_self, List.replicate_zero, List.append_nil]
  have same : ∀ counter ∈ source.counterList, upTo nul counter = counter := by
    intro counter member
    exact upTo_of_notMem (readable.counters counter member)
  rw [List.map_congr_left same, List.map_id']

/-- The info of a segment whose metadata and so many names are written. -/
def seenInfo (source : ShmSource) (count : Nat) (addr : UInt64) : StatsShmInfo where
  shm := source.fileName
  time := Int32.ofInt source.time
  addr := addr
  size := (source.contents (.described count)).length
  desc := source.seenNames count
  data := addr + UInt64.ofNat sizeofMeta + UInt64.ofNat sizeofDesc * source.numCounters
  counterNum := source.numCounters
  statNum := toSizeT (toInt source.numStats)

/-- What the monitor makes of a segment whose metadata is written. -/
theorem Fits.readSegment_described (fits : source.Fits) (plain : source.Plain) (count : Nat)
    (addr : UInt64) :
    readSegment source.fileName (source.contents (.described count)) addr =
      .ok (source.seenInfo count addr) := by
  obtain ⟨timeText, shmText⟩ := fits.memory_texts plain count
  obtain ⟨text, isText⟩ := Option.isSome_iff_exists.mp shmText
  have total := fits.total
  rw [sizeofDesc] at total
  have counted := fits.numCounters
  have small : source.numCounters.toNat < 2 ^ 31 := by omega
  have counters : intAt (pages (source.contents (.described count))) metaCounterNum =
      toInt source.numCounters := by
    have listed : (metaCounterNum, intBytes (toInt source.numCounters)) ∈ source.metaRecords := by
      simp [metaRecords]
    have field := fits.memory_meta count listed
    rw [length_intBytes] at field
    exact intAt_of_slice field
  have stats : intAt (pages (source.contents (.described count))) metaStatNum =
      toInt source.numStats := by
    have listed : (metaStatNum, intBytes (toInt source.numStats)) ∈ source.metaRecords := by
      simp [metaRecords]
    have field := fits.memory_meta count listed
    rw [length_intBytes] at field
    exact intAt_of_slice field
  have number : (toInt source.numCounters).toInt.toNat = (source.seenNames count).length := by
    rw [toInt_of_lt (by omega), Int.toNat_natCast, counted, length_seenNames]
  have names : readDescs (pages (source.contents (.described count))) 0
      (source.seenNames count).length = some (source.seenNames count) := by
    apply readDescs_eq
    intro j inside
    rw [length_seenNames] at inside
    have seen := seenNames_getElem? source count inside
    obtain ⟨below, same⟩ := List.getElem?_eq_some_iff.mp seen
    rw [Nat.zero_add, fits.memory_desc plain count inside, same]
  simp only [readSegment, isText, timeText, stoi_signedDecimal plain.time, counters, stats, number,
    names, toSizeT_toInt small]
  rfl

end

end ShmSource

/-! ## The round trip -/

/-- `data[s * counter_num + c]` of the monitor. -/
def StatsShmInfo.cell (info : StatsShmInfo) (s c : UInt64) : UInt64 :=
  info.data + Stat.offset (s * info.counterNum + c)

/-- The monitor knows a segment as the process made it: by its name and process, with
the counters in order, and with the cells of each stat where the stat has them. -/
structure ReadBack (source : ShmSource) (shm : StatsShm) (info : StatsShmInfo) : Prop where
  stats : statsName info.shm = some source.name
  pid : (statsPidField info.shm).map atoi = some (Int32.ofNat source.pid)
  names : info.desc = source.counterList
  counterNum : info.counterNum.toNat = source.counterList.length
  statNum : info.statNum = source.numStats
  cells : ∀ id : Int32, ∀ c : UInt64,
    info.cell (toSizeT id) c - info.addr = (shm.object id).cell c - source.addr
  named : source.counterList.Nodup → ∀ id : Int32, ∀ c (inside : c < source.counterList.length),
    (shm.object id).find source.counterList[c] = some ((shm.object id).cell (UInt64.ofNat c))

namespace ShmSource

variable {source : ShmSource}

/-- A segment has a name of the form that the monitor looks for. -/
theorem Plain.isStats (plain : source.Plain) (named : source.Named)
    (answers : FileAnswers) : (DirEntry.mk source.fileName true answers).IsStats ∧
      statsName source.fileName = some source.name ∧
      statsPidField source.fileName = some (decimal source.pid) := by
  have front : kPrefix.isPrefixOf source.shm = true := by
    rw [List.isPrefixOf_iff_prefix, ShmSource.shm]
    simp only [List.append_assoc]
    exact List.prefix_append _ _
  rw [statsName, statsPidField, named.fileName, plain.fields_shm]
  exact ⟨⟨rfl, front⟩, rfl, rfl⟩

/-- The file of a segment has a name. -/
theorem Plain.fileName_ne_nil (plain : source.Plain) (named : source.Named) :
    source.fileName ≠ [] := by
  intro empty
  have read := plain.fields_shm
  rw [← named.fileName, empty] at read
  simp [fields] at read

/-- The monitor checks the segment as it is, and reads it. -/
theorem Fits.checkStats_described (fits : source.Fits) (plain : source.Plain)
    (named : source.Named) (count : Nat) (addr : UInt64) :
    checkStats source.fileName ⟨some (source.contents (.described count)), true, some addr⟩ =
      .ok (0, some (source.seenInfo count addr)) := by
  have some := plain.fileName_ne_nil named
  have filled : source.contents (.described count) ≠ [] := by
    intro empty
    have long := fits.length_described count
    have total := fits.totalSize
    have size : sizeofMeta = 536 := rfl
    rw [empty, List.length_nil] at long
    omega
  simp only [checkStats, if_neg some, if_neg filled, Bool.true_eq_false, if_false,
    fits.readSegment_described plain count addr]
  rfl

/-- An initialised segment of a monitored process that is not known is recorded. -/
theorem Fits.scanEntry_written (fits : source.Fits) (plain : source.Plain) (named : source.Named)
    (addr : UInt64) {pids : List Int32} (monitored : Int32.ofNat source.pid ∈ pids)
    {records : List StatsRecord} (unknown : ¬ Recorded records source.name source.fileName) :
    scanEntry pids records ⟨source.fileName, true, ⟨some source.written, true, some addr⟩⟩ =
      .ok (records ++ [⟨source.name, source.seenInfo source.counterList.length addr⟩]) := by
  have answers := plain.isStats named ⟨some source.written, true, some addr⟩
  obtain ⟨isStats, name, pid⟩ := answers
  have checked := fits.checkStats_described plain named source.counterList.length addr
  rw [scanEntry, if_pos isStats]
  simp only [pid, name, atoi_decimal plain.pid]
  rw [if_pos ⟨monitored, unknown⟩, ShmSource.written, checked]
  rfl

/-- The object of an id points behind the metadata and the records. -/
theorem init_object {shm : StatsShm} {file : Bytes} (inited : source.init = some (shm, file)) :
    file = source.written ∧ ∀ id, shm.object id = ⟨id, source.stats +
      Stat.offset (toSizeT id * source.numCounters), source.counterList⟩ := by
  rw [ShmSource.init] at inited
  split at inited
  · simp at inited
  · simp only [Option.some.injEq, Prod.mk.injEq] at inited
    obtain ⟨rfl, rfl⟩ := inited
    exact ⟨rfl, fun id => rfl⟩

end ShmSource

/-- The first counter of its name is found by it. -/
theorem StatObject.find_getElem {object : StatObject} (distinct : object.counterList.Nodup)
    {c : Nat} (inside : c < object.counterList.length) :
    object.find object.counterList[c] = some (object.cell (UInt64.ofNat c)) := by
  have first : object.counterList.findIdx? (fun counter => counter = object.counterList[c]) =
      some c := by
    rw [List.findIdx?_eq_some_iff_getElem]
    refine ⟨inside, by simp, ?_⟩
    intro j less
    simp only [decide_eq_true_eq]
    intro same
    have place := (List.Nodup.getElem_inj_iff distinct).mp same
    omega
  rw [StatObject.find, first, Option.map_some]

/-- An initialised segment that the monitor does not know yet is recorded as the process
made it. -/
theorem segment_round_trip {source : ShmSource} (plain : source.Plain) (fits : source.Fits)
    (readable : source.Readable) {shm : StatsShm} {file : Bytes}
    (inited : source.init = some (shm, file)) (addr : UInt64) {pids : List Int32}
    (monitored : Int32.ofNat source.pid ∈ pids) {records : List StatsRecord}
    (unknown : ¬ Recorded records source.name source.fileName) :
    ∃ info, scanEntry pids records ⟨source.fileName, true, ⟨some file, true, some addr⟩⟩ =
        .ok (records ++ [⟨source.name, info⟩]) ∧ info.shm = source.fileName ∧
      ReadBack source shm info := by
  obtain ⟨rfl, object⟩ := ShmSource.init_object inited
  have answers := plain.isStats readable.toNamed ⟨some source.written, true, some addr⟩
  obtain ⟨isStats, name, pid⟩ := answers
  refine ⟨source.seenInfo source.counterList.length addr,
    fits.scanEntry_written plain readable.toNamed addr monitored unknown, rfl, ?_⟩
  constructor
  · exact name
  · rw [ShmSource.seenInfo, pid, Option.map_some, ShmSource.atoi_decimal plain.pid]
  · exact readable.seenNames_all
  · exact fits.numCounters
  · exact ShmSource.toSizeT_toInt readable.stats
  · intro id c
    rw [object]
    simp only [ShmSource.seenInfo, StatsShmInfo.cell, StatObject.cell, ShmSource.stats,
      Stat.offset]
    grind
  · intro distinct id c inside
    rw [object]
    exact StatObject.find_getElem distinct inside

/-- A segment of given counters, made by process 7. -/
def sampleSource (numStats : UInt64) (counterList : List Bytes) : ShmSource where
  id := ascii "perf"
  name := ascii "stats"
  numStats := numStats
  counterList := counterList
  pid := 7
  this := 0x5650a769c260
  time := 1700000000
  addr := 0x7f0000000000
  metaSafe := Vector.replicate sizeofMeta 0xaa
  old := []

/-- Two stats of two counters make the round trip. -/
theorem segment_round_trip_two : ∃ shm info,
    (sampleSource 2 [ascii "a", ascii "b"]).init =
        some (shm, (sampleSource 2 [ascii "a", ascii "b"]).written) ∧
      ReadBack (sampleSource 2 [ascii "a", ascii "b"]) shm info := by
  have plain : (sampleSource 2 [ascii "a", ascii "b"]).Plain := by
    constructor <;> decide
  have fits : (sampleSource 2 [ascii "a", ascii "b"]).Fits := ⟨by decide⟩
  have readable : (sampleSource 2 [ascii "a", ascii "b"]).Readable :=
    { id := by decide, name := by decide, counters := by decide, stats := by decide }
  have unknown : ¬ Recorded [] (sampleSource 2 [ascii "a", ascii "b"]).name
      (sampleSource 2 [ascii "a", ascii "b"]).fileName := by
    rintro ⟨record, member, _⟩
    exact List.not_mem_nil member
  have monitored : Int32.ofNat (sampleSource 2 [ascii "a", ascii "b"]).pid ∈ [(7 : Int32)] := by
    decide
  obtain ⟨info, _, _, back⟩ := segment_round_trip plain fits readable rfl 0 monitored unknown
  exact ⟨_, info, rfl, back⟩

/-- A counter whose name has a zero in it is found under the front of its name, and
`2 ^ 31` stats without counters are not counted. -/
theorem segment_round_trip_cut :
    (∃ info, (sampleSource 1 [[97, 0, 98]]).Plain ∧ (sampleSource 1 [[97, 0, 98]]).Fits ∧
      scanEntry [7] [] ⟨(sampleSource 1 [[97, 0, 98]]).fileName, true,
          ⟨some (sampleSource 1 [[97, 0, 98]]).written, true, some 0⟩⟩ =
        .ok [⟨(sampleSource 1 [[97, 0, 98]]).name, info⟩] ∧
      info.desc ≠ (sampleSource 1 [[97, 0, 98]]).counterList) ∧
    ∃ info, (sampleSource 2147483648 []).Plain ∧ (sampleSource 2147483648 []).Fits ∧
      scanEntry [7] [] ⟨(sampleSource 2147483648 []).fileName, true,
          ⟨some (sampleSource 2147483648 []).written, true, some 0⟩⟩ =
        .ok [⟨(sampleSource 2147483648 []).name, info⟩] ∧
      info.statNum ≠ (sampleSource 2147483648 []).numStats := by
  have unknown (source : ShmSource) : ¬ Recorded [] source.name source.fileName := by
    rintro ⟨record, member, _⟩
    exact List.not_mem_nil member
  constructor
  · have plain : (sampleSource 1 [[97, 0, 98]]).Plain := by constructor <;> decide
    have fits : (sampleSource 1 [[97, 0, 98]]).Fits := ⟨by decide⟩
    have named : (sampleSource 1 [[97, 0, 98]]).Named := by constructor <;> decide
    have monitored : Int32.ofNat (sampleSource 1 [[97, 0, 98]]).pid ∈ [(7 : Int32)] := by decide
    exact ⟨_, plain, fits, fits.scanEntry_written plain named 0 monitored (unknown _), by decide⟩
  · have plain : (sampleSource 2147483648 []).Plain := by constructor <;> decide
    have fits : (sampleSource 2147483648 []).Fits := ⟨by decide⟩
    have named : (sampleSource 2147483648 []).Named := by constructor <;> decide
    have monitored : Int32.ofNat (sampleSource 2147483648 []).pid ∈ [(7 : Int32)] := by decide
    exact ⟨_, plain, fits, fits.scanEntry_written plain named 0 monitored (unknown _), by decide⟩

end NcclExts.Ucommd
