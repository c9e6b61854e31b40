import NcclExts.Foundation.Records
import NcclExts.Foundation.Text
import NcclExts.Ucommd.BwPrint
import NcclExts.Ucommd.StatsShm

/-!
# The bytes of a segment

A segment is a file that a process fills before it uses it: the metadata, one record
for the name of each counter, and the counters. The process does so in steps, and
another process that finds the file sees it after any of them.
-/

namespace NcclExts.Ucommd

open NcclExts.Foundation

/-- The terminator of a C string. -/
abbrev nul : UInt8 := 0

/-- The separator in the names of files. -/
abbrev dot : UInt8 := 46

/-- `StatsShm::kPrefix`. -/
def kPrefix : Bytes := ascii ".ucommd_stats."

/-- `NAME_LEN_MAX` and `DESC_LEN_MAX`. -/
def nameLenMax : Nat := 128
def descLenMax : Nat := 128

/-- The size of `StatsShm::Meta`, and where its fields are. -/
def sizeofMeta : Nat := 536
def metaShm : Nat := 0
def metaTime : Nat := 256
def metaName : Nat := 384
def metaCounterNum : Nat := 512
def metaStatNum : Nat := 516
def metaMetaSize : Nat := 520
def metaDescSize : Nat := 524
def metaStatsSize : Nat := 528
def metaTotalSize : Nat := 532

/-- The size of `StatsShm::Desc`. -/
def sizeofDesc : Nat := 128

/-- An `int` in memory. -/
def intBytes (value : Int32) : Bytes :=
  (digitsLE 256 4 value.toUInt32.toNat).map UInt8.ofNat

/-- The `int` at an offset. -/
def intAt (buffer : Bytes) (offset : Nat) : Int32 :=
  (UInt32.ofNat (ofDigitsLE 256 ((slice buffer offset 4).map UInt8.toNat))).toInt32

/-- A pointer as text: hexadecimal digits from the first that is not zero. -/
def pointerText (pointer : UInt64) : Bytes :=
  ascii "0x" ++ ((digitsLE 16 16 pointer.toNat).reverse.dropWhile (fun digit => digit = 0)).map
    (fun digit => byteOf (Nat.digitChar digit))

/-- What a `StatsShm` is made from, and what its `init` finds: the process id, the address
of the object, the time, the address of the mapping, what the metadata of the object
held before, and the file of the same name, if there is one. -/
structure ShmSource where
  id : Bytes
  name : Bytes
  numStats : UInt64
  counterList : List Bytes
  pid : Nat
  this : UInt64
  time : Int
  addr : UInt64
  metaSafe : Vector UInt8 sizeofMeta
  old : Bytes

/-- How far `init` has got. -/
inductive InitStage
  | created
  | resized
  | zeroed
  | stamped
  | described (count : Nat)
deriving DecidableEq, Repr

namespace ShmSource

variable (source : ShmSource)

def numCounters : UInt64 := UInt64.ofNat source.counterList.length

/-- `shm_`: the name of the segment. -/
def shm : Bytes :=
  kPrefix ++ source.id ++ [dot] ++ source.name ++ [dot] ++ decimal source.pid ++ [dot] ++
    pointerText source.this

/-- The name of the file that is opened; a C string ends at the first zero. -/
def fileName : Bytes := upTo nul source.shm

def metaSize : UInt64 := UInt64.ofNat sizeofMeta
def descSize : UInt64 := UInt64.ofNat sizeofDesc * source.numCounters
def statsSize : UInt64 := 8 * source.numCounters * source.numStats
def totalSize : UInt64 := metaSize + source.descSize + source.statsSize

/-- The fields of the metadata, with their offsets: three texts, each filled up with
zeros and not quite to its end, and six numbers, each converted to `int`. -/
def metaRecords : List (Nat × Bytes) :=
  [(metaShm, padded nul (nameLenMax - 1) source.shm),
    (metaTime, padded nul (nameLenMax - 1) (signedDecimal source.time)),
    (metaName, padded nul (nameLenMax - 1) source.name),
    (metaCounterNum, intBytes (toInt source.numCounters)),
    (metaStatNum, intBytes (toInt source.numStats)),
    (metaMetaSize, intBytes (toInt metaSize)),
    (metaDescSize, intBytes (toInt source.descSize)),
    (metaStatsSize, intBytes (toInt source.statsSize)),
    (metaTotalSize, intBytes (toInt source.totalSize))]

/-- `meta_safe_` as it is copied to the segment; what no field covers keeps the bytes
from before. -/
def metaBytes : Bytes := overwriteAll source.metaSafe.toList source.metaRecords

/-- The file is made as long as the segment, if it is shorter. -/
def resized : Bytes :=
  source.old ++ List.replicate (source.totalSize.toNat - source.old.length) 0

/-- The segment is cleared. -/
def zeroed : Bytes := overwrite source.resized 0 (List.replicate source.totalSize.toNat 0)

/-- The metadata is copied. -/
def stamped : Bytes := overwrite source.zeroed 0 source.metaBytes

/-- The records for names of counters, with their offsets. -/
def descRecords (names : List Bytes) : List (Nat × Bytes) :=
  names.zipIdx.map fun name =>
    (sizeofMeta + sizeofDesc * name.2, padded nul (descLenMax - 1) name.1)

/-- The file after each stage of `init`. -/
def contents : InitStage → Bytes
  | .created => source.old
  | .resized => source.resized
  | .zeroed => source.zeroed
  | .stamped => source.stamped
  | .described count =>
    overwriteAll source.stamped (descRecords (source.counterList.take count))

/-- The file once the names of all counters are written. -/
def written : Bytes := source.contents (.described source.counterList.length)

/-- `stats_`: behind the metadata and the records. -/
def stats : UInt64 :=
  source.addr + UInt64.ofNat sizeofMeta + UInt64.ofNat sizeofDesc * source.numCounters

/-- `StatsShm::init` when every system call succeeds: the initialised object, and the file
it leaves; `none` when the counters are not aligned. -/
def init : Option (StatsShm × Bytes) :=
  if source.stats % 8 ≠ 0 then
    none
  else
    some ({ StatsShm.new source.numStats source.counterList with
      stats := source.stats, state := .initialized }, source.written)

end ShmSource

/-! ## What is written where -/

theorem length_intBytes (value : Int32) : (intBytes value).length = 4 := by
  rw [intBytes, List.length_map, length_digitsLE]

/-- An `int` is read back from its bytes. -/
theorem intAt_of_slice {buffer : Bytes} {offset : Nat} {value : Int32}
    (read : slice buffer offset 4 = intBytes value) : intAt buffer offset = value := by
  have digits : ((digitsLE 256 4 value.toUInt32.toNat).map UInt8.ofNat).map UInt8.toNat =
      digitsLE 256 4 value.toUInt32.toNat := by
    rw [List.map_map]
    have same : ∀ digit ∈ digitsLE 256 4 value.toUInt32.toNat,
        (UInt8.toNat ∘ UInt8.ofNat) digit = id digit := by
      intro digit member
      have small := digitsLE_lt (by decide) 4 _ digit member
      rw [Function.comp_apply, UInt8.toNat_ofNat', Nat.mod_eq_of_lt small, id_eq]
    rw [List.map_congr_left same, List.map_id]
  have word : value.toUInt32.toNat < 256 ^ 4 := UInt32.toNat_lt _
  rw [intAt, read, intBytes, digits, ofDigitsLE_digitsLE, Nat.mod_eq_of_lt word,
    UInt32.ofNat_toNat, Int32.toInt32_toUInt32]

namespace ShmSource

variable {source : ShmSource}

/-- The sizes are of type `int`, without wrapping around. -/
structure Fits (source : ShmSource) : Prop where
  total : sizeofMeta + sizeofDesc * source.counterList.length +
    8 * source.counterList.length * source.numStats.toNat < 2 ^ 31

theorem Fits.numCounters (fits : source.Fits) :
    source.numCounters.toNat = source.counterList.length := by
  have total := fits.total
  rw [sizeofDesc] at total
  rw [ShmSource.numCounters, UInt64.toNat_ofNat', Nat.mod_eq_of_lt (by omega)]

theorem Fits.totalSize (fits : source.Fits) :
    source.totalSize.toNat = sizeofMeta + sizeofDesc * source.counterList.length +
      8 * source.counterList.length * source.numStats.toNat := by
  have total := fits.total
  have count := fits.numCounters
  have eight : (8 : UInt64).toNat = 8 := rfl
  have word (value : Nat) (small : value < 2 ^ 31) : (UInt64.ofNat value).toNat = value := by
    rw [UInt64.toNat_ofNat', Nat.mod_eq_of_lt (by omega)]
  rw [sizeofMeta, sizeofDesc] at total ⊢
  have row : 8 * source.counterList.length % 2 ^ 64 = 8 * source.counterList.length := by omega
  simp only [ShmSource.totalSize, metaSize, descSize, statsSize, UInt64.toNat_add,
    UInt64.toNat_mul, count, eight, sizeofMeta, sizeofDesc, word 536 (by decide),
    word 128 (by decide), row]
  generalize 8 * source.counterList.length * source.numStats.toNat = cells at total ⊢
  omega

/-- Every field of the metadata has its place. -/
theorem metaRecords_fit (source : ShmSource) : ∀ record ∈ source.metaRecords,
    record.1 + record.2.length ≤ source.metaSafe.toList.length := by
  rw [Vector.length_toList]
  simp [metaRecords, length_intBytes, metaShm, metaTime, metaName, metaCounterNum, metaStatNum,
    metaMetaSize, metaDescSize, metaStatsSize, metaTotalSize, nameLenMax, sizeofMeta]

theorem metaRecords_disjoint : source.metaRecords.Pairwise Apart := by
  simp [metaRecords, Apart, length_intBytes, metaShm, metaTime, metaName, metaCounterNum,
    metaStatNum, metaMetaSize, metaDescSize, metaStatsSize, metaTotalSize, nameLenMax]

@[simp] theorem length_metaBytes (source : ShmSource) : source.metaBytes.length = sizeofMeta := by
  rw [metaBytes, length_overwriteAll (metaRecords_fit source), Vector.length_toList]

/-- A field of the metadata is read back from its place. -/
theorem slice_metaBytes {record : Nat × Bytes} (member : record ∈ source.metaRecords) :
    slice source.metaBytes record.1 record.2.length = record.2 :=
  slice_overwriteAll (metaRecords_fit source) metaRecords_disjoint member

@[simp] theorem length_descRecords (names : List Bytes) :
    (descRecords names).length = names.length := by
  rw [descRecords, List.length_map, List.length_zipIdx]

theorem descRecords_getElem {names : List Bytes} {i : Nat} (inside : i < names.length) :
    (sizeofMeta + sizeofDesc * i, padded nul (descLenMax - 1) names[i]) ∈ descRecords names := by
  apply List.mem_map.mpr
  refine ⟨(names[i], i), ?_, rfl⟩
  rw [List.mem_zipIdx_iff_getElem?]
  exact List.getElem?_eq_getElem inside

theorem mem_descRecords {names : List Bytes} {record : Nat × Bytes}
    (member : record ∈ descRecords names) : ∃ i < names.length,
      record.1 = sizeofMeta + sizeofDesc * i ∧ record.2.length = descLenMax - 1 := by
  obtain ⟨⟨name, i⟩, inside, rfl⟩ := List.mem_map.mp member
  rw [List.mem_zipIdx_iff_getElem?] at inside
  obtain ⟨below, _⟩ := List.getElem?_eq_some_iff.mp inside
  exact ⟨i, below, rfl, length_padded _ _⟩

theorem descRecords_disjoint (names : List Bytes) : (descRecords names).Pairwise Apart := by
  rw [List.pairwise_iff_getElem]
  intro i j iInside jInside less
  left
  simp [descRecords, descLenMax, sizeofDesc]
  omega

/-- The stages from the second on leave a file as long as the segment at least. -/
theorem length_resized (source : ShmSource) : source.totalSize.toNat ≤ source.resized.length := by
  rw [resized, List.length_append, List.length_replicate]
  omega

theorem length_zeroed (source : ShmSource) : source.zeroed.length = source.resized.length := by
  apply length_overwrite
  have long := length_resized source
  rw [List.length_replicate]
  omega

/-- A cleared segment reads zero. -/
theorem slice_zeroed {offset length : Nat} (inside : offset + length ≤ source.totalSize.toNat) :
    slice source.zeroed offset length = List.replicate length 0 := by
  have long := length_resized source
  have fits : 0 + (List.replicate source.totalSize.toNat (0 : UInt8)).length ≤
      source.resized.length := by
    rw [List.length_replicate]
    omega
  have within : offset + length ≤ (List.replicate source.totalSize.toNat (0 : UInt8)).length := by
    rwa [List.length_replicate]
  have read := slice_overwrite_inner fits within
  rw [Nat.zero_add] at read
  rw [zeroed, read, slice, List.drop_replicate, List.take_replicate, Nat.min_eq_left (by omega)]

section

variable (fits : source.Fits)

include fits

theorem Fits.metaFits : 0 + source.metaBytes.length ≤ source.zeroed.length := by
  have long := length_resized source
  have total := fits.totalSize
  rw [length_metaBytes, length_zeroed]
  omega

theorem Fits.length_stamped : source.stamped.length = source.resized.length :=
  (length_overwrite fits.metaFits).trans (length_zeroed source)

/-- A field of the metadata is in the segment once it is stamped. -/
theorem Fits.slice_stamped {record : Nat × Bytes} (member : record ∈ source.metaRecords) :
    slice source.stamped record.1 record.2.length = record.2 := by
  have within := metaRecords_fit source record member
  rw [Vector.length_toList, ← length_metaBytes source] at within
  have read := slice_overwrite_inner fits.metaFits within
  rw [Nat.zero_add] at read
  exact read.trans (slice_metaBytes member)

/-- Behind the metadata the segment is still cleared then. -/
theorem Fits.slice_stamped_behind {offset length : Nat} (behind : sizeofMeta ≤ offset)
    (inside : offset + length ≤ source.totalSize.toNat) :
    slice source.stamped offset length = List.replicate length 0 := by
  have apart : offset + length ≤ 0 ∨ 0 + source.metaBytes.length ≤ offset := by
    rw [length_metaBytes]
    omega
  exact (slice_overwrite_apart fits.metaFits apart).trans (slice_zeroed inside)

/-- The records of the names have their places. -/
theorem Fits.descRecords_fit {names : List Bytes}
    (few : names.length ≤ source.counterList.length) : ∀ record ∈ descRecords names,
    record.1 + record.2.length ≤ source.stamped.length := by
  intro record member
  obtain ⟨i, inside, offset, length⟩ := mem_descRecords member
  have long := length_resized source
  have total := fits.totalSize
  rw [fits.length_stamped, offset, length]
  rw [sizeofDesc] at total ⊢
  rw [descLenMax]
  omega

/-- The field of the metadata is there in every later stage. -/
theorem Fits.slice_described_meta (count : Nat) {record : Nat × Bytes}
    (member : record ∈ source.metaRecords) :
    slice (source.contents (.described count)) record.1 record.2.length = record.2 := by
  have few : (source.counterList.take count).length ≤ source.counterList.length := by simp
  have within := metaRecords_fit source record member
  rw [Vector.length_toList] at within
  have apart : ∀ desc ∈ descRecords (source.counterList.take count),
      record.1 + record.2.length ≤ desc.1 ∨ desc.1 + desc.2.length ≤ record.1 := by
    intro desc inside
    obtain ⟨i, _, offset, _⟩ := mem_descRecords inside
    omega
  have read := slice_overwriteAll_apart (fits.descRecords_fit few) apart
  exact read.trans (fits.slice_stamped member)

/-- The record of a counter holds its name once it is written, with a terminator behind,
and nothing before. -/
theorem Fits.slice_described (count : Nat) {i : Nat} (inside : i < source.counterList.length) :
    slice (source.contents (.described count)) (sizeofMeta + sizeofDesc * i) sizeofDesc =
      (if i < count then padded nul (descLenMax - 1) source.counterList[i]
        else List.replicate (descLenMax - 1) 0) ++ [nul] := by
  have few : (source.counterList.take count).length ≤ source.counterList.length := by simp
  have total := fits.totalSize
  have size : sizeofDesc = (descLenMax - 1) + 1 := rfl
  have room : sizeofMeta + sizeofDesc * i + sizeofDesc ≤ source.totalSize.toNat := by
    rw [sizeofDesc] at total ⊢
    omega
  have lastApart : ∀ desc ∈ descRecords (source.counterList.take count),
      sizeofMeta + sizeofDesc * i + (descLenMax - 1) + 1 ≤ desc.1 ∨
        desc.1 + desc.2.length ≤ sizeofMeta + sizeofDesc * i + (descLenMax - 1) := by
    intro desc member
    obtain ⟨j, _, offset, length⟩ := mem_descRecords member
    rw [offset, length, sizeofDesc, descLenMax]
    omega
  have last := (slice_overwriteAll_apart (fits.descRecords_fit few) lastApart).trans
    (fits.slice_stamped_behind (by omega) (by omega))
  rw [size, slice_add, ← size]
  congr 1
  split
  · rename_i early
    have listed : i < (source.counterList.take count).length := by
      rw [List.length_take]
      omega
    have read := slice_overwriteAll (fits.descRecords_fit few) (descRecords_disjoint _)
      (descRecords_getElem listed)
    rw [length_padded, List.getElem_take] at read
    exact read
  · rename_i late
    have apart : ∀ desc ∈ descRecords (source.counterList.take count),
        sizeofMeta + sizeofDesc * i + (descLenMax - 1) ≤ desc.1 ∨
          desc.1 + desc.2.length ≤ sizeofMeta + sizeofDesc * i := by
      intro desc member
      obtain ⟨j, below, offset, length⟩ := mem_descRecords member
      rw [List.length_take] at below
      rw [offset, length, sizeofDesc, descLenMax]
      omega
    exact (slice_overwriteAll_apart (fits.descRecords_fit few) apart).trans
      (fits.slice_stamped_behind (by omega) (by omega))

end

end ShmSource

end NcclExts.Ucommd
