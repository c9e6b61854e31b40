import NcclExts.Ucommd.Refresh
import NcclExts.Ucommd.RoundTrip

/-!
# What a refresh leaves recorded

After a refresh no segment is recorded twice, and every segment of a process that the
monitor follows is recorded. That the recorded segments are those of living processes
is another matter: while the monitor follows a process that it was given, it does not
look at what it has recorded of others, and the segment of a process that was killed
stays recorded with its file.
-/

namespace NcclExts.Ucommd

open NcclExts.Foundation

/-! ## Scanning -/

/-- A result that is mapped is the image of a result. -/
theorem map_eq_ok {ε α β : Type} {f : α → β} {result : Except ε α} {value : β}
    (mapped : result.map f = .ok value) : ∃ before, result = .ok before ∧ f before = value := by
  cases result with
  | error fault => simp [Except.map] at mapped
  | ok before => exact ⟨before, rfl, Except.ok.inj mapped⟩

/-- A file that is read makes an info of that file. -/
theorem readSegment_shm {shm file : Bytes} {addr : UInt64} {info : StatsShmInfo}
    (read : readSegment shm file addr = .ok info) : info.shm = shm := by
  simp only [readSegment] at read
  split at read
  · split at read
    · simp at read
    · split at read
      · simp at read
      · rw [← Except.ok.inj read]
  · simp at read

/-- So does the check. -/
theorem checkStats_shm {shm : Bytes} {answers : FileAnswers} {code : Int32} {info : StatsShmInfo}
    (checked : checkStats shm answers = .ok (code, some info)) : info.shm = shm := by
  simp only [checkStats] at checked
  split at checked
  · simp at checked
  · split at checked
    · simp at checked
    · split at checked
      · simp at checked
      · split at checked
        · simp at checked
        · split at checked
          · simp at checked
          · obtain ⟨result, read, same⟩ := map_eq_ok checked
            simp only [Prod.mk.injEq, Option.some.injEq] at same
            rw [← same.2]
            exact readSegment_shm read

/-- The file is one that the check accepts. -/
def DirEntry.Accepted (entry : DirEntry) : Prop :=
  ∃ code info, checkStats entry.name entry.answers = .ok (code, some info)

/-- A segment that is initialised is accepted. -/
theorem ShmSource.Fits.accepted {source : ShmSource} (fits : source.Fits) (plain : source.Plain)
    (named : source.Named) (addr : UInt64) :
    (DirEntry.mk source.fileName true ⟨some source.written, true, some addr⟩).Accepted :=
  ⟨0, _, fits.checkStats_described plain named source.counterList.length addr⟩

/-- The file is a segment of one of the given processes. -/
def DirEntry.SegmentOf (pids : List Int32) (entry : DirEntry) : Prop :=
  entry.IsStats ∧ ∃ field, statsPidField entry.name = some field ∧ atoi field ∈ pids

/-- A record is filed under the stats that its file names. -/
def StatsRecord.Filed (record : StatsRecord) : Prop :=
  Ucommd.statsName record.info.shm = some record.statsName

/-- A record that the scan of an entry adds. -/
structure StatsRecord.New (pids : List Int32) (entry : DirEntry) (records : List StatsRecord)
    (record : StatsRecord) : Prop where
  segment : entry.SegmentOf pids
  shm : record.info.shm = entry.name
  filed : record.Filed
  unknown : ¬ Recorded records record.statsName entry.name

/-- What the scan of an entry does: it adds a record of it, or it leaves the records, and
then the entry is known, is of no process that is asked for, or is not accepted. -/
theorem scanEntry_cases {pids : List Int32} {records after : List StatsRecord} {entry : DirEntry}
    (scanned : scanEntry pids records entry = .ok after) :
    (∃ record, after = records ++ [record] ∧ record.New pids entry records) ∨
      after = records ∧ (entry.SegmentOf pids → entry.Accepted →
        ∃ statsName, Recorded records statsName entry.name) := by
  rw [scanEntry] at scanned
  split at scanned
  · rename_i isStats
    split at scanned
    · rename_i field name isField isName
      split at scanned
      · rename_i new
        obtain ⟨⟨code, info⟩, checked, result⟩ := map_eq_ok scanned
        cases info with
        | none =>
          refine .inr ⟨result.symm, ?_⟩
          rintro _ ⟨other, info, accepted⟩
          rw [checked] at accepted
          simp at accepted
        | some info =>
          have shm := checkStats_shm checked
          refine .inl ⟨_, result.symm, ?_⟩
          constructor
          · exact ⟨isStats, field, isField, new.1⟩
          · exact shm
          · rw [StatsRecord.Filed, shm, isName]
          · exact new.2
      · rename_i old
        refine .inr ⟨(Except.ok.inj scanned).symm, ?_⟩
        rintro ⟨_, other, isOther, member⟩ _
        rw [isField, Option.some.injEq] at isOther
        rw [← isOther] at member
        by_contra unknown
        exact old ⟨member, fun known => unknown ⟨name, known⟩⟩
    · simp at scanned
  · rename_i other
    refine .inr ⟨(Except.ok.inj scanned).symm, ?_⟩
    intro segment
    exact absurd segment.1 other

/-! ## Records in order -/

/-- No segment is recorded twice, and each is filed under its stats. -/
structure Filing (records : List StatsRecord) : Prop where
  once : (records.map (fun record => record.info.shm)).Nodup
  filed : ∀ record ∈ records, record.Filed

/-- Fewer records are in order as well. -/
theorem Filing.sublist {records fewer : List StatsRecord} (filing : Filing records)
    (sublist : fewer.Sublist records) : Filing fewer := by
  constructor
  · exact filing.once.sublist (sublist.map _)
  · intro record member
    exact filing.filed record (sublist.subset member)

/-- A new record keeps the order: a segment that is recorded would be recorded under the
same stats. -/
theorem Filing.append {records : List StatsRecord} (filing : Filing records)
    {pids : List Int32} {entry : DirEntry} {record : StatsRecord}
    (new : record.New pids entry records) : Filing (records ++ [record]) := by
  constructor
  · rw [List.map_append, List.nodup_append]
    refine ⟨filing.once, by simp, ?_⟩
    intro shm member other otherMember same
    simp only [List.map_cons, List.map_nil, List.mem_singleton] at otherMember
    obtain ⟨known, inside, rfl⟩ := List.mem_map.mp member
    have filed := filing.filed known inside
    have newFiled := new.filed
    rw [StatsRecord.Filed, same, otherMember, newFiled, Option.some.injEq] at filed
    apply new.unknown
    exact ⟨known, inside, filed.symm, by rw [same, otherMember, new.shm]⟩
  · intro other member
    rcases List.mem_append.mp member with before | last
    · exact filing.filed other before
    · rw [List.mem_singleton.mp last]
      exact new.filed

/-- What a scan leaves: the records from before, records of segments of the processes that
are asked for, and each accepted segment of these. -/
structure Scanned (pids : List Int32) (directory : List DirEntry)
    (before after : List StatsRecord) : Prop where
  kept : ∀ record ∈ before, record ∈ after
  added : ∀ record ∈ after, record ∈ before ∨
    ∃ entry ∈ directory, entry.SegmentOf pids ∧ record.info.shm = entry.name
  complete : ∀ entry ∈ directory, entry.SegmentOf pids → entry.Accepted →
    ∃ record ∈ after, record.info.shm = entry.name

/-- A scan records what it should, and keeps the records in order. -/
theorem scanStats_spec {pids : List Int32} {directory : List DirEntry}
    {before after : List StatsRecord} (filing : Filing before)
    (scanned : scanStats pids directory before = .ok after) :
    Filing after ∧ Scanned pids directory before after := by
  induction directory generalizing before with
  | nil =>
    have same : before = after := Except.ok.inj scanned
    subst same
    refine ⟨filing, fun record member => member, fun record member => .inl member, ?_⟩
    intro entry member
    exact absurd member List.not_mem_nil
  | cons entry rest ih =>
    rw [scanStats, List.foldlM_cons] at scanned
    cases first : scanEntry pids before entry with
    | error fault =>
      rw [first] at scanned
      simp [bind, Except.bind] at scanned
    | ok middle =>
      rw [first] at scanned
      rcases scanEntry_cases first with ⟨record, rfl, new⟩ | ⟨rfl, known⟩
      · obtain ⟨filed, later⟩ := ih (filing.append new) scanned
        refine ⟨filed, ?_, ?_, ?_⟩
        · intro other member
          exact later.kept other (List.mem_append_left _ member)
        · intro other member
          rcases later.added other member with inMiddle | ⟨file, inside, segment, shm⟩
          · rcases List.mem_append.mp inMiddle with old | last
            · exact .inl old
            · rw [List.mem_singleton.mp last]
              exact .inr ⟨entry, List.mem_cons_self, new.segment, new.shm⟩
          · exact .inr ⟨file, List.mem_cons_of_mem _ inside, segment, shm⟩
        · intro file member segment accepted
          rcases List.mem_cons.mp member with rfl | inRest
          · exact ⟨record, later.kept record (by simp), new.shm⟩
          · exact later.complete file inRest segment accepted
      · obtain ⟨filed, later⟩ := ih filing scanned
        refine ⟨filed, later.kept, ?_, ?_⟩
        · intro other member
          rcases later.added other member with old | ⟨file, inside, segment, shm⟩
          · exact .inl old
          · exact .inr ⟨file, List.mem_cons_of_mem _ inside, segment, shm⟩
        · intro file member segment accepted
          rcases List.mem_cons.mp member with rfl | inRest
          · obtain ⟨name, record, inside, _, shm⟩ := known segment accepted
            exact ⟨record, later.kept record inside, shm⟩
          · exact later.complete file inRest segment accepted

/-! ## Processes -/

/-- The process of the record holds a lock. -/
def StatsRecord.Alive (locks : List Int32) (record : StatsRecord) : Prop :=
  ∃ field ∈ statsPidField record.info.shm, atoi field ∈ locks

instance (locks : List Int32) (record : StatsRecord) : Decidable (record.Alive locks) :=
  inferInstanceAs (Decidable (∃ _ ∈ _, _))

/-- A number that is read is the number that is taken without a check. -/
theorem atoi_of_stoi {text : Bytes} {value : Int32} (read : stoi text = some value) :
    atoi text = value := by
  obtain ⟨number, scanned, converted⟩ := Option.bind_eq_some_iff.mp read
  split at converted
  · rename_i range
    have inside : max (-2 ^ 63) (min (2 ^ 63 - 1) number) = number := by omega
    rw [atoi, scanned]
    simp only [inside]
    exact Option.some.inj converted
  · simp at converted

/-- Only records of processes with a lock are kept, in their order. -/
theorem eraseDead_spec {locks : List Int32} {records kept : List StatsRecord}
    (erased : eraseDead locks records = .ok kept) :
    kept.Sublist records ∧ ∀ record ∈ kept, record.Alive locks := by
  induction records generalizing kept with
  | nil =>
    rw [← Except.ok.inj erased]
    exact ⟨.refl _, fun record member => absurd member List.not_mem_nil⟩
  | cons record rest ih =>
    rw [eraseDead] at erased
    split at erased
    · simp at erased
    · rename_i field isField
      split at erased
      · simp at erased
      · rename_i pid isPid
        obtain ⟨later, isLater, result⟩ := map_eq_ok erased
        obtain ⟨sublist, alive⟩ := ih isLater
        subst result
        split
        · rename_i locked
          refine ⟨sublist.cons_cons record, ?_⟩
          intro other member
          rcases List.mem_cons.mp member with rfl | inRest
          · exact ⟨field, isField, (atoi_of_stoi isPid).symm ▸ locked⟩
          · exact alive other inRest
        · exact ⟨sublist.cons record, alive⟩

/-! ## The refresh -/

namespace Monitoring

/-- The process is followed: it holds a lock, and it is one of those given that are left,
or it has a lock file when none of these holds a lock. -/
def Followed (state : Monitoring) (pid : Int32) : Prop :=
  pid ∈ state.world.locks ∧
    if ∃ given ∈ state.monitor.optsPids, given ∈ state.world.locks then
      pid ∈ state.monitor.optsPids
    else pid ∈ state.world.lockFilePids

/-- No process with a record has died and left its file, or none of the given processes
holds a lock. -/
def NoStale (state : Monitoring) : Prop :=
  (∃ given ∈ state.monitor.optsPids, given ∈ state.world.locks) →
    ∀ record ∈ state.monitor.statsRecords, state.world.Present record.info.shm →
      record.Alive state.world.locks

instance (state : Monitoring) : Decidable state.NoStale :=
  inferInstanceAs (Decidable (_ → _))

/-- The records are up to date: none twice, each of a process with a lock, and each
accepted segment of the given processes among them. -/
structure Refreshed (followed : Int32 → Prop) (state : Monitoring) : Prop where
  once : (state.monitor.statsRecords.map (fun record => record.info.shm)).Nodup
  alive : ∀ record ∈ state.monitor.statsRecords, record.Alive state.world.locks
  complete : ∀ entry ∈ state.world.directory, entry.IsStats →
    ∀ field, statsPidField entry.name = some field → followed (atoi field) → entry.Accepted →
      ∃ record ∈ state.monitor.statsRecords, record.info.shm = entry.name

/-- What `check_ucommd_pids` leaves: the processes to follow, and of the records all when a
given process holds a lock, else those of living processes. -/
theorem checkUcommdPids_spec {state : Monitoring} {monitor : Monitor}
    (checked : (state.monitor.getLockPids state.world).checkUcommdPids state.world =
      .ok monitor) :
    (∀ pid, pid ∈ monitor.ucommdPids ↔ state.Followed pid) ∧
      monitor.statsRecords.Sublist state.monitor.statsRecords ∧
      if ∃ given ∈ state.monitor.optsPids, given ∈ state.world.locks then
        monitor.statsRecords = state.monitor.statsRecords
      else ∀ record ∈ monitor.statsRecords, record.Alive state.world.locks := by
  have some : living state.monitor.optsPids state.world.locks ≠ [] ↔
      ∃ given ∈ state.monitor.optsPids, given ∈ state.world.locks := by
    constructor
    · intro alive
      obtain ⟨given, member⟩ := List.exists_mem_of_ne_nil _ alive
      exact ⟨given, mem_living.mp member⟩
    · rintro ⟨given, left, locked⟩
      exact List.ne_nil_of_mem (mem_living.mpr ⟨left, locked⟩)
  rw [Monitor.checkUcommdPids] at checked
  split at checked
  · rename_i alive
    have given := some.mp alive
    rw [← Except.ok.inj checked]
    refine ⟨?_, .refl _, ?_⟩
    · intro pid
      rw [Followed, if_pos given]
      exact mem_living.trans and_comm
    · rw [if_pos given]
      rfl
  · rename_i dead
    have given : ¬ ∃ given ∈ state.monitor.optsPids, given ∈ state.world.locks :=
      fun given => dead (some.mpr given)
    obtain ⟨kept, erased, rfl⟩ := map_eq_ok checked
    obtain ⟨sublist, alive⟩ := eraseDead_spec erased
    refine ⟨?_, sublist, ?_⟩
    · intro pid
      rw [Followed, if_neg given]
      exact mem_living.trans and_comm
    · rw [if_neg given]
      exact alive

/-- The records are in order in every state of a run. -/
def Ordered (state : Monitoring) : Prop := Filing state.monitor.statsRecords

/-- A refresh checks the processes, scans the directory and drops what is gone. -/
theorem refresh_cases {state after : Monitoring} (stepped : state.step .refresh = some after) :
    ∃ monitor records, (state.monitor.getLockPids state.world).checkUcommdPids state.world =
        .ok monitor ∧
      scanStats monitor.ucommdPids state.world.directory monitor.statsRecords = .ok records ∧
      after.world = state.world ∧ after.monitor.statsRecords =
        records.filter (fun record => state.world.Present record.info.shm) := by
  simp only [step, Monitor.checkUcommdPidsStats] at stepped
  cases checked : (state.monitor.getLockPids state.world).checkUcommdPids state.world with
  | error fault =>
    rw [checked] at stepped
    simp [bind, Except.bind] at stepped
  | ok monitor =>
    rw [checked] at stepped
    simp only [bind, Except.bind] at stepped
    cases scanned : scanStats monitor.ucommdPids state.world.directory monitor.statsRecords with
    | error fault =>
      rw [scanned] at stepped
      simp at stepped
    | ok records =>
      rw [scanned] at stepped
      simp only [pure, Except.pure, Option.some.injEq] at stepped
      exact ⟨monitor, records, rfl, scanned, by rw [← stepped], by rw [← stepped]; rfl⟩

/-- Every step keeps the records in order. -/
theorem Ordered.step {state after : Monitoring} {event : MonitorEvent} (ordered : state.Ordered)
    (stepped : state.step event = some after) : after.Ordered := by
  cases event with
  | started pid lockFile =>
    rw [← Option.some.inj stepped]
    exact ordered
  | written entry =>
    rw [← Option.some.inj stepped]
    exact ordered
  | exited pid =>
    rw [← Option.some.inj stepped]
    exact ordered
  | killed pid =>
    rw [← Option.some.inj stepped]
    exact ordered
  | refresh =>
    obtain ⟨monitor, records, checked, scanned, _, result⟩ := refresh_cases stepped
    obtain ⟨_, sublist, _⟩ := checkUcommdPids_spec checked
    have filing := (scanStats_spec (ordered.sublist sublist) scanned).1
    rw [Ordered, result]
    exact filing.sublist List.filter_sublist

/-- The records are in order after every run. -/
theorem ordered_reachable {pids : List Int32} {state : Monitoring}
    (reached : (monitoring pids).Reachable state) : state.Ordered := by
  have initially : ∀ state, (monitoring pids).starts state → state.Ordered := by
    intro state first
    have empty : state.monitor.statsRecords = [] := by
      rw [show state.monitor = ⟨pids, [], [], []⟩ from first]
    rw [Ordered, empty]
    exact ⟨List.nodup_nil, fun record member => absurd member List.not_mem_nil⟩
  have kept : ∀ state event after, Ordered state → (monitoring pids).step state event = some after →
      Ordered after := fun _ _ _ ordered stepped => ordered.step stepped
  exact reached.invariant initially kept

/-- A refresh of records in order leaves them up to date exactly when none of them is stale
while a given process holds a lock. -/
theorem Ordered.refreshed_iff {state after : Monitoring} (ordered : state.Ordered)
    (stepped : state.step .refresh = some after) :
    after.Refreshed state.Followed ↔ state.NoStale := by
  obtain ⟨monitor, records, checked, scanned, world, result⟩ := refresh_cases stepped
  obtain ⟨followed, sublist, erased⟩ := checkUcommdPids_spec checked
  obtain ⟨filing, kept, added, complete⟩ := scanStats_spec (ordered.sublist sublist) scanned
  have present {record : StatsRecord} : record ∈ after.monitor.statsRecords ↔
      record ∈ records ∧ state.world.Present record.info.shm := by
    rw [result, List.mem_filter, decide_eq_true_eq]
  constructor
  · intro refreshed given record member isPresent
    rw [if_pos given] at erased
    have stays := present.mpr ⟨kept record (erased ▸ member), isPresent⟩
    have alive := refreshed.alive record stays
    rwa [world] at alive
  · intro noStale
    constructor
    · rw [result]
      exact (filing.sublist List.filter_sublist).once
    · intro record member
      obtain ⟨inside, isPresent⟩ := present.mp member
      rw [world]
      rcases added record inside with old | ⟨entry, _, ⟨_, field, isField, monitored⟩, shm⟩
      · by_cases given : ∃ given ∈ state.monitor.optsPids, given ∈ state.world.locks
        · exact noStale given record (sublist.subset old) isPresent
        · rw [if_neg given] at erased
          exact erased record old
      · rw [← shm] at isField
        exact ⟨field, isField, ((followed _).mp monitored).1⟩
    · intro entry member isStats field isField isFollowed accepted
      rw [world] at member
      have monitored := (followed (atoi field)).mpr isFollowed
      obtain ⟨record, inside, shm⟩ :=
        complete entry member ⟨isStats, field, isField, monitored⟩ accepted
      exact ⟨record, present.mpr ⟨inside, entry, member, shm.symm⟩, shm⟩

end Monitoring

/-- After every run a refresh leaves the records up to date exactly when no process with a
recorded segment has died and left its file, or none of the given processes is alive. -/
theorem monitor_refresh_iff {pids : List Int32} {state after : Monitoring}
    (reached : (monitoring pids).Reachable state) (stepped : state.step .refresh = some after) :
    after.Refreshed state.Followed ↔ state.NoStale :=
  (Monitoring.ordered_reachable reached).refreshed_iff stepped

/-- The segment of a process, as a file. -/
def sampleSegment (pid : Nat) : DirEntry :=
  let source := { sampleSource 1 [] with pid := pid }
  ⟨source.fileName, true, ⟨some source.written, true, some 0⟩⟩

/-- The lock file of a process. -/
def sampleLock (pid : Nat) : DirEntry :=
  ⟨kLockPrefix ++ ascii "ucommd_perf." ++ decimal pid, true, ⟨some [], true, none⟩⟩

/-- Two processes start and set up their segments. -/
def twoProcesses : List MonitorEvent :=
  [.started 7 (sampleLock 7), .started 8 (sampleLock 8), .written (sampleSegment 7),
    .written (sampleSegment 8)]

/-- The segments of two processes are recorded. -/
theorem monitor_refresh_iff_two : ∃ state after : Monitoring,
    (monitoring [7, 8]).replay ⟨⟨[7, 8], [], [], []⟩, ⟨[], []⟩⟩ twoProcesses = some state ∧
      state.step .refresh = some after ∧ after.Refreshed state.Followed := by
  have possible : ((monitoring [7, 8]).replay ⟨⟨[7, 8], [], [], []⟩, ⟨[], []⟩⟩
      twoProcesses).any (fun state =>
        decide (state.NoStale ∧ (state.step .refresh).isSome = true)) = true := by
    decide +kernel
  obtain ⟨state, replayed, ready⟩ := (Option.any_eq_true _ _).mp possible
  obtain ⟨noStale, refreshes⟩ := of_decide_eq_true ready
  obtain ⟨after, stepped⟩ := Option.isSome_iff_exists.mp refreshes
  have first : (monitoring [7, 8]).Reachable ⟨⟨[7, 8], [], [], []⟩, ⟨[], []⟩⟩ := .start rfl
  exact ⟨state, after, replayed, stepped,
    (monitor_refresh_iff (first.replay _ replayed) stepped).mpr noStale⟩

/-- When one of two processes is killed, its segment stays recorded. -/
theorem monitor_refresh_killed : ∃ after : Monitoring,
    (monitoring [7, 8]).replay ⟨⟨[7, 8], [], [], []⟩, ⟨[], []⟩⟩
        (twoProcesses ++ [.refresh, .killed 8, .refresh]) = some after ∧
      ∃ record ∈ after.monitor.statsRecords, ¬ record.Alive after.world.locks := by
  have possible : ((monitoring [7, 8]).replay ⟨⟨[7, 8], [], [], []⟩, ⟨[], []⟩⟩
      (twoProcesses ++ [.refresh, .killed 8, .refresh])).any (fun after =>
        decide (∃ record ∈ after.monitor.statsRecords, ¬ record.Alive after.world.locks)) =
      true := by
    decide +kernel
  obtain ⟨after, replayed, dead⟩ := (Option.any_eq_true _ _).mp possible
  exact ⟨after, replayed, of_decide_eq_true dead⟩

end NcclExts.Ucommd
