import NcclExts.Ucommd.RoundTrip

/-!
# The lifecycle of a segment

A `StatsShm` is constructed, initialised with more or less success, used, and destroyed.
The destructor works on fields that the constructor leaves as they are and `init` sets
late: it clears and unmaps as many bytes as the metadata of the object says from where its
pointer points, and unlinks the name of the object. `init` itself gives back the process
umask on every way out, and the descriptor only on the way on which all went well.
-/

namespace NcclExts.Ucommd

open NcclExts.Foundation

/-! ## The process -/

/-- A region of memory, by its address and size. -/
abbrev Region := UInt64 × UInt64

/-- A region as far as memory is concerned: an empty one is none. -/
def region (addr size : UInt64) : List Region := if size = 0 then [] else [(addr, size)]

/-- The file of a name; there is none without a name. -/
def fileOf (shm : Bytes) : List Bytes := if upTo nul shm = [] then [] else [upTo nul shm]

/-- The process as far as `init` changes it: the umask, the descriptors that `init` opened
and has not closed, the files it created and removed again, and the regions it mapped. -/
structure ShmProcess where
  umask : UInt32
  fds : List Nat
  created : List Bytes
  unlinked : List Bytes
  mapped : List Region
deriving DecidableEq, Repr

/-- How the system calls of an `init` come out: the descriptor of the file, its size, whether
it could be made longer, and the address of the mapping. -/
structure ShmAnswers where
  fd : Option Nat
  stSize : Option UInt64
  truncated : Bool
  addr : Option UInt64
deriving DecidableEq, Repr

/-- `StatsShm::create_shm`: the address, or none. -/
def createShm (answers : ShmAnswers) (shm : Bytes) (size : UInt64) (process : ShmProcess) :
    Option UInt64 × ShmProcess :=
  let modeMask := process.umask
  let process := { process with umask := 0 }
  match answers.fd with
  | none => (none, { process with umask := modeMask })
  | some fd =>
    let process := { process with
      fds := fd :: process.fds, created := process.created ++ fileOf shm }
    let removed := { process with
      unlinked := process.unlinked ++ fileOf shm, umask := modeMask }
    match answers.stSize with
    | none => (none, removed)
    | some stSize =>
      if stSize < size ∧ answers.truncated = false then (none, removed)
      else
        match answers.addr with
        | none => (none, removed)
        | some addr =>
          (some addr, { process with
            mapped := process.mapped ++ region addr size
            fds := process.fds.erase fd
            umask := modeMask })

/-! ## The object -/

/-- What the lifecycle of a `StatsShm` is about: `shm_`, `meta_`, the total size in
`meta_safe_`, and the process. -/
structure ShmObject where
  shm : Bytes
  metaAddr : UInt64
  totalSize : Int32
  process : ShmProcess
deriving DecidableEq, Repr

/-- What the destructor does: the regions it clears and unmaps, and the files it removes. -/
structure Destroyed where
  cleared : List Region
  unmapped : List Region
  unlinked : List Bytes
deriving DecidableEq, Repr

namespace ShmObject

/-- `StatsShm::~StatsShm`. -/
def destroy (object : ShmObject) : Destroyed where
  cleared := region object.metaAddr (toSizeT object.totalSize)
  unmapped := region object.metaAddr (toSizeT object.totalSize)
  unlinked := fileOf object.shm

/-- The object can be destroyed: what is cleared and unmapped is what `init` mapped, what is
unlinked is what it created, and no descriptor is left open and the umask as it was. -/
structure Tidy (umask : UInt32) (object : ShmObject) : Prop where
  cleared : object.destroy.cleared = object.process.mapped
  unmapped : object.destroy.unmapped = object.process.mapped
  unlinked : object.destroy.unlinked = object.process.created
  fds : object.process.fds = []
  umask : object.process.umask = umask

end ShmObject

/-- An object in use: with its stats. -/
structure ShmLife extends ShmObject where
  use : StatsUse

namespace ShmLife

variable (source : ShmSource)

/-- The constructor, in a process of a given umask. The metadata keeps what was in memory
before, and so does the pointer. -/
def construct (stray : UInt64) (umask : UInt32) (objects : Ptr → Option StatObject)
    (memory : Memory) : ShmLife where
  shm := []
  metaAddr := stray
  totalSize := intAt source.metaSafe.toList metaTotalSize
  process := { umask := umask, fds := [], created := [], unlinked := [], mapped := [] }
  use := ⟨StatsShm.new source.numStats source.counterList, objects, memory⟩

/-- `StatsShm::init`: its code and the object afterwards. -/
def init (life : ShmLife) (answers : ShmAnswers) : Int32 × ShmLife :=
  match life.use.shm.state with
  | .initialized => (0, life)
  | .error => (-1, life)
  | .created =>
    let life := { life with shm := source.shm }
    match createShm answers source.shm source.totalSize life.process with
    | (none, process) => (-1, { life with process := process, use.shm.state := .error })
    | (some addr, process) =>
      let stats := ({ source with addr := addr } : ShmSource).stats
      let life := { life with
        process := process
        totalSize := toInt source.totalSize
        metaAddr := addr
        use.memory := fun cell =>
          if cell - addr < source.totalSize then 0 else life.use.memory cell
        use.shm.stats := stats }
      if stats % 8 ≠ 0 then (-1, { life with use.shm.state := .error })
      else (0, { life with use.shm.state := .initialized })

/-- What can happen to an object before it is destroyed. -/
inductive Event where
  | init (answers : ShmAnswers)
  | stats (event : StatsEvent)

/-- One step: a call of `init`, or one that allocates or frees a stat. -/
def step (life : ShmLife) : Event → Option ShmLife
  | .init answers => some (life.init source answers).2
  | .stats event => (life.use.step event).map fun use => { life with use := use }

/-- Objects of a source, from any memory. -/
def lifecycle : System ShmLife Event where
  starts := fun life =>
    ∃ stray umask objects memory, life = construct source stray umask objects memory
  step := step source

/-! ## What the first `init` decides -/

/-- The answers of the first `init`. -/
def firstInit (events : List Event) : Option ShmAnswers :=
  events.findSome? fun event =>
    match event with
    | .init answers => some answers
    | .stats _ => none

/-- The segment is mapped: every system call succeeds. -/
def Maps (answers : ShmAnswers) : Prop :=
  answers.fd.isSome ∧
    (∃ stSize, answers.stSize = some stSize ∧
      (stSize < source.totalSize → answers.truncated = true)) ∧
    answers.addr.isSome

/-- When an object can be destroyed. -/
def Destroyable : Option ShmAnswers → Prop
  | none => intAt source.metaSafe.toList metaTotalSize = 0
  | some answers => Maps source answers ∧ toSizeT (toInt source.totalSize) = source.totalSize

variable {source}

/-- Allocating and freeing stats leaves the state of the segment. -/
theorem step_state {use after : StatsUse} {event : StatsEvent}
    (stepped : use.step event = some after) : after.shm.state = use.shm.state := by
  cases event with
  | allocStat ptr =>
    simp only [StatsUse.step] at stepped
    split at stepped
    · cases stepped
    · split at stepped
      next alloc =>
        rw [← Option.some.inj stepped]
        unfold StatsShm.allocStat at alloc
        split at alloc
        · cases alloc
        · split at alloc
          · cases alloc
          · cases alloc
            rfl
      · rw [← Option.some.inj stepped]
  | freeStat ptr =>
    simp only [StatsUse.step] at stepped
    split at stepped
    · cases stepped
    · split at stepped
      next freed =>
        rw [← Option.some.inj stepped]
        unfold StatsShm.freeStat at freed
        split at freed
        · cases freed
        · split at freed
          · cases freed
            rfl
          · cases freed
      · rw [← Option.some.inj stepped]
  | change ptr key change =>
    simp only [StatsUse.step] at stepped
    split at stepped
    · cases stepped
    · split at stepped
      · obtain ⟨memory, _, rfl⟩ := Option.map_eq_some_iff.mp stepped
        rfl
      · cases stepped
  | made ptr object =>
    simp only [StatsUse.step] at stepped
    split at stepped
    · cases stepped
    · rw [← Option.some.inj stepped]
  | dropped ptr =>
    simp only [StatsUse.step] at stepped
    split at stepped
    · cases stepped
    · rw [← Option.some.inj stepped]

/-- The object that the first `init` leaves, from the one that was constructed. -/
def settled (source : ShmSource) (object : ShmObject) (answers : ShmAnswers) : ShmObject :=
  match createShm answers source.shm source.totalSize object.process with
  | (none, process) => { object with shm := source.shm, process := process }
  | (some addr, process) =>
    { shm := source.shm, metaAddr := addr, totalSize := toInt source.totalSize, process := process }

/-- The first `init` settles the object, and no later one is the first. -/
theorem init_created {life : ShmLife} (created : life.use.shm.state = .created)
    (answers : ShmAnswers) :
    (life.init source answers).2.toShmObject = settled source life.toShmObject answers ∧
      (life.init source answers).2.use.shm.state ≠ .created := by
  unfold init settled
  rw [created]
  dsimp only
  cases createShm answers source.shm source.totalSize life.process with
  | mk made process =>
    cases made with
    | none => exact ⟨rfl, nofun⟩
    | some addr =>
      dsimp only
      split
      · exact ⟨rfl, nofun⟩
      · exact ⟨rfl, nofun⟩

/-- A later `init` changes nothing. -/
theorem init_later {life : ShmLife} (later : life.use.shm.state ≠ .created)
    (answers : ShmAnswers) : (life.init source answers).2 = life := by
  unfold init
  cases state : life.use.shm.state with
  | created => exact absurd state later
  | initialized => rfl
  | error => rfl

/-- After any events the object is as it was constructed, or as the first `init` settled
it. -/
theorem replay_object {start life : ShmLife} (events : List Event)
    (created : start.use.shm.state = .created)
    (replayed : (lifecycle source).replay start events = some life) :
    match firstInit events with
    | none => life.toShmObject = start.toShmObject ∧ life.use.shm.state = .created
    | some answers => life.toShmObject = settled source start.toShmObject answers ∧
        life.use.shm.state ≠ .created := by
  induction events using List.reverseRecOn generalizing life with
  | nil =>
    rw [← Option.some.inj replayed]
    exact ⟨rfl, created⟩
  | append_singleton events event ih =>
    rw [System.replay, List.foldlM_append] at replayed
    obtain ⟨before, isBefore, stepped⟩ := Option.bind_eq_some_iff.mp replayed
    simp only [List.foldlM_cons, List.foldlM_nil, bind_pure] at stepped
    have held := ih isBefore
    cases event with
    | init answers =>
      have first : firstInit (events ++ [Event.init answers]) =
          some ((firstInit events).getD answers) := by
        rw [firstInit, List.findSome?_append]
        change (firstInit events).or (some answers) = _
        cases firstInit events <;> rfl
      have after : (before.init source answers).2 = life := Option.some.inj stepped
      rw [first]
      cases earlier : firstInit events with
      | none =>
        rw [earlier] at held
        obtain ⟨object, settles⟩ := held
        rw [← after, Option.getD_none, ← object]
        exact init_created settles answers
      | some answered =>
        rw [earlier] at held
        rw [← after, init_later held.2, Option.getD_some]
        exact held
    | stats event =>
      have first : firstInit (events ++ [Event.stats event]) = firstInit events := by
        rw [firstInit, List.findSome?_append]
        change (firstInit events).or none = _
        exact Option.or_none
      obtain ⟨use, used, rfl⟩ := Option.map_eq_some_iff.mp stepped
      rw [first]
      cases earlier : firstInit events with
      | none =>
        rw [earlier] at held
        exact ⟨held.1, (step_state used).trans held.2⟩
      | some answered =>
        rw [earlier] at held
        exact ⟨held.1, fun created => held.2 ((step_state used).symm.trans created)⟩

/-! ## What is left to destroy -/

/-- The name of the segment is a name. -/
theorem fileOf_shm (source : ShmSource) : fileOf source.shm = [source.fileName] := by
  have front : source.shm = 46 :: source.shm.tail := by
    simp [ShmSource.shm, kPrefix, ascii, byteOf]
  have named : upTo nul source.shm ≠ [] := by
    rw [front, upTo, List.takeWhile_cons_of_pos (by decide)]
    exact List.cons_ne_nil _ _
  rw [fileOf, if_neg named]
  rfl

/-- What `create_shm` leaves of a process in order: the process without a file, an open
descriptor of a removed file, or a mapping of a closed one. -/
theorem createShm_cases (source : ShmSource) (answers : ShmAnswers) (umask : UInt32) :
    (answers.fd = none ∧ createShm answers source.shm source.totalSize ⟨umask, [], [], [], []⟩ =
      (none, ⟨umask, [], [], [], []⟩)) ∨
    (∃ fd, ¬ Maps source answers ∧
      createShm answers source.shm source.totalSize ⟨umask, [], [], [], []⟩ =
        (none, ⟨umask, [fd], [source.fileName], [source.fileName], []⟩)) ∨
    (∃ addr, Maps source answers ∧
      createShm answers source.shm source.totalSize ⟨umask, [], [], [], []⟩ =
        (some addr, ⟨umask, [], [source.fileName], [], region addr source.totalSize⟩)) := by
  unfold createShm Maps
  simp only [fileOf_shm, List.nil_append]
  cases answers.fd with
  | none => exact Or.inl ⟨rfl, rfl⟩
  | some fd =>
    refine Or.inr ?_
    cases answers.stSize with
    | none => exact Or.inl ⟨fd, by simp, rfl⟩
    | some stSize =>
      by_cases short : stSize < source.totalSize ∧ answers.truncated = false
      · refine Or.inl ⟨fd, ?_, if_pos short⟩
        rintro ⟨-, ⟨_, isSize, sized⟩, -⟩
        cases isSize
        rw [sized short.1] at short
        cases short.2
      · dsimp only
        rw [if_neg short]
        cases answers.addr with
        | none => exact Or.inl ⟨fd, by simp, rfl⟩
        | some addr =>
          refine Or.inr ⟨addr, ⟨rfl, ⟨stSize, rfl, fun less => ?_⟩, rfl⟩, ?_⟩
          · by_contra untruncated
            exact short ⟨less, by simpa using untruncated⟩
          · simp

/-- A region is none when its size is zero, and otherwise tells it. -/
theorem region_eq_iff (addr size other : UInt64) :
    region addr size = region addr other ↔ size = other := by
  unfold region
  by_cases empty : size = 0
  · by_cases emptyOther : other = 0
    · simp [empty, emptyOther]
    · rw [if_pos empty, if_neg emptyOther, empty]
      simp [eq_comm, emptyOther]
  · by_cases emptyOther : other = 0
    · rw [if_neg empty, if_pos emptyOther, emptyOther]
      simp [empty]
    · rw [if_neg empty, if_neg emptyOther]
      simp

/-- A size of type `int` is zero as a `size_t` only when it is zero. -/
theorem toSizeT_eq_zero (size : Int32) : toSizeT size = 0 ↔ size = 0 := by
  constructor
  · intro zero
    have value := toNat_toSizeT size
    have least := size.le_toInt
    rw [zero, show (0 : UInt64).toNat = 0 from rfl] at value
    rw [← Int32.toInt_inj, show (0 : Int32).toInt = 0 from rfl]
    omega
  · rintro rfl
    rfl

/-- An object that was only constructed can be destroyed when its metadata happened to hold
a size of zero. -/
theorem construct_tidy (stray : UInt64) (umask : UInt32) (objects : Ptr → Option StatObject)
    (memory : Memory) :
    (construct source stray umask objects memory).Tidy umask ↔
      intAt source.metaSafe.toList metaTotalSize = 0 := by
  have nothing : region stray (toSizeT (intAt source.metaSafe.toList metaTotalSize)) = [] ↔
      intAt source.metaSafe.toList metaTotalSize = 0 := by
    rw [← toSizeT_eq_zero, ← region_eq_iff stray]
    rfl
  rw [← nothing]
  exact ⟨fun tidy => tidy.cleared, fun empty => ⟨empty, empty, rfl, rfl, rfl⟩⟩

/-- An object can be destroyed after its first `init` when that mapped the segment and the
size is one of type `int`. -/
theorem settled_tidy (stray : UInt64) (umask : UInt32) (objects : Ptr → Option StatObject)
    (memory : Memory) (answers : ShmAnswers) :
    (settled source (construct source stray umask objects memory).toShmObject answers).Tidy umask ↔
      Maps source answers ∧ toSizeT (toInt source.totalSize) = source.totalSize := by
  unfold settled construct
  dsimp only
  rcases createShm_cases source answers umask with
    ⟨unopened, made⟩ | ⟨fd, unmapped, made⟩ | ⟨addr, maps, made⟩
  · -- the name of a file that was never created
    rw [made]
    refine ⟨fun tidy => ?_, fun both => ?_⟩
    · have unlinked : fileOf source.shm = [] := tidy.unlinked
      rw [fileOf_shm] at unlinked
      cases unlinked
    · have opened := both.1.1
      rw [unopened] at opened
      cases opened
  · -- the descriptor of the file that was given up
    rw [made]
    exact ⟨fun tidy => (nomatch tidy.fds), fun both => absurd both.1 unmapped⟩
  · rw [made]
    refine ⟨fun tidy => ⟨maps, (region_eq_iff addr _ _).mp tidy.cleared⟩, fun both => ?_⟩
    have cleared := (region_eq_iff addr _ _).mpr both.2
    exact ⟨cleared, cleared, fileOf_shm source, rfl, rfl⟩

/-- After every run the object can be destroyed exactly when no `init` was called and its
memory held a size of zero before, or when the first `init` mapped the segment and its
size is one of type `int`. -/
theorem tidy_iff {stray : UInt64} {umask : UInt32} {objects : Ptr → Option StatObject}
    {memory : Memory} {events : List Event} {life : ShmLife}
    (replayed : (lifecycle source).replay (construct source stray umask objects memory) events =
      some life) :
    life.toShmObject.Tidy umask ↔ Destroyable source (firstInit events) := by
  have object := replay_object events rfl replayed
  cases first : firstInit events with
  | none =>
    rw [first] at object
    rw [object.1]
    exact construct_tidy stray umask objects memory
  | some answers =>
    rw [first] at object
    rw [object.1]
    exact settled_tidy stray umask objects memory answers

/-- A segment of one stat with one counter, in memory that was used before. -/
def oneCounter : ShmSource := sampleSource 1 [ascii "a"]

/-- Its object, where nothing is allocated yet. -/
def fresh : ShmLife := construct oneCounter 0x1000 18 (fun _ => none) (fun _ => 0)

/-- System calls that all succeed, but for the mapping when there is no address. -/
def answering (addr : Option UInt64) : ShmAnswers :=
  { fd := some 5, stSize := some 0, truncated := true, addr := addr }

/-- A segment that is mapped, and initialised a second time, can be destroyed. -/
theorem tidy_mapped : ∃ life, (lifecycle oneCounter).replay fresh
    [.init (answering (some 0x7f0000000000)), .init (answering none)] = some life ∧
      life.toShmObject.Tidy 18 := by
  have condition : Destroyable oneCounter (some (answering (some 0x7f0000000000))) :=
    ⟨⟨rfl, ⟨0, rfl, fun _ => rfl⟩, rfl⟩, by decide +kernel⟩
  exact ⟨_, rfl, (@tidy_iff oneCounter 0x1000 18 (fun _ => none) (fun _ => 0)
    [.init (answering (some 0x7f0000000000)), .init (answering none)] _ rfl).mpr condition⟩

/-- Without `init` the destructor clears memory at a stray address; and after an `init`
whose mapping fails it does so too, and the descriptor of the file is left open. -/
theorem untidy :
    fresh.toShmObject.destroy.cleared = [(0x1000, 0xffffffffaaaaaaaa)] ∧
    fresh.toShmObject.process.mapped = [] ∧
    ¬ fresh.toShmObject.Tidy 18 ∧
    ∃ life, (lifecycle oneCounter).replay fresh [.init (answering none)] = some life ∧
      life.toShmObject.destroy.cleared = [(0x1000, 0xffffffffaaaaaaaa)] ∧
      life.toShmObject.process.mapped = [] ∧ life.toShmObject.process.fds = [5] ∧
      ¬ life.toShmObject.Tidy 18 := by
  have stray : fresh.toShmObject.destroy.cleared = [(0x1000, 0xffffffffaaaaaaaa)] := by
    decide +kernel
  refine ⟨stray, rfl, fun tidy => ?_, _, rfl, ?_, ?_, ?_, fun tidy => ?_⟩
  · have cleared := tidy.cleared
    rw [stray] at cleared
    cases cleared
  · decide +kernel
  · decide +kernel
  · decide +kernel
  · have open' := tidy.fds
    revert open'
    decide +kernel

end ShmLife

end NcclExts.Ucommd
