import NcclExts.Unet.KeyValidity

/-!
# How many queue pairs a comm has

The count is the product of a setting and the number of devices. Nothing checks it: it
bounds the loops that fill the arrays of both ends, and the calls of a connected comm
walk over its queue pairs with an index that they reduce modulo the count. Here the
count keeps the sign and the width it has in the program, and the walk stops at a
division by zero.

In `struct ncclIbNetCommBase` the array `qps` is followed by the count itself. A loop
that writes past the array changes its own bound, so nothing is said of a run from such
a write on.
-/

namespace NcclExts.Unet

open NcclExts.Foundation

/-! ## Connecting with verbs that may refuse -/

/-- The answers to the calls of one side that depend on the count: whether a completion
queue with so many entries is created on a device, and whether a queue pair is. -/
structure QpVerbs where
  createCq : Nat → Int → Bool
  createQp : Nat → Bool

/-- Why there is no comm: a call returned an error, or an entry past the end of an array
was written. -/
inductive NoComm where
  | rejected
  | outOfBounds
deriving DecidableEq, Repr

/-- Write an entry of `qps`. -/
def writeQp (q : Nat) : Except NoComm PUnit :=
  if q < maxQps then .ok ⟨⟩ else .error .outOfBounds

namespace Side

/-- The entries asked for in `ncclIbInitCommDevBase`, truncated to an `int`. -/
def cqEntries (side : Side) : Int := wrapInt (2 * maxRequests * side.qpsPerConn)

/-- The loop over the devices: a completion queue is created on each. -/
def createCqs (side : Side) (verbs : QpVerbs) : Except NoComm PUnit :=
  if ∀ i, i < side.ndevs → verbs.createCq i side.cqEntries = true then .ok ⟨⟩
  else .error .rejected

/-- The loop over the queue pairs from an index on. `ncclIbCreateQp` stores what verbs
returns before it looks at it, and the accepting side has stored the device of the other
side even before. -/
def createQps (verbs : QpVerbs) : Nat → Nat → Except NoComm PUnit
  | 0, _ => .ok ⟨⟩
  | count + 1, q => do
    writeQp q
    if verbs.createQp q then createQps verbs count (q + 1) else .error .rejected

/-- What a side creates on its devices while it connects. -/
def create (side : Side) (verbs : QpVerbs) : Except NoComm PUnit := do
  side.createCqs verbs
  createQps verbs side.numQps 0

/-- Verbs creates the completion queues of a side, and the queue pairs that have an entry
in the array. -/
def Granted (side : Side) (verbs : QpVerbs) : Prop :=
  (∀ i, i < side.ndevs → verbs.createCq i side.cqEntries = true) ∧
    ∀ q, q < min side.numQps maxQps → verbs.createQp q = true

instance (side : Side) (verbs : QpVerbs) : Decidable (side.Granted verbs) :=
  inferInstanceAs (Decidable ((∀ i, i < _ → _ = _) ∧ ∀ q, q < _ → _ = _))

/-- The truncated setting times the number of devices. -/
def scaledSetting (side : Side) : Int :=
  side.qpsPerConn % ((2 ^ 32 / side.ndevs : Nat) : Int) * side.ndevs

/-- The scaled setting lies between one and the length of the arrays. -/
def CountFits (side : Side) : Prop := 1 ≤ side.scaledSetting ∧ side.scaledSetting ≤ maxQps

instance (side : Side) : Decidable side.CountFits := inferInstanceAs (Decidable (_ ∧ _))

/-- The scaled setting is at most the length of the arrays, or negative as an `int`. -/
def StaysInside (side : Side) : Prop :=
  side.scaledSetting ≤ maxQps ∨ 2 ^ 31 ≤ side.scaledSetting

instance (side : Side) : Decidable side.StaysInside := inferInstanceAs (Decidable (_ ∨ _))

end Side

namespace Handshake

/-- The send comm that `ncclIbConnect` returns and the receive comm that `ncclIbAccept`
returns: the connecting side has created its queue pairs when the accepting side starts,
and looks at the link layers after that. -/
def comms (h : Handshake) (connectVerbs acceptVerbs : QpVerbs) :
    Except NoComm (Connected × Connected) := do
  h.connector.create connectVerbs
  h.acceptor.create acceptVerbs
  match h.connecting.value with
  | some send => pure (send, h.recvComm)
  | none => .error .rejected

end Handshake

/-! ## The walk over the queue pairs -/

/-- The fields of `struct ncclIbNetCommBase` that select a queue pair. -/
structure QpWalk where
  nqps : Int
  ndevs : Nat
  qpIndex : Int
  devIndex : Nat

/-- The walk of a comm that was just returned. -/
def Connected.walk (comm : Connected) (side : Side) : QpWalk :=
  { nqps := comm.nqps, ndevs := side.ndevs, qpIndex := 0, devIndex := 0 }

/-- The queue pairs a loop takes from an index on, and where it leaves the index:
`qpIndex = (qpIndex + 1) % nqps` after each. It has no result when `nqps` is zero. -/
def takeQps (nqps : Int) : Nat → Int → Option (List Int × Int)
  | 0, qpIndex => some ([], qpIndex)
  | count + 1, qpIndex =>
    if nqps = 0 then none
    else do
      let (rest, last) ← takeQps nqps count ((qpIndex + 1).tmod nqps)
      pure (qpIndex :: rest, last)

/-- The parts of the calls of a connected comm that select queue pairs: an isend that
counts its events, the posting of a message, an irecv, the posting of a FIFO slot, and
the close. -/
inductive QpUse where
  | isend
  | multiSend
  | irecv
  | postFifo
  | close
deriving DecidableEq, Repr

/-- How often the loop over the queue pairs of a message runs. -/
def QpWalk.perMessage (walk : QpWalk) (splitDataOnQps : Bool) : Nat :=
  if splitDataOnQps then walk.nqps.toNat else walk.ndevs

/-- The indices into `qps` that a use has, and the walk it leaves. -/
def QpUse.step (splitDataOnQps : Bool) (walk : QpWalk) : QpUse → Option (List Int × QpWalk)
  | .isend => do
    let (indices, _) ← takeQps walk.nqps (walk.perMessage splitDataOnQps) walk.qpIndex
    pure (indices, walk)
  | .multiSend | .irecv => do
    let (indices, last) ← takeQps walk.nqps (walk.perMessage splitDataOnQps) walk.qpIndex
    pure (indices, { walk with qpIndex := last })
  | .postFifo =>
    some ([(walk.devIndex : Int)], { walk with devIndex := (walk.devIndex + 1) % walk.ndevs })
  | .close => some ((List.range walk.nqps.toNat).map (fun (q : Nat) => (q : Int)), walk)

/-- All indices of a sequence of uses. -/
def QpWalk.indices (splitDataOnQps : Bool) : QpWalk → List QpUse → Option (List Int)
  | _, [] => some []
  | walk, use :: uses => do
    let (indices, next) ← use.step splitDataOnQps walk
    let rest ← next.indices splitDataOnQps uses
    pure (indices ++ rest)

/-- What a count must be, and what follows from it: the metadata of the other side is read
inside its array, and whatever is called later, every index names a queue pair of the comm
and nothing is divided by zero. -/
structure Counted (side : Side) (comm : Connected) (reads : List Place) : Prop where
  some : 1 ≤ comm.nqps
  most : comm.nqps ≤ maxQps
  perDev : side.ndevs ≤ comm.nqps
  reads : ∀ q, Place.qpInfo q ∈ reads → q < maxQps
  uses : ∀ splitDataOnQps uses, ∃ indices,
    (comm.walk side).indices splitDataOnQps uses = .some indices ∧
      ∀ index ∈ indices, 0 ≤ index ∧ index < comm.nqps

/-- No entry past the end of an array is written, and the comms that are returned have a
count in range: every other count is rejected. -/
structure Handshake.CountsRange (h : Handshake) (connectVerbs acceptVerbs : QpVerbs) :
    Prop where
  inside : h.comms connectVerbs acceptVerbs ≠ .error .outOfBounds
  counted : ∀ send recv, h.comms connectVerbs acceptVerbs = .ok (send, recv) →
    Counted h.connector send h.connecting.reads ∧ Counted h.acceptor recv h.accepting.reads

/-- Each side stays inside the arrays as far as verbs lets it come, and the settings of
both fit when both come to a comm. -/
def Handshake.SettingsFit (h : Handshake) (connectVerbs acceptVerbs : QpVerbs) : Prop :=
  h.connector.Granted connectVerbs →
    h.connector.StaysInside ∧
      (h.acceptor.Granted acceptVerbs →
        h.acceptor.StaysInside ∧
          (h.SameLinks → h.connector.CountFits ∧ h.acceptor.CountFits))

/-! ## The count -/

/-- The truncated product lies in the arrays exactly when the scaled setting does. -/
theorem Side.nqps_fits (side : Side) :
    (1 ≤ side.nqps ∧ side.nqps ≤ maxQps) ↔ side.CountFits := by
  have atMostTwo := side.atMostTwo
  have someDev := side.someDev
  obtain one | two : side.ndevs = 1 ∨ side.ndevs = 2 := by omega
  · simp only [Side.CountFits, Side.scaledSetting, Side.nqps, wrapInt, one, Int.bmod_def, maxQps]
    split <;> omega
  · simp only [Side.CountFits, Side.scaledSetting, Side.nqps, wrapInt, two, Int.bmod_def, maxQps]
    split <;> omega

/-- The loops have no more rounds than the arrays have entries exactly when the scaled
setting says so. -/
theorem Side.numQps_le_iff (side : Side) : side.numQps ≤ maxQps ↔ side.StaysInside := by
  have atMostTwo := side.atMostTwo
  have someDev := side.someDev
  obtain one | two : side.ndevs = 1 ∨ side.ndevs = 2 := by omega
  · simp only [Side.StaysInside, Side.scaledSetting, Side.numQps, Side.nqps, wrapInt, one,
      Int.bmod_def, maxQps]
    split <;> omega
  · simp only [Side.StaysInside, Side.scaledSetting, Side.numQps, Side.nqps, wrapInt, two,
      Int.bmod_def, maxQps]
    split <;> omega

/-- A count in range is at least the number of devices. -/
theorem Side.ndevs_le_nqps (side : Side) (some : 1 ≤ side.nqps) :
    (side.ndevs : Int) ≤ side.nqps := by
  have counted : side.numQps = side.nqps.toNat := rfl
  have perDev := side.ndevs_le_numQps (by omega)
  omega

/-! ## How far a side comes -/

/-- The loop over the queue pairs ends, leaves the array or is stopped by verbs, whichever
comes first. -/
theorem Side.createQps_eq (verbs : QpVerbs) (count q : Nat) (inside : q ≤ maxQps) :
    Side.createQps verbs count q =
      if ∀ p, q ≤ p → p < min (q + count) maxQps → verbs.createQp p = true then
        if q + count ≤ maxQps then .ok ⟨⟩ else .error .outOfBounds
      else .error .rejected := by
  induction count generalizing q with
  | zero =>
    have nothing : ∀ p, q ≤ p → p < min (q + 0) maxQps → verbs.createQp p = true := by
      intro p least below
      omega
    rw [if_pos nothing, if_pos (by omega)]
    rfl
  | succ count ih =>
    by_cases last : q = maxQps
    · -- the entry past the end is written before verbs is asked
      have nothing : ∀ p, q ≤ p → p < min (q + (count + 1)) maxQps →
          verbs.createQp p = true := by
        intro p least below
        omega
      rw [if_pos nothing, if_neg (by omega), Side.createQps, writeQp, if_neg (by omega)]
      rfl
    · rw [Side.createQps, writeQp, if_pos (by omega)]
      change (if verbs.createQp q = true then _ else _) = _
      have rest := ih (q + 1) (by omega)
      have sum : q + 1 + count = q + (count + 1) := by omega
      rw [sum] at rest
      by_cases created : verbs.createQp q = true
      · rw [if_pos created, rest]
        have same : (∀ p, q + 1 ≤ p → p < min (q + (count + 1)) maxQps →
              verbs.createQp p = true) ↔
            ∀ p, q ≤ p → p < min (q + (count + 1)) maxQps → verbs.createQp p = true := by
          constructor
          · intro later p least below
            obtain rfl | further := Nat.eq_or_lt_of_le least
            · exact created
            · exact later p further below
          · exact fun all p least below => all p (by omega) below
        simp only [same]
      · rw [if_neg created, if_neg]
        intro all
        exact created (all q (by omega) (by omega))

/-- A side is rejected unless verbs grants what it asks for, and leaves the arrays when its
count is more than they hold. -/
theorem Side.create_eq (side : Side) (verbs : QpVerbs) :
    side.create verbs =
      if side.Granted verbs then
        if side.numQps ≤ maxQps then .ok ⟨⟩ else .error .outOfBounds
      else .error .rejected := by
  have loop := Side.createQps_eq verbs side.numQps 0 (Nat.zero_le _)
  simp only [Nat.zero_le, true_implies, Nat.zero_add] at loop
  unfold Side.create Side.createCqs
  by_cases queues : ∀ i, i < side.ndevs → verbs.createCq i side.cqEntries = true
  · rw [if_pos queues]
    have granted : side.Granted verbs ↔
        ∀ q, q < min side.numQps maxQps → verbs.createQp q = true := and_iff_right queues
    simp only [granted]
    exact loop
  · rw [if_neg queues, if_neg (fun granted => queues granted.1)]
    rfl

/-! ## The walk stays among the queue pairs -/

/-- With a positive count the loop takes the queue pairs in turn. -/
theorem takeQps_eq (nqps count start : Nat) (inside : start < nqps) :
    takeQps nqps count start = some ((roundRobin nqps start count).map (fun (q : Nat) => (q : Int)),
      ((roundEnd nqps start count : Nat) : Int)) := by
  induction count generalizing start with
  | zero => rw [roundEnd_zero inside]; rfl
  | succ count ih =>
    have positive : (nqps : Int) ≠ 0 := by omega
    have next : ((start : Int) + 1).tmod nqps = ((start + 1) % nqps : Nat) := by
      rw [Int.tmod_eq_emod_of_nonneg (by omega)]
      rfl
    have below : (start + 1) % nqps < nqps := Nat.mod_lt _ (by omega)
    rw [takeQps, if_neg positive, next, ih _ below, roundEnd_succ]
    rfl

/-- The queue pairs a message is posted on are those the loop takes. -/
theorem Sent.takes {setup : SendSetup} {comm after : SendComm} {reqs : List ReqId}
    {first : ReqId} {postings : List Posting} (sent : Sent setup comm reqs first after postings)
    (inside : comm.ep.qpIndex < setup.nqps) :
    ∃ indices, takeQps setup.nqps setup.perMessage comm.ep.qpIndex =
        some (indices, (after.ep.qpIndex : Int)) ∧
      postings.map Posting.qp = indices.map (fun index => QpRef.data index.toNat) := by
  refine ⟨_, by rw [sent.qpIndex]; exact takeQps_eq _ _ _ inside, ?_⟩
  have routes := congrArg (List.map Posting.qp) sent.routes
  rw [List.map_map, List.map_map] at routes
  rw [List.map_map]
  exact routes

/-- So are the queue pairs a receive is posted on. -/
theorem RecvsPosted.takes {setup : RecvSetup} {group : Nat} {i : ReqId} {count : Nat}
    {ep after : Endpoint} (posted : RecvsPosted setup group i count ep after)
    (inside : ep.qpIndex < setup.nqps) :
    ∃ indices, takeQps setup.nqps count ep.qpIndex = some (indices, (after.qpIndex : Int)) ∧
      after.posted = ep.posted ++
        indices.map (fun index => recvPosting setup index.toNat group i) := by
  have index : after.qpIndex = roundEnd setup.nqps ep.qpIndex count :=
    congrArg Endpoint.qpIndex posted.rest
  have queue : after.posted = ep.posted ++ (roundRobin setup.nqps ep.qpIndex count).map
      (fun q => recvPosting setup q group i) := congrArg Endpoint.posted posted.rest
  refine ⟨_, by rw [index]; exact takeQps_eq _ _ _ inside, ?_⟩
  rw [queue, List.map_map]
  rfl

/-- A walk whose indices are those of a queue pair and a device of the comm. -/
structure QpWalk.Inside (walk : QpWalk) : Prop where
  someDev : 0 < walk.ndevs
  perDev : walk.ndevs ≤ walk.nqps
  qp : 0 ≤ walk.qpIndex ∧ walk.qpIndex < walk.nqps
  dev : walk.devIndex < walk.ndevs

/-- What a loop takes from inside is inside. -/
theorem QpWalk.Inside.taken {walk : QpWalk} (inside : walk.Inside) (count : Nat) :
    ∃ indices last, takeQps walk.nqps count walk.qpIndex = some (indices, last) ∧
      (∀ index ∈ indices, 0 ≤ index ∧ index < walk.nqps) ∧ 0 ≤ last ∧ last < walk.nqps := by
  obtain ⟨low, high⟩ := inside.qp
  obtain ⟨nqps, isCount⟩ := Int.eq_ofNat_of_zero_le (by omega : 0 ≤ walk.nqps)
  obtain ⟨start, isStart⟩ := Int.eq_ofNat_of_zero_le low
  have below : start < nqps := by omega
  refine ⟨_, _, by rw [isCount, isStart]; exact takeQps_eq nqps count start below, ?_, ?_, ?_⟩
  · intro index member
    obtain ⟨q, taken, rfl⟩ := List.mem_map.mp member
    have small := roundRobin_lt below q taken
    omega
  · exact Int.natCast_nonneg _
  · have small : roundEnd nqps start count < nqps := Nat.mod_lt _ (by omega)
    omega

/-- One use from inside has indices inside and leaves a walk inside, over the same queue
pairs. -/
theorem QpUse.step_inside (splitDataOnQps : Bool) {walk : QpWalk} (inside : walk.Inside)
    (use : QpUse) : ∃ indices next, use.step splitDataOnQps walk = some (indices, next) ∧
      (∀ index ∈ indices, 0 ≤ index ∧ index < walk.nqps) ∧ next.Inside ∧
      next.nqps = walk.nqps := by
  obtain ⟨taken, last, took, among, low, high⟩ :=
    inside.taken (walk.perMessage splitDataOnQps)
  have perDev := inside.perDev
  have moved : ({ walk with qpIndex := last } : QpWalk).Inside :=
    { inside with qp := ⟨low, high⟩ }
  cases use with
  | isend => exact ⟨taken, walk, by simp [QpUse.step, took], among, inside, rfl⟩
  | multiSend =>
    exact ⟨taken, { walk with qpIndex := last }, by simp [QpUse.step, took], among, moved, rfl⟩
  | irecv =>
    exact ⟨taken, { walk with qpIndex := last }, by simp [QpUse.step, took], among, moved, rfl⟩
  | postFifo =>
    refine ⟨_, _, rfl, ?_, { inside with dev := Nat.mod_lt _ inside.someDev }, rfl⟩
    intro index member
    obtain rfl := List.mem_singleton.mp member
    have dev := inside.dev
    omega
  | close =>
    refine ⟨_, _, rfl, ?_, inside, rfl⟩
    intro index member
    obtain ⟨q, counted, rfl⟩ := List.mem_map.mp member
    have small := List.mem_range.mp counted
    omega

/-- So do all uses that follow one another. -/
theorem QpWalk.Inside.indices (splitDataOnQps : Bool) {walk : QpWalk} (inside : walk.Inside)
    (uses : List QpUse) : ∃ indices, walk.indices splitDataOnQps uses = some indices ∧
      ∀ index ∈ indices, 0 ≤ index ∧ index < walk.nqps := by
  induction uses generalizing walk with
  | nil => exact ⟨[], rfl, by simp⟩
  | cons use uses ih =>
    obtain ⟨here, next, stepped, among, nextInside, same⟩ :=
      QpUse.step_inside splitDataOnQps inside use
    obtain ⟨rest, walked, restAmong⟩ := ih nextInside
    refine ⟨here ++ rest, by simp [QpWalk.indices, stepped, walked], ?_⟩
    intro index member
    rcases List.mem_append.mp member with first | later
    · exact among index first
    · rw [← same]
      exact restAmong index later

/-! ## Connecting -/

/-- What comes of connecting, by how far the two sides come. -/
theorem Handshake.comms_eq (h : Handshake) (connectVerbs acceptVerbs : QpVerbs) :
    h.comms connectVerbs acceptVerbs =
      if h.connector.Granted connectVerbs then
        if h.connector.numQps ≤ maxQps then
          if h.acceptor.Granted acceptVerbs then
            if h.acceptor.numQps ≤ maxQps then
              if h.SameLinks then .ok (h.sendComm, h.recvComm) else .error .rejected
            else .error .outOfBounds
          else .error .rejected
        else .error .outOfBounds
      else .error .rejected := by
  unfold Handshake.comms
  rw [Side.create_eq, Side.create_eq, h.connecting_value]
  split
  · split
    · split
      · split
        · by_cases same : h.SameLinks
          · rw [if_pos same, if_pos same]
            rfl
          · rw [if_neg same, if_neg same]
            rfl
        · rfl
      · rfl
    · rfl
  · rfl

/-- A comm of a side whose count fits has all that a count must give. -/
theorem Side.CountFits.counted {side : Side} (fits : side.CountFits) {comm : Connected}
    (count : comm.nqps = side.nqps) {reads : List Place}
    (own : ∀ q, Place.qpInfo q ∈ reads → q < side.numQps) : Counted side comm reads := by
  obtain ⟨some, most⟩ := side.nqps_fits.mpr fits
  have perDev := side.ndevs_le_nqps some
  have numQps : (side.numQps : Int) = side.nqps := Int.toNat_of_nonneg (by omega)
  rw [← count] at some most perDev
  have inside : (comm.walk side).Inside :=
    ⟨side.someDev, perDev, ⟨Int.le_refl _, some⟩, side.someDev⟩
  refine ⟨some, most, perDev, ?_, ?_⟩
  · intro q member
    have below := own q member
    omega
  · exact fun splitDataOnQps uses => inside.indices splitDataOnQps uses

/-- Connecting and accepting stay inside the arrays and return comms whose count, and with
it every later index, is in range, exactly when the settings fit. -/
theorem qp_count_range (h : Handshake) (connectVerbs acceptVerbs : QpVerbs) :
    h.CountsRange connectVerbs acceptVerbs ↔ h.SettingsFit connectVerbs acceptVerbs := by
  have outcome := h.comms_eq connectVerbs acceptVerbs
  unfold Handshake.SettingsFit
  rw [← Side.numQps_le_iff, ← Side.numQps_le_iff]
  constructor
  · intro range granted
    rw [if_pos granted] at outcome
    have connectInside : h.connector.numQps ≤ maxQps := by
      by_contra many
      exact range.inside (outcome.trans (if_neg many))
    rw [if_pos connectInside] at outcome
    refine ⟨connectInside, fun accepted => ?_⟩
    rw [if_pos accepted] at outcome
    have acceptInside : h.acceptor.numQps ≤ maxQps := by
      by_contra many
      exact range.inside (outcome.trans (if_neg many))
    rw [if_pos acceptInside] at outcome
    refine ⟨acceptInside, fun same => ?_⟩
    rw [if_pos same] at outcome
    obtain ⟨send, recv⟩ := range.counted h.sendComm h.recvComm outcome
    exact ⟨h.connector.nqps_fits.mp ⟨send.some, send.most⟩,
      h.acceptor.nqps_fits.mp ⟨recv.some, recv.most⟩⟩
  · intro fit
    constructor
    · rw [outcome]
      split
      next granted =>
        obtain ⟨connectInside, further⟩ := fit granted
        rw [if_pos connectInside]
        split
        next accepted =>
          rw [if_pos (further accepted).1]
          split <;> simp
        next => simp
      next => simp
    · intro send recv returned
      rw [outcome] at returned
      split_ifs at returned with granted connectInside accepted acceptInside same
      obtain ⟨rfl, rfl⟩ := Prod.mk.inj (Except.ok.inj returned)
      obtain ⟨connector, acceptor⟩ := ((fit granted).2 accepted).2 same
      refine ⟨connector.counted rfl fun q => ?_, acceptor.counted rfl fun q => ?_⟩
      · exact (h.qpInfo_mem_connecting_reads same).mp
      · exact h.qpInfo_mem_accepting_reads.mp

/-- Verbs that creates every queue pair, and completion queues from some length up to about
four million. -/
def QpVerbs.device (shortest : Int) : QpVerbs :=
  { createCq := fun _ entries => shortest ≤ entries ∧ entries ≤ 4194303
    createQp := fun _ => true }

/-- Two sides with so many devices and the same setting. -/
def Handshake.sample (ndevs : Nat) (qpsPerConn : Int) (someDev : 0 < ndevs)
    (atMostTwo : ndevs ≤ 2) : Handshake :=
  { connector := .sample ndevs qpsPerConn false (fun _ => 5) someDev atMostTwo
    acceptor := .sample ndevs qpsPerConn false (fun _ => 5) someDev atMostTwo
    connectStack := .stack
    acceptStack := .stack }

/-- With a setting of zero both sides return a comm without a queue pair. -/
theorem qp_count_range_none : ¬ ∀ (h : Handshake) (connectVerbs acceptVerbs : QpVerbs),
    h.CountsRange connectVerbs acceptVerbs := by
  intro alwaysInRange
  let h : Handshake := .sample 1 0 (by decide) (by decide)
  have returned : h.comms (.device 0) (.device 0) = .ok (h.sendComm, h.recvComm) := by
    rw [h.comms_eq, if_pos (by decide +kernel), if_pos (by decide +kernel),
      if_pos (by decide +kernel), if_pos (by decide +kernel), if_pos (by decide +kernel)]
  have some : 1 ≤ h.sendComm.nqps :=
    ((alwaysInRange h (.device 0) (.device 0)).counted _ _ returned).1.some
  exact absurd some (by decide)

-- A negative setting can ask for completion queues of 512 entries, which every device has.
example : (Handshake.sample 1 (-8388607) (by decide) (by decide)).connector.cqEntries = 512 ∧
    (Handshake.sample 1 (-8388607) (by decide) (by decide)).sendComm.nqps = -8388607 := by
  decide +kernel

-- 65 queue pairs for each of two devices are more than the array holds.
example : (Handshake.sample 2 65 (by decide) (by decide)).comms (.device 1) (.device 1) =
    .error .outOfBounds := by
  rw [Handshake.comms_eq, if_pos (by decide +kernel), if_neg (by decide +kernel)]

end NcclExts.Unet
