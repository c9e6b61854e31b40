import NcclExts.Unet.MultiSend

/-!
# The bytes of a message

A message spreads each of its sends over its queue pairs in chunks of a multiple of 128
bytes. As long as the size of a send leaves room for the rounding in an `int`, the
chunks of a send cover it exactly, so a message puts the sum of its sizes on the wire.
-/

namespace NcclExts.Unet

open NcclExts.Foundation NcclExts.Ucommd

/-- `NCCL_IB_MAX_QPS`: how many queue pairs a comm has room for. -/
def maxQps : Nat := 128

/-! ## Chunks in machine arithmetic -/

theorem wrapInt_of_bounds {value : Int} (least : -2 ^ 31 ≤ value) (most : value < 2 ^ 31) :
    wrapInt value = value := by
  rw [wrapInt, Int.bmod_def]
  split <;> omega

/-- `DIVUP` divides rounding up while the sum it forms is at most one too large. -/
theorem divUp_wrapInt {x y : Int} (some : 0 < y) (nonneg : 0 ≤ x) (room : x + y ≤ 2 ^ 31) :
    divUp wrapInt x y = (x + y - 1) / y := by
  have wrapped : wrapInt (wrapInt (x + y) - 1) = x + y - 1 := by
    simp only [wrapInt, Int.bmod_def]
    split <;> split <;> omega
  rw [divUp, wrapped, Int.tdiv_eq_ediv_of_nonneg (by omega)]

/-- The sizes whose rounding to chunks an `int` can hold. -/
structure Chunkable (size : Int) (nqps : Nat) : Prop where
  nonneg : 0 ≤ size
  divides : size + nqps ≤ 2 ^ 31
  aligns : nqps = 1 → size + 128 ≤ 2 ^ 31

instance (size : Int) (nqps : Nat) : Decidable (Chunkable size nqps) :=
  decidable_of_iff (0 ≤ size ∧ size + nqps ≤ 2 ^ 31 ∧ (nqps = 1 → size + 128 ≤ 2 ^ 31))
    ⟨fun ⟨nonneg, divides, aligns⟩ => ⟨nonneg, divides, aligns⟩,
      fun ⟨nonneg, divides, aligns⟩ => ⟨nonneg, divides, aligns⟩⟩

/-- The chunks of a send cover it, and the start of each of them is an `int`. -/
theorem Chunkable.chunkSize_covers {size : Int} {nqps : Nat} (fits : Chunkable size nqps)
    (some : 0 < nqps) (few : nqps ≤ maxQps) :
    0 ≤ chunkSize wrapInt size nqps ∧ chunkSize wrapInt size nqps < 2 ^ 31 ∧
      size ≤ nqps * chunkSize wrapInt size nqps ∧
      ∀ j : Nat, j < nqps → j * chunkSize wrapInt size nqps < 2 ^ 31 := by
  obtain ⟨nonneg, divides, aligns⟩ := fits
  obtain ⟨q, isQ⟩ : ∃ q, (size + nqps - 1) / (nqps : Int) = q := ⟨_, rfl⟩
  have positive : (0 : Int) < nqps := by exact_mod_cast some
  have low : q * nqps ≤ size + nqps - 1 := isQ ▸ Int.ediv_mul_le _ (by omega)
  have high : size + nqps - 1 < (q + 1) * nqps := by
    rw [← isQ]
    exact Int.lt_ediv_add_one_mul_self _ positive
  have covers : size ≤ q * nqps := by linarith
  have nonnegQ : 0 ≤ q := by
    rw [← isQ]
    exact Int.ediv_nonneg (by omega) (by omega)
  have room : q + 128 ≤ 2 ^ 31 := by
    by_cases one : nqps = 1
    · subst one
      have aligned := aligns rfl
      omega
    · have two : (2 : Int) ≤ nqps := by omega
      have half : q * 2 ≤ q * nqps := Int.mul_le_mul_of_nonneg_left two nonnegQ
      omega
  have chunk : chunkSize wrapInt size nqps = (q + 127) / 128 * 128 := by
    rw [chunkSize, divUp_wrapInt positive nonneg divides, isQ,
      divUp_wrapInt (by omega) nonnegQ room, wrapInt_of_bounds (by omega) (by omega)]
    omega
  have atLeast : q ≤ chunkSize wrapInt size nqps := by omega
  have atMost : chunkSize wrapInt size nqps ≤ q + 127 := by omega
  refine ⟨by omega, by omega, ?_, ?_⟩
  · calc size ≤ nqps * q := by linarith
      _ ≤ nqps * chunkSize wrapInt size nqps := Int.mul_le_mul_of_nonneg_left atLeast positive.le
  · intro j below
    have start : (j : Int) * chunkSize wrapInt size nqps ≤ (nqps - 1) * (q + 127) :=
      Int.mul_le_mul (by omega) atMost (by omega) (by omega)
    have width : (nqps : Int) ≤ 128 := by exact_mod_cast few
    -- long chunks dwarf the rounding of all of them, and short ones are short
    by_cases long : 16256 ≤ q
    · nlinarith
    · nlinarith

/-! ## The bytes of a message -/

/-- The length of a chunk while its offset is an `int`. -/
theorem chunkLength_wrapInt (req : NcclIbRequest) (nqps : Nat) (nonneg : 0 ≤ req.offset)
    (small : req.offset < 2 ^ 31) (size : 0 ≤ req.size.toInt) :
    chunkLength wrapInt req nqps =
      min (req.size.toInt - req.offset) (chunkSize wrapInt req.size.toInt nqps) := by
  have most := Int32.toInt_lt req.size
  rw [chunkLength, wrapInt_of_bounds (by omega) (by omega)]

/-- The bytes of the next chunks are the sum of their lengths, where positive. -/
theorem chunkBytes_eq (setup : SendSetup) (ep : Endpoint) (nqps : Nat) (cursors : List Cursor) :
    chunkBytes setup ep nqps cursors = UInt64.ofInt ((cursors.map fun cursor =>
      max 0 (chunkLength setup.narrow (ep.reqs cursor.req) nqps)).sum) := by
  suffices loop : ∀ total : UInt64, cursors.foldl (fun total cursor =>
      if chunkLength setup.narrow (ep.reqs cursor.req) nqps ≤ 0 then total
      else total + UInt64.ofInt (chunkLength setup.narrow (ep.reqs cursor.req) nqps)) total =
      total + UInt64.ofInt ((cursors.map fun cursor =>
        max 0 (chunkLength setup.narrow (ep.reqs cursor.req) nqps)).sum) by
    have whole := loop 0
    rw [UInt64.zero_add] at whole
    exact whole
  induction cursors with
  | nil =>
    intro total
    exact (UInt64.add_zero total).symm
  | cons cursor rest ih =>
    intro total
    rw [List.foldl_cons, ih, List.map_cons, List.sum_cons, UInt64.ofInt_add, ← UInt64.add_assoc]
    congr 1
    by_cases empty : chunkLength setup.narrow (ep.reqs cursor.req) nqps ≤ 0
    · rw [if_pos empty, max_eq_left empty]
      exact (UInt64.add_zero total).symm
    · rw [if_neg empty, max_eq_right (by omega)]

/-- Each send of a message advances once to its next chunk. -/
theorem advanceOffsets_offset (setup : SendSetup) (nqps : Nat) (ep : Endpoint)
    {cursors : List Cursor} (distinct : (cursors.map Cursor.req).Nodup) {cursor : Cursor}
    (member : cursor ∈ cursors) :
    ((advanceOffsets setup nqps ep cursors).reqs cursor.req).offset =
      setup.narrow ((ep.reqs cursor.req).offset +
        chunkSize setup.narrow (ep.reqs cursor.req).size.toInt nqps) := by
  have absent {ep : Endpoint} {cursors : List Cursor} {i : ReqId}
      (other : i ∉ cursors.map Cursor.req) :
      (advanceOffsets setup nqps ep cursors).reqs i = ep.reqs i := by
    induction cursors generalizing ep with
    | nil => rfl
    | cons first rest ih =>
      rw [List.map_cons, List.mem_cons, not_or] at other
      rw [advanceOffsets, List.foldl_cons]
      refine (ih other.2).trans ?_
      simp [Endpoint.setReq, other.1]
  induction cursors generalizing ep with
  | nil => simp at member
  | cons first rest ih =>
    obtain ⟨notLater, restDistinct⟩ := List.nodup_cons.mp distinct
    rcases List.mem_cons.mp member with rfl | later
    · rw [advanceOffsets, List.foldl_cons]
      rw [show ∀ ep, List.foldl _ ep rest = advanceOffsets setup nqps ep rest from fun _ => rfl]
      rw [absent notLater]
      simp [Endpoint.setReq]
    · have other : cursor.req ≠ first.req := by
        intro same
        exact notLater (same ▸ List.mem_map_of_mem later)
      rw [advanceOffsets, List.foldl_cons]
      refine (ih _ restDistinct later).trans ?_
      simp [Endpoint.setReq, other]

/-- After some chunks of each send, the rest of the loop posts what is left of the
sends. -/
theorem postChunks_bytes {setup : SendSetup} (machine : setup.narrow = wrapInt)
    {message : Message} (some : 0 < message.nqps) (few : message.nqps ≤ maxQps)
    (j count : Nat) (total : j + count = message.nqps) (cursors : List Cursor)
    (distinct : (cursors.map Cursor.req).Nodup) (totalSize : UInt64) (ep : Endpoint)
    (fits : ∀ cursor ∈ cursors, Chunkable (ep.reqs cursor.req).size.toInt message.nqps)
    (offsets : 0 < count → ∀ cursor ∈ cursors, (ep.reqs cursor.req).offset =
      j * chunkSize wrapInt (ep.reqs cursor.req).size.toInt message.nqps) :
    (postChunks setup message count cursors totalSize ep).1 = totalSize +
      UInt64.ofInt ((cursors.map fun cursor => max 0 ((ep.reqs cursor.req).size.toInt -
        j * chunkSize wrapInt (ep.reqs cursor.req).size.toInt message.nqps)).sum) := by
  induction count generalizing j cursors totalSize ep with
  | zero =>
    have nothing : cursors.map (fun cursor => max 0 ((ep.reqs cursor.req).size.toInt -
        j * chunkSize wrapInt (ep.reqs cursor.req).size.toInt message.nqps)) =
        cursors.map (fun _ => (0 : Int)) := by
      apply List.map_congr_left
      intro cursor member
      obtain ⟨_, _, covers, _⟩ := (fits cursor member).chunkSize_covers some few
      rw [Nat.add_zero] at total
      exact max_eq_left (by rw [total]; linarith)
    rw [nothing, postChunks, List.map_const', List.sum_replicate, smul_zero]
    exact (UInt64.add_zero totalSize).symm
  | succ count ih =>
    obtain ⟨posted, isPosted⟩ : ∃ posted, ep.postSignaled (messagePosting setup message ep.qpIndex
        cursors.length (chain setup message ep (setup.qps ep.qpIndex) cursors)) = posted :=
      ⟨_, rfl⟩
    have postedReqs : posted.reqs = ep.reqs := by
      rw [← isPosted]
      rfl
    have only := advanceOffsets_only setup message.nqps posted cursors
    have sizes (i : ReqId) : ((advanceOffsets setup message.nqps posted cursors).reqs i).size =
        (ep.reqs i).size := by
      rw [only.reqs i, postedReqs]
    have reqs : (cursors.map (Cursor.advance setup ep message.nqps)).map Cursor.req =
        cursors.map Cursor.req := by
      rw [List.map_map]
      rfl
    have same (cursor : Cursor) : (cursor.advance setup ep message.nqps).req = cursor.req := rfl
    have rest := ih (j + 1) (by omega) (cursors.map (Cursor.advance setup ep message.nqps))
      (reqs ▸ distinct) (totalSize + chunkBytes setup ep message.nqps cursors)
      { advanceOffsets setup message.nqps posted cursors with
        qpIndex := (ep.qpIndex + 1) % setup.nqps } ?fits ?offsets
    case fits =>
      intro cursor member
      obtain ⟨old, isOld, rfl⟩ := List.mem_map.mp member
      simp only [same, sizes]
      exact fits old isOld
    case offsets =>
      intro more cursor member
      obtain ⟨old, isOld, rfl⟩ := List.mem_map.mp member
      obtain ⟨nonneg, _, _, starts⟩ := (fits old isOld).chunkSize_covers some few
      have start := starts (j + 1) (by omega)
      have before := offsets (Nat.succ_pos count) old isOld
      have advanced := advanceOffsets_offset setup message.nqps posted distinct isOld
      have next : (j : Int) * chunkSize wrapInt (ep.reqs old.req).size.toInt message.nqps +
          chunkSize wrapInt (ep.reqs old.req).size.toInt message.nqps =
          (j + 1 : Nat) * chunkSize wrapInt (ep.reqs old.req).size.toInt message.nqps := by
        push_cast
        ring
      have low : 0 ≤ (j + 1 : Nat) * chunkSize wrapInt (ep.reqs old.req).size.toInt
        message.nqps := Int.mul_nonneg (by omega) nonneg
      rw [postedReqs, machine, before, next, wrapInt_of_bounds (by omega) start] at advanced
      simp only [same, sizes]
      exact advanced
    rw [postChunks, isPosted]
    refine rest.trans ?_
    rw [chunkBytes_eq, UInt64.add_assoc, ← UInt64.ofInt_add, List.map_map, ← List.sum_map_add]
    congr 3
    apply List.map_congr_left
    intro cursor member
    obtain ⟨nonneg, small, _, starts⟩ := (fits cursor member).chunkSize_covers some few
    have before := offsets (Nat.succ_pos count) cursor member
    have start := starts j (by omega)
    have low : 0 ≤ (j : Int) * chunkSize wrapInt (ep.reqs cursor.req).size.toInt message.nqps :=
      Int.mul_nonneg (by omega) nonneg
    have length := chunkLength_wrapInt (ep.reqs cursor.req) message.nqps
      (by rw [before]; exact low) (by rw [before]; exact start) (fits cursor member).nonneg
    simp only [Function.comp_apply, same, sizes]
    rw [machine, length, before]
    push_cast
    rw [Int.add_mul, Int.one_mul]
    omega

/-- Posting a message of sends not yet sent puts the sum of their sizes on the wire. -/
theorem postChunks_total {setup : SendSetup} (machine : setup.narrow = wrapInt)
    (few : setup.perMessage ≤ maxQps) (message : Message) (slot : Nat)
    (whole : message.nqps = setup.perMessage) {comm : SendComm} {reqs : List ReqId}
    (distinct : reqs.Nodup)
    (fits : ∀ i ∈ reqs, Chunkable (comm.ep.reqs i).size.toInt setup.perMessage)
    (unsent : ∀ i ∈ reqs, (comm.ep.reqs i).offset = 0) :
    (postChunks setup message setup.perMessage (cursorsOf comm slot reqs) 0 comm.ep).1 =
      UInt64.ofInt (reqs.map fun i => (comm.ep.reqs i).size.toInt).sum := by
  have names : (cursorsOf comm slot reqs).map Cursor.req = reqs := by
    apply List.ext_getElem
    · simp
    · intro r _ _
      simp [cursorsOf]
  have named {cursor : Cursor} (member : cursor ∈ cursorsOf comm slot reqs) : cursor.req ∈ reqs :=
    names ▸ List.mem_map_of_mem member
  have some : 0 < message.nqps := by
    rw [whole]
    exact setup.perMessage_positive
  have bytes := postChunks_bytes machine some (by rw [whole]; exact few) 0 setup.perMessage
    (by rw [whole, Nat.zero_add]) (cursorsOf comm slot reqs) (names.symm ▸ distinct) 0 comm.ep
    (fun cursor member => whole ▸ fits _ (named member))
    (fun _ cursor member => by rw [unsent _ (named member)]; simp)
  have sizes : (cursorsOf comm slot reqs).map (fun cursor =>
      max 0 ((comm.ep.reqs cursor.req).size.toInt - (0 : Nat) *
        chunkSize wrapInt (comm.ep.reqs cursor.req).size.toInt message.nqps)) =
      reqs.map fun i => (comm.ep.reqs i).size.toInt := by
    conv_rhs => rw [← names, List.map_map]
    apply List.map_congr_left
    intro cursor member
    have nonneg := (fits _ (named member)).nonneg
    simp [nonneg]
  rw [bytes, sizes, UInt64.zero_add]

end NcclExts.Unet
