import NcclExts.Foundation.Recording
import NcclExts.Unet.CallRequests
import NcclExts.Unet.DataCoverage

/-!
# What has arrived when a receive is done

A connection is run with a record of the buffer that each matched send was called with. A
message copies the sends of its call to the receives of the call, in pieces that take
different queue pairs and arrive in any order, between the pieces of other calls. A test
of a receive reports done on the completions of its queue pairs alone; by then every byte
of every send of its call was copied once to where its receive asked for it, and nothing
of the call is still to arrive.
-/

namespace NcclExts.Unet

open NcclExts.Foundation NcclExts.Ucommd

/-- The matches that a step makes, each with the buffer that the send was called with. -/
def newSources (c : Connection) (event : ConnEvent) (after : Connection) : List (Match × Int) :=
  match event with
  | .isend data _ _ _ => (after.matched.drop c.matched.length).map fun m => (m, data)
  | _ => []

/-- A connection, and the buffers of the sends that were matched. -/
abbrev Transfer := Noted Connection (Match × Int)

/-- All runs of a connection, with the buffers of its sends. -/
def transferring (ends : Ends) : System Transfer ConnEvent := recording (connection ends) newSources

/-- Sends have sizes that are not negative and whose chunks fit. -/
def Sendable (setup : SendSetup) : ConnEvent → Prop
  | .isend _ size _ _ => 0 ≤ size.toInt ∧ ChunksFit size.toInt setup.perMessage
  | _ => True

/-- The bytes of a matched send, from its buffer to the receive. -/
def Match.copies (calls : Calls) (source : Match × Int) : List (Int × Int) :=
  (List.range (source.1.clipped calls).toInt.toNat).map fun (k : Nat) =>
    (source.2 + k, (((calls source.1.call).getD source.1.r .zero).addr : Int) + k)

/-- The bytes that the receives of a call ask for, once they have their sends. -/
def promised (calls : Calls) (sources : List (Match × Int)) (call : Nat) : List (Int × Int) :=
  (List.range (calls call).length).flatMap fun r =>
    (sources.filter fun source => source.1.place = (call, r)).flatMap (Match.copies calls)

/-- The bytes of user memory that a posting copies. -/
def Posting.copies (posting : Posting) : List (Int × Int) :=
  posting.chain.flatMap IbvSendWr.transfers

/-- The bytes of a call that were copied, on each of some queue pairs. -/
def Connection.copied (c : Connection) (nqps call : Nat) : List (Int × Int) :=
  (List.range nqps).flatMap fun q =>
    (((c.writesOn q).take (c.delivered q)).filter fun posting => posting.group = call).flatMap
      Posting.copies

/-! ## The buffers of the sends -/

/-- The record has the matches with their buffers. A send that waits for its message is the
one of its match, and the messages of earlier calls copy what these were promised. -/
structure Sourced (setup : SendSetup) (c : Connection) (sources : List (Match × Int)) : Prop where
  matched : sources.map Prod.fst = c.matched
  waiting : ∀ r i, c.send.fifoReqs (c.send.fifoHead % maxRequests) r = some i →
    ∃ source ∈ sources, source.1.place = (c.send.fifoHead, r) ∧
      (c.send.ep.reqs i).data = source.2
  unsent : ∀ r i, c.send.fifoReqs (c.send.fifoHead % maxRequests) r = some i →
    (c.send.ep.reqs i).offset = 0 ∧ 0 ≤ (c.send.ep.reqs i).size.toInt ∧
      ChunksFit (c.send.ep.reqs i).size.toInt setup.perMessage
  sent : ∀ call, call < c.send.fifoHead →
    ((c.send.ep.log.filter fun posting => posting.group = call).flatMap Posting.copies).Perm
      (promised c.calls sources call)

/-- A smaller size fits as well. -/
theorem ChunksFit.mono {size larger : Int} {nqps : Nat} (fits : ChunksFit larger nqps)
    (smaller : size ≤ larger) : ChunksFit size nqps :=
  ⟨Int.le_trans smaller fits.1, fun one => by have last := fits.2 one; omega⟩

/-- Clipping to a receive that is correct. -/
theorem clip_bounds {size : Int32} {recv : NcclIbSendFifo} (correct : ¬ recv.Incorrect)
    (nonneg : 0 ≤ size.toInt) :
    0 ≤ (clip size recv).toInt ∧ (clip size recv).toInt ≤ size.toInt := by
  have room : 0 ≤ recv.size.toInt := by
    have notLess := fun less => correct (Or.inl less)
    rw [Int32.lt_iff_toInt_lt] at notLess
    simpa using notLess
  unfold clip
  split
  next larger =>
    have larger := Int32.lt_iff_toInt_lt.mp larger
    omega
  next => exact ⟨nonneg, Int.le_refl _⟩

/-- What a call promises, when the matches of its receives stay. -/
theorem promised_congr {calls more : Calls} {sources newer : List (Match × Int)} {call : Nat}
    (same : more call = calls call) (other : ∀ source ∈ newer, source.1.call ≠ call) :
    promised more (sources ++ newer) call = promised calls sources call := by
  unfold promised
  rw [same]
  refine List.flatMap_congr fun r _ => ?_
  have none : newer.filter (fun source => source.1.place = (call, r)) = [] := by
    rw [List.filter_eq_nil_iff]
    intro source member
    simpa using fun place => other source member (congrArg Prod.fst place)
  rw [List.filter_append, none, List.append_nil]
  refine List.flatMap_congr fun source member => ?_
  have place : source.1.place = (call, r) := by simpa using (List.mem_filter.mp member).2
  obtain ⟨isCall, _⟩ := Prod.mk.inj place
  rw [Match.copies, Match.copies, Match.clipped_congr place same, isCall, same]

namespace Sourced

variable {setup : SendSetup} {c : Connection} {sources : List (Match × Int)}

theorem fresh (fresh : c.Fresh) : Sourced setup c [] := by
  obtain ⟨send, _, _, _, _, matched⟩ := fresh
  obtain ⟨_, _, fifoReqs, head, _⟩ := send
  constructor <;> simp [matched, fifoReqs, head]

/-- What the sources read of a sender that matches and posts nothing. -/
theorem congr (sourced : Sourced setup c sources) {after : Connection}
    (older : ∀ call, call < c.send.fifoHead → after.calls call = c.calls call)
    (matched : after.matched = c.matched) (fifoHead : after.send.fifoHead = c.send.fifoHead)
    (fifoReqs : after.send.fifoReqs = c.send.fifoReqs)
    (reqs : ∀ i, (after.send.ep.reqs i).data = (c.send.ep.reqs i).data ∧
      (after.send.ep.reqs i).offset = (c.send.ep.reqs i).offset ∧
      (after.send.ep.reqs i).size = (c.send.ep.reqs i).size)
    (log : after.send.ep.log = c.send.ep.log) : Sourced setup after sources := by
  constructor
  · rw [matched]
    exact sourced.matched
  · intro r i isMatched
    rw [fifoHead, fifoReqs] at isMatched
    rw [fifoHead, (reqs i).1]
    exact sourced.waiting r i isMatched
  · intro r i isMatched
    rw [fifoHead, fifoReqs] at isMatched
    rw [(reqs i).2.1, (reqs i).2.2]
    exact sourced.unsent r i isMatched
  · intro call earlier
    rw [fifoHead] at earlier
    have same : promised after.calls (sources ++ []) call = promised c.calls sources call :=
      promised_congr (older call earlier) (by simp)
    rw [List.append_nil] at same
    rw [log, same]
    exact sourced.sent call earlier

/-- A hit records the buffer of its send. -/
theorem hit (sourced : Sourced setup c sources) (ok : SendOk setup c.calls c.send) {tag : Int32}
    {r : Nat} {i : ReqId} {recv : NcclIbSendFifo} (hit : Hit c.calls c.send tag r i recv)
    (data : Int) {size : Int32} (nonneg : 0 ≤ size.toInt)
    (fits : ChunksFit size.toInt setup.perMessage) (lkeys : Dev → UInt32) :
    Sourced setup
      { c with
        send := c.send.hit setup c.calls data size lkeys r i recv
        matched := c.matched ++ [⟨c.send.fifoHead, r, tag, size⟩] }
      (sources ++ [(⟨c.send.fifoHead, r, tag, size⟩, data)]) := by
  have rows := place_fifoReqs setup
    (c.send.withIbStat (c.send.ep.countIb unetIbFifoRecvCount).ibStat)
    (c.calls c.send.fifoHead).length r i lkeys (clip size recv) data
    (c.send.fifoHead % maxRequests)
  have self := place_req_self setup
    (c.send.withIbStat (c.send.ep.countIb unetIbFifoRecvCount).ibStat)
    (c.calls c.send.fifoHead).length r i lkeys (clip size recv) data
  have others {r' : Nat} {j : ReqId}
      (isMatched : c.send.fifoReqs (c.send.fifoHead % maxRequests) r' = some j) :=
    place_req_other setup (c.send.withIbStat (c.send.ep.countIb unetIbFifoRecvCount).ibStat)
      (c.calls c.send.fifoHead).length r lkeys (clip size recv) data
      (ok.matched_other hit.unused isMatched)
  obtain ⟨_, _, sized, isData, offset, _⟩ := sendRequest_spec setup lkeys
    (c.calls c.send.fifoHead).length c.send.ep.qpIndex (clip size recv) data (c.send.ep.reqs i)
  constructor
  · rw [List.map_append, sourced.matched]
    rfl
  · intro r' j isMatched
    have isMatched := (rows r').symm.trans isMatched
    by_cases new : r' = r
    · subst new
      rw [if_pos ⟨rfl, rfl⟩] at isMatched
      obtain rfl := Option.some.inj isMatched
      exact ⟨_, List.mem_append_right _ (List.mem_singleton_self _), rfl,
        (congrArg NcclIbRequest.data self).trans isData⟩
    · rw [if_neg fun both => new both.2] at isMatched
      obtain ⟨source, member, place, old⟩ := sourced.waiting r' j isMatched
      exact ⟨source, List.mem_append_left _ member, place,
        (congrArg NcclIbRequest.data (others isMatched)).trans old⟩
  · intro r' j isMatched
    have isMatched := (rows r').symm.trans isMatched
    by_cases new : r' = r
    · rw [if_pos ⟨rfl, new⟩] at isMatched
      obtain rfl := Option.some.inj isMatched
      obtain ⟨least, most⟩ := clip_bounds hit.correct nonneg
      have size' := (congrArg NcclIbRequest.size self).trans sized
      change ((c.send.hit setup c.calls data size lkeys r i recv).ep.reqs i).offset = 0 ∧
        0 ≤ ((c.send.hit setup c.calls data size lkeys r i recv).ep.reqs i).size.toInt ∧
        ChunksFit ((c.send.hit setup c.calls data size lkeys r i recv).ep.reqs i).size.toInt
          setup.perMessage
      rw [show ((c.send.hit setup c.calls data size lkeys r i recv).ep.reqs i).size =
        clip size recv from size']
      exact ⟨(congrArg NcclIbRequest.offset self).trans offset, least, fits.mono most⟩
    · rw [if_neg fun both => new both.2] at isMatched
      have same := others isMatched
      change ((c.send.hit setup c.calls data size lkeys r i recv).ep.reqs j).offset = 0 ∧
        0 ≤ ((c.send.hit setup c.calls data size lkeys r i recv).ep.reqs j).size.toInt ∧
        ChunksFit ((c.send.hit setup c.calls data size lkeys r i recv).ep.reqs j).size.toInt
          setup.perMessage
      rw [show (c.send.hit setup c.calls data size lkeys r i recv).ep.reqs j =
        c.send.ep.reqs j from same]
      exact sourced.unsent r' j isMatched
  · intro call earlier
    have earlier : call < c.send.fifoHead := earlier
    have same : promised c.calls (sources ++ [(⟨c.send.fifoHead, r, tag, size⟩, data)]) call =
        promised c.calls sources call := by
      refine promised_congr rfl fun source new => ?_
      rw [List.mem_singleton.mp new]
      exact Nat.ne_of_gt earlier
    refine List.Perm.trans ?_ (List.Perm.of_eq same.symm)
    exact sourced.sent call earlier

/-- The place of a source names it. -/
theorem filter_place (sourced : Sourced setup c sources) (answered : Answered setup c)
    {source : Match × Int} (member : source ∈ sources) {place : Nat × Nat}
    (isPlace : source.1.place = place) :
    sources.filter (fun source => source.1.place = place) = [source] := by
  have distinct : (sources.map fun source => source.1.place).Nodup := by
    have places := answered.distinct
    rw [← sourced.matched, List.map_map] at places
    exact places
  rw [← isPlace]
  exact filter_eq_singleton distinct member

/-- A message that is ready is promised what it copies. -/
theorem slotBytes (sourced : Sourced setup c sources) (answered : Answered setup c)
    {reqs : List ReqId} {first : ReqId} (full : Full c.calls c.send reqs first)
    (lands : ∀ r, r < (c.calls c.send.fifoHead).length →
      (c.calls c.send.fifoHead)[r]? = some (c.send.fifo (c.send.fifoHead % maxRequests) r)) :
    c.send.slotBytes (c.send.fifoHead % maxRequests) reqs =
      promised c.calls sources c.send.fifoHead := by
  have row {r : Nat} {i : ReqId} (isReq : reqs[r]? = some i) :
      c.send.sendBytes (c.send.fifoHead % maxRequests) r i =
        (sources.filter fun source => source.1.place = (c.send.fifoHead, r)).flatMap
          (Match.copies c.calls) := by
    obtain ⟨source, member, place, data⟩ := sourced.waiting r i (full.taken isReq)
    obtain ⟨m, isMatch, place', size⟩ := answered.waiting r i (full.taken isReq)
    have isMatched : source.1 ∈ c.matched := sourced.matched ▸ List.mem_map_of_mem member
    obtain rfl := answered.unique isMatch isMatched (place'.trans place.symm)
    obtain ⟨isCall, isR⟩ := Prod.mk.inj place
    have below := (List.getElem?_eq_some_iff.mp isReq).1
    rw [sourced.filter_place answered member place, List.flatMap_singleton, Match.copies,
      SendComm.sendBytes, size, data, isCall, isR, List.getD_eq_getElem?_getD,
      lands r (full.length ▸ below), Option.getD_some]
  unfold SendComm.slotBytes promised
  rw [List.flatMap_def, ← full.length]
  congr 1
  apply List.ext_getElem
  · simp
  · intro r inside _
    rw [List.length_mapIdx] at inside
    rw [List.getElem_mapIdx, List.getElem_map, List.getElem_range]
    exact row (List.getElem?_eq_getElem inside)

/-- Posting a message copies what its call was promised. -/
theorem post (sourced : Sourced setup c sources) (answered : Answered setup c)
    (ok : SendOk setup c.calls c.send) (announced : ∀ call, Announced call (c.calls call))
    (machine : setup.narrow = wrapInt) (few : setup.perMessage ≤ maxQps)
    (devs : setup.ndevs ≤ setup.nqps) {reqs : List ReqId} {first : ReqId}
    (full : Full c.calls c.send reqs first)
    (lands : ∀ r, r < (c.calls c.send.fifoHead).length →
      (c.calls c.send.fifoHead)[r]? = some (c.send.fifo (c.send.fifoHead % maxRequests) r)) :
    Sourced setup { c with send := c.send.post setup reqs first } sources := by
  obtain ⟨postings, sent⟩ := SendComm.post_sent ok.inside full.isFirst
  have emptied := full.emptied ok
  have placed {i : ReqId} (member : i ∈ reqs) :
      ∃ r, c.send.fifoReqs (c.send.fifoHead % maxRequests) r = some i := by
    obtain ⟨r, isReq⟩ := List.getElem?_of_mem member
    exact ⟨r, full.taken isReq⟩
  have ready : SlotReady c.send (c.send.fifoHead % maxRequests) reqs := by
    have some : 0 < (c.calls c.send.fifoHead).length := full.length ▸ full.some
    refine .of_full full ok announced ?_ ?_ ?_
    · rw [full.length]
      exact ((announced _).stamped _ (List.mem_of_getElem? (lands 0 some))).2
    · intro slot r i taken
      obtain rfl := (ok.row slot r (by rw [taken]; simp)).1
      exact (sourced.unsent r i taken).1
    · intro i member
      obtain ⟨r, taken⟩ := placed member
      exact (sourced.unsent r i taken).2.1
  have bytes : (postings.flatMap Posting.copies).Perm (promised c.calls sources c.send.fifoHead) := by
    obtain ⟨after, postings', called, log, covered⟩ :=
      ready.covered_wrapInt setup machine few (fun i member => by
        obtain ⟨r, taken⟩ := placed member
        exact (sourced.unsent r i taken).2.2) ok.inside devs
    obtain ⟨first', rest, isFirst, called'⟩ := ready.multiSend setup
    obtain rfl : first = first' := by
      have isFirst' := full.isFirst
      rw [isFirst] at isFirst'
      simpa using isFirst'.symm
    rw [called, Option.some.injEq, Prod.mk.injEq] at called'
    rw [called'.2, sendMessage_log] at log
    have same : postings = postings' :=
      List.append_cancel_left (sent.log.symm.trans ((c.send.post_log setup reqs first).trans log))
    rw [same, ← sourced.slotBytes answered full lands]
    have whole := (covered.executed _ (.sequential _)).bytes
    rw [← List.flatMap_def, List.flatMap_assoc] at whole
    exact whole
  constructor
  · exact sourced.matched
  · intro r i taken
    rw [emptied] at taken
    exact absurd taken (by simp)
  · intro r i taken
    rw [emptied] at taken
    exact absurd taken (by simp)
  · intro call earlier
    change (((c.send.post setup reqs first).ep.log.filter _).flatMap Posting.copies).Perm
      (promised c.calls sources call)
    rw [sent.fifoHead] at earlier
    rw [sent.log, List.filter_append]
    rcases Nat.lt_or_eq_of_le (Nat.le_of_lt_succ earlier) with older | rfl
    · have none : postings.filter (fun posting => posting.group = call) = [] := by
        rw [List.filter_eq_nil_iff]
        intro posting member
        rw [(sent.member member).2.2.2]
        simpa using Nat.ne_of_gt older
      rw [none, List.append_nil]
      exact sourced.sent call older
    · have none : c.send.ep.log.filter (fun posting => posting.group = c.send.fifoHead) = [] := by
        rw [List.filter_eq_nil_iff]
        intro posting member
        simpa using Nat.ne_of_lt (answered.grouped posting member)
      have all : postings.filter (fun posting => posting.group = c.send.fifoHead) = postings := by
        rw [List.filter_eq_self]
        intro posting member
        simpa using (sent.member member).2.2.2
      rw [none, all, List.nil_append]
      exact bytes

end Sourced

section

variable {setup : ConnSetup} {c : Connection} {sources : List (Match × Int)}

/-- One step keeps the record in accord with the messages. -/
theorem Sourced.step (sourced : Sourced setup.send c sources) (linked : Linked setup.toEnds c)
    (scheduled : Scheduled setup c) (answered : Answered setup.send c)
    (machine : setup.send.narrow = wrapInt) (few : setup.send.perMessage ≤ maxQps)
    (devs : setup.send.ndevs ≤ setup.send.nqps) {event : ConnEvent} {after : Connection}
    (sendable : Sendable setup.send event) (stepped : ConnStep setup.toEnds c event after) :
    Sourced setup.send after (sources ++ newSources c event after) := by
  have still {after : Connection}
      (older : ∀ call, call < c.send.fifoHead → after.calls call = c.calls call)
      (matched : after.matched = c.matched) (fifoHead : after.send.fifoHead = c.send.fifoHead)
      (fifoReqs : after.send.fifoReqs = c.send.fifoReqs)
      (reqs : ∀ i, (after.send.ep.reqs i).data = (c.send.ep.reqs i).data ∧
        (after.send.ep.reqs i).offset = (c.send.ep.reqs i).offset ∧
        (after.send.ep.reqs i).size = (c.send.ep.reqs i).size)
      (log : after.send.ep.log = c.send.ep.log) : Sourced setup.send after (sources ++ []) := by
    rw [List.append_nil]
    exact sourced.congr older matched fifoHead fifoReqs reqs log
  have alike (ep : Endpoint) (i : ReqId) : (ep.reqs i).data = (ep.reqs i).data ∧
      (ep.reqs i).offset = (ep.reqs i).offset ∧ (ep.reqs i).size = (ep.reqs i).size :=
    ⟨rfl, rfl, rfl⟩
  cases stepped with
  | @sent data size tag lkeys request send effect =>
    cases effect with
    | @nothing ibStat =>
      have none : newSources c (.isend data size tag lkeys)
          { c with send := c.send.withIbStat ibStat, matched := c.matched ++ [] } = [] := by
        simp [newSources]
      rw [show c.matchOf size tag .none = [] from rfl, none]
      exact still (fun _ _ => rfl) (List.append_nil _) rfl rfl (alike _) rfl
    | @matched r i recv hit missing =>
      rw [matchOf_hit linked.sendOk linked.announced hit]
      simp only [newSources, List.drop_left, List.map_singleton]
      exact sourced.hit linked.sendOk hit data sendable.1 sendable.2 lkeys
    | @posted r i recv hit reqs first full =>
      rw [matchOf_hit linked.sendOk linked.announced hit]
      simp only [newSources, List.drop_left, List.map_singleton]
      exact (sourced.hit linked.sendOk hit data sendable.1 sendable.2 lkeys).post
        (answered.hit linked.sendOk hit data size lkeys)
        (linked.sendOk.hit linked.announced hit data size lkeys) linked.announced machine few devs
        full hit.lands
  | sendCompleted completed =>
    obtain ⟨_, _, rfl⟩ := Option.map_eq_some_iff.mp completed
    exact still (fun _ _ => rfl) rfl rfl rfl (alike _) rfl
  | @sendWaits i settled settles _ =>
    have kept := settles.kept linked.sendOk.accounted
    refine still (fun _ _ => rfl) rfl rfl rfl (fun j => ?_) kept.log
    rw [show ({ c with send := { c.send with ep := settled } } : Connection).send.ep.reqs j = _
      from kept.reqs j]
    exact ⟨rfl, rfl, rfl⟩
  | @sendDone i settled settles _ _ _ =>
    have kept := settles.kept linked.sendOk.accounted
    refine still (fun _ _ => rfl) rfl rfl rfl (fun j => ?_) kept.log
    have same : (settled.reqs j).data = (c.send.ep.reqs j).data ∧
        (settled.reqs j).offset = (c.send.ep.reqs j).offset ∧
        (settled.reqs j).size = (c.send.ep.reqs j).size := by
      rw [kept.reqs j]
      exact ⟨rfl, rfl, rfl⟩
    by_cases freed : j = i
    · subst freed
      simpa [Endpoint.ncclIbFreeRequest, Endpoint.setReq] using same
    · simpa [Endpoint.ncclIbFreeRequest, Endpoint.setReq, freed] using same
  | refused => exact still (fun _ _ => rfl) rfl rfl rfl (alike _) rfl
  | @received recvs i recv _ _ _ _ =>
    refine still (fun call earlier => ?_) rfl rfl rfl (alike _) rfl
    exact receive_calls_other recv _ (Nat.ne_of_lt (Nat.lt_of_lt_of_le earlier scheduled.head))
  | flushed => exact still (fun _ _ => rfl) rfl rfl rfl (alike _) rfl
  | recvCompleted => exact still (fun _ _ => rfl) rfl rfl rfl (alike _) rfl
  | recvWaits => exact still (fun _ _ => rfl) rfl rfl rfl (alike _) rfl
  | recvDone => exact still (fun _ _ => rfl) rfl rfl rfl (alike _) rfl
  | landed => exact still (fun _ _ => rfl) rfl rfl rfl (alike _) rfl
  | delivered => exact still (fun _ _ => rfl) rfl rfl rfl (alike _) rfl

/-- Every run of sends that fit keeps the record in accord with the messages. -/
theorem transferring_sourced (machine : setup.send.narrow = wrapInt)
    (few : setup.send.perMessage ≤ maxQps) (devs : setup.send.ndevs ≤ setup.send.nqps)
    {t : Transfer}
    (reached : (transferring setup.toEnds).Reaches (fun _ event => Sendable setup.send event) t) :
    Sourced setup.send t.state t.notes := by
  induction reached with
  | start first =>
    obtain ⟨fresh, notes⟩ := first
    rw [notes]
    exact .fresh fresh
  | @next t after event before sendable stepped ih =>
    obtain ⟨next, within, rfl⟩ := Option.map_eq_some_iff.mp stepped
    have reached : (connection setup.toEnds).Reaches (fun _ => Sendable setup.send) t.state :=
      Noted.reaches before
    have linked := connection_linked reached
    exact ih.step linked (connection_scheduled reached) (connection_answered reached) machine few
      devs sendable (linked.connStep within)

/-! ## A receive that is done -/

/-- The messages of a call that has no receive left have been posted, and have arrived. -/
theorem Scheduled.arrived_whole (scheduled : Scheduled setup c) {call : Nat}
    (made : call < c.history.length)
    (none : ∀ receive ∈ c.recv.ep.posted, receive.IsRecv = true → receive.group ≠ call) :
    call < c.send.fifoHead ∧
      ∀ q, ∀ posting ∈ (c.writesOn q).drop (c.delivered q), posting.group ≠ call := by
  constructor
  · by_contra notSent
    obtain ⟨receive, posted, isRecv, group⟩ := scheduled.waits (Nat.not_lt.mp notSent) made
    exact none receive posted isRecv group
  · intro q posting member group
    obtain ⟨j, placed⟩ := List.getElem?_of_mem member
    rw [List.getElem?_drop] at placed
    obtain ⟨receive, posted, isRecv, same⟩ :=
      scheduled.receive_posted placed (Nat.le_add_right _ _)
    exact none receive posted isRecv (same.trans group)

/-- The queue pair of a message is one of the connection. -/
theorem Scheduled.write_onQp (scheduled : Scheduled setup c) {posting : Posting}
    (member : posting ∈ c.send.ep.log) :
    ∃ q, q < setup.send.nqps ∧ ∀ q', posting.OnQp q' = decide (q' = q) := by
  refine onQp_of_key (scheduled.writes ▸ List.mem_map_of_mem (f := Posting.key) member) ?_
  exact setup.send.someQp

/-- What arrived of a call that arrived whole is all that was posted of it. -/
theorem Scheduled.copied_whole (scheduled : Scheduled setup c) {call : Nat}
    (ended : ∀ q, ∀ posting ∈ (c.writesOn q).drop (c.delivered q), posting.group ≠ call) :
    (c.copied setup.send.nqps call).Perm
      ((c.send.ep.log.filter fun posting => posting.group = call).flatMap Posting.copies) := by
  have each (q : Nat) :
      (((c.writesOn q).take (c.delivered q)).filter fun posting => posting.group = call) =
        (c.send.ep.log.filter fun posting => posting.group = call).filter (Posting.OnQp q) := by
    have rest : ((c.writesOn q).drop (c.delivered q)).filter
        (fun posting => posting.group = call) = [] := by
      rw [List.filter_eq_nil_iff]
      intro posting member
      simpa using ended q posting member
    have whole := congrArg (List.filter fun posting => decide (posting.group = call))
      (List.take_append_drop (c.delivered q) (c.writesOn q))
    rw [List.filter_append, rest, List.append_nil] at whole
    rw [whole, Connection.writesOn, List.filter_filter, List.filter_filter]
    congr 1
    funext posting
    exact Bool.and_comm _ _
  have parts : (List.range setup.send.nqps).flatMap (fun q =>
      (c.send.ep.log.filter fun posting => posting.group = call).filter (Posting.OnQp q)) |>.Perm
        (c.send.ep.log.filter fun posting => posting.group = call) :=
    perm_flatMap_filter fun posting member =>
      scheduled.write_onQp (List.mem_filter.mp member).1
  rw [Connection.copied]
  simp only [each]
  rw [← List.flatMap_assoc]
  exact parts.flatMap_right _

/-- Where a test finds a receive done, the messages of its call are posted and have arrived. -/
theorem Called.done_arrived (called : Called c) (linked : Linked setup.toEnds c)
    (scheduled : Scheduled setup c) {i : ReqId} {result : NcclResult} {sizes : List Int32}
    {ep : Endpoint} (type : (c.recv.ep.reqs i).type = .recv)
    (tested : c.recv.ep.ncclIbTest setup.recv.asyncEvents i = .returned result true sizes ep) :
    ∃ call, c.callOf i = some call ∧ call < c.send.fifoHead ∧
      ∀ q, ∀ posting ∈ (c.writesOn q).drop (c.delivered q), posting.group ≠ call := by
  obtain ⟨call, isCall⟩ := called.calls i type
  obtain ⟨own, inLog, isRecv, request, group⟩ := lastGroup_mem isCall
  have unnamed : ∀ posting ∈ c.recv.ep.posted, i ∉ posting.names := by
    obtain ⟨done, _, _, _, _, returned, _, _, quiet⟩ :=
      linked.recvOk.accounted.test setup.recv.asyncEvents i
    rw [returned, Endpoint.TestOutcome.returned.injEq] at tested
    exact (quiet.mp tested.2.1).1
  refine ⟨call, isCall, scheduled.arrived_whole (group ▸ scheduled.receive_made inLog isRecv)
    fun receive posted isReceive same => ?_⟩
  -- it would be for the request of the call, which nothing names any more
  have named := (linked.recvOk.accounted.named receive.dev receive
    (Endpoint.posted_waiting posted)).first
  have logged := called.logged receive posted isReceive
  have owner := called.one receive logged own inLog isReceive isRecv (same.trans group.symm)
  exact unnamed receive posted (request ▸ owner ▸ named)

end

/-- The data of a call is there: each of its receives has one send, the bytes that its
messages have copied are those of its sends, each once, and no message of it is to come. -/
structure Delivered (nqps : Nat) (t : Transfer) (call : Nat) : Prop where
  matched : ∀ r, r < (t.state.calls call).length →
    ∃ source, t.notes.filter (fun source => source.1.place = (call, r)) = [source]
  copied : (t.state.copied nqps call).Perm (promised t.state.calls t.notes call)
  ended : ∀ q, ∀ posting ∈ (t.state.writesOn q).drop (t.state.delivered q), posting.group ≠ call

/-- In every run whose sends fit, a test that finds a receive done finds the data of its
call there. -/
theorem data_delivered (setup : ConnSetup) (machine : setup.send.narrow = wrapInt)
    (few : setup.send.perMessage ≤ maxQps) (devs : setup.send.ndevs ≤ setup.send.nqps)
    {t : Transfer}
    (reached : (transferring setup.toEnds).Reaches (fun _ event => Sendable setup.send event) t)
    {i : ReqId} {result : NcclResult} {sizes : List Int32} {ep : Endpoint}
    (type : (t.state.recv.ep.reqs i).type = .recv)
    (tested : t.state.recv.ep.ncclIbTest setup.recv.asyncEvents i =
      .returned result true sizes ep) :
    ∃ call, t.state.callOf i = some call ∧ Delivered setup.send.nqps t call := by
  have sourced := transferring_sourced machine few devs reached
  have reached : (connection setup.toEnds).Reaches (fun _ => Sendable setup.send) t.state :=
    Noted.reaches reached
  have linked := connection_linked reached
  have scheduled := connection_scheduled reached
  have answered := connection_answered reached
  have called := connection_called reached
  obtain ⟨call, isCall, sent, ended⟩ := called.done_arrived linked scheduled type tested
  refine ⟨call, isCall, fun r below => ?_, ?_, ended⟩
  · obtain ⟨m, isMatch, place⟩ := answered.whole call r sent below
    rw [← sourced.matched] at isMatch
    obtain ⟨source, member, rfl⟩ := List.mem_map.mp isMatch
    exact ⟨source, sourced.filter_place answered member place⟩
  · exact (scheduled.copied_whole ended).trans (sourced.sent call sent)

instance (setup : SendSetup) (event : ConnEvent) : Decidable (Sendable setup event) :=
  match event with
  | .isend _ size _ _ =>
    inferInstanceAs (Decidable (0 ≤ size.toInt ∧ ChunksFit size.toInt setup.perMessage))
  | .sendComplete _ | .sendTest _ | .irecv _ | .iflush _ | .recvComplete _ | .recvTest _
  | .landCts _ | .deliver _ => inferInstanceAs (Decidable True)

/-- A group of two receives, the first of which is asked for last, and whose message
arrives on the second queue pair first. -/
def groupArrived.events : List ConnEvent :=
  [.irecv [.buffer 3, { RecvArg.buffer 4 with data := 8192 }], .landCts 1, .landCts 0,
    .isend 65536 150 4 (fun _ => 9), .isend 70000 90 3 (fun _ => 9), .deliver 1, .deliver 0,
    .recvComplete 0]

/-- The state after the group has arrived. -/
def groupArrived : Transfer :=
  ((transferring ConnSetup.twoDevices.toEnds).replay ⟨.initial, []⟩ groupArrived.events).get
    (by decide +kernel)

theorem groupArrived_reached : (transferring ConnSetup.twoDevices.toEnds).Reaches
    (fun _ event => Sendable ConnSetup.twoDevices.send event) groupArrived :=
  have start : (transferring ConnSetup.twoDevices.toEnds).Reaches
      (fun _ event => Sendable ConnSetup.twoDevices.send event) ⟨.initial, []⟩ :=
    .start ⟨Connection.initial_fresh, rfl⟩
  start.replay groupArrived.events (by decide +kernel) (Option.some_get _).symm

theorem data_delivered_groupArrived :
    (promised groupArrived.state.calls groupArrived.notes 0).length = 190 ∧
      ∃ call, groupArrived.state.callOf 0 = some call ∧ Delivered 2 groupArrived call := by
  have reached : (connection ConnSetup.twoDevices.toEnds).Reaches
      (fun _ => Sendable ConnSetup.twoDevices.send) groupArrived.state :=
    Noted.reaches groupArrived_reached
  have linked := connection_linked reached
  obtain ⟨done, _, _, _, _, tested, _, _, quiet⟩ := linked.recvOk.accounted.test true 0
  obtain rfl : done = true := quiet.mpr ⟨by decide +kernel, fun _ => rfl⟩
  exact ⟨by decide +kernel, data_delivered .twoDevices rfl (by decide) (by decide)
    groupArrived_reached (by decide +kernel) tested⟩

end NcclExts.Unet
