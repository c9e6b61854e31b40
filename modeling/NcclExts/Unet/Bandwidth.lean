import NcclExts.Unet.Charging
import NcclExts.Unet.ChunkBytes

/-!
# Conservation of bytes

The bytes of a message are counted once when it is posted, chunk by chunk, and charged
to the counter of the peer once for each of its completions, with the size of its first
send each time. The two counts agree for a message when the size of the first send,
taken once for each queue pair, is the sum of its sizes.

The counters are compared through what is under way: the sizes of the sends that were
posted and are not done, and the sizes that the completions not polled yet will charge.
-/

namespace NcclExts.Unet

open NcclExts.Foundation NcclExts.Ucommd

namespace Endpoint

/-- The size that the completion of a posting charges. -/
def charge (ep : Endpoint) (posting : Posting) : Int :=
  (ep.reqs (reqAt posting.wrId 0)).size.toInt

/-- What the completions not polled yet will charge. -/
def uncharged (ep : Endpoint) : Int := (ep.unpolled.map ep.charge).sum

/-- What is charged depends on the sizes of requests in use alone. -/
theorem Accounted.uncharged_congr {owed : ReqId → Dev → Nat} {ep after : Endpoint}
    (accounted : Accounted owed ep) (same : after.unpolled = ep.unpolled)
    (sizes : ∀ i, (ep.reqs i).type ≠ .unused → (after.reqs i).size = (ep.reqs i).size) :
    after.uncharged = ep.uncharged := by
  rw [uncharged, uncharged, same]
  congr 1
  apply List.map_congr_left
  intro posting member
  have named := accounted.unpolled member
  have inUse : (ep.reqs (reqAt posting.wrId 0)).type ≠ .unused := by
    rw [named.typed _ named.first]
    exact posting.kind.reqType_ne_unused
  rw [charge, charge, sizes _ inUse]

end Endpoint

/-- The sizes of the sends that were posted and are not done. -/
def SendComm.inFlight (comm : SendComm) : Int :=
  ∑ i : ReqId, if (comm.ep.reqs i).type = .send ∧ ¬ comm.MatchedTo i then
    (comm.ep.reqs i).size.toInt else 0

theorem toSizeT_eq (value : Int32) : toSizeT value = UInt64.ofInt value.toInt := by
  have least := Int32.le_toInt value
  have most := Int32.toInt_lt value
  have cases := toNat_toSizeT value
  apply UInt64.toNat_inj.mp
  have read : (UInt64.ofInt value.toInt).toNat = (value.toInt % 2 ^ 64).toNat := by
    simp only [UInt64.ofInt, UInt64.toNat_ofNat']
    omega
  omega

/-! ## The invariant -/

/-- The counts so far: what was posted is counted in the ib stat, and what was posted
is charged to the bw stat but for the completions not polled yet. -/
structure Metered (setup : SendSetup) (ib bw : Stat) (state : Sending) : Prop where
  unsent : ∀ slot r i, state.comm.fifoReqs slot r = some i → (state.comm.ep.reqs i).offset = 0
  counted : ∃ stat, state.comm.ep.ibStat = some stat ∧ stat.counterList = ib.counterList ∧
    stat.cells (Stat.offset unetIbTxBytes) = ib.cells (Stat.offset unetIbTxBytes) +
      UInt64.ofInt ((state.finished.map Int32.toInt).sum + state.comm.inFlight)
  charged : ∃ stat, state.comm.ep.bwStat = some stat ∧ stat.counterList = bw.counterList ∧
    stat.cells (Stat.offset (toSizeT (unetBwCplBytesByRank setup.peerRank))) +
        UInt64.ofInt state.comm.ep.uncharged =
      bw.cells (Stat.offset (toSizeT (unetBwCplBytesByRank setup.peerRank))) +
        UInt64.ofInt ((state.finished.map Int32.toInt).sum + state.comm.inFlight)

section

variable {setup : SendSetup} {calls : Calls} {ib bw : Stat}

/-- The counts stay when the counters of the bytes, the sizes under way and what is not
polled do. -/
theorem Metered.congr {before after : Sending} (metered : Metered setup ib bw before)
    (unsent : ∀ slot r i, after.comm.fifoReqs slot r = some i →
      (after.comm.ep.reqs i).offset = 0)
    (ibStat : after.comm.ep.ibStat = before.comm.ep.ibStat ∨
      ∃ counter, Stat.offset unetIbTxBytes ≠ Stat.offset counter ∧
        after.comm.ep.ibStat = (before.comm.ep.countIb counter).ibStat)
    (bwStat : after.comm.ep.bwStat = before.comm.ep.bwStat)
    (uncharged : after.comm.ep.uncharged = before.comm.ep.uncharged)
    (under : (after.finished.map Int32.toInt).sum + after.comm.inFlight =
      (before.finished.map Int32.toInt).sum + before.comm.inFlight) :
    Metered setup ib bw after := by
  refine ⟨unsent, ?_, ?_⟩
  · obtain ⟨stat, isStat, listed, cell⟩ := metered.counted
    rw [under]
    rcases ibStat with same | ⟨counter, apart, counted⟩
    · exact ⟨stat, same.trans isStat, listed, cell⟩
    · refine ⟨stat.inc counter, ?_, listed, ?_⟩
      · rw [counted, Endpoint.countIb, isStat, Option.map_some]
      · rw [Stat.inc, Stat.add_other _ _ _ apart, cell]
  · rw [bwStat, uncharged, under]
    exact metered.charged

/-- Matching a send keeps the counts, since the send is not posted yet. -/
theorem Metered.hit {state : Sending} (metered : Metered setup ib bw state)
    (ok : SendOk setup calls state.comm) (announced : ∀ call, Announced call (calls call))
    {tag : Int32} {r : Nat} {i : ReqId} {recv : NcclIbSendFifo}
    (hit : Hit calls state.comm tag r i recv) (data : Int) (size : Int32) (lkeys : Dev → UInt32) :
    Metered setup ib bw
      { state with comm := state.comm.hit setup calls data size lkeys r i recv } := by
  obtain ⟨below, _⟩ := List.getElem?_eq_some_iff.mp hit.isRecv
  have fewer : r < maxRecvs := Nat.lt_of_lt_of_le below (announced _).few
  have placed := place_matchedTo setup state.comm
    (calls state.comm.fifoHead).length i lkeys (clip size recv) data fewer hit.free
  have self := place_req_self setup state.comm
    (calls state.comm.fifoHead).length r i lkeys (clip size recv) data
  have others {j : ReqId} (other : j ≠ i) := place_req_other setup
    state.comm (calls state.comm.fifoHead).length r lkeys (clip size recv) data other
  have rows := place_fifoReqs setup state.comm
    (calls state.comm.fifoHead).length r i lkeys (clip size recv) data
  obtain ⟨typed, _, _, _, offset, _⟩ := sendRequest_spec setup lkeys
    (calls state.comm.fifoHead).length state.comm.ep.qpIndex (clip size recv) data
    (state.comm.ep.reqs i)
  refine metered.congr ?_ (Or.inr ⟨unetIbFifoRecvCount, by decide, rfl⟩) rfl ?_ ?_
  · intro slot r' j taken
    have taken := (rows slot r').symm.trans taken
    by_cases same : j = i
    · subst same
      exact (congrArg NcclIbRequest.offset self).trans offset
    · refine (congrArg NcclIbRequest.offset (others same)).trans ?_
      by_cases here : slot = state.comm.fifoHead % maxRequests ∧ r' = r
      · rw [if_pos here] at taken
        exact absurd (Option.some.inj taken).symm same
      · rw [if_neg here] at taken
        exact metered.unsent slot r' j taken
  · refine ok.accounted.uncharged_congr rfl (fun j inUse => ?_)
    have other : j ≠ i := by
      rintro rfl
      exact inUse hit.unused
    exact congrArg NcclIbRequest.size (others other)
  · congr 1
    apply Finset.sum_congr rfl
    intro j _
    by_cases same : j = i
    · subst same
      have before : ¬ ((state.comm.ep.reqs j).type = .send ∧ ¬ state.comm.MatchedTo j) := by
        rw [hit.unused]
        simp
      rw [if_neg before]
      exact if_neg (fun both => both.2 ((placed j).mpr (Or.inl rfl)))
    · have matched : (state.comm.hit setup calls data size lkeys r i recv).MatchedTo j ↔
          state.comm.MatchedTo j := (placed j).trans (or_iff_right same)
      have req : (state.comm.hit setup calls data size lkeys r i recv).ep.reqs j =
          state.comm.ep.reqs j := others same
      simp only [matched, req]

/-- Posting a balanced message moves its sends under way and their charges with them. -/
theorem Metered.post {state : Sending} (metered : Metered setup ib bw state)
    (ok : SendOk setup calls state.comm) (announced : ∀ call, Announced call (calls call))
    (machine : setup.narrow = wrapInt) (few : setup.perMessage ≤ maxQps) {reqs : List ReqId}
    {first : ReqId} (full : Full calls state.comm reqs first)
    (fits : ∀ i ∈ reqs, Chunkable (state.comm.ep.reqs i).size.toInt setup.perMessage)
    (balanced : setup.perMessage * (state.comm.ep.reqs first).size.toInt =
      (reqs.map fun i => (state.comm.ep.reqs i).size.toInt).sum) :
    Metered setup ib bw { state with comm := state.comm.post setup reqs first } := by
  obtain ⟨postings, sent⟩ := state.comm.post_sent ok.inside full.isFirst
  have distinct := full.distinct ok
  have sizes (i : ReqId) : ((state.comm.post setup reqs first).ep.reqs i).size =
      (state.comm.ep.reqs i).size := by
    rw [sent.offsets i]
  have total := postChunks_total machine few (state.comm.message setup reqs first)
    (state.comm.fifoHead % maxRequests) rfl distinct fits (by
      intro i member
      obtain ⟨r, below, isReq⟩ := List.getElem_of_mem member
      refine metered.unsent _ r i (full.taken ?_)
      rw [List.getElem?_eq_getElem below, isReq])
  have moved : (state.comm.post setup reqs first).inFlight = state.comm.inFlight +
      (reqs.map fun i => (state.comm.ep.reqs i).size.toInt).sum := by
    rw [← List.sum_toFinset _ distinct, ← Finset.sum_ite_mem_eq, SendComm.inFlight,
      SendComm.inFlight, ← Finset.sum_add_distrib]
    apply Finset.sum_congr rfl
    intro i _
    have type : ((state.comm.post setup reqs first).ep.reqs i).type =
        (state.comm.ep.reqs i).type := by
      rw [sent.offsets i]
    simp only [type, sizes, full.unmatched ok i, full.matchedTo_iff ok announced i,
      List.mem_toFinset, not_false_eq_true, and_true]
    by_cases member : i ∈ reqs
    · simp [member, (full.typed ok member).1]
    · simp [member]
  have charges : (state.comm.post setup reqs first).ep.uncharged = state.comm.ep.uncharged +
      (reqs.map fun i => (state.comm.ep.reqs i).size.toInt).sum := by
    have grown : (state.comm.post setup reqs first).ep.unpolled.Perm
        (state.comm.ep.unpolled ++ postings) := Endpoint.post_unpolled sent.posted sent.cqs
    have each (posting : Posting) (member : posting ∈ postings) :
        state.comm.ep.charge posting = (state.comm.ep.reqs first).size.toInt := by
      obtain ⟨_, members, names, _⟩ := sent.member member
      have isFirst := full.isFirst
      rw [← names, Posting.names, members, List.getElem?_map,
        List.getElem?_range full.some] at isFirst
      rw [Endpoint.charge, Option.some.inj isFirst]
    have count : postings.length = setup.perMessage := by
      have routes := congrArg List.length sent.routes
      rwa [List.length_map, List.length_map, roundRobin_length] at routes
    have same : (state.comm.post setup reqs first).ep.charge = state.comm.ep.charge := by
      funext posting
      rw [Endpoint.charge, Endpoint.charge, sizes]
    rw [Endpoint.uncharged, same, (grown.map _).sum_eq, List.map_append, List.sum_append,
      List.map_congr_left each, List.map_const', List.sum_replicate, count, ← balanced,
      nsmul_eq_mul]
    rfl
  refine ⟨?_, ?_, ?_⟩
  · intro slot r i taken
    rw [full.emptied ok] at taken
    exact absurd taken (by simp)
  · obtain ⟨stat, isStat, listed, cell⟩ := metered.counted
    refine ⟨stat.add unetIbTxBytes (UInt64.ofInt
      (reqs.map fun i => (state.comm.ep.reqs i).size.toInt).sum), ?_, listed, ?_⟩
    · rw [sent.ibStat, isStat, Option.map_some, total]
    · rw [Stat.add_cell, cell, moved, ← Int.add_assoc, UInt64.ofInt_add _ (List.sum _),
        UInt64.add_assoc]
  · obtain ⟨stat, isStat, listed, cell⟩ := metered.charged
    refine ⟨stat, sent.bwStat.trans isStat, listed, ?_⟩
    rw [moved, charges, ← Int.add_assoc, UInt64.ofInt_add _ (List.sum _), ← UInt64.add_assoc,
      cell, UInt64.ofInt_add _ (List.sum (reqs.map _)), UInt64.add_assoc]

/-- Settling a completion charges what it takes out of what is not polled. -/
theorem Metered.settle {state : Sending} (metered : Metered setup ib bw state)
    (ok : SendOk setup calls state.comm) (toPeer : SendsToPeer setup state.comm.ep) {dev : Dev}
    {wc : IbvWc} {rest : List IbvWc} (head : state.comm.ep.cqs dev = wc :: rest) :
    Metered setup ib bw { state with
      comm := { state.comm with ep := (state.comm.ep.setCq dev rest).settle dev wc } } := by
  obtain ⟨_, bwStat⟩ := toPeer.charged ok head
  rw [(ok.accounted.settle head).1] at bwStat
  have kept := Endpoint.Kept.settle state.comm.ep dev wc rest
  have same : ((state.comm.ep.setCq dev rest).settle dev wc).charge = state.comm.ep.charge := by
    funext posting
    rw [Endpoint.charge, Endpoint.charge, kept.reqs]
  have taken : state.comm.ep.uncharged = state.comm.ep.charge wc.posting +
      ((state.comm.ep.setCq dev rest).settle dev wc).uncharged := by
    rw [Endpoint.uncharged, ((Endpoint.setCq_unpolled head).map _).sum_eq, List.map_cons,
      List.sum_cons, Endpoint.uncharged, same]
    rfl
  have under : SendComm.inFlight
      { state.comm with ep := (state.comm.ep.setCq dev rest).settle dev wc } =
      state.comm.inFlight := by
    apply Finset.sum_congr rfl
    intro i _
    have type : (((state.comm.ep.setCq dev rest).settle dev wc).reqs i).type =
        (state.comm.ep.reqs i).type := by rw [kept.reqs]
    have size : (((state.comm.ep.setCq dev rest).settle dev wc).reqs i).size =
        (state.comm.ep.reqs i).size := by rw [kept.reqs]
    simp only [type, size]
    rfl
  refine ⟨?_, ?_, ?_⟩
  · intro slot r i taken
    rw [kept.reqs]
    exact metered.unsent slot r i taken
  · obtain ⟨stat, isStat, listed, cell⟩ := metered.counted
    refine ⟨stat.inc unetIbCplCount, ?_, listed, ?_⟩
    · exact congrArg (Option.map fun stat => stat.inc unetIbCplCount) isStat
    · rw [Stat.inc, Stat.add_other _ _ _ (by decide), cell, under]
  · obtain ⟨stat, isStat, listed, cell⟩ := metered.charged
    rw [isStat] at bwStat
    refine ⟨_, bwStat, listed, ?_⟩
    have charge : toSizeT (state.comm.ep.reqs (reqAt wc.posting.wrId 0)).size =
      UInt64.ofInt (state.comm.ep.charge wc.posting) := toSizeT_eq _
    rw [taken, UInt64.ofInt_add, ← UInt64.add_assoc] at cell
    rw [Stat.add_cell, charge, under]
    exact cell

/-- Settling completions one after the other keeps the counts. -/
theorem Metered.settles {comm : SendComm} {finished : List Int32} {ep after : Endpoint}
    (settles : Endpoint.Settles ep after)
    (ok : SendOk setup calls { comm with ep := ep }) (toPeer : SendsToPeer setup ep)
    (metered : Metered setup ib bw ⟨{ comm with ep := ep }, finished⟩) :
    Metered setup ib bw ⟨{ comm with ep := after }, finished⟩ := by
  induction settles with
  | nothing => exact metered
  | @next ep middle after dev wc rest head handled _ ih =>
    obtain ⟨settled, accounted⟩ := ok.accounted.settle head
    have same : (ep.setCq dev rest).settle dev wc = middle := by
      rw [settled] at handled
      exact congrArg Handled.ep handled
    subst same
    refine ih (ok.settled (.next head handled (.nothing _)) accounted) ?_
      (metered.settle ok toPeer head)
    refine toPeer.kept (fun i _ => ?_)
    rw [(Endpoint.Kept.settle ep dev wc rest).reqs]
    exact ⟨rfl, rfl⟩

/-- A send that is done passes from under way to done. -/
theorem Metered.freed {state : Sending} (metered : Metered setup ib bw state)
    (ok : SendOk setup calls state.comm) (announced : ∀ call, Announced call (calls call))
    (toPeer : SendsToPeer setup state.comm.ep) {i : ReqId}
    (inUse : (state.comm.ep.reqs i).type ≠ .unused) (finished : state.comm.ep.Finished i) :
    Metered setup ib bw
      { comm := { state.comm with ep := state.comm.ep.ncclIbFreeRequest i }
        finished := state.finished ++ state.comm.ep.reportedSizes i } := by
  have isSend := (toPeer i inUse).1
  have unmatched : ¬ state.comm.MatchedTo i := by
    rintro ⟨r, _, taken⟩
    obtain ⟨dev, owed⟩ := ok.matched_owed announced taken
    exact owed ((ok.accounted.finished_iff i).mp finished dev).2
  have freed (j : ReqId) : (state.comm.ep.ncclIbFreeRequest i).reqs j =
      if j = i then { state.comm.ep.reqs i with type := .unused } else state.comm.ep.reqs j := by
    by_cases same : j = i
    · subst same
      simp [Endpoint.ncclIbFreeRequest, Endpoint.setReq]
    · simp [Endpoint.ncclIbFreeRequest, Endpoint.setReq, same]
  have size (j : ReqId) : ((state.comm.ep.ncclIbFreeRequest i).reqs j).size =
      (state.comm.ep.reqs j).size := by
    rw [freed]
    split
    · rename_i same
      rw [same]
    · rfl
  have less : state.comm.inFlight = SendComm.inFlight
      { state.comm with ep := state.comm.ep.ncclIbFreeRequest i } +
      (state.comm.ep.reqs i).size.toInt := by
    have alone : (state.comm.ep.reqs i).size.toInt =
        ∑ j : ReqId, if j = i then (state.comm.ep.reqs i).size.toInt else 0 := by
      rw [Finset.sum_ite_eq' Finset.univ i]
      simp
    rw [alone, SendComm.inFlight, SendComm.inFlight, ← Finset.sum_add_distrib]
    apply Finset.sum_congr rfl
    intro j _
    have matched : SendComm.MatchedTo
        { state.comm with ep := state.comm.ep.ncclIbFreeRequest i } j ↔
          state.comm.MatchedTo j := Iff.rfl
    by_cases same : j = i
    · subst same
      simp [freed, matched, isSend, unmatched]
    · simp [freed, matched, same]
  refine metered.congr ?_ (Or.inl rfl) rfl ?_ ?_
  · intro slot r j taken
    have other : j ≠ i := by
      rintro rfl
      obtain ⟨rfl, below⟩ := ok.row slot r (by rw [taken]; simp)
      exact unmatched ⟨r, List.mem_range.mpr
        (Nat.lt_of_lt_of_le below (announced _).few), taken⟩
    refine (congrArg NcclIbRequest.offset ((freed j).trans (if_neg other))).trans ?_
    exact metered.unsent slot r j taken
  · exact ok.accounted.uncharged_congr rfl (fun j _ => size j)
  · have reported : state.comm.ep.reportedSizes i = [(state.comm.ep.reqs i).size] := by
      simp [Endpoint.reportedSizes, isSend]
    rw [reported, less, List.map_append, List.sum_append]
    simp only [List.map_cons, List.map_nil, List.sum_cons, List.sum_nil]
    omega

end

/-! ## Balanced runs -/

/-- The sizes of the message that a send would complete and post; `none` when it would
post none. -/
def SendComm.completedSizes (comm : SendComm) (size tag : Int32) : Option (List Int32) :=
  let slot := comm.fifoHead % maxRequests
  let slots := comm.fifo slot
  if (slots 0).idx = comm.fifoHead + 1 then
    (matching comm slot (slots 0).nreqs tag).bind fun r =>
      if ¬ (slots r).Incorrect ∧ comm.ep.ncclIbGetRequest.isSome then
        (List.range (slots 0).nreqs).mapM fun r' =>
          if r' = r then some (clip size (slots r))
          else (comm.fifoReqs slot r').map fun i => (comm.ep.reqs i).size
      else none
  else none

/-- The sizes of a message fit the chunking, and the first of them, once for each queue
pair of the message, adds up to all of them. -/
structure Balanced (nqps : Nat) (sizes : List Int32) : Prop where
  fits : ∀ size ∈ sizes, Chunkable size.toInt nqps
  even : nqps * (sizes.headD 0).toInt = (sizes.map Int32.toInt).sum

instance (nqps : Nat) (sizes : List Int32) : Decidable (Balanced nqps sizes) :=
  -- over the list, not over all values of the type
  have : Decidable (∀ size ∈ sizes, Chunkable size.toInt nqps) := List.decidableBAll _ sizes
  decidable_of_iff ((∀ size ∈ sizes, Chunkable size.toInt nqps) ∧
      nqps * (sizes.headD 0).toInt = (sizes.map Int32.toInt).sum)
    ⟨fun ⟨fits, even⟩ => ⟨fits, even⟩, fun ⟨fits, even⟩ => ⟨fits, even⟩⟩

/-- A send that posts a message posts a balanced one. -/
def PostsBalanced (setup : SendSetup) (state : Sending) : SendEvent → Prop
  | .isend _ size tag _ => ∀ sizes ∈ state.comm.completedSizes size tag,
    Balanced setup.perMessage sizes
  | _ => True

instance (setup : SendSetup) (state : Sending) :
    (event : SendEvent) → Decidable (PostsBalanced setup state event)
  | .isend _ _ _ _ => inferInstanceAs (Decidable (∀ sizes ∈ _, _))
  | .announce _ _ => inferInstanceAs (Decidable True)
  | .complete _ => inferInstanceAs (Decidable True)
  | .test _ => inferInstanceAs (Decidable True)

/-- All runs of a send comm that start with the given stats. -/
def sendingWith (setup : SendSetup) (calls : Calls) (ib bw : Stat) : System Sending SendEvent where
  starts := fun state => (sending setup calls).starts state ∧
    state.comm.ep.ibStat = some ib ∧ state.comm.ep.bwStat = some bw
  step := (sending setup calls).step

section

variable {setup : SendSetup} {calls : Calls} {ib bw : Stat}

theorem sendingWith_sending {state : Sending}
    (reached : (sendingWith setup calls ib bw).Reachable state) :
    (sending setup calls).Reachable state := by
  refine reached.invariant (fun _ started => .start started.1) ?_
  intro _ _ _ before stepped
  exact before.next stepped

/-- The message a send posts has the sizes that were foreseen. -/
theorem completedSizes_posted {comm : SendComm} (ok : SendOk setup calls comm)
    (announced : ∀ call, Announced call (calls call)) {data : Int} {size tag : Int32}
    {lkeys : Dev → UInt32} {r : Nat} {i : ReqId} {recv : NcclIbSendFifo}
    (hit : Hit calls comm tag r i recv) {reqs : List ReqId} {first : ReqId}
    (full : Full calls (comm.hit setup calls data size lkeys r i recv) reqs first) :
    comm.completedSizes size tag = some (reqs.map fun j =>
      ((comm.hit setup calls data size lkeys r i recv).ep.reqs j).size) := by
  have nreqs := (ok.arrived announced hit.stamp).2
  obtain ⟨below, _⟩ := List.getElem?_eq_some_iff.mp hit.isRecv
  have isRecv : comm.fifo (comm.fifoHead % maxRequests) r = recv := by
    have lands := hit.lands r below
    rw [hit.isRecv] at lands
    exact (Option.some.inj lands).symm
  have self := place_req_self setup comm (calls comm.fifoHead).length r i
    lkeys (clip size recv) data
  have others {j : ReqId} (other : j ≠ i) := place_req_other setup comm
    (calls comm.fifoHead).length r lkeys (clip size recv) data other
  have rows := place_fifoReqs setup comm (calls comm.fifoHead).length r i
    lkeys (clip size recv) data (comm.fifoHead % maxRequests)
  obtain ⟨_, _, isSize, _⟩ := sendRequest_spec setup lkeys (calls comm.fifoHead).length
    comm.ep.qpIndex (clip size recv) data (comm.ep.reqs i)
  have length : reqs.length = (calls comm.fifoHead).length := full.length
  simp only [SendComm.completedSizes, if_pos hit.stamp, nreqs, hit.found, Option.bind_some, isRecv]
  have some : comm.ep.ncclIbGetRequest.isSome := by
    rw [Option.isSome_iff_ne_none]
    intro none
    exact Endpoint.ncclIbGetRequest_none none i hit.unused
  rw [if_pos ⟨hit.correct, some⟩]
  apply mapM_of_map
  apply List.ext_getElem
  · simp [length]
  · intro r' inRange inReqs
    have inside : r' < reqs.length := by simpa using inReqs
    have placed := (rows r').symm.trans
      ((full.rows r' inside).trans (List.getElem?_eq_getElem inside))
    simp only [List.getElem_map, List.getElem_range]
    by_cases same : r' = r
    · rw [if_pos ⟨rfl, same⟩] at placed
      rw [if_pos same, ← Option.some.inj placed]
      congr 1
      exact ((congrArg NcclIbRequest.size self).trans isSize).symm
    · rw [if_neg (fun both => same both.2)] at placed
      have other : reqs[r'] ≠ i := ok.matched_other hit.unused placed
      rw [if_neg same, placed, Option.map_some]
      congr 1
      exact (congrArg NcclIbRequest.size (others other)).symm

/-- A balanced step keeps the counts. -/
theorem Metered.step {before after : Sending} {event : SendEvent}
    (metered : Metered setup ib bw before) (ok : SendOk setup calls before.comm)
    (announced : ∀ call, Announced call (calls call)) (toPeer : SendsToPeer setup before.comm.ep)
    (machine : setup.narrow = wrapInt) (few : setup.perMessage ≤ maxQps)
    (permitted : PostsBalanced setup before event)
    (stepped : SendStep setup calls before event after) : Metered setup ib bw after := by
  cases stepped with
  | landed landed =>
    obtain ⟨recv, _, rfl⟩ := Option.map_eq_some_iff.mp landed
    exact ⟨metered.unsent, metered.counted, metered.charged⟩
  | @sent data size tag lkeys request comm effect =>
    cases effect with
    | nothing counted =>
      refine metered.congr metered.unsent ?_ rfl rfl rfl
      rcases counted with rfl | rfl
      · exact Or.inl rfl
      · exact Or.inr ⟨unetIbFifoRecvCount, by decide, rfl⟩
    | matched hit missing => exact metered.hit ok announced hit data size lkeys
    | @posted r i recv hit reqs first full =>
      have balanced := permitted _ (completedSizes_posted ok announced hit full)
      refine (metered.hit ok announced hit data size lkeys).post
        (ok.hit announced hit data size lkeys) announced machine few full ?_ ?_
      · intro j member
        exact balanced.fits _ (List.mem_map_of_mem member)
      · have even := balanced.even
        cases reqs with
        | nil => exact absurd full.isFirst (by simp)
        | cons head rest =>
          have same : head = first := by simpa using full.isFirst
          subst same
          rw [List.map_map] at even
          exact even
  | completed completed =>
    have moved := Endpoint.complete_unpolled completed
    obtain ⟨posting, _, rfl⟩ := Option.map_eq_some_iff.mp completed
    refine metered.congr metered.unsent (Or.inl rfl) rfl ?_ rfl
    exact (moved.map _).sum_eq
  | waits settles accounted => exact Metered.settles settles ok toPeer metered
  | done settles accounted inUse finished =>
    have kept := settles.kept ok.accounted
    refine (Metered.settles settles ok toPeer metered).freed (ok.settled settles accounted)
      announced ?_ ?_ finished
    · refine toPeer.kept (fun i _ => ?_)
      rw [kept.reqs]
      exact ⟨rfl, rfl⟩
    · rw [kept.reqs]
      exact inUse

theorem metered_run (announced : ∀ call, Announced call (calls call))
    (machine : setup.narrow = wrapInt) (few : setup.perMessage ≤ maxQps) {state : Sending}
    (reached : (sendingWith setup calls ib bw).Reaches (PostsBalanced setup) state) :
    Metered setup ib bw state := by
  refine reached.invariant ?_ ?_
  · rintro state ⟨⟨fresh, none⟩, ibStat, bwStat⟩
    have idle : state.comm.inFlight = 0 := by
      apply Finset.sum_eq_zero
      intro i _
      rw [fresh.1.1]
      rfl
    have nothing : state.comm.ep.uncharged = 0 := by
      obtain ⟨_, _, _, _, _, posted, _, cqs⟩ := fresh.1
      simp [Endpoint.uncharged, Endpoint.unpolled, posted, cqs]
    refine ⟨?_, ⟨ib, ibStat, rfl, ?_⟩, ⟨bw, bwStat, rfl, ?_⟩⟩
    · rw [fresh.2.2.1]
      simp
    · rw [none, idle]
      exact (UInt64.add_zero _).symm
    · rw [none, idle, nothing]
      rfl
  · intro before event after reached metered permitted stepped
    have started := sendingWith_sending reached.reachable
    have ok := sending_ok announced started
    exact metered.step ok announced (sends_to_peer announced started) machine few permitted
      (ok.sendStep announced stepped)

end

/-! ## The two counters -/

/-- How much a named counter grew. -/
def increase (before after : Option Stat) (name : String) : Option UInt64 := do
  return (← (← after).get name) - (← (← before).get name)

/-- When no send is outstanding after a run of balanced messages, the counter of the
peer grew by the sizes of the sends that are done, and so did the bytes sent. -/
theorem bandwidth_conserved (env : RankEnv) (pid : Int32)
    (ibMemory bwMemory : Option (UInt64 → UInt64)) (ib bw : Stat)
    (inited : initStats env pid ibMemory bwMemory = some (ib, some bw)) (setup : SendSetup)
    (calls : Calls) (announced : ∀ call, Announced call (calls call))
    (inWorld : RankCounted env.worldSize setup.peerRank) (machine : setup.narrow = wrapInt)
    (few : setup.nqps ≤ maxQps) (state : Sending)
    (reached : (sendingWith setup calls ib bw).Reaches (PostsBalanced setup) state)
    (idle : ∀ i, (state.comm.ep.reqs i).type ≠ .send) :
    increase (some bw) state.comm.ep.bwStat (cplName setup.peerRank.toInt) =
        some (UInt64.ofInt (state.finished.map Int32.toInt).sum) ∧
      increase (some ib) state.comm.ep.ibStat "tx_bytes" =
        increase (some bw) state.comm.ep.bwStat (cplName setup.peerRank.toInt) := by
  have fewer : setup.perMessage ≤ maxQps := by
    unfold CommSetup.perMessage
    split
    · exact few
    · exact Nat.le_trans setup.atMostTwo (by decide)
  have started := sendingWith_sending reached.reachable
  have metered := metered_run announced machine fewer reached
  have published := initStats_bw inited
  rw [if_pos (by by_contra unknown; simp [unknown] at published)] at published
  obtain ⟨_, same, listed⟩ := published
  obtain rfl := Option.some.inj same
  have none : state.comm.inFlight = 0 := by
    apply Finset.sum_eq_zero
    intro i _
    rw [if_neg (fun both => idle i both.1)]
  have polled : state.comm.ep.uncharged = 0 := by
    have empty : state.comm.ep.unpolled = [] := by
      apply List.eq_nil_iff_forall_not_mem.mpr
      intro posting member
      have named := (sending_ok announced started).accounted.unpolled member
      have inUse : (state.comm.ep.reqs (reqAt posting.wrId 0)).type ≠ .unused := by
        rw [named.typed _ named.first]
        exact posting.kind.reqType_ne_unused
      exact idle _ (sends_to_peer announced started _ inUse).1
    rw [Endpoint.uncharged, empty]
    rfl
  have cancel (before amount : UInt64) : before + amount - before = amount := by
    rw [UInt64.add_comm, UInt64.add_sub_cancel]
  obtain ⟨ibEnd, isIb, ibListed, sent⟩ := metered.counted
  obtain ⟨bwEnd, isBw, bwListed, charged⟩ := metered.charged
  have bwGrew : increase (some bw) state.comm.ep.bwStat (cplName setup.peerRank.toInt) =
      some (UInt64.ofInt (state.finished.map Int32.toInt).sum) := by
    have nothing : UInt64.ofInt 0 = 0 := rfl
    rw [none, polled, Int.add_zero, nothing, UInt64.add_zero] at charged
    simp [increase, isBw, Stat.get, find_cplName_counted listed inWorld,
      find_cplName_counted (bwListed.trans listed) inWorld, charged, cancel]
  have ibGrew : increase (some ib) state.comm.ep.ibStat "tx_bytes" =
      some (UInt64.ofInt (state.finished.map Int32.toInt).sum) := by
    have ibList := initStats_ib inited
    rw [none, Int.add_zero] at sent
    simp [increase, isIb, Stat.get, find_txBytes ibList, find_txBytes (ibListed.trans ibList),
      sent, cancel]
  exact ⟨bwGrew, ibGrew.trans bwGrew.symm⟩

/-- The stats of rank 0 in a world of two. -/
def worldOfTwo : Stat × Option Stat :=
  (initStats ⟨0, 0, 2, 2⟩ 77 (some fun _ => 0) (some fun _ => 0)).get (by decide +kernel)

def worldOfTwo.bw : Stat := worldOfTwo.2.get (by decide +kernel)

theorem worldOfTwo_inited : initStats ⟨0, 0, 2, 2⟩ 77 (some fun _ => 0) (some fun _ => 0) =
    some (worldOfTwo.1, some worldOfTwo.bw) := by
  rw [worldOfTwo.bw, Option.some_get, Prod.mk.eta]
  exact (Option.some_get _).symm

/-- A send of 80 bytes, from its match to the test that finds it done. -/
def send80 (completions : Nat) : List SendEvent :=
  [.announce 0 0, .isend 65536 80 1 (fun _ => 9)] ++
    List.replicate completions (.complete 0) ++ [.test 0]

/-- A send comm of rank 0 as connecting leaves it. -/
def ofWorldOfTwo : Sending := ⟨.initialWith (some worldOfTwo.1) (some worldOfTwo.bw), []⟩

theorem ofWorldOfTwo_start (setup : SendSetup) (calls : Calls) :
    (sendingWith setup calls worldOfTwo.1 worldOfTwo.bw).starts ofWorldOfTwo :=
  ⟨⟨⟨Endpoint.initial_fresh _ _, rfl, rfl, rfl, rfl⟩, rfl⟩, rfl, rfl⟩

/-- 80 bytes sent to rank 1 over one queue pair. -/
def overOneDevice : Sending :=
  ((sendingWith (oneDevice.send 1) oneRecv worldOfTwo.1 worldOfTwo.bw).replay ofWorldOfTwo
    (send80 1)).get (by decide +kernel)

/-- Over one queue pair the 80 bytes are charged once. -/
theorem bandwidth_conserved_overOneDevice :
    increase (some worldOfTwo.bw) overOneDevice.comm.ep.bwStat (cplName 1) = some 80 ∧
      increase (some worldOfTwo.1) overOneDevice.comm.ep.ibStat "tx_bytes" = some 80 := by
  have reached : (sendingWith (oneDevice.send 1) oneRecv worldOfTwo.1 worldOfTwo.bw).Reaches
      (PostsBalanced (oneDevice.send 1)) overOneDevice :=
    .replay (.start (ofWorldOfTwo_start _ _)) (send80 1) (by decide +kernel)
      (Option.some_get _).symm
  have idle : ∀ i, (overOneDevice.comm.ep.reqs i).type ≠ .send := by decide +kernel
  have bytes : UInt64.ofInt (overOneDevice.finished.map Int32.toInt).sum = 80 := by
    decide +kernel
  obtain ⟨cpl, tx⟩ := bandwidth_conserved _ _ _ _ _ _ worldOfTwo_inited (oneDevice.send 1) oneRecv
    oneRecv_announced (by decide) rfl (by decide) overOneDevice reached idle
  rw [bytes] at cpl
  exact ⟨cpl, tx.trans cpl⟩

/-- 80 bytes sent to rank 1 over two devices with a queue pair each. -/
def overTwoDevices : Sending :=
  ((sendingWith twoDevices.send oneRecv worldOfTwo.1 worldOfTwo.bw).replay ofWorldOfTwo
    (send80 2)).get (by decide +kernel)

/-- Over two queue pairs the 80 bytes are charged twice. -/
theorem bandwidth_charged_twice :
    (sendingWith twoDevices.send oneRecv worldOfTwo.1 worldOfTwo.bw).Reachable overTwoDevices ∧
      (∀ i, (overTwoDevices.comm.ep.reqs i).type ≠ .send) ∧ overTwoDevices.finished = [80] ∧
      increase (some worldOfTwo.1) overTwoDevices.comm.ep.ibStat "tx_bytes" = some 80 ∧
      increase (some worldOfTwo.bw) overTwoDevices.comm.ep.bwStat (cplName 1) = some 160 := by
  refine ⟨?_, ?_, ?_, ?_, ?_⟩
  · exact System.Reachable.replay (.start (ofWorldOfTwo_start _ _)) (send80 2)
      (Option.some_get _).symm
  all_goals decide +kernel

end NcclExts.Unet
