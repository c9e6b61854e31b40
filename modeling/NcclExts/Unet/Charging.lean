import NcclExts.Unet.Completions

/-!
# Charging completed sends

Each completion of a send is charged to the bw stat, at an index computed from the rank
that the peer sent when the comm was connected. The list of the bw stat is sized by the
world size of this process alone, so the index reaches the counter named after the peer
exactly when the peer's rank lies inside that world.
-/

namespace NcclExts.Unet

open NcclExts.Foundation NcclExts.Ucommd

/-- The requests in use are sends to the peer. -/
def SendsToPeer (setup : SendSetup) (ep : Endpoint) : Prop :=
  ∀ i, (ep.reqs i).type ≠ .unused →
    (ep.reqs i).type = .send ∧ (ep.reqs i).peerRank = setup.peerRank

section

variable {setup : SendSetup} {calls : Calls} {comm : SendComm}

theorem SendsToPeer.kept {ep after : Endpoint} (toPeer : SendsToPeer setup ep)
    (same : ∀ i, (after.reqs i).type ≠ .unused →
      (after.reqs i).type = (ep.reqs i).type ∧ (after.reqs i).peerRank = (ep.reqs i).peerRank) :
    SendsToPeer setup after := by
  intro i inUse
  obtain ⟨type, peerRank⟩ := same i inUse
  rw [type, peerRank]
  exact toPeer i (type ▸ inUse)

theorem SendsToPeer.hit (toPeer : SendsToPeer setup comm.ep) (data : Int) (size : Int32)
    (lkeys : Dev → UInt32) (r : Nat) (i : ReqId) (recv : NcclIbSendFifo) :
    SendsToPeer setup (comm.hit setup calls data size lkeys r i recv).ep := by
  intro j inUse
  by_cases same : j = i
  · subst same
    obtain ⟨type, _, _, _, _, peerRank, _⟩ :=
      sendRequest_spec setup lkeys (calls comm.fifoHead).length comm.ep.qpIndex (clip size recv)
        data (comm.ep.reqs j)
    have self := place_req_self setup
      (comm.withIbStat (comm.ep.countIb unetIbFifoRecvCount).ibStat)
      (calls comm.fifoHead).length r j lkeys (clip size recv) data
    rw [SendComm.hit, self]
    exact ⟨type, peerRank⟩
  · have other := place_req_other setup
      (comm.withIbStat (comm.ep.countIb unetIbFifoRecvCount).ibStat)
      (calls comm.fifoHead).length r lkeys (clip size recv) data same
    rw [SendComm.hit, other] at inUse ⊢
    exact toPeer j inUse

/-- One step keeps the requests sends to the peer. -/
theorem SendsToPeer.step {before after : Sending} {event : SendEvent}
    (ok : SendOk setup calls before.comm) (announced : ∀ call, Announced call (calls call))
    (toPeer : SendsToPeer setup before.comm.ep)
    (stepped : SendStep setup calls before event after) : SendsToPeer setup after.comm.ep := by
  cases stepped with
  | landed landed =>
    obtain ⟨recv, _, rfl⟩ := Option.map_eq_some_iff.mp landed
    exact toPeer
  | @sent data size tag lkeys request comm effect =>
    cases effect with
    | nothing _ => exact toPeer
    | @matched r i recv hit missing => exact toPeer.hit data size lkeys r i recv
    | @posted r i recv hit reqs first full =>
      obtain ⟨postings, sent⟩ :=
        SendComm.post_sent (ok.hit announced hit data size lkeys).inside full.isFirst
      have placed : SendsToPeer setup
          (before.comm.hit setup calls data size lkeys r i recv).ep :=
        toPeer.hit data size lkeys r i recv
      refine placed.kept (fun j _ => ?_)
      rw [sent.offsets j]
      exact ⟨rfl, rfl⟩
  | completed completed =>
    obtain ⟨posting, _, rfl⟩ := Option.map_eq_some_iff.mp completed
    exact toPeer
  | waits settles _ =>
    refine toPeer.kept (fun i _ => ?_)
    rw [(settles.kept ok.accounted).reqs i]
    exact ⟨rfl, rfl⟩
  | @done i settled settles _ _ _ =>
    refine toPeer.kept (fun j inUse => ?_)
    have other : j ≠ i := by
      rintro rfl
      exact inUse (by simp [Endpoint.ncclIbFreeRequest, Endpoint.setReq])
    have same : (settled.ncclIbFreeRequest i).reqs j = settled.reqs j := by
      simp [Endpoint.ncclIbFreeRequest, Endpoint.setReq, other]
    rw [same, (settles.kept ok.accounted).reqs j]
    exact ⟨rfl, rfl⟩

theorem sends_to_peer (announced : ∀ call, Announced call (calls call)) {state : Sending}
    (reached : (sending setup calls).Reachable state) : SendsToPeer setup state.comm.ep := by
  induction reached with
  | start first =>
    intro i inUse
    rw [first.1.1.1] at inUse
    exact absurd rfl inUse
  | next before _ stepped ih =>
    have ok := sending_ok announced before
    exact ih.step ok announced (ok.sendStep announced stepped)

/-- A completion of a send comm charges its first send at the index of the peer. -/
theorem SendsToPeer.charged (ok : SendOk setup calls comm) (toPeer : SendsToPeer setup comm.ep)
    {dev : Dev} {wc : IbvWc} {rest : List IbvWc} (head : comm.ep.cqs dev = wc :: rest) :
    wc.posting.kind = .data ∧
      ((comm.ep.setCq dev rest).handleWc dev wc).ep.bwStat = comm.ep.bwStat.map (fun stat =>
        stat.add (toSizeT (unetBwCplBytesByRank setup.peerRank))
          (toSizeT (comm.ep.reqs (reqAt wc.posting.wrId 0)).size)) := by
  have named := (ok.accounted.head head).2.1
  have typed := named.typed _ named.first
  have inUse : (comm.ep.reqs (reqAt wc.posting.wrId 0)).type ≠ .unused := by
    rw [typed]
    exact wc.posting.kind.reqType_ne_unused
  obtain ⟨isSend, peerRank⟩ := toPeer _ inUse
  have isData : wc.posting.kind = .data := by
    rw [isSend] at typed
    cases kind : wc.posting.kind <;> simp_all [WrKind.reqType]
  refine ⟨isData, ?_⟩
  rw [(ok.accounted.settle head).1, ← peerRank]
  simp only [Endpoint.settle, isData, if_true]
  rfl

end

/-- In every run of a send comm to a peer, in a process with the given bw stat, each
completion is charged to the counter named after the peer and to nothing else. -/
def ChargesByName (bw : Option Stat) (peerRank : Int32) : Prop :=
  ∀ (setup : SendSetup) (calls : Calls) (state : Sending), setup.peerRank = peerRank →
    (∀ call, Announced call (calls call)) → (sending setup calls).Reachable state →
    state.comm.ep.bwStat.map Stat.counterList = bw.map Stat.counterList →
    ∀ dev wc rest, state.comm.ep.cqs dev = wc :: rest →
      ((state.comm.ep.setCq dev rest).handleWc dev wc).ep.bwStat =
        state.comm.ep.bwStat.map (fun stat => stat.addNamed (cplName peerRank.toInt)
          (toSizeT (state.comm.ep.reqs (reqAt wc.posting.wrId 0)).size))

/-! ## A run that completes a send -/

/-- The peer posts one receive. -/
def oneRecv : Calls := fun call => if call = 0 then [⟨4096, 100, fun _ => 7, 1, 1, 1⟩] else []

theorem oneRecv_announced (call : Nat) : Announced call (oneRecv call) := by
  by_cases first : call = 0
  · subst first
    exact ⟨by decide, by decide⟩
  · simp only [oneRecv, if_neg first]
    exact ⟨by decide, by simp⟩

/-- One device with one queue pair. -/
def oneDevice : CommSetup :=
  { ndevs := 1, nqps := 1, qps := fun _ => ⟨0, 0⟩, splitDataOnQps := false, asyncEvents := true
    ready := true, someDev := Nat.zero_lt_one, atMostTwo := oneDev_le
    someQp := Nat.zero_lt_one
    onDevs := fun _ => by decide }

def oneDevice.send (peerRank : Int32) : SendSetup :=
  { toCommSetup := oneDevice, peerRank := peerRank, ar := false, arThreshold := 8192
    sizesLkeys := fun _ => 5, sizesRkeys := fun _ => 6, narrow := wrapInt }

/-- A send comm as connecting leaves it, with the stats of its process. -/
def SendComm.initialWith (ibStat bwStat : Option Stat) : SendComm :=
  { SendComm.initial with ep := Endpoint.initial ibStat bwStat }

/-- One byte was sent to the peer, and its completion is in the queue. -/
def byteSent (peerRank : Int32) (bw : Stat) : Sending :=
  ((sending (oneDevice.send peerRank) oneRecv).replay ⟨.initialWith none (some bw), []⟩
    [.announce 0 0, .isend 65536 1 1 (fun _ => 9), .complete 0]).get rfl

theorem byteSent_reached (peerRank : Int32) (bw : Stat) :
    (sending (oneDevice.send peerRank) oneRecv).Reachable (byteSent peerRank bw) :=
  have start : (sending (oneDevice.send peerRank) oneRecv).Reachable
      ⟨.initialWith none (some bw), []⟩ :=
    .start ⟨⟨Endpoint.initial_fresh none (some bw), rfl, rfl, rfl, rfl⟩, rfl⟩
  start.replay _ (Option.some_get _).symm

/-- The completion of the byte charges one to the index of the peer. -/
theorem byteSent_charged (peerRank : Int32) (bw : Stat) :
    ∃ wc, (byteSent peerRank bw).comm.ep.cqs 0 = [wc] ∧
      (byteSent peerRank bw).comm.ep.bwStat = some bw ∧
      ((byteSent peerRank bw).comm.ep.reqs (reqAt wc.posting.wrId 0)).size = 1 ∧
      (((byteSent peerRank bw).comm.ep.setCq 0 []).handleWc 0 wc).ep.bwStat =
        some (bw.add (toSizeT (unetBwCplBytesByRank peerRank)) 1) := by
  obtain ⟨wc, head, published, first, size⟩ : ∃ wc, (byteSent peerRank bw).comm.ep.cqs 0 = [wc] ∧
      (byteSent peerRank bw).comm.ep.bwStat = some bw ∧ wc.posting.wrId = 0 ∧
      ((byteSent peerRank bw).comm.ep.reqs (reqAt 0 0)).size = 1 :=
    ⟨_, rfl, rfl, rfl, rfl⟩
  replace size : ((byteSent peerRank bw).comm.ep.reqs (reqAt wc.posting.wrId 0)).size = 1 := by
    rw [first]
    exact size
  have reached := byteSent_reached peerRank bw
  obtain ⟨_, charged⟩ := (sends_to_peer oneRecv_announced reached).charged
    (sending_ok oneRecv_announced reached) head
  refine ⟨wc, head, published, size, ?_⟩
  rw [charged, published, size]
  rfl

/-! ## The counter of the peer -/

/-- Every completion is charged by name exactly when the process has no bw stat, or the
peer's rank lies inside the world it was sized for. -/
theorem bw_counter_index (env : RankEnv) (pid : Int32)
    (ibMemory bwMemory : Option (UInt64 → UInt64)) (ib : Stat) (bw : Option Stat)
    (inited : initStats env pid ibMemory bwMemory = some (ib, bw)) (peerRank : Int32) :
    ChargesByName bw peerRank ↔ env.rank < 0 ∨ RankCounted env.worldSize peerRank := by
  have published := initStats_bw inited
  constructor
  · intro named
    by_cases known : env.rank ≥ 0
    · right
      rw [if_pos known] at published
      obtain ⟨stat, rfl, listed⟩ := published
      obtain ⟨wc, head, isStat, size, charged⟩ := byteSent_charged peerRank stat
      have byName := named (oneDevice.send peerRank) oneRecv (byteSent peerRank stat) rfl
        oneRecv_announced (byteSent_reached peerRank stat) (by rw [isStat]) 0 wc [] head
      rw [charged, isStat, size, Option.map_some, Option.some.injEq] at byName
      exact (add_index_eq_addNamed_iff listed peerRank (by decide)).mp byName
    · exact Or.inl (by simpa using known)
  · intro inside setup calls state toPeer announced reached same dev wc rest head
    subst toPeer
    rw [((sends_to_peer announced reached).charged (sending_ok announced reached) head).2]
    by_cases known : env.rank ≥ 0
    · rw [if_pos known] at published
      obtain ⟨stat, rfl, listed⟩ := published
      have counted := inside.resolve_left (by simpa using known)
      obtain ⟨current, isCurrent, sameList⟩ := Option.map_eq_some_iff.mp same
      rw [isCurrent, Option.map_some, Option.map_some]
      rw [Stat.addNamed, find_cplName_counted (sameList.trans listed) counted]
      rfl
    · rw [if_neg known] at published
      rw [published, Option.map_none, Option.map_eq_none_iff] at same
      rw [same, Option.map_none, Option.map_none]

/-- With rank 0 of a world of two, a byte sent to rank 1 is charged to its counter. -/
theorem bw_counter_index_neighbor :
    ∃ ib bw, initStats ⟨0, 0, 2, 2⟩ 77 (some fun _ => 0) (some fun _ => 0) = some (ib, bw) ∧
      ChargesByName bw 1 := by
  obtain ⟨ib, bw, inited⟩ := initStats_some ⟨0, 0, 2, 2⟩ (by decide) 77 (fun _ => 0)
    (fun _ => 0)
  exact ⟨ib, some bw, inited, (bw_counter_index _ _ _ _ _ _ inited 1).mpr (Or.inr (by decide))⟩

/-- With rank 0 of a world of two, a byte sent to a peer that does not know its rank is
charged to the number of local ranks. -/
theorem bw_counter_index_unset :
    ∃ ib bw, initStats ⟨0, 0, 2, 2⟩ 77 (some fun _ => 0) (some fun _ => 0) = some (ib, some bw) ∧
      ¬ ChargesByName (some bw) (-1) ∧
      ∃ wc, (byteSent (-1) bw).comm.ep.cqs 0 = [wc] ∧
        ((((byteSent (-1) bw).comm.ep.setCq 0 []).handleWc 0 wc).ep.bwStat.bind
          (fun stat => stat.get "local_size")) =
            (bw.get "local_size").map (fun size => size + 1) := by
  obtain ⟨ib, bw, inited⟩ := initStats_some ⟨0, 0, 2, 2⟩ (by decide) 77 (fun _ => 0)
    (fun _ => 0)
  refine ⟨ib, bw, inited, ?_, ?_⟩
  · intro named
    obtain ⟨wc, head, isStat, size, charged⟩ := byteSent_charged (-1) bw
    have published := initStats_bw inited
    rw [if_pos (by decide)] at published
    obtain ⟨stat, same, listed⟩ := published
    rw [Option.some.injEq] at same
    subst same
    have byName := named (oneDevice.send (-1)) oneRecv (byteSent (-1) bw) rfl
      oneRecv_announced (byteSent_reached (-1) bw) (by rw [isStat]) 0 wc [] head
    rw [charged, isStat, size, Option.map_some, Option.some.injEq] at byName
    exact absurd ((add_index_eq_addNamed_iff listed (-1) (by decide)).mp byName) (by decide)
  · obtain ⟨wc, head, _, _, charged⟩ := byteSent_charged (-1) bw
    refine ⟨wc, head, ?_⟩
    have published := initStats_bw inited
    rw [if_pos (by decide)] at published
    obtain ⟨stat, same, listed⟩ := published
    rw [Option.some.injEq] at same
    subst same
    have found : bw.find "local_size" = some (Stat.offset 4) := by
      simp [Stat.find, listed, bwCounterList, rankingCounters, List.findIdx?_cons]
    have index : toSizeT (unetBwCplBytesByRank (-1)) = 4 := by decide
    rw [charged, index, Option.bind_some, Stat.get, Stat.find_of_counterList
      (Stat.add_counterList bw 4 1), Stat.get, found, Option.map_some, Option.map_some,
      Option.map_some, Stat.add_cell]

end NcclExts.Unet
