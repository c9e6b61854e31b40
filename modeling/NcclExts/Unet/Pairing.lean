import NcclExts.Unet.Handshake

/-!
# What the two sides of a connection agree on

The two sides pair their queue pairs by index, so they agree as long as they count the
same number of them and neither looks beyond what the other side wrote. How the path
MTU and the ECE options come out depends on more than that: on when the MTU of a device
is adjusted, and on which fields the answer leaves as the stack had them.
-/

namespace NcclExts.Unet

open NcclExts.Foundation

/-- Two sides that connect, and what their stacks hold where each builds its metadata. -/
structure Handshake where
  connector : Side
  acceptor : Side
  connectStack : NcclIbConnectionMetadata
  acceptStack : NcclIbConnectionMetadata

namespace Handshake

/-- The metadata the connecting side sends. -/
def request (h : Handshake) : NcclIbConnectionMetadata := connectMeta h.connector h.connectStack

/-- The setup of the accepting side. -/
def accepting (h : Handshake) : Traced Place (Connected × NcclIbConnectionMetadata) :=
  acceptSetup h.acceptor h.acceptStack h.request

/-- The receive comm. -/
def recvComm (h : Handshake) : Connected := h.accepting.value.1

/-- The metadata the accepting side answers. -/
def answer (h : Handshake) : NcclIbConnectionMetadata := h.accepting.value.2

/-- The setup of the connecting side. -/
def connecting (h : Handshake) : Traced Place (Option Connected) :=
  connectSetup h.connector h.answer

end Handshake

/-! ## The two messages -/

/-- A queue pair lives on a device of its side. -/
theorem Side.devIndex_lt (side : Side) (q : Nat) : side.devIndex q < side.ndevs := by
  cases q with
  | zero => exact side.someDev
  | succ q => exact Nat.mod_lt _ side.someDev

/-- Queue pairs alternate between the devices. -/
theorem Side.devIndex_eq (side : Side) (q : Nat) : side.devIndex q = q % side.ndevs := by
  induction q with
  | zero => exact (Nat.zero_mod _).symm
  | succ q ih => rw [Side.devIndex, ih, Nat.mod_add_mod]

/-- The value and the reads of setting up a queue pair. -/
theorem setupQp_value (side : Side) (remMeta : NcclIbConnectionMetadata) (overrideTc : Bool)
    (q : Nat) : (setupQp side remMeta overrideTc q).value =
      { qpNum := side.qpNum q
        devIndex := side.devIndex q
        remDevIdx := (remMeta.qpInfo q).devIndex
        ece := if (remMeta.qpInfo q).eceSupported then some (remMeta.qpInfo q).ece else none
        rtr :=
          { sGidIndex := side.gidIndex (side.devIndex q)
            destQpNum := (remMeta.qpInfo q).qpn
            info := remMeta.devs (remMeta.qpInfo q).devIndex
            overrideTc := overrideTc } } := by
  cases supported : (remMeta.qpInfo q).eceSupported <;>
    simp [setupQp, NcclIbConnectionMetadata.readQpInfo, NcclIbConnectionMetadata.readEceSupported,
      NcclIbConnectionMetadata.readEce, NcclIbConnectionMetadata.readDev, supported]

theorem mem_setupQp_reads {side : Side} {remMeta : NcclIbConnectionMetadata} {overrideTc : Bool}
    {q : Nat} {place : Place} :
    place ∈ (setupQp side remMeta overrideTc q).reads ↔
      place = .qpInfo q ∨ place = .eceSupported q ∨
        ((remMeta.qpInfo q).eceSupported = true ∧ place = .ece q) ∨
        place = .devs (remMeta.qpInfo q).devIndex := by
  cases supported : (remMeta.qpInfo q).eceSupported <;>
    simp [setupQp, NcclIbConnectionMetadata.readQpInfo, NcclIbConnectionMetadata.readEceSupported,
      NcclIbConnectionMetadata.readEce, NcclIbConnectionMetadata.readDev, supported]

namespace Handshake

variable (h : Handshake)

/-- All ports of the accepting side have the link layer of its first one. -/
def SameLinks : Prop :=
  ∀ i, i < h.acceptor.ndevs →
    (h.acceptor.portAttr i).linkLayer = (h.acceptor.portAttr 0).linkLayer

instance : Decidable h.SameLinks := inferInstanceAs (Decidable (∀ i, i < _ → _ = _))

theorem request_qpInfo {q : Nat} (inside : q < h.connector.numQps) (fits : q < maxQps) :
    (h.request.qpInfo q).qpn = h.connector.qpNum q ∧
      (h.request.qpInfo q).devIndex = h.connector.devIndex q := by
  simp [request, connectMeta, inside, fits]

theorem answer_qpInfo {q : Nat} (inside : q < h.acceptor.numQps) (fits : q < maxQps) :
    (h.answer.qpInfo q).qpn = h.acceptor.qpNum q ∧
      (h.answer.qpInfo q).devIndex = h.acceptor.devIndex q := by
  simp [answer, accepting, acceptSetup, acceptMeta, inside, fits]

theorem answer_devs {i : Nat} (inside : i < h.acceptor.ndevs) :
    h.answer.devs i = { h.acceptor.devInfo i with
      mtu := min (h.request.devs i).mtu (h.acceptor.portAttr i).activeMtu } := by
  simp [answer, accepting, acceptSetup, acceptMeta, inside, NcclIbConnectionMetadata.readDev]

/-- What the accepting side reads. -/
theorem mem_accepting_reads {place : Place} : place ∈ h.accepting.reads ↔
    (∃ i, i < h.connector.ndevs ∧ place = .devs i) ∨
      (∃ q, q < h.acceptor.numQps ∧ place ∈ (acceptQp h.acceptor h.request q).reads) ∨
      ∃ i, i < h.acceptor.ndevs ∧ place = .devs i := by
  simp [accepting, acceptSetup, NcclIbConnectionMetadata.readDev, request, connectMeta]

/-- The connecting side finds other link layers exactly when there are. -/
theorem linksDiffer_iff :
    linksDiffer h.answer.ndevs (fun i => h.answer.devs i) (h.answer.devs 0) = true ↔
      ¬ h.SameLinks := by
  have first := h.answer_devs h.acceptor.someDev
  have devs : h.answer.ndevs = h.acceptor.ndevs := rfl
  rw [Nat.cast_zero] at first
  simp only [linksDiffer, SameLinks, not_forall, List.any_eq_true, List.mem_range,
    decide_eq_true_eq, devs, first]
  constructor
  · rintro ⟨i, inside, differs⟩
    rw [h.answer_devs inside] at differs
    exact ⟨i, inside, differs⟩
  · rintro ⟨i, inside, differs⟩
    refine ⟨i, inside, ?_⟩
    rw [h.answer_devs inside]
    exact differs

/-- The send comm, when the link layers are the same. -/
def sendComm : Connected :=
  { nqps := h.connector.nqps
    qps := fun q => (connectQp h.connector h.answer q).value
    nRemDevs := h.acceptor.ndevs
    remDevs := fun i => h.answer.devs i
    remFifoAddr := h.acceptor.fifoAddr
    peerRank := h.acceptor.rank }

theorem connecting_value :
    h.connecting.value = if h.SameLinks then some h.sendComm else none := by
  have differing := h.linksDiffer_iff
  unfold connecting connectSetup
  simp only [Traced.value_bind]
  split
  next differ =>
    rw [if_neg (differing.mp differ)]
    rfl
  next same =>
    rw [if_pos (not_not.mp ((not_congr differing).mp same))]
    rfl

/-- A comm was returned only with the link layers the same. -/
theorem of_connected {send : Connected} (connected : h.connecting.value = some send) :
    h.SameLinks ∧ send = h.sendComm := by
  rw [h.connecting_value] at connected
  split at connected
  next same => exact ⟨same, (Option.some.inj connected).symm⟩
  next => simp at connected

/-- What the connecting side reads when it gets a comm. -/
theorem mem_connecting_reads (same : h.SameLinks) {place : Place} :
    place ∈ h.connecting.reads ↔ (∃ i : Nat, i < h.acceptor.ndevs ∧ place = .devs i) ∨
      ∃ q, q < h.connector.numQps ∧ place ∈ (connectQp h.connector h.answer q).reads := by
  have differing := h.linksDiffer_iff
  have devs : h.answer.ndevs = h.acceptor.ndevs := rfl
  unfold connecting connectSetup
  simp only [Traced.reads_bind, List.mem_append, Traced.mem_reads_loop,
    NcclIbConnectionMetadata.readDev, Traced.reads_read, List.mem_singleton, devs]
  split
  next differ => exact absurd same (differing.mp differ)
  next _ =>
    simp only [Traced.reads_bind, Traced.reads_pure, List.append_nil, Traced.mem_reads_loop]
    constructor
    · rintro (rfl | found | found)
      · exact Or.inl ⟨0, h.acceptor.someDev, rfl⟩
      · exact Or.inl found
      · exact Or.inr found
    · rintro (found | found)
      · exact Or.inr (Or.inl found)
      · exact Or.inr (Or.inr found)

/-- The places a side reads in the array of queue pairs and in the array of devices. -/
theorem qpInfo_mem_accepting_reads {q : Nat} :
    Place.qpInfo q ∈ h.accepting.reads ↔ q < h.acceptor.numQps := by
  simp [h.mem_accepting_reads, acceptQp, mem_setupQp_reads]

theorem devs_mem_accepting_reads {i : Int} :
    Place.devs i ∈ h.accepting.reads ↔ (∃ j : Nat, j < h.connector.ndevs ∧ i = j) ∨
      (∃ q, q < h.acceptor.numQps ∧ i = (h.request.qpInfo q).devIndex) ∨
      ∃ j : Nat, j < h.acceptor.ndevs ∧ i = j := by
  simp [h.mem_accepting_reads, acceptQp, mem_setupQp_reads]

theorem qpInfo_mem_connecting_reads (same : h.SameLinks) {q : Nat} :
    Place.qpInfo q ∈ h.connecting.reads ↔ q < h.connector.numQps := by
  simp [h.mem_connecting_reads same, connectQp, mem_setupQp_reads]

theorem devs_mem_connecting_reads (same : h.SameLinks) {i : Int} :
    Place.devs i ∈ h.connecting.reads ↔ (∃ j : Nat, j < h.acceptor.ndevs ∧ i = j) ∨
      ∃ q, q < h.connector.numQps ∧ i = (h.answer.qpInfo q).devIndex := by
  simp [h.mem_connecting_reads same, connectQp, mem_setupQp_reads]

/-- Each side writes the entries of its own queue pairs and devices. -/
theorem request_filled_qpInfo {q : Nat} :
    h.request.filled (.qpInfo q) = true ↔ q < h.connector.numQps ∧ q < maxQps := by
  simp [request, connectMeta]

theorem request_filled_devs {i : Int} :
    h.request.filled (.devs i) = true ↔ 0 ≤ i ∧ i < h.connector.ndevs := by
  simp [request, connectMeta]

theorem answer_filled_qpInfo {q : Nat} :
    h.answer.filled (.qpInfo q) = true ↔ q < h.acceptor.numQps ∧ q < maxQps := by
  simp [answer, accepting, acceptSetup, acceptMeta]

theorem answer_filled_devs {i : Int} :
    h.answer.filled (.devs i) = true ↔ 0 ≤ i ∧ i < h.acceptor.ndevs := by
  simp [answer, accepting, acceptSetup, acceptMeta]

/-! ## Pairing -/

/-- The entries of the arrays that were read had been written. -/
def EntriesFilled (reads : List Place) (info : NcclIbConnectionMetadata) : Prop :=
  (∀ q, Place.qpInfo q ∈ reads → info.filled (.qpInfo q) = true) ∧
    ∀ i, Place.devs i ∈ reads → info.filled (.devs i) = true

/-- The two comms have the same number of queue pairs, each end of a queue pair was moved
to RTR with the number of the other end and what the other side says of the device it
lives on, and neither side read an entry that the other had not written. -/
structure Paired (send : Connected) : Prop where
  sameCount : send.nqps.toNat = h.recvComm.nqps.toNat
  sendEnd : ∀ q, q < send.nqps.toNat →
    (send.qps q).rtr.destQpNum = (h.recvComm.qps q).qpNum ∧
      (send.qps q).rtr.info = h.answer.devs (h.recvComm.qps q).devIndex
  recvEnd : ∀ q, q < send.nqps.toNat →
    (h.recvComm.qps q).rtr.destQpNum = (send.qps q).qpNum ∧
      (h.recvComm.qps q).rtr.info = h.request.devs (send.qps q).devIndex
  acceptReads : EntriesFilled h.accepting.reads h.request
  connectReads : EntriesFilled h.connecting.reads h.answer

/-- The two sides count the same number of queue pairs, no more than the arrays hold, and
the accepting side has no more devices than the connecting one. -/
def Compatible : Prop :=
  h.connector.numQps = h.acceptor.numQps ∧ h.connector.numQps ≤ maxQps ∧
    h.acceptor.ndevs ≤ h.connector.ndevs

variable {h}

theorem Compatible.acceptReads (compatible : h.Compatible) :
    EntriesFilled h.accepting.reads h.request := by
  obtain ⟨count, fits, devs⟩ := compatible
  constructor
  · intro q member
    rw [qpInfo_mem_accepting_reads] at member
    rw [request_filled_qpInfo]
    omega
  · intro i member
    rw [request_filled_devs]
    rcases h.devs_mem_accepting_reads.mp member with
      ⟨j, inside, rfl⟩ | ⟨q, inside, rfl⟩ | ⟨j, inside, rfl⟩
    · omega
    · have below := h.connector.devIndex_lt q
      rw [(h.request_qpInfo (count ▸ inside) (by omega)).2]
      omega
    · omega

theorem Compatible.connectReads (compatible : h.Compatible) (same : h.SameLinks) :
    EntriesFilled h.connecting.reads h.answer := by
  obtain ⟨count, fits, devs⟩ := compatible
  constructor
  · intro q member
    rw [h.qpInfo_mem_connecting_reads same] at member
    rw [answer_filled_qpInfo]
    omega
  · intro i member
    rw [answer_filled_devs]
    rcases (h.devs_mem_connecting_reads same).mp member with ⟨j, inside, rfl⟩ | ⟨q, inside, rfl⟩
    · omega
    · have below := h.acceptor.devIndex_lt q
      rw [(h.answer_qpInfo (count ▸ inside) (by omega)).2]
      omega

theorem Compatible.paired (compatible : h.Compatible) (same : h.SameLinks) :
    h.Paired h.sendComm := by
  have acceptReads := compatible.acceptReads
  have connectReads := compatible.connectReads same
  obtain ⟨count, fits, devs⟩ := compatible
  have sends (q : Nat) : h.sendComm.qps q = (setupQp h.connector h.answer false q).value := rfl
  have recvs (q : Nat) : h.recvComm.qps q = (setupQp h.acceptor h.request (q = 0) q).value := rfl
  refine ⟨count, ?_, ?_, acceptReads, connectReads⟩
  · intro q inside
    obtain ⟨qpn, dev⟩ := h.answer_qpInfo (count ▸ inside) (Nat.lt_of_lt_of_le inside fits)
    rw [sends, recvs, setupQp_value, setupQp_value]
    exact ⟨qpn, by rw [dev]⟩
  · intro q inside
    obtain ⟨qpn, dev⟩ := h.request_qpInfo inside (Nat.lt_of_lt_of_le inside fits)
    rw [sends, recvs, setupQp_value, setupQp_value]
    exact ⟨qpn, by rw [dev]⟩

theorem Paired.compatible (paired : h.Paired h.sendComm) : h.Compatible := by
  have count : h.connector.numQps = h.acceptor.numQps := paired.sameCount
  refine ⟨count, ?_, ?_⟩
  · by_contra many
    have last := paired.acceptReads.1 maxQps (h.qpInfo_mem_accepting_reads.mpr (by omega))
    rw [request_filled_qpInfo] at last
    omega
  · by_contra more
    have last := paired.acceptReads.2 h.connector.ndevs
      (h.devs_mem_accepting_reads.mpr (Or.inr (Or.inr ⟨_, by omega, rfl⟩)))
    rw [request_filled_devs] at last
    omega

end Handshake

/-- When both sides return comms, their queue pairs are paired exactly when they are
compatible. -/
theorem qp_pairing (h : Handshake) :
    (∀ send, h.connecting.value = some send → h.Paired send) ↔ (h.SameLinks → h.Compatible) := by
  rw [h.connecting_value]
  constructor
  · intro paired same
    exact (paired h.sendComm (if_pos same)).compatible
  · intro compatible send
    by_cases same : h.SameLinks
    · rw [if_pos same, Option.some.injEq]
      rintro rfl
      exact (compatible same).paired same
    · rw [if_neg same]
      exact fun impossible => absurd impossible (by simp)

/-- A side whose ports have the given MTUs, and whose queue pairs support ECE. -/
def Side.sample (ndevs : Nat) (qpsPerConn : Int) (eceEnable : Bool) (mtu : Nat → Nat)
    (someDev : 0 < ndevs) (atMostTwo : ndevs ≤ 2) : Side :=
  { ndevs := ndevs, qpsPerConn := qpsPerConn, eceEnable := eceEnable, isGlobal := false, tc := 0
    fifoTc := 0, sl := 0, rank := 0, portNum := fun _ => 1
    portAttr := fun i => { lid := i, activeMtu := mtu i, linkLayer := .infiniband
                           grhRequired := false, gidTblLen := 1 }
    gidIndex := fun _ => 0, gid := fun _ => (0, 0), fifoAddr := 4096
    fifoRkey := fun i => UInt32.ofNat (100 + i), qpNum := fun q => UInt32.ofNat (200 + q)
    queryEce := fun _ => some ⟨1, 2, 3⟩, setEce := fun _ => true, someDev := someDev
    atMostTwo := atMostTwo }

/-- A stack whose bytes are all ones where a flag is expected. -/
def NcclIbConnectionMetadata.stack : NcclIbConnectionMetadata :=
  { qpInfo := fun _ => ⟨0, ⟨7, 7, 7⟩, true, 0⟩
    devs := fun _ => ⟨0, 0, 0, .infiniband, false, 0, 0, 0⟩
    ndevs := 0, rank := 0, fifoAddr := 0, filled := fun _ => false }

/-- One device with two queue pairs connects to two devices with one each: the accepting
side reads a second device that the other side does not have. -/
theorem qp_pairing_otherDevs : ¬ ∀ (h : Handshake) (send : Connected),
    h.connecting.value = some send → h.Paired send := by
  intro alwaysPaired
  have paired := alwaysPaired
    { connector := .sample 1 2 true (fun _ => 5) (by decide) (by decide)
      acceptor := .sample 2 1 true (fun _ => 5) (by decide) (by decide)
      connectStack := .stack, acceptStack := .stack } _ (by rw [Handshake.connecting_value]; rfl)
  have unwritten := paired.acceptReads.2 1 (by decide)
  exact absurd unwritten (by decide)

/-! ## The path MTU -/

namespace Handshake

variable (h : Handshake)

/-- The least MTU of the two ports that a queue pair connects. -/
def portMtu (q : Nat) : Nat :=
  min (h.connector.portAttr (h.connector.devIndex q)).activeMtu
    (h.acceptor.portAttr (h.acceptor.devIndex q)).activeMtu

/-- Both ends of every queue pair in the arrays were moved to RTR with the least MTU of
its two ports. -/
def MtuAgreed (send : Connected) : Prop :=
  ∀ q, q < h.connector.numQps → q < maxQps →
    (ncclIbRtrQp h.connector (send.qps q).rtr).pathMtu = h.portMtu q ∧
      (ncclIbRtrQp h.acceptor (h.recvComm.qps q).rtr).pathMtu = h.portMtu q

/-- Leaving out the GID leaves the MTU. -/
theorem withoutGid_mtu (info stack : NcclIbDevInfo) : (info.withoutGid stack).mtu = info.mtu := by
  unfold NcclIbDevInfo.withoutGid
  split <;> rfl

/-- The connecting side tells the MTUs of its ports. -/
theorem request_mtu {i : Nat} (inside : i < h.connector.ndevs) :
    (h.request.devs i).mtu = (h.connector.portAttr i).activeMtu := by
  have written : h.request.devs i =
      (h.connector.devInfo i).withoutGid (h.connectStack.devs i) := by
    simp [request, connectMeta, inside]
  rw [written, withoutGid_mtu]
  rfl

/-- The accepting side goes by the MTU of the other port alone. -/
theorem recvComm_mtu {q : Nat} (inside : q < h.connector.numQps) (fits : q < maxQps) :
    (ncclIbRtrQp h.acceptor (h.recvComm.qps q).rtr).pathMtu =
      (h.connector.portAttr (h.connector.devIndex q)).activeMtu := by
  have recv : h.recvComm.qps q = (setupQp h.acceptor h.request (q = 0) q).value := rfl
  rw [recv, setupQp_value]
  simp only [ncclIbRtrQp, (h.request_qpInfo inside fits).2]
  exact h.request_mtu (h.connector.devIndex_lt q)

/-- The connecting side goes by the adjusted MTU. -/
theorem sendComm_mtu {q : Nat} (sameDevs : h.connector.ndevs = h.acceptor.ndevs)
    (inside : q < h.acceptor.numQps) (fits : q < maxQps) :
    (ncclIbRtrQp h.connector (h.sendComm.qps q).rtr).pathMtu = h.portMtu q := by
  have send : h.sendComm.qps q = (setupQp h.connector h.answer false q).value := rfl
  have device := h.acceptor.devIndex_lt q
  have sameIndex : h.acceptor.devIndex q = h.connector.devIndex q := by
    rw [Side.devIndex_eq, Side.devIndex_eq, sameDevs]
  rw [send, setupQp_value]
  simp only [ncclIbRtrQp, (h.answer_qpInfo inside fits).2]
  rw [h.answer_devs device, h.request_mtu (by omega), sameIndex, portMtu, sameIndex]

end Handshake

/-- With the same number of devices and queue pairs on both sides, the two ends of the
queue pairs agree on the least MTU exactly when no port of the connecting side has a
larger MTU than the port it is connected to. -/
theorem path_mtu (h : Handshake) (sameDevs : h.connector.ndevs = h.acceptor.ndevs)
    (sameQps : h.connector.numQps = h.acceptor.numQps) (send : Connected)
    (connected : h.connecting.value = some send) :
    h.MtuAgreed send ↔ ∀ q, q < h.connector.numQps → q < maxQps →
      (h.connector.portAttr (h.connector.devIndex q)).activeMtu ≤
        (h.acceptor.portAttr (h.acceptor.devIndex q)).activeMtu := by
  obtain ⟨_, rfl⟩ := h.of_connected connected
  constructor
  · intro agreed q inside fits
    have recvEnd := (agreed q inside fits).2
    rw [h.recvComm_mtu inside fits] at recvEnd
    exact min_eq_left_iff.mp recvEnd.symm
  · intro smaller q inside fits
    refine ⟨h.sendComm_mtu sameDevs (sameQps ▸ inside) fits, ?_⟩
    rw [h.recvComm_mtu inside fits]
    exact (Nat.min_eq_left (smaller q inside fits)).symm

/-- Ports of MTU 1024 and 4096 connect to ports of MTU 4096. -/
theorem path_mtu_growing :
    let h : Handshake :=
      { connector := .sample 2 1 true (fun i => 3 + 2 * i) (by decide) (by decide)
        acceptor := .sample 2 1 true (fun _ => 5) (by decide) (by decide)
        connectStack := .stack, acceptStack := .stack }
    h.MtuAgreed h.sendComm := by
  intro h
  refine (path_mtu h rfl rfl h.sendComm (by rw [Handshake.connecting_value]; rfl)).mpr ?_
  intro q inside _
  have few : h.connector.numQps = 2 := by decide
  rw [few] at inside
  rcases Nat.lt_succ_iff_lt_or_eq.mp inside with first | rfl
  · rw [Nat.lt_one_iff.mp first]
    decide
  · decide

/-- A port of MTU 4096 connects to a port of MTU 1024: the ends disagree. -/
theorem path_mtu_shrinking : ¬ ∀ (h : Handshake),
    h.connector.ndevs = h.acceptor.ndevs → h.connector.numQps = h.acceptor.numQps →
    ∀ send, h.connecting.value = some send → h.MtuAgreed send := by
  intro alwaysAgreed
  have agreed := alwaysAgreed
    { connector := .sample 1 1 true (fun _ => 5) (by decide) (by decide)
      acceptor := .sample 1 1 true (fun _ => 3) (by decide) (by decide)
      connectStack := .stack, acceptStack := .stack } rfl rfl _
    (by rw [Handshake.connecting_value]; rfl) 0 (by decide) (by decide)
  exact absurd agreed.2 (by decide)

/-! ## ECE -/

namespace Handshake

variable (h : Handshake)

/-- The connecting side advertised support for ECE on a queue pair. -/
def Advertised (q : Nat) : Prop := (h.request.qpInfo q).eceSupported = true

instance (q : Nat) : Decidable (h.Advertised q) := inferInstanceAs (Decidable (_ = _))

/-- The connecting side sets ECE on a queue pair exactly when it advertised support for it
and the other side's set and query reported support, with the options queried; and the
fields it reads for that had been written. -/
structure EceNegotiated (send : Connected) : Prop where
  applied : ∀ q, q < h.connector.numQps → (send.qps q).ece =
    if h.Advertised q ∧ h.acceptor.setEce q = true then h.acceptor.queryEce q else none
  flags : ∀ q, Place.eceSupported q ∈ h.connecting.reads →
    h.answer.filled (.eceSupported q) = true
  options : ∀ q, Place.ece q ∈ h.connecting.reads → h.answer.filled (.ece q) = true

/-- The accepting side sets ECE where support was advertised. -/
theorem recvComm_ece (q : Nat) : (h.recvComm.qps q).ece =
    if h.Advertised q then some (h.request.qpInfo q).ece else none := by
  have recv : h.recvComm.qps q = (setupQp h.acceptor h.request (q = 0) q).value := rfl
  rw [recv, setupQp_value]
  rfl

theorem answer_eq : h.answer = acceptMeta h.acceptor h.acceptStack h.recvComm.qps
    fun i => (h.request.devs i).mtu := rfl

/-- The accepting side writes the support flag only where support was advertised. -/
theorem answer_filled_eceSupported {q : Nat} :
    h.answer.filled (.eceSupported q) = true ↔
      q < h.acceptor.numQps ∧ q < maxQps ∧ h.Advertised q := by
  by_cases advertised : h.Advertised q <;>
    simp [answer_eq, acceptMeta, recvComm_ece, advertised]

/-- It writes the options only where setting and querying them is supported, too. -/
theorem answer_filled_ece {q : Nat} : h.answer.filled (.ece q) = true ↔
    q < h.acceptor.numQps ∧ q < maxQps ∧ h.Advertised q ∧ h.acceptor.setEce q = true ∧
      (h.acceptor.queryEce q).isSome = true := by
  by_cases advertised : h.Advertised q <;>
    simp [answer_eq, acceptMeta, recvComm_ece, advertised]

/-- What the accepting side answers where support was advertised. -/
theorem answer_ece {q : Nat} (inside : q < h.acceptor.numQps) (fits : q < maxQps)
    (advertised : h.Advertised q) :
    (h.answer.qpInfo q).eceSupported =
        (h.acceptor.setEce q && (h.acceptor.queryEce q).isSome) ∧
      ∀ options, h.acceptor.setEce q = true → h.acceptor.queryEce q = some options →
        (h.answer.qpInfo q).ece = options := by
  have requested : (h.recvComm.qps q).ece = some (h.request.qpInfo q).ece := by
    rw [h.recvComm_ece q, if_pos advertised]
  cases supported : h.acceptor.setEce q <;>
    simp [answer_eq, acceptMeta, answerEce, inside, fits, requested, supported]
  intro options isOptions
  rw [isOptions]
  rfl

theorem eceSupported_mem_connecting_reads (same : h.SameLinks) {q : Nat} :
    Place.eceSupported q ∈ h.connecting.reads ↔ q < h.connector.numQps := by
  simp [h.mem_connecting_reads same, connectQp, mem_setupQp_reads]

theorem ece_mem_connecting_reads (same : h.SameLinks) {q : Nat} :
    Place.ece q ∈ h.connecting.reads ↔
      q < h.connector.numQps ∧ (h.answer.qpInfo q).eceSupported = true := by
  simp [h.mem_connecting_reads same, connectQp, mem_setupQp_reads]

/-- The options the connecting side sets are those of the answer. -/
theorem sendComm_ece (q : Nat) : (h.sendComm.qps q).ece =
    if (h.answer.qpInfo q).eceSupported then some (h.answer.qpInfo q).ece else none := by
  have send : h.sendComm.qps q = (setupQp h.connector h.answer false q).value := rfl
  rw [send, setupQp_value]

end Handshake

/-- ECE is negotiated as it should exactly when the connecting side advertised support on
every one of its queue pairs, and the other side has them all. -/
theorem ece_negotiation (h : Handshake) (send : Connected)
    (connected : h.connecting.value = some send) :
    h.EceNegotiated send ↔ ∀ q, q < h.connector.numQps →
      q < h.acceptor.numQps ∧ q < maxQps ∧ h.Advertised q := by
  obtain ⟨same, rfl⟩ := h.of_connected connected
  constructor
  · intro negotiated q inside
    exact h.answer_filled_eceSupported.mp
      (negotiated.flags q ((h.eceSupported_mem_connecting_reads same).mpr inside))
  · intro advertised
    constructor
    · intro q inside
      obtain ⟨others, fits, offered⟩ := advertised q inside
      obtain ⟨flag, options⟩ := h.answer_ece others fits offered
      rw [h.sendComm_ece q, flag]
      cases supported : h.acceptor.setEce q with
      | false => simp
      | true =>
        cases queried : h.acceptor.queryEce q with
        | none => simp
        | some found => simp [offered, options found supported queried]
    · intro q member
      exact h.answer_filled_eceSupported.mpr
        (advertised q ((h.eceSupported_mem_connecting_reads same).mp member))
    · intro q member
      obtain ⟨inside, supported⟩ := (h.ece_mem_connecting_reads same).mp member
      obtain ⟨others, fits, offered⟩ := advertised q inside
      rw [(h.answer_ece others fits offered).1, Bool.and_eq_true] at supported
      exact h.answer_filled_ece.mpr ⟨others, fits, offered, supported⟩

/-- Both sides support ECE on their two queue pairs. -/
theorem ece_negotiation_supported :
    let h : Handshake :=
      { connector := .sample 1 2 true (fun _ => 5) (by decide) (by decide)
        acceptor := .sample 1 2 true (fun _ => 5) (by decide) (by decide)
        connectStack := .stack, acceptStack := .stack }
    h.EceNegotiated h.sendComm := by
  intro h
  refine (ece_negotiation h h.sendComm (by rw [Handshake.connecting_value]; rfl)).mpr ?_
  intro q inside
  have few : h.connector.numQps = 2 := by decide
  rw [few] at inside
  rcases Nat.lt_succ_iff_lt_or_eq.mp inside with first | rfl
  · rw [Nat.lt_one_iff.mp first]
    decide
  · decide

/-- The connecting side has ECE disabled, and the other side's stack holds a set flag: the
connecting side sets ECE with options nobody queried. -/
theorem ece_negotiation_disabled : ¬ ∀ (h : Handshake) (send : Connected),
    h.connecting.value = some send → h.EceNegotiated send := by
  intro alwaysNegotiated
  have negotiated := alwaysNegotiated
    { connector := .sample 1 1 false (fun _ => 5) (by decide) (by decide)
      acceptor := .sample 1 1 true (fun _ => 5) (by decide) (by decide)
      connectStack := .stack, acceptStack := .stack } _
    (by rw [Handshake.connecting_value]; rfl)
  exact absurd (negotiated.applied 0 (by decide)) (by decide)

end NcclExts.Unet
