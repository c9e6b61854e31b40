import NcclExts.Unet.ConnectAccept

/-!
# What an attempt does to the process

Once its socket is ready, all that an attempt does to the process is to acquire: it takes
references to protection domains, creates completion queues and queue pairs, and registers
memory. It gives nothing back. So whatever acquiring keeps holds however a call goes out,
and the rules below carry it through the labels of both functions.
-/

namespace NcclExts.Unet

open NcclExts.Foundation

/-- The points that leave nothing behind: they come before a descriptor is open, or after
it was closed again. -/
def Point.harmless : Point → Bool
  | .mallocComm | .socketFamily | .socket | .fcntl | .listenState | .accept | .wrongType => true
  | _ => false

/-- What one step can add to the process for the comm at an address. -/
inductive Process.Acquired (address : Nat) (before : Process) : Process → Prop
  | refs (ibDevN : Fin 32) (dev : NcclIbDev)
      (same : dev.mrCache = (before.ibDevs ibDevN).mrCache) :
      Acquired address before { before with ibDevs := Function.update before.ibDevs ibDevN dev }
  | cq (handle : Nat) : Acquired address before (before.addCq ⟨handle, address⟩)
  | qp (handle : Nat) : Acquired address before (before.addQp ⟨handle, address⟩)
  | mr (handle : Nat) : Acquired address before { before with mrs := handle :: before.mrs }

/-- The invariant does not look at what transfers and the like write to the comm, and the
exits they leave with are allowed. -/
structure Steady (holds : Attempt → Prop) (allowed : Exit → Prop) : Prop where
  comm : ∀ {attempt : Attempt} {comm : SetupComm}, holds attempt →
    comm.address = attempt.comm.address → comm.sock.fd = attempt.comm.sock.fd →
      comm.sock.state = attempt.comm.sock.state → holds { attempt with comm := comm }
  waiting : ∀ point, allowed (.waiting point)
  failed : ∀ point result, point.harmless = false → allowed (.failed point result)

/-- The invariant is kept by acquiring too, and by a stage that goes on; a stage that has
gone on does not go back. -/
structure Closed (holds : Attempt → Prop) (allowed : Exit → Prop) : Prop
    extends Steady holds allowed where
  stage : ∀ {attempt : Attempt} {stage : NcclIbCommStage}, holds attempt →
    stage.state ≠ .start ∧ stage.state ≠ .accept ∨ stage.state = attempt.stage.state →
      holds { attempt with stage := stage }
  process : ∀ {attempt : Attempt} {process : Process}, holds attempt →
    attempt.process.Acquired attempt.comm.address process →
      holds { attempt with process := process }
  again : allowed .again
  bailed : ∀ result, allowed (.bailed .linkLayer result)

/-- The invariant allows the states that a socket goes through when it connects. -/
structure Connecting (holds : Attempt → Prop) (allowed : Exit → Prop) : Prop
    extends Steady holds allowed where
  sock : ∀ {attempt : Attempt} {sock : NcclSocket}, holds attempt →
    sock.fd = attempt.comm.sock.fd → sock.state ≠ .accepting ∧ sock.state ≠ .accepted →
      holds { attempt with comm.sock := sock }

namespace Steady

open Setup

variable {holds : Attempt → Prop} {allowed : Exit → Prop}

theorem demand (steady : Steady holds allowed) (answers : Answers) {point : Point}
    (result : NcclResult) (late : point.harmless = false) :
    Keeps holds allowed (Setup.demand answers point result) := by
  unfold Setup.demand
  split
  · exact Keeps.pure _
  · exact Keeps.throw (steady.failed point result late)

/-- A change of the comm that leaves its address and the state of its socket. -/
theorem modifyComm (steady : Steady holds allowed) {change : Attempt → Attempt}
    (only : ∀ attempt, change attempt = { attempt with comm := (change attempt).comm })
    (address : ∀ attempt, (change attempt).comm.address = attempt.comm.address)
    (fd : ∀ attempt, (change attempt).comm.sock.fd = attempt.comm.sock.fd)
    (state : ∀ attempt, (change attempt).comm.sock.state = attempt.comm.sock.state) :
    Keeps holds allowed (modify change : Setup PUnit) := by
  apply Keeps.modify
  intro attempt held
  rw [only attempt]
  exact steady.comm held (address attempt) (fd attempt) (state attempt)

/-! ## Transfers -/

theorem sendSome (steady : Steady holds allowed) {point : Point} (bytes : List UInt8)
    (answers : List SendAnswer) (late : point.harmless = false) :
    Keeps holds allowed (Setup.sendSome point bytes answers) := by
  unfold Setup.sendSome
  apply Keeps.bind
  · exact steady.modifyComm (fun _ => rfl) (fun _ => rfl) (fun _ => rfl) (fun _ => rfl)
  · intro _
    exact Keeps.ite (fun _ => Keeps.pure _)
      (fun _ => Keeps.throw (steady.failed point .ncclRemoteError late))

theorem sendAll (steady : Steady holds allowed) {point : Point} (bytes : List UInt8)
    (answers : List SendAnswer) (late : point.harmless = false) :
    Keeps holds allowed (Setup.sendAll point bytes answers) := by
  unfold Setup.sendAll
  split
  · exact Keeps.throw (steady.waiting point)
  · apply Keeps.bind
    · exact steady.modifyComm (fun _ => rfl) (fun _ => rfl) (fun _ => rfl) (fun _ => rfl)
    · intro _
      exact Keeps.ite (fun _ => Keeps.pure _)
        (fun _ => Keeps.throw (steady.failed point .ncclRemoteError late))

theorem recvSome (steady : Steady holds allowed) {point : Point} (wanted : Nat)
    (answers : List RecvAnswer) (late : point.harmless = false) :
    Keeps holds allowed (Setup.recvSome point wanted answers) := by
  unfold Setup.recvSome
  apply Keeps.bind
  · exact steady.modifyComm (fun _ => rfl) (fun _ => rfl) (fun _ => rfl) (fun _ => rfl)
  · intro _
    exact Keeps.ite (fun _ => Keeps.pure _)
      (fun _ => Keeps.throw (steady.failed point .ncclRemoteError late))

theorem recvAll (steady : Steady holds allowed) {point : Point} (wanted : Nat)
    (answers : List RecvAnswer) (late : point.harmless = false) :
    Keeps holds allowed (Setup.recvAll point wanted answers) := by
  unfold Setup.recvAll
  split
  · exact Keeps.throw (steady.waiting point)
  · apply Keeps.bind
    · exact steady.modifyComm (fun _ => rfl) (fun _ => rfl) (fun _ => rfl) (fun _ => rfl)
    · intro _
      exact Keeps.ite (fun _ => Keeps.pure _)
        (fun _ => Keeps.throw (steady.failed point .ncclRemoteError late))

end Steady

namespace Connecting

open Setup

variable {holds : Attempt → Prop} {allowed : Exit → Prop}

/-! ## The socket of a side that connects -/

theorem setState (connecting : Connecting holds allowed) {state : NcclSocketState}
    (outgoing : state ≠ .accepting ∧ state ≠ .accepted) :
    Keeps holds allowed (Setup.setState state) :=
  Keeps.modify fun _ held => connecting.sock held rfl outgoing

/-- A change to a state, and then an error. -/
theorem setState_throw (connecting : Connecting holds allowed) {point : Point}
    (result : NcclResult) (late : point.harmless = false) :
    Keeps holds allowed (do
      Setup.setState .error
      throw (.failed point result) : Setup PUnit) := by
  apply Keeps.bind
  · exact connecting.setState (by decide)
  · intro _
    exact Keeps.throw (connecting.failed point result late)

theorem retryRefused (connecting : Connecting holds allowed) {point : Point}
    (late : point.harmless = false) : Keeps holds allowed (Setup.retryRefused point) := by
  unfold Setup.retryRefused
  apply Keeps.bind
  · exact connecting.modifyComm (fun _ => rfl) (fun _ => rfl) (fun _ => rfl) (fun _ => rfl)
  · intro _
    apply Keeps.read
    intro attempt _
    exact Keeps.doIf fun _ => connecting.setState_throw _ late

theorem retryTimedout (connecting : Connecting holds allowed) {point : Point}
    (late : point.harmless = false) : Keeps holds allowed (Setup.retryTimedout point) := by
  unfold Setup.retryTimedout
  apply Keeps.bind
  · exact connecting.modifyComm (fun _ => rfl) (fun _ => rfl) (fun _ => rfl) (fun _ => rfl)
  · intro _
    apply Keeps.read
    intro attempt _
    exact Keeps.doIf fun _ => connecting.setState_throw _ late

theorem socketStartConnect (connecting : Connecting holds allowed) (answer : ConnectAnswer) :
    Keeps holds allowed (Setup.socketStartConnect answer) := by
  cases answer with
  | connected => exact connecting.setState (by decide)
  | inProgress => exact connecting.setState (by decide)
  | refused => exact connecting.retryRefused rfl
  | timedOut => exact connecting.retryTimedout rfl
  | failed => exact connecting.setState_throw _ rfl

theorem socketPollConnect (connecting : Connecting holds allowed) (answer : PollAnswer) :
    Keeps holds allowed (Setup.socketPollConnect answer) := by
  cases answer with
  | notYet => exact Keeps.pure _
  | failed => exact Keeps.throw (connecting.failed _ _ rfl)
  | otherEvents => exact Keeps.throw (connecting.failed _ _ rfl)
  | getsockoptFailed => exact Keeps.throw (connecting.failed _ _ rfl)
  | pending error =>
    cases error with
    | connected => exact connecting.setState (by decide)
    | inProgress => exact Keeps.pure _
    | refused =>
      apply Keeps.bind
      · exact connecting.retryRefused rfl
      · intro _
        exact connecting.setState (by decide)
    | timedOut =>
      apply Keeps.bind
      · exact connecting.retryTimedout rfl
      · intro _
        exact connecting.setState (by decide)
    | failed => exact connecting.setState_throw _ rfl

theorem socketFinalizeConnect (connecting : Connecting holds allowed)
    (answers : SocketAnswers) : Keeps holds allowed (Setup.socketFinalizeConnect answers) := by
  unfold Setup.socketFinalizeConnect
  apply Keeps.read
  intro attempt _
  apply Keeps.bind
  · exact connecting.sendSome _ _ rfl
  intro count
  apply Keeps.doIf
  intro _
  apply Keeps.bind
  · exact connecting.sendAll _ _ rfl
  intro _
  apply Keeps.read
  intro attempt _
  apply Keeps.bind
  · exact connecting.sendAll _ _ rfl
  intro _
  exact connecting.setState (by decide)

end Connecting

namespace Setup

variable {holds : Attempt → Prop} {allowed : Exit → Prop}

/-- A part of the socket state machine runs in its state only. -/
theorem whenState_keeps {state : NcclSocketState} {part : Setup PUnit}
    (kept : Keeps holds allowed part) : Keeps holds allowed (whenState state part) :=
  Keeps.read fun _ _ => Keeps.doIf fun _ => kept

/-- In another state it does nothing. -/
theorem whenState_skips {state : NcclSocketState} (part : Setup PUnit)
    (other : ∀ attempt, holds attempt → attempt.comm.sock.state ≠ state) :
    Keeps holds allowed (whenState state part) :=
  Keeps.read fun attempt held => Keeps.doIf fun same => absurd same (other attempt held)

/-- The socket state machine keeps what its parts keep. -/
theorem socketProgressState_keeps {answers : SocketAnswers}
    (accepting : Keeps holds allowed
      (whenState .accepting (socketTryAccept answers.accept)))
    (accepted : Keeps holds allowed (whenState .accepted (socketFinalizeAccept answers)))
    (connecting : Connecting holds allowed) :
    Keeps holds allowed (socketProgressState answers) := by
  unfold socketProgressState
  apply Keeps.bind
  · exact accepting
  intro _
  apply Keeps.bind
  · exact accepted
  intro _
  apply Keeps.bind
  · exact whenState_keeps (connecting.socketStartConnect _)
  intro _
  apply Keeps.bind
  · exact whenState_keeps (connecting.socketPollConnect _)
  intro _
  exact whenState_keeps (connecting.socketFinalizeConnect answers)

theorem ncclSocketReady_keeps {answers : Answers} (steady : Steady holds allowed)
    (progress : Keeps holds allowed (socketProgressState (answers.socket .asking))) :
    Keeps holds allowed (ncclSocketReady answers) := by
  unfold ncclSocketReady
  apply Keeps.read
  intro attempt _
  apply Keeps.bind
  · exact Keeps.leaveIf fun _ => steady.failed _ _ rfl
  intro _
  apply Keeps.bind
  · exact Keeps.doIf fun _ => progress
  intro _
  exact Keeps.read fun _ _ => Keeps.pure _

theorem checkState_keeps (states : List NcclSocketState) (steady : Steady holds allowed) :
    Keeps holds allowed (checkState states) := by
  unfold checkState
  apply Keeps.read
  intro attempt _
  exact Keeps.leaveIf fun _ => steady.failed _ _ rfl

theorem ncclSocketConnect_keeps {answers : Answers} (connecting : Connecting holds allowed)
    (progress : Keeps holds allowed (socketProgressState (answers.socket .starting))) :
    Keeps holds allowed (ncclSocketConnect answers) := by
  unfold ncclSocketConnect
  apply Keeps.bind
  · exact connecting.demand answers _ rfl
  intro _
  apply Keeps.bind
  · exact connecting.setState (by decide)
  intro _
  apply Keeps.bind
  · exact progress
  intro _
  exact checkState_keeps _ connecting.toSteady

end Setup

namespace Closed

open Setup

variable {holds : Attempt → Prop} {allowed : Exit → Prop}

/-! ## Transfers from the stage -/

theorem setStage (closed : Closed holds allowed) {change : NcclIbCommStage → NcclIbCommStage}
    (onward : ∀ stage, (change stage).state ≠ .start ∧ (change stage).state ≠ .accept ∨
      (change stage).state = stage.state) :
    Keeps holds allowed (Setup.setStage change) :=
  Keeps.modify fun _ held => closed.stage held (onward _)

theorem progressSend (closed : Closed holds allowed) {point : Point} (bytes : List UInt8)
    (answers : List SendAnswer) (late : point.harmless = false) :
    Keeps holds allowed (Setup.progressSend point bytes answers) := by
  unfold Setup.progressSend
  apply Keeps.read
  intro attempt _
  apply Keeps.bind
  · exact closed.sendSome _ answers late
  · intro count
    apply Keeps.bind
    · exact Keeps.modify fun _ held => closed.stage held (Or.inr rfl)
    · intro _
      exact Keeps.leaveIf fun _ => closed.again

theorem progressRecv (closed : Closed holds allowed) {point : Point} (size : Nat)
    (answers : List RecvAnswer) {store : Nat → List UInt8 → Attempt → Attempt}
    (late : point.harmless = false)
    (stored : ∀ offset data attempt, holds attempt → holds (store offset data attempt)) :
    Keeps holds allowed (Setup.progressRecv point size answers store) := by
  unfold Setup.progressRecv
  apply Keeps.read
  intro attempt _
  apply Keeps.bind
  · exact closed.recvSome _ answers late
  · intro data
    apply Keeps.bind
    · exact Keeps.modify fun now held => closed.stage (stored _ data now held) (Or.inr rfl)
    · intro _
      exact Keeps.leaveIf fun _ => closed.again

theorem storeBuffer (closed : Closed holds allowed) (offset : Nat) (data : List UInt8)
    (attempt : Attempt) (held : holds attempt) : holds (Setup.storeBuffer offset data attempt) :=
  closed.stage held (Or.inr rfl)

theorem storeReady (closed : Closed holds allowed) (offset : Nat) (data : List UInt8)
    (attempt : Attempt) (held : holds attempt) : holds (Setup.storeReady offset data attempt) :=
  closed.comm held rfl rfl rfl

/-! ## Verbs objects -/

theorem ncclIbInitCommDevBase (closed : Closed holds allowed) (answers : Answers)
    (ibDevN : Fin 32) (i : Nat) :
    Keeps holds allowed (Setup.ncclIbInitCommDevBase answers ibDevN i) := by
  unfold Setup.ncclIbInitCommDevBase
  apply Keeps.read
  intro attempt held
  set outcome := Unet.ncclIbInitCommDevBase (attempt.process.ibDevs ibDevN)
    (answers.outcome (.allocPd i)) (answers.outcome (.createCq i)) with outcomeIs
  have cache : outcome.dev.mrCache = (attempt.process.ibDevs ibDevN).mrCache := by
    simp only [outcomeIs, Unet.ncclIbInitCommDevBase]
    split_ifs <;> rfl
  have referenced := closed.process held (.refs ibDevN outcome.dev cache)
  have after : holds (initialized attempt ibDevN i outcome) := by
    unfold initialized
    split
    next cq _ _ => exact closed.comm (closed.process referenced (.cq cq)) rfl rfl rfl
    next => exact closed.comm referenced rfl rfl rfl
  apply Meets.bind fun _ => holds
  · exact Meets.set fun _ _ => after
  · intro _
    apply Keeps.leaveIf
    intro _
    apply closed.failed
    split <;> rfl

theorem moveQp (closed : Closed holds allowed) (slot : QpSlot) (state : IbvQpState) :
    Keeps holds allowed (Setup.moveQp slot state) :=
  closed.modifyComm (fun _ => rfl) (fun _ => rfl) (fun _ => rfl) (fun _ => rfl)

theorem ncclIbCreateQp (closed : Closed holds allowed) (answers : Answers) (slot : QpSlot) :
    Keeps holds allowed (Setup.ncclIbCreateQp answers slot) := by
  unfold Setup.ncclIbCreateQp
  apply Keeps.bind
  · exact closed.demand answers _ rfl
  · intro qp
    apply Keeps.bind
    · apply Keeps.modify
      intro attempt held
      exact closed.comm (closed.process held (.qp qp)) rfl rfl rfl
    · intro _
      apply Keeps.bind
      · exact closed.demand answers _ rfl
      · intro _
        exact closed.moveQp slot .init

theorem readyQp (closed : Closed holds allowed) (answers : Answers) (slot : QpSlot) :
    Keeps holds allowed (Setup.readyQp answers slot) := by
  unfold Setup.readyQp
  apply Keeps.bind
  · exact closed.demand answers _ rfl
  · intro _
    apply Keeps.bind
    · exact closed.moveQp slot .rtr
    · intro _
      apply Keeps.bind
      · exact closed.demand answers _ rfl
      · intro _
        exact closed.moveQp slot .rts

theorem regMr (closed : Closed holds allowed) (answers : Answers) (slot : MrSlot) :
    Keeps holds allowed (Setup.regMr answers slot) := by
  unfold Setup.regMr
  apply Keeps.bind
  · exact closed.demand answers _ rfl
  · intro mr
    apply Keeps.modify
    intro attempt held
    exact closed.comm (closed.process held (.mr mr)) rfl rfl rfl

theorem findGid (closed : Closed holds allowed) (answers : Answers) (i : Nat) :
    Keeps holds allowed (Setup.findGid answers i) := by
  unfold Setup.findGid
  apply Keeps.bind
  · exact closed.demand answers _ rfl
  · intro _
    apply Keeps.bind
    · exact closed.demand answers _ rfl
    · exact fun _ => Keeps.pure _

/-- A call that only has to succeed. -/
theorem request (closed : Closed holds allowed) (answers : Answers) {point : Point}
    (result : NcclResult) (late : point.harmless = false) :
    Keeps holds allowed (do let _ ← Setup.demand answers point result) := by
  apply Keeps.bind
  · exact closed.demand answers result late
  · exact fun _ => Keeps.pure _

theorem copyMeta (closed : Closed holds allowed) (config : Config) :
    Keeps holds allowed (Setup.copyMeta config) := by
  unfold Setup.copyMeta
  apply Keeps.read
  intro attempt _
  apply Keeps.bind
  · exact closed.modifyComm (fun _ => rfl) (fun _ => rfl) (fun _ => rfl) (fun _ => rfl)
  · exact fun _ => Keeps.pure _

theorem sizeComm (closed : Closed holds allowed) (config : Config) :
    Keeps holds allowed (Setup.sizeComm config) :=
  closed.modifyComm (fun _ => rfl) (fun _ => rfl) (fun _ => rfl) (fun _ => rfl)

/-! ## The labels of `ncclIbConnect` behind the socket -/

theorem ibSendReady (closed : Closed holds allowed) (answers : Answers) :
    Keeps holds allowed (Setup.ibSendReady answers) := by
  unfold Setup.ibSendReady
  apply Keeps.read
  intro attempt _
  exact closed.progressSend _ _ rfl

theorem connectQps (closed : Closed holds allowed) (config : Config) (answers : Answers)
    (remMeta : NcclIbConnectionMetadata) :
    Keeps holds allowed (Setup.connectQps config answers remMeta) := by
  apply Keeps.forM
  intro q _
  apply Keeps.bind
  · exact Keeps.doIf fun _ => closed.request answers _ rfl
  · intro _
    exact closed.readyQp answers (.data q)

theorem ibConnect (closed : Closed holds allowed) (config : Config) (answers : Answers) :
    Keeps holds allowed (Setup.ibConnect config answers) := by
  unfold Setup.ibConnect
  apply Keeps.bind
  · exact closed.progressRecv _ _ rfl closed.storeBuffer
  intro _
  apply Keeps.bind
  · exact closed.copyMeta config
  intro remMeta
  apply Keeps.bind
  · exact Keeps.leaveIf fun _ => closed.bailed _
  intro _
  apply Keeps.bind
  · exact Keeps.forM fun i _ => closed.regMr answers (.sizes i)
  intro _
  apply Keeps.bind
  · exact closed.connectQps config answers remMeta
  intro _
  apply Keeps.bind
  · exact closed.modifyComm (fun _ => rfl) (fun _ => rfl) (fun _ => rfl) (fun _ => rfl)
  intro _
  apply Keeps.bind
  · exact closed.setStage fun _ => Or.inl (by simp)
  intro _
  exact closed.ibSendReady answers

theorem ibSend (closed : Closed holds allowed) (config : Config) (answers : Answers) :
    Keeps holds allowed (Setup.ibSend config answers) := by
  unfold Setup.ibSend
  apply Keeps.read
  intro attempt _
  apply Keeps.bind
  · exact closed.progressSend _ _ rfl
  intro _
  apply Keeps.bind
  · exact closed.setStage fun _ => Or.inl (by simp)
  intro _
  exact closed.ibConnect config answers

theorem createQps (closed : Closed holds allowed) (config : Config) (answers : Answers) :
    Keeps holds allowed (Setup.createQps config answers) := by
  apply Keeps.forM
  intro q _
  apply Keeps.bind
  · exact closed.ncclIbCreateQp answers (.data q)
  · intro _
    exact Keeps.doIf fun _ => closed.request answers _ rfl

theorem prepareFifos (closed : Closed holds allowed) (config : Config) (answers : Answers) :
    Keeps holds allowed (Setup.prepareFifos config answers) := by
  apply Keeps.forM
  intro i _
  apply Keeps.bind
  · exact closed.regMr answers (.fifo i)
  · intro _
    exact Keeps.doIf fun _ => closed.findGid answers i

theorem ibConnectCheck (closed : Closed holds allowed) (config : Config) (answers : Answers)
    (progress : Keeps holds allowed (socketProgressState (answers.socket .asking))) :
    Keeps holds allowed (Setup.ibConnectCheck config answers) := by
  unfold Setup.ibConnectCheck
  apply Keeps.bind
  · exact ncclSocketReady_keeps closed.toSteady progress
  intro ready
  apply Keeps.bind
  · exact Keeps.leaveIf fun _ => closed.again
  intro _
  apply Keeps.bind
  · exact closed.sizeComm config
  intro _
  apply Keeps.bind
  · exact Keeps.forM fun i _ => closed.ncclIbInitCommDevBase answers _ i
  intro _
  apply Keeps.bind
  · exact closed.createQps config answers
  intro _
  apply Keeps.bind
  · exact closed.prepareFifos config answers
  intro _
  apply Keeps.bind
  · exact closed.setStage fun _ => Or.inl (by simp)
  intro _
  apply Keeps.bind
  · exact closed.demand answers _ rfl
  intro _
  apply Keeps.bind
  · exact closed.setStage fun _ => Or.inr rfl
  intro _
  exact closed.ibSend config answers

/-! ## The labels of `ncclIbAccept` behind the socket -/

theorem ibRecvReady (closed : Closed holds allowed) (answers : Answers) :
    Keeps holds allowed (Setup.ibRecvReady answers) :=
  closed.progressRecv _ _ rfl closed.storeReady

theorem ibReply (closed : Closed holds allowed) (answers : Answers) :
    Keeps holds allowed (Setup.ibReply answers) := by
  unfold Setup.ibReply
  apply Keeps.read
  intro attempt _
  apply Keeps.bind
  · exact closed.progressSend _ _ rfl
  intro _
  apply Keeps.bind
  · exact closed.setStage fun _ => Or.inl (by simp)
  intro _
  exact closed.ibRecvReady answers

theorem acceptQps (closed : Closed holds allowed) (config : Config) (answers : Answers)
    (remMeta : NcclIbConnectionMetadata) :
    Keeps holds allowed (Setup.acceptQps config answers remMeta) := by
  apply Keeps.forM
  intro q _
  apply Keeps.bind
  · exact closed.ncclIbCreateQp answers (.data q)
  intro _
  apply Keeps.bind
  · apply Keeps.doIf
    intro _
    apply Keeps.bind
    · exact closed.demand answers _ rfl
    · intro _
      exact Keeps.doIf fun _ => closed.request answers _ rfl
  intro _
  exact closed.readyQp answers (.data q)

theorem acceptDevs (closed : Closed holds allowed) (config : Config) (answers : Answers) :
    Keeps holds allowed (Setup.acceptDevs config answers) := by
  apply Keeps.forM
  intro i _
  apply Keeps.bind
  · exact closed.regMr answers (.fifo i)
  intro _
  apply Keeps.bind
  · apply Keeps.doIf
    intro _
    apply Keeps.bind
    · exact closed.regMr answers (.flush i)
    intro _
    apply Keeps.bind
    · exact closed.ncclIbCreateQp answers (.flush i)
    intro _
    exact closed.readyQp answers (.flush i)
  intro _
  exact closed.regMr answers (.sizes i)

theorem ibRecv (closed : Closed holds allowed) (config : Config) (answers : Answers) :
    Keeps holds allowed (Setup.ibRecv config answers) := by
  unfold Setup.ibRecv
  apply Keeps.bind
  · exact closed.progressRecv _ _ rfl closed.storeBuffer
  intro _
  apply Keeps.bind
  · exact closed.copyMeta config
  intro remMeta
  apply Keeps.bind
  · exact closed.sizeComm config
  intro _
  apply Keeps.bind
  · apply Keeps.forM
    intro i _
    apply Keeps.bind
    · exact closed.ncclIbInitCommDevBase answers _ i
    · intro _
      exact closed.findGid answers i
  intro _
  apply Keeps.bind
  · exact closed.acceptQps config answers remMeta
  intro _
  apply Keeps.bind
  · exact closed.modifyComm (fun _ => rfl) (fun _ => rfl) (fun _ => rfl) (fun _ => rfl)
  intro _
  apply Keeps.bind
  · exact closed.acceptDevs config answers
  intro _
  apply Keeps.bind
  · exact closed.setStage fun _ => Or.inl (by simp)
  intro _
  apply Keeps.bind
  · exact closed.demand answers _ rfl
  intro _
  apply Keeps.bind
  · exact closed.setStage fun _ => Or.inr rfl
  intro _
  exact closed.ibReply answers

end Closed

end NcclExts.Unet
