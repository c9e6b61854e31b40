import NcclExts.Unet.AttemptRules
import NcclExts.Unet.Pairing

/-!
# What a failed attempt leaves behind

The label that a failed call jumps to frees the comm and nothing else. So an attempt
leaves the process as it was only when it fails while nothing is open: before it has a
descriptor, or where the socket itself closed the descriptor. From the moment on that a
descriptor stays open, every error leaves it open, together with whatever was acquired
for the comm.
-/

namespace NcclExts.Unet

open NcclExts.Foundation

namespace Process

/-- The process is as it was before an attempt, as far as others rely on it, and no object
that the attempt created has a context that points into its comm. -/
structure Restored (before after : Process) (freed : Nat) : Prop where
  pdRefs : ∀ dev, (after.ibDevs dev).pdRefs = (before.ibDevs dev).pdRefs
  cqs : after.cqs.Perm before.cqs
  qps : after.qps.Perm before.qps
  mrs : after.mrs.Perm before.mrs
  fds : after.fds.Perm before.fds
  detached : ∀ object ∈ after.cqs ++ after.qps, object.context = freed →
    object ∈ before.cqs ++ before.qps

/-- Nothing was acquired on a device. -/
structure Untouched (before after : Process) : Prop where
  ibDevs : after.ibDevs = before.ibDevs
  cqs : after.cqs = before.cqs
  qps : after.qps = before.qps
  mrs : after.mrs = before.mrs

/-- A descriptor was opened and is open. -/
def Leaked (before after : Process) : Prop := ∃ fd, after.fds = fd :: before.fds

theorem Untouched.refl (process : Process) : process.Untouched process := ⟨rfl, rfl, rfl, rfl⟩

theorem Untouched.restored {before after : Process} (untouched : before.Untouched after)
    (fds : after.fds = before.fds) (freed : Nat) : before.Restored after freed := by
  constructor
  · intro dev
    rw [untouched.ibDevs]
  · rw [untouched.cqs]
  · rw [untouched.qps]
  · rw [untouched.mrs]
  · rw [fds]
  · intro object live _
    rwa [untouched.cqs, untouched.qps] at live

theorem Leaked.not_restored {before after : Process} (leaked : before.Leaked after)
    (freed : Nat) : ¬ before.Restored after freed := by
  intro restored
  obtain ⟨fd, fds⟩ := leaked
  have length := restored.fds.length_eq
  rw [fds] at length
  simp at length

end Process

/-- The point that an error comes from. -/
def Exit.point : Exit → Option Point
  | .failed point _ | .bailed point _ => some point
  | .again | .waiting _ => none

/-- A call went out in step with what it leaves behind: at a harmless point nothing, and at
any other an open descriptor. -/
def Exit.Settles (exit : Exit) (before after : Process) : Prop :=
  ∀ point ∈ exit.point,
    if point.harmless then before.Untouched after ∧ after.fds = before.fds
    else before.Leaked after

/-- The exit is not an error at a harmless point. -/
def Exit.Late (exit : Exit) : Prop := ∀ point ∈ exit.point, point.harmless = false

theorem late_failed {point : Point} (result : NcclResult) (late : point.harmless = false) :
    (Exit.failed point result).Late := by
  rintro other ⟨rfl⟩
  exact late

theorem late_bailed {point : Point} (result : NcclResult) (late : point.harmless = false) :
    (Exit.bailed point result).Late := by
  rintro other ⟨rfl⟩
  exact late

theorem Exit.Late.settles {exit : Exit} {before after : Process} (late : exit.Late)
    (leaked : before.Leaked after) : exit.Settles before after := by
  intro point member
  simpa [late point member] using leaked

/-- What is asked of a call that goes out early: that it settles, and that it made progress
when it is to be called again. -/
def Leaves (before : Process) (progress : Attempt → Prop) (exit : Exit) (after : Attempt) :
    Prop :=
  exit.Settles before after.process ∧ (exit = .again → progress after)

/-- A program behind an open descriptor settles. -/
theorem leaves_of_keeps {before : Process} {holds progress : Attempt → Prop} {program : Setup α}
    (keeps : Keeps holds Exit.Late program)
    (leaked : ∀ attempt, holds attempt → before.Leaked attempt.process)
    (progresses : ∀ attempt, holds attempt → progress attempt) :
    Meets holds program (fun _ => holds) (Leaves before progress) :=
  keeps.weaken (fun _ => id) (fun _ _ => id) fun _ attempt left =>
    ⟨left.2.settles (leaked attempt left.1), fun _ => progresses attempt left.1⟩

/-! ## Connecting -/

/-- An attempt to connect whose descriptor is open. -/
structure Opened (before : Process) (attempt : Attempt) : Prop where
  leaked : before.Leaked attempt.process
  outgoing : attempt.comm.sock.state ≠ .accepting ∧ attempt.comm.sock.state ≠ .accepted
  begun : attempt.stage.state ≠ .start

/-- Nothing that is acquired closes a descriptor. -/
theorem Process.Leaked.acquired {before now after : Process} {address : Nat}
    (leaked : before.Leaked now) (acquired : now.Acquired address after) :
    before.Leaked after := by
  cases acquired <;> exact leaked

theorem opened_closed (before : Process) : Closed (Opened before) Exit.Late where
  stage := by
    intro attempt stage opened onward
    refine ⟨opened.leaked, opened.outgoing, ?_⟩
    rcases onward with ⟨begun, _⟩ | same
    · exact begun
    · exact same ▸ opened.begun
  comm := by
    intro attempt comm opened _ _ state
    exact ⟨opened.leaked, state ▸ opened.outgoing, opened.begun⟩
  process := by
    intro attempt process opened acquired
    exact ⟨opened.leaked.acquired acquired, opened.outgoing, opened.begun⟩
  again := by simp [Exit.Late, Exit.point]
  waiting := by simp [Exit.Late, Exit.point]
  failed := fun _ result late => late_failed result late
  bailed := fun result => late_bailed result rfl

theorem opened_connecting (before : Process) : Connecting (Opened before) Exit.Late where
  toSteady := (opened_closed before).toSteady
  sock := by
    intro attempt sock opened _ outgoing
    exact ⟨opened.leaked, outgoing, opened.begun⟩

namespace Setup

/-- A socket that connects never accepts. -/
theorem opened_progress (before : Process) (answers : SocketAnswers) :
    Keeps (Opened before) Exit.Late (socketProgressState answers) :=
  socketProgressState_keeps (whenState_skips _ fun _ opened => opened.outgoing.1)
    (whenState_skips _ fun _ opened => opened.outgoing.2) (opened_connecting before)

/-- A later call of an attempt to connect. -/
theorem connectFrom_opened (before : Process) (config : Config) (addr : ConnectAddr)
    (answers : Answers) {state : NcclIbCommState} (begun : state ≠ .start) :
    Keeps (Opened before) Exit.Late (connectFrom config addr answers state) := by
  have closed := opened_closed before
  cases state with
  | start => exact absurd rfl begun
  | connect => exact closed.ibConnectCheck config answers (opened_progress before _)
  | send => exact closed.ibSend config answers
  | connecting => exact closed.ibConnect config answers
  | connected => exact closed.ibSendReady answers
  | accept => exact Keeps.throw (late_bailed _ rfl)
  | recv => exact Keeps.throw (late_bailed _ rfl)
  | pendingReady => exact Keeps.throw (late_bailed _ rfl)

/-- Nothing is open yet. -/
structure Untried (before : Process) (attempt : Attempt) : Prop where
  untouched : before.Untouched attempt.process
  fds : attempt.process.fds = before.fds

/-- An error while nothing is open leaves nothing behind, at a harmless point. -/
theorem Untried.leaves {before : Process} {attempt : Attempt} (untried : Untried before attempt)
    (progress : Attempt → Prop) {exit : Exit} {point : Point} (fails : exit.point = some point)
    (harmless : point.harmless = true) : Leaves before progress exit attempt := by
  constructor
  · intro other member
    rw [fails] at member
    rw [← Option.some.inj member, if_pos harmless]
    exact ⟨untried.untouched, untried.fds⟩
  · rintro rfl
    simp [Exit.point] at fails

/-- Without a comm, or before a socket is open, an error leaves nothing behind. -/
theorem mallocComm_leaves (before : Process) (progress : Attempt → Prop) (answers : Answers) :
    Meets (Untried before) (mallocComm answers) (fun _ => Untried before)
      (Leaves before progress) := by
  unfold mallocComm
  split
  · apply Meets.throw
    intro attempt untried
    exact untried.leaves progress rfl rfl
  · apply Meets.bind fun _ => Untried before
    · apply Meets.modify
      intro attempt untried
      have untouched := untried.untouched
      exact ⟨⟨untouched.ibDevs, untouched.cqs, untouched.qps, untouched.mrs⟩, untried.fds⟩
    · intro _
      exact Meets.pure fun _ => id

/-- A descriptor just opened is closed again when it cannot be prepared. -/
theorem openSocket_leaves (before : Process) (progress : Attempt → Prop) (answers : Answers) :
    Meets (fun attempt => Untried before attempt ∧ attempt.comm.sock.state = .initialized)
      (openSocket answers)
      (fun _ attempt => before.Leaked attempt.process ∧
        attempt.comm.sock.state = .initialized) (Leaves before progress) := by
  unfold openSocket
  apply Meets.bind fun _ attempt =>
    Untried before attempt ∧ attempt.comm.sock.state = .initialized
  · unfold demand
    split
    · exact Meets.pure fun _ => id
    · apply Meets.throw
      rintro attempt ⟨untried, _⟩
      exact untried.leaves progress rfl rfl
  intro fd
  apply Meets.bind fun _ attempt => before.Untouched attempt.process ∧
    attempt.process.fds = fd :: before.fds ∧ attempt.comm.sock.fd = some fd ∧
      attempt.comm.sock.state = .initialized
  · apply Meets.modify
    rintro attempt ⟨⟨untouched, fds⟩, state⟩
    refine ⟨⟨untouched.ibDevs, untouched.cqs, untouched.qps, untouched.mrs⟩, ?_, rfl, state⟩
    simp only [fds]
  intro _
  apply Meets.ite
  · intro _
    apply Meets.bind fun _ => Untried before
    · apply Meets.modify
      rintro attempt ⟨untouched, fds, open', _⟩
      refine ⟨⟨untouched.ibDevs, untouched.cqs, untouched.qps, untouched.mrs⟩, ?_⟩
      simp [open', fds]
    · intro _
      apply Meets.throw
      intro attempt untried
      exact untried.leaves progress rfl rfl
  · intro _
    apply Meets.pure
    rintro attempt ⟨_, fds, _, state⟩
    exact ⟨⟨fd, fds⟩, state⟩

/-- A socket with an address gets a descriptor, or fails without one. -/
theorem ncclSocketInit_leaves (before : Process) (progress : Attempt → Prop)
    (answers : Answers) (family : SockFamily) (magic type : Nat) :
    Meets (Untried before) (ncclSocketInit answers (some family) magic type)
      (fun _ attempt => before.Leaked attempt.process ∧
        attempt.comm.sock.state = .initialized) (Leaves before progress) := by
  unfold ncclSocketInit
  apply Meets.bind fun _ attempt =>
    Untried before attempt ∧ attempt.comm.sock.state = .initialized
  · apply Meets.modify
    intro attempt untried
    exact ⟨⟨untried.untouched, untried.fds⟩, rfl⟩
  intro _
  cases family with
  | inet => exact openSocket_leaves before progress answers
  | inet6 => exact openSocket_leaves before progress answers
  | other family =>
    apply Meets.throw
    rintro attempt ⟨untried, _⟩
    exact untried.leaves progress rfl rfl

/-- The first call of an attempt to connect. -/
theorem connectStart_leaves (before : Process) (config : Config) (addr : ConnectAddr)
    (answers : Answers) :
    Meets (Untried before) (connectStart config addr answers) (fun _ => Opened before)
      (Leaves before (Opened before)) := by
  unfold connectStart
  apply Meets.bind fun _ => Untried before
  · apply Meets.modify
    intro attempt untried
    exact ⟨untried.untouched, untried.fds⟩
  intro _
  apply Meets.bind fun _ => Untried before
  · exact mallocComm_leaves before _ answers
  intro address
  apply Meets.bind fun _ attempt => before.Leaked attempt.process ∧
    attempt.comm.sock.state = .initialized
  · exact ncclSocketInit_leaves before _ answers _ _ _
  intro _
  apply Meets.bind fun _ => Opened before
  · apply Meets.modify
    rintro attempt ⟨leaked, state⟩
    exact ⟨leaked, by simp [state], by simp⟩
  intro _
  apply leaves_of_keeps _ (fun _ opened => opened.leaked) (fun _ => id)
  apply Keeps.bind
  · exact ncclSocketConnect_keeps (opened_connecting before) (opened_progress before _)
  · intro _
    exact (opened_closed before).ibConnectCheck config answers (opened_progress before _)

/-! ## Accepting -/

/-- How far the socket of an attempt to accept got, and which descriptor it has open. -/
def Incoming (before : Process) (attempt : Attempt) : Prop :=
  match attempt.comm.sock.state with
  | .accepting => attempt.process.fds = before.fds
  | .accepted | .ready =>
    ∃ fd, attempt.comm.sock.fd = some fd ∧ attempt.process.fds = fd :: before.fds
  | _ => False

/-- An attempt to accept whose socket is not ready, or just became ready. -/
structure Pending (before : Process) (attempt : Attempt) : Prop where
  untouched : before.Untouched attempt.process
  stage : attempt.stage.state = .accept
  incoming : Incoming before attempt

/-- An attempt to accept behind its socket. -/
structure Served (before : Process) (attempt : Attempt) : Prop where
  leaked : before.Leaked attempt.process
  begun : attempt.stage.state ≠ .start ∧ attempt.stage.state ≠ .accept

theorem served_closed (before : Process) : Closed (Served before) Exit.Late where
  stage := by
    intro attempt stage served onward
    refine ⟨served.leaked, ?_⟩
    rcases onward with begun | same
    · exact begun
    · exact same ▸ served.begun
  comm := by
    intro attempt comm served _ _ _
    exact ⟨served.leaked, served.begun⟩
  process := by
    intro attempt process served acquired
    exact ⟨served.leaked.acquired acquired, served.begun⟩
  again := by simp [Exit.Late, Exit.point]
  waiting := by simp [Exit.Late, Exit.point]
  failed := fun _ result late => late_failed result late
  bailed := fun result => late_bailed result rfl

/-- A pending attempt whose socket has a descriptor. -/
def Accepted (before : Process) (attempt : Attempt) : Prop :=
  Pending before attempt ∧ attempt.comm.sock.state = .accepted

theorem accepted_steady (before : Process) : Steady (Accepted before) Exit.Late where
  comm := by
    rintro attempt comm ⟨pending, accepted⟩ _ fd state
    refine ⟨⟨pending.untouched, pending.stage, ?_⟩, state.trans accepted⟩
    have incoming := pending.incoming
    simp only [Incoming, accepted] at incoming
    simpa only [Incoming, state, accepted, fd] using incoming
  waiting := by simp [Exit.Late, Exit.point]
  failed := fun _ result late => late_failed result late

theorem Accepted.leaked {before : Process} {attempt : Attempt}
    (accepted : Accepted before attempt) :
    ∃ fd, attempt.comm.sock.fd = some fd ∧ attempt.process.fds = fd :: before.fds := by
  have incoming := accepted.1.incoming
  simpa only [Incoming, accepted.2] using incoming

theorem socketTryAccept_leaves (before : Process) (answer : AcceptAnswer) :
    Meets (fun attempt => Pending before attempt ∧ attempt.comm.sock.state = .accepting)
      (socketTryAccept answer) (fun _ => Pending before)
      (Leaves before (Pending before)) := by
  cases answer with
  | accepted fd =>
    apply Meets.bind fun _ attempt => before.Untouched attempt.process ∧
      attempt.stage.state = .accept ∧ attempt.comm.sock.fd = some fd ∧
        attempt.process.fds = fd :: before.fds
    · apply Meets.modify
      rintro attempt ⟨⟨untouched, stage, incoming⟩, accepting⟩
      simp only [Incoming, accepting] at incoming
      refine ⟨⟨untouched.ibDevs, untouched.cqs, untouched.qps, untouched.mrs⟩, stage, rfl, ?_⟩
      simp only [incoming]
    · intro _
      apply Meets.modify
      rintro attempt ⟨untouched, stage, open', fds⟩
      exact ⟨untouched, stage, fd, open', fds⟩
  | again =>
    apply Meets.modify
    rintro attempt ⟨⟨untouched, stage, incoming⟩, accepting⟩
    refine ⟨untouched, stage, ?_⟩
    simpa only [Incoming, accepting] using incoming
  | failed =>
    apply Meets.bind fun _ => Untried before
    · apply Meets.modify
      rintro attempt ⟨⟨untouched, stage, incoming⟩, accepting⟩
      simp only [Incoming, accepting] at incoming
      exact ⟨untouched, incoming⟩
    · intro _
      apply Meets.throw
      intro attempt untried
      exact untried.leaves _ rfl rfl

/-- A connection of some other program is closed, and accepting goes on. -/
theorem refuse_pending (before : Process) :
    Meets (Accepted before) (do
        closeFd
        setState .accepting)
      (fun _ => Pending before) (Leaves before (Pending before)) := by
  apply Meets.bind fun _ attempt => before.Untouched attempt.process ∧
    attempt.stage.state = .accept ∧ attempt.process.fds = before.fds
  · apply Meets.modify
    intro attempt accepted
    obtain ⟨fd, open', fds⟩ := accepted.leaked
    have untouched := accepted.1.untouched
    refine ⟨⟨untouched.ibDevs, untouched.cqs, untouched.qps, untouched.mrs⟩,
      accepted.1.stage, ?_⟩
    simp [open', fds]
  · intro _
    apply Meets.modify
    rintro attempt ⟨untouched, stage, fds⟩
    exact ⟨untouched, stage, fds⟩

/-- A connection of another type is closed, and accepting fails. -/
theorem wrongType_leaves (before : Process) :
    Meets (Accepted before) (do
        setState .error
        closeFd
        throw (.failed .wrongType .ncclInternalError) : Setup PUnit)
      (fun _ => Pending before) (Leaves before (Pending before)) := by
  apply Meets.bind fun _ attempt => before.Untouched attempt.process ∧
    ∃ fd, attempt.comm.sock.fd = some fd ∧ attempt.process.fds = fd :: before.fds
  · apply Meets.modify
    intro attempt accepted
    exact ⟨accepted.1.untouched, accepted.leaked⟩
  intro _
  apply Meets.bind fun _ => Untried before
  · apply Meets.modify
    rintro attempt ⟨untouched, fd, open', fds⟩
    refine ⟨⟨untouched.ibDevs, untouched.cqs, untouched.qps, untouched.mrs⟩, ?_⟩
    simp [open', fds]
  · intro _
    apply Meets.throw
    intro attempt untried
    exact untried.leaves _ rfl rfl

/-- A part that only transfers, on a connection that was accepted. -/
theorem accepted_leaves {before : Process} {part : Setup α}
    (keeps : Keeps (Accepted before) Exit.Late part) :
    Meets (Accepted before) part (fun _ => Accepted before) (Leaves before (Pending before)) :=
  leaves_of_keeps keeps (fun _ accepted => accepted.leaked.imp fun _ => And.right)
    fun _ accepted => accepted.1

theorem socketFinalizeAccept_leaves (before : Process) (answers : SocketAnswers) :
    Meets (Accepted before) (socketFinalizeAccept answers) (fun _ => Pending before)
      (Leaves before (Pending before)) := by
  have steady := accepted_steady before
  unfold socketFinalizeAccept
  apply Meets.bind fun _ => Accepted before
  · exact accepted_leaves (Keeps.leaveIf fun _ => late_failed _ rfl)
  intro _
  apply Meets.bind fun _ => Accepted before
  · exact accepted_leaves (steady.recvSome _ _ rfl)
  intro first
  apply Meets.ite
  · intro _
    apply Meets.bind fun _ => Accepted before
    · exact accepted_leaves (steady.recvAll _ _ rfl)
    intro rest
    apply Meets.get_bind
    intro now accepted
    apply Meets.weaken _ (fun _ same => same ▸ accepted) (fun _ _ => id) (fun _ _ => id)
    apply Meets.ite
    · intro _
      exact refuse_pending before
    · intro _
      apply Meets.bind fun _ => Accepted before
      · exact accepted_leaves (steady.recvAll _ _ rfl)
      intro type
      apply Meets.get_bind
      intro later accepted
      apply Meets.weaken _ (fun _ same => same ▸ accepted) (fun _ _ => id) (fun _ _ => id)
      apply Meets.ite
      · intro _
        exact wrongType_leaves before
      · intro _
        apply Meets.modify
        intro attempt accepted
        exact ⟨accepted.1.untouched, accepted.1.stage, accepted.leaked⟩
  · intro _
    exact Meets.pure fun _ accepted => accepted.1

/-- A part of the socket state machine on a side that accepts. -/
theorem whenState_pending {before : Process} {state : NcclSocketState} {part : Setup PUnit}
    (runs : Meets (fun attempt => Pending before attempt ∧ attempt.comm.sock.state = state) part
      (fun _ => Pending before) (Leaves before (Pending before))) :
    Meets (Pending before) (whenState state part) (fun _ => Pending before)
      (Leaves before (Pending before)) := by
  apply Meets.get_bind
  intro now pending
  apply Meets.ite
  · intro same
    exact runs.weaken (fun _ read => read ▸ ⟨pending, same⟩) (fun _ _ => id) (fun _ _ => id)
  · intro _
    exact Meets.pure fun _ read => read ▸ pending

/-- The states of a pending attempt. -/
theorem Pending.states {before : Process} {attempt : Attempt}
    (pending : Pending before attempt) :
    attempt.comm.sock.state ∈
      ([.accepting, .accepted, .ready] : List NcclSocketState) := by
  have incoming := pending.incoming
  unfold Incoming at incoming
  cases state : attempt.comm.sock.state <;> simp [state] at incoming ⊢

/-- A socket that accepts never connects. -/
theorem whenState_idle {before : Process} {state : NcclSocketState} (part : Setup PUnit)
    (other : state ∉ ([.accepting, .accepted, .ready] : List NcclSocketState)) :
    Meets (Pending before) (whenState state part) (fun _ => Pending before)
      (Leaves before (Pending before)) := by
  apply whenState_pending
  rintro attempt ⟨pending, same⟩
  exact absurd (same ▸ pending.states) other

theorem pending_progress (before : Process) (answers : SocketAnswers) :
    Meets (Pending before) (socketProgressState answers) (fun _ => Pending before)
      (Leaves before (Pending before)) := by
  unfold socketProgressState
  apply Meets.bind fun _ => Pending before
  · exact whenState_pending (socketTryAccept_leaves before _)
  intro _
  apply Meets.bind fun _ => Pending before
  · exact whenState_pending (socketFinalizeAccept_leaves before answers)
  intro _
  apply Meets.bind fun _ => Pending before
  · exact whenState_idle _ (by decide)
  intro _
  apply Meets.bind fun _ => Pending before
  · exact whenState_idle _ (by decide)
  intro _
  exact whenState_idle _ (by decide)

theorem ncclSocketReady_pending (before : Process) (answers : Answers) :
    Meets (Pending before) (ncclSocketReady answers)
      (fun ready attempt => Pending before attempt ∧
        (ready = true → attempt.comm.sock.state = .ready))
      (Leaves before (Pending before)) := by
  unfold ncclSocketReady
  apply Meets.get_bind
  intro now pending
  apply Meets.weaken _ (fun _ same => same ▸ pending) (fun _ _ => id) (fun _ _ => id)
  have states := pending.states
  apply Meets.bind fun _ => Pending before
  · apply Meets.ite
    · rintro (error | closed)
      · simp [error] at states
      · simp [closed] at states
    · intro _
      exact Meets.pure fun _ => id
  intro _
  apply Meets.bind fun _ => Pending before
  · apply Meets.ite
    · intro _
      exact pending_progress before _
    · intro _
      exact Meets.pure fun _ => id
  intro _
  apply Meets.get_bind
  intro later pending
  apply Meets.pure
  rintro attempt rfl
  exact ⟨pending, of_decide_eq_true⟩

theorem ncclSocketAccept_leaves (before : Process) (answers : Answers)
    (listenSock : NcclSocket) :
    Meets (fun attempt => Untried before attempt ∧ attempt.stage.state = .accept)
      (ncclSocketAccept answers listenSock) (fun _ => Pending before)
      (Leaves before (Pending before)) := by
  unfold ncclSocketAccept
  apply Meets.bind fun _ attempt => Untried before attempt ∧ attempt.stage.state = .accept
  · apply Meets.ite
    · intro _
      apply Meets.throw
      rintro attempt ⟨untried, _⟩
      exact untried.leaves _ rfl rfl
    · intro _
      exact Meets.pure fun _ => id
  intro _
  apply Meets.bind fun _ => Pending before
  · apply Meets.modify
    rintro attempt ⟨untried, stage⟩
    exact ⟨untried.untouched, stage, untried.fds⟩
  intro _
  apply Meets.bind fun _ => Pending before
  · exact pending_progress before _
  intro _
  apply Meets.get_bind
  intro now pending
  apply Meets.ite
  · intro outside
    exact absurd pending.states outside
  · intro _
    exact Meets.pure fun _ same => same ▸ pending

/-- An attempt to accept between two calls. -/
def Underway (before : Process) (attempt : Attempt) : Prop :=
  Pending before attempt ∨ Served before attempt

/-- A program behind the socket of a side that accepts. -/
theorem served_leaves {before : Process} {part : Setup PUnit}
    (keeps : Keeps (Served before) Exit.Late part) :
    Meets (Served before) part (fun _ _ => True) (Leaves before (Underway before)) :=
  Meets.weaken (leaves_of_keeps keeps (fun _ served => served.leaked) fun _ => Or.inr) (fun _ => id)
    (fun _ _ _ => True.intro) (fun _ _ => id)

theorem ibAcceptCheck_leaves (before : Process) (config : Config) (answers : Answers) :
    Meets (Pending before) (ibAcceptCheck config answers) (fun _ _ => True)
      (Leaves before (Underway before)) := by
  have closed := served_closed before
  unfold ibAcceptCheck
  apply Meets.bind fun ready attempt => Pending before attempt ∧
    (ready = true → attempt.comm.sock.state = .ready)
  · exact (ncclSocketReady_pending before answers).weaken (fun _ => id) (fun _ _ => id)
      fun _ _ leaves => ⟨leaves.1, fun again => Or.inl (leaves.2 again)⟩
  intro ready
  apply Meets.bind fun _ attempt => Pending before attempt ∧ attempt.comm.sock.state = .ready
  · apply Meets.ite
    · intro _
      apply Meets.throw
      rintro attempt ⟨pending, _⟩
      exact ⟨by simp [Exit.Settles, Exit.point], fun _ => Or.inl pending⟩
    · intro isReady
      apply Meets.pure
      rintro attempt ⟨pending, state⟩
      exact ⟨pending, state (by simpa using isReady)⟩
  intro _
  apply Meets.bind fun _ => Served before
  · apply Meets.modify
    rintro attempt ⟨pending, state⟩
    have incoming := pending.incoming
    simp only [Incoming, state] at incoming
    obtain ⟨fd, _, fds⟩ := incoming
    exact ⟨⟨fd, fds⟩, by simp⟩
  intro _
  apply served_leaves
  apply Keeps.bind
  · exact closed.demand answers _ rfl
  intro _
  apply Keeps.bind
  · exact closed.setStage fun _ => Or.inr rfl
  intro _
  exact closed.ibRecv config answers

/-- The first call of an attempt to accept. -/
theorem acceptStart_leaves (before : Process) (config : Config) (listenSock : NcclSocket)
    (answers : Answers) :
    Meets (Untried before) (acceptStart config listenSock answers) (fun _ _ => True)
      (Leaves before (Underway before)) := by
  unfold acceptStart
  apply Meets.bind fun _ => Untried before
  · exact mallocComm_leaves before _ answers
  intro address
  apply Meets.bind fun _ attempt => Untried before attempt ∧ attempt.stage.state = .accept
  · apply Meets.modify
    intro attempt untried
    exact ⟨⟨untried.untouched, untried.fds⟩, rfl⟩
  intro _
  apply Meets.bind fun _ attempt => Untried before attempt ∧ attempt.stage.state = .accept
  · apply Meets.bind fun _ attempt => Untried before attempt ∧ attempt.stage.state = .accept
    · apply Meets.modify
      rintro attempt ⟨untried, stage⟩
      exact ⟨⟨untried.untouched, untried.fds⟩, stage⟩
    · intro _
      exact Meets.pure fun _ => id
  intro _
  apply Meets.bind fun _ => Pending before
  · exact (ncclSocketAccept_leaves before answers listenSock).weaken (fun _ => id)
      (fun _ _ => id) fun _ _ leaves => ⟨leaves.1, fun again => Or.inl (leaves.2 again)⟩
  intro _
  exact ibAcceptCheck_leaves before config answers

/-- A later call of an attempt to accept, behind its socket. -/
theorem acceptFrom_served (before : Process) (config : Config) (listenSock : NcclSocket)
    (answers : Answers) {state : NcclIbCommState} (begun : state ≠ .start ∧ state ≠ .accept) :
    Keeps (Served before) Exit.Late (acceptFrom config listenSock answers state) := by
  have closed := served_closed before
  cases state with
  | start => exact absurd rfl begun.1
  | accept => exact absurd rfl begun.2
  | recv => exact closed.ibRecv config answers
  | send => exact closed.ibReply answers
  | pendingReady => exact closed.ibRecvReady answers
  | connect => exact Keeps.throw (late_bailed _ rfl)
  | connecting => exact Keeps.throw (late_bailed _ rfl)
  | connected => exact Keeps.throw (late_bailed _ rfl)

end Setup

/-- The side that calls: `ncclIbConnect` with what a handle tells, or `ncclIbAccept` on a
listening socket. -/
inductive Caller where
  | connect (addr : ConnectAddr)
  | accept (listenSock : NcclSocket)

namespace Caller

open Setup

/-- A call on this side. -/
def call (config : Config) (answers : Answers) : Caller → Attempt → Returned × Attempt
  | .connect addr => ncclIbConnect config addr answers
  | .accept listenSock => ncclIbAccept config listenSock answers

/-- Calls in a row that returned success without a comm, each with answers of its own. -/
inductive Retried (caller : Caller) (config : Config) (first : Attempt) : Attempt → Prop
  | none : Retried caller config first first
  | again {answers : Answers} {now after : Attempt} (before : Retried caller config first now)
      (called : caller.call config answers now = (.again, after)) :
      Retried caller config first after

/-- Where a call goes on. -/
def program (config : Config) (answers : Answers) : Caller → NcclIbCommState → Setup PUnit
  | .connect addr => connectFrom config addr answers
  | .accept listenSock => acceptFrom config listenSock answers

/-- The `exit` label. -/
def exit : Caller → Attempt → Attempt
  | .connect _ => Attempt.exitConnect
  | .accept _ => Attempt.exitAccept

/-- An attempt between two calls. -/
def Progress (before : Process) : Caller → Attempt → Prop
  | .connect _ => Opened before
  | .accept _ => Underway before

theorem call_eq (caller : Caller) (config : Config) (answers : Answers) (attempt : Attempt) :
    caller.call config answers attempt =
      Attempt.finish caller.exit (caller.program config answers attempt.stage.state attempt) := by
  cases caller <;> rfl

@[simp] theorem process_exit (caller : Caller) (attempt : Attempt) :
    (caller.exit attempt).process = attempt.process := by
  cases caller <;> rfl

/-- The first call of an attempt. -/
theorem first_leaves (caller : Caller) (config : Config) (answers : Answers)
    (before : Process) :
    Meets (Untried before) (caller.program config answers .start) (fun _ _ => True)
      (Leaves before (caller.Progress before)) := by
  cases caller with
  | connect addr =>
    exact (connectStart_leaves before config addr answers).weaken (fun _ => id)
      (fun _ _ _ => True.intro) (fun _ _ => id)
  | accept listenSock => exact acceptStart_leaves before config listenSock answers

/-- A later call of an attempt. -/
theorem later_leaves (caller : Caller) (config : Config) (answers : Answers)
    {before : Process} {attempt : Attempt} (progress : caller.Progress before attempt) :
    Meets (fun now => now = attempt) (caller.program config answers attempt.stage.state)
      (fun _ _ => True) (Leaves before (caller.Progress before)) := by
  cases caller with
  | connect addr =>
    have opened : Opened before attempt := progress
    have keeps := connectFrom_opened before config addr answers opened.begun
    exact (leaves_of_keeps keeps (fun _ opened => opened.leaked) fun _ => id).weaken
      (fun _ same => same ▸ opened) (fun _ _ _ => True.intro) (fun _ _ => id)
  | accept listenSock =>
    rcases progress with pending | served
    · have stage : attempt.stage.state = .accept := pending.stage
      rw [stage]
      exact (ibAcceptCheck_leaves before config answers).weaken (fun _ same => same ▸ pending)
        (fun _ _ => id) (fun _ _ => id)
    · have keeps := acceptFrom_served before config listenSock answers served.begun
      exact (served_leaves keeps).weaken (fun _ same => same ▸ served) (fun _ _ => id)
        (fun _ _ => id)

end Caller

/-- A call that is to be made again went out where it stood. -/
theorem Attempt.finish_again {exit : Attempt → Attempt} {ran : EStateM.Result Exit Attempt PUnit}
    {after : Attempt} (finished : Attempt.finish exit ran = (.again, after)) :
    ran = .error .again after := by
  cases ran with
  | ok value later => simp [Attempt.finish] at finished
  | error left later => cases left <;> simp_all [Attempt.finish]

/-- An error comes from the label that frees the comm, or was returned directly. -/
theorem Attempt.finish_error {exit : Attempt → Attempt} {ran : EStateM.Result Exit Attempt PUnit}
    {point : Point} {result : NcclResult} {after : Attempt}
    (finished : Attempt.finish exit ran = (.error point result, after)) :
    ran = .error (.bailed point result) after ∨
      ∃ left, ran = .error (.failed point result) left ∧ after = exit left.freeComm := by
  cases ran with
  | ok value later => simp [Attempt.finish] at finished
  | error left later => cases left <;> simp_all [Attempt.finish]

/-- To free a comm restores nothing. -/
theorem Exit.Settles.freeComm {exit : Exit} {before : Process} {attempt : Attempt}
    (settles : exit.Settles before attempt.process) :
    exit.Settles before attempt.freeComm.process := by
  intro point member
  have settled := settles point member
  split
  · rw [if_pos ‹_›] at settled
    obtain ⟨untouched, fds⟩ := settled
    exact ⟨⟨untouched.ibDevs, untouched.cqs, untouched.qps, untouched.mrs⟩, fds⟩
  · rwa [if_neg ‹_›] at settled

namespace Caller

/-- Every call of an attempt leaves in step with its exit. -/
theorem Retried.leaves {caller : Caller} {config : Config} {first now : Attempt}
    (retried : caller.Retried config first now) (begins : first.stage.state = .start)
    (answers : Answers) :
    Meets (fun attempt => attempt = now) (caller.program config answers now.stage.state)
      (fun _ _ => True) (Leaves first.process (caller.Progress first.process)) := by
  have started : now = first ∨ caller.Progress first.process now := by
    induction retried with
    | none => exact Or.inl rfl
    | again before called ih =>
      rename_i given earlier after
      have met : Meets (fun attempt => attempt = earlier)
          (caller.program config given earlier.stage.state)
          (fun _ _ => True) (Leaves first.process (caller.Progress first.process)) := by
        rcases ih with rfl | progress
        · rw [begins]
          exact (caller.first_leaves config given _).weaken
            (fun _ same => same ▸ ⟨.refl _, rfl⟩) (fun _ _ => id) (fun _ _ => id)
        · exact caller.later_leaves config given progress
      have left := met earlier rfl
      rw [call_eq] at called
      rw [Attempt.finish_again called] at left
      exact Or.inr (left.2 rfl)
  rcases started with rfl | progress
  · rw [begins]
    exact (caller.first_leaves config answers _).weaken (fun _ same => same ▸ ⟨.refl _, rfl⟩)
      (fun _ _ => id) (fun _ _ => id)
  · exact caller.later_leaves config answers progress

end Caller

/-- Whatever fails, and whichever call of the attempt it fails in, the process is restored
exactly when the failing point is a harmless one. -/
theorem failed_attempt_restores (caller : Caller) (config : Config)
    {before now after : Attempt} {answers : Answers} {point : Point} {result : NcclResult}
    (begins : before.stage.state = .start) (retried : caller.Retried config before now)
    (failed : caller.call config answers now = (.error point result, after)) :
    before.process.Restored after.process after.comm.address ↔ point.harmless = true := by
  have left := retried.leaves begins answers now rfl
  rw [Caller.call_eq] at failed
  have settles : (Exit.failed point result).Settles before.process after.process := by
    rcases Attempt.finish_error failed with ran | ⟨later, ran, rfl⟩
    · rw [ran] at left
      exact left.1
    · rw [ran] at left
      rw [Caller.process_exit]
      exact left.1.freeComm
  have settled := settles point rfl
  by_cases harmless : point.harmless = true
  · rw [if_pos harmless] at settled
    exact iff_of_true (settled.1.restored settled.2 _) harmless
  · rw [if_neg harmless] at settled
    exact iff_of_false (settled.not_restored _) harmless

/-- A side with one device and two queue pairs. -/
def Config.sample : Config :=
  { side := .sample 1 2 false (fun _ => 5) Nat.zero_lt_one oneDev_le
    mergedDevs := fun _ => 0, stack := .stack, metaSize := 4
    metaBytes := fun _ => [0, 0, 0, 0], metaOfBytes := fun _ => .stack
    gdrSupport := false, dmaBufSupport := false, gdrFlushDisable := false
    length_metaBytes := fun _ => rfl }

/-- A device on which no comm is open. -/
def NcclIbDev.idle : NcclIbDev :=
  { portNum := 1, portAttr := ⟨0, 5, .infiniband, false, 1⟩, ar := 0, pdRefs := 0, pd := none,
    mrCache := .empty }

/-- A process without comms, and a clean stage. -/
def Attempt.sample : Attempt :=
  { process := { ibDevs := fun _ => .idle, cqs := [], qps := [], mrs := [], fds := [],
                 comms := [], ibStat := none }
    stage := .clean
    comm := .zero 0 }

/-- Sockets that connect at once and transfer everything, and have nobody to accept. -/
def SocketAnswers.sample (accept : AcceptAnswer) : SocketAnswers :=
  { accept := accept, setsockopt := true, recvMagic := [], recvMagicRest := [], recvType := [],
    connect := .connected, poll := .notYet, sendMagic := [.bytes 8], sendMagicRest := [],
    sendType := [.bytes 4] }

/-- Everything but one point succeeds. -/
def Answers.failing (point : Option Point) (accept : AcceptAnswer) : Answers :=
  { outcome := fun at' => if some at' = point then none else some 1
    socket := fun _ => .sample accept, sendMeta := [.bytes 4], recvMeta := [], sendReady := []
    recvReady := [] }

/-- A listening socket that is ready. -/
def NcclSocket.listening : NcclSocket := { NcclSocket.zero with state := .ready }

/-- Nobody connects in the first call, and the second fails to accept. -/
theorem failed_accept_restores :
    let config := Config.sample
    let caller := Caller.accept .listening
    let now := (caller.call config (.failing none .again) .sample).2
    let after := (caller.call config (.failing none .failed) now).2
    Attempt.sample.process.Restored after.process after.comm.address ↔
      Point.accept.harmless = true :=
  failed_attempt_restores (.accept .listening) .sample rfl
    (.again .none (Prod.ext (by decide) rfl))
    (Prod.ext (by decide : _ = Returned.error .accept .ncclSystemError) rfl)

/-- The second queue pair cannot be created: the first one stays, and its context points
into the comm that was freed. -/
theorem failed_attempt_leftovers : ¬ ∀ (caller : Caller) (config : Config)
    (before now after : Attempt) (answers : Answers) (point : Point) (result : NcclResult),
    before.stage.state = .start → caller.Retried config before now →
      caller.call config answers now = (.error point result, after) →
        before.process.Restored after.process after.comm.address := by
  intro alwaysRestored
  have restored := alwaysRestored (.connect ⟨.inet, 1⟩) .sample .sample .sample _
    (.failing (some (.createQp (.data 1))) .again) (.createQp (.data 1)) .ncclSystemError rfl
    .none (Prod.ext (by decide) rfl)
  have dangling := restored.detached ⟨1, 1⟩ (by decide) (by decide)
  exact absurd dangling (by decide)

end NcclExts.Unet
