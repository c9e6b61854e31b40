import NcclExts.Unet.Phases
import NcclExts.Unet.SocketRuns

/-!
# What a call says and hears

Until its socket is ready, an attempt does nothing but drive it, and what it exchanges is the
preamble. After that a transfer moves some bytes from the offset of the stage on, and it is
made again, by a later call, until all of them were moved. The offset, the memory that is
read or written and the bytes that went over the socket stay in step.
-/

namespace NcclExts.Unet

open NcclExts.Foundation

/-- The attempt is as it was, but for its socket and the descriptors of the process. -/
def SockOnly (start now : Attempt) : Prop :=
  ∃ fds sock, now = { start with process.fds := fds, comm.sock := sock }

namespace Setup

variable {start : Attempt}

/-! ## The socket and nothing else -/

/-- A part that works on the socket alone, and goes on unless it breaks. -/
def DrivesSock (start : Attempt) (part : Setup α) : Prop :=
  Keeps (SockOnly start) Exit.Breaks part

/-- Something failed that was called. -/
theorem drives_throw {point : Point} (result : NcclResult) (called : point.called = true) :
    DrivesSock start (throw (.failed point result) : Setup α) :=
  Keeps.throw called

theorem drives_leaveIf {condition : Prop} [Decidable condition] {point : Point}
    (result : NcclResult) (called : point.called = true) :
    DrivesSock start (leaveIf condition (.failed point result)) :=
  Keeps.leaveIf fun _ => called

theorem drives_setSock (change : NcclSocket → NcclSocket) : DrivesSock start (setSock change) := by
  apply Keeps.modify
  rintro _ ⟨fds, sock, rfl⟩
  exact ⟨fds, change sock, rfl⟩

theorem drives_setState (state : NcclSocketState) : DrivesSock start (setState state) :=
  drives_setSock _

theorem drives_openFd (fd : Nat) : DrivesSock start (openFd fd) := by
  apply Keeps.modify
  rintro _ ⟨fds, sock, rfl⟩
  exact ⟨_, _, rfl⟩

theorem drives_closeFd : DrivesSock start closeFd := by
  apply Keeps.modify
  rintro _ ⟨fds, sock, rfl⟩
  exact ⟨_, _, rfl⟩

theorem drives_demand (answers : Answers) {point : Point} (result : NcclResult)
    (called : point.called = true) :
    DrivesSock start (demand answers point result) := by
  unfold demand
  split
  · exact Keeps.pure _
  · exact drives_throw _ called

/-- Bytes were moved, and the transfer fails or goes on. -/
theorem drives_moved {change : NcclSocket → NcclSocket} {ok : Bool} {point : Point}
    {result : NcclResult} (value : α) (called : point.called = true) :
    DrivesSock start (do
      setSock change
      if ok then pure value else throw (.failed point result)) := by
  apply Keeps.bind (drives_setSock change)
  intro _
  exact Keeps.ite (fun _ => Keeps.pure _) fun _ => drives_throw _ called

theorem drives_sendSome {point : Point} (bytes : List UInt8) (answers : List SendAnswer)
    (called : point.called = true) : DrivesSock start (sendSome point bytes answers) :=
  drives_moved _ called

theorem drives_recvSome {point : Point} (wanted : Nat) (answers : List RecvAnswer)
    (called : point.called = true) : DrivesSock start (recvSome point wanted answers) :=
  drives_moved _ called

theorem drives_sendAll {point : Point} (bytes : List UInt8) (answers : List SendAnswer)
    (called : point.called = true) : DrivesSock start (sendAll point bytes answers) := by
  unfold sendAll
  split
  · exact Keeps.throw True.intro
  · exact drives_moved _ called

theorem drives_recvAll {point : Point} (wanted : Nat) (answers : List RecvAnswer)
    (called : point.called = true) : DrivesSock start (recvAll point wanted answers) := by
  unfold recvAll
  split
  · exact Keeps.throw True.intro
  · exact drives_moved _ called

theorem drives_openSocket (answers : Answers) : DrivesSock start (openSocket answers) := by
  unfold openSocket
  apply Keeps.bind (drives_demand answers _ rfl)
  intro fd
  apply Keeps.bind (drives_openFd fd)
  intro _
  apply Keeps.ite
  · intro _
    apply Keeps.bind drives_closeFd
    exact fun _ => drives_throw _ rfl
  · exact fun _ => Keeps.pure _

theorem drives_ncclSocketInit (answers : Answers) (addr : Option SockFamily) (magic type : Nat) :
    DrivesSock start (ncclSocketInit answers addr magic type) := by
  unfold ncclSocketInit
  apply Keeps.bind (drives_setSock _)
  intro _
  split
  · exact Keeps.pure _
  · exact drives_throw _ rfl
  · exact drives_openSocket answers
  · exact drives_openSocket answers

theorem drives_socketTryAccept (answer : AcceptAnswer) :
    DrivesSock start (socketTryAccept answer) := by
  unfold socketTryAccept
  cases answer with
  | accepted fd => exact Keeps.bind (drives_openFd fd) fun _ => drives_setState _
  | again => exact drives_setSock _
  | failed => exact Keeps.bind (drives_setSock _) fun _ => drives_throw _ rfl

theorem drives_socketFinalizeAccept (answers : SocketAnswers) :
    DrivesSock start (socketFinalizeAccept answers) := by
  unfold socketFinalizeAccept
  apply Keeps.bind (drives_leaveIf _ rfl)
  intro _
  apply Keeps.bind (drives_recvSome _ _ rfl)
  intro first
  apply Keeps.doIf
  intro _
  apply Keeps.bind (drives_recvAll _ _ rfl)
  intro rest
  apply Keeps.read
  intro _ _
  apply Keeps.ite
  · exact fun _ => Keeps.bind drives_closeFd fun _ => drives_setState _
  intro _
  apply Keeps.bind (drives_recvAll _ _ rfl)
  intro type
  apply Keeps.read
  intro _ _
  apply Keeps.ite
  · intro _
    apply Keeps.bind (drives_setState _)
    intro _
    exact Keeps.bind drives_closeFd fun _ => drives_throw _ rfl
  · exact fun _ => drives_setState _

/-- An error of the socket is noted, and returned. -/
theorem drives_fail {point : Point} (result : NcclResult) (called : point.called = true) :
    DrivesSock start (do
      setState .error
      throw (.failed point result) : Setup PUnit) :=
  Keeps.bind (drives_setState _) fun _ => drives_throw _ called

theorem drives_retryRefused {point : Point} (called : point.called = true) :
    DrivesSock start (retryRefused point) := by
  unfold retryRefused
  apply Keeps.bind (drives_setSock _)
  intro _
  apply Keeps.read
  intro _ _
  exact Keeps.doIf fun _ => drives_fail _ called

theorem drives_retryTimedout {point : Point} (called : point.called = true) :
    DrivesSock start (retryTimedout point) := by
  unfold retryTimedout
  apply Keeps.bind (drives_setSock _)
  intro _
  apply Keeps.read
  intro _ _
  exact Keeps.doIf fun _ => drives_fail _ called

theorem drives_socketStartConnect (answer : ConnectAnswer) :
    DrivesSock start (socketStartConnect answer) := by
  cases answer with
  | connected => exact drives_setState _
  | inProgress => exact drives_setState _
  | refused => exact drives_retryRefused rfl
  | timedOut => exact drives_retryTimedout rfl
  | failed => exact drives_fail _ rfl

theorem drives_socketPollConnect (answer : PollAnswer) :
    DrivesSock start (socketPollConnect answer) := by
  cases answer with
  | notYet => exact Keeps.pure _
  | failed => exact drives_throw _ rfl
  | otherEvents => exact drives_throw _ rfl
  | getsockoptFailed => exact drives_throw _ rfl
  | pending error =>
    cases error with
    | connected => exact drives_setState _
    | inProgress => exact Keeps.pure _
    | refused => exact Keeps.bind (drives_retryRefused rfl) fun _ => drives_setState _
    | timedOut => exact Keeps.bind (drives_retryTimedout rfl) fun _ => drives_setState _
    | failed => exact drives_fail _ rfl

theorem drives_socketFinalizeConnect (answers : SocketAnswers) :
    DrivesSock start (socketFinalizeConnect answers) := by
  unfold socketFinalizeConnect
  apply Keeps.read
  intro _ _
  apply Keeps.bind (drives_sendSome _ _ rfl)
  intro count
  apply Keeps.doIf
  intro _
  apply Keeps.bind (drives_sendAll _ _ rfl)
  intro _
  apply Keeps.read
  intro _ _
  exact Keeps.bind (drives_sendAll _ _ rfl) fun _ => drives_setState _

theorem drives_socketProgressState (answers : SocketAnswers) :
    DrivesSock start (socketProgressState answers) := by
  unfold socketProgressState
  apply Keeps.bind (whenState_keeps (drives_socketTryAccept _))
  intro _
  apply Keeps.bind (whenState_keeps (drives_socketFinalizeAccept _))
  intro _
  apply Keeps.bind (whenState_keeps (drives_socketStartConnect _))
  intro _
  apply Keeps.bind (whenState_keeps (drives_socketPollConnect _))
  intro _
  exact whenState_keeps (drives_socketFinalizeConnect _)

theorem drives_checkState (states : List NcclSocketState) :
    DrivesSock start (checkState states) := by
  apply Keeps.read
  intro _ _
  exact drives_leaveIf _ rfl

theorem drives_ncclSocketReady (answers : Answers) :
    DrivesSock start (ncclSocketReady answers) := by
  unfold ncclSocketReady
  apply Keeps.read
  intro _ _
  apply Keeps.bind (drives_leaveIf _ rfl)
  intro _
  apply Keeps.bind (Keeps.doIf fun _ => drives_socketProgressState _)
  intro _
  exact Keeps.read fun _ _ => Keeps.pure _

theorem drives_ncclSocketConnect (answers : Answers) :
    DrivesSock start (ncclSocketConnect answers) := by
  unfold ncclSocketConnect
  apply Keeps.bind (drives_demand answers _ rfl)
  intro _
  apply Keeps.bind (drives_setState _)
  intro _
  apply Keeps.bind (drives_socketProgressState _)
  intro _
  exact drives_checkState _

theorem drives_ncclSocketAccept (answers : Answers) (listenSock : NcclSocket) :
    DrivesSock start (ncclSocketAccept answers listenSock) := by
  unfold ncclSocketAccept
  apply Keeps.bind (drives_leaveIf _ rfl)
  intro _
  apply Keeps.bind (drives_setSock _)
  intro _
  apply Keeps.bind (drives_socketProgressState _)
  intro _
  exact drives_checkState _

end Setup

/-! ## Driving the socket to its readiness -/

/-- The preamble of a side that connects. -/
def ConnectAddr.preamble (addr : ConnectAddr) : List UInt8 :=
  wordBytes 8 addr.magic ++ wordBytes 4 ncclSocketTypeNetIb

/-- The socket of a side that connects. It heard nothing, and it said its preamble if it is
ready. -/
structure Opening (addr : ConnectAddr) (sock : NcclSocket) : Prop where
  state : sock.state = .connecting ∨ sock.state = .connectPolling ∨ sock.state = .connected ∨
    sock.state = .ready ∨ sock.state = .error
  magic : sock.magic = addr.magic
  type : sock.type = ncclSocketTypeNetIb
  received : sock.received = []
  unsent : sock.state ≠ .ready → sock.sent = []
  sent : sock.state = .ready → sock.sent = addr.preamble

/-- The socket of a side that accepts. It said nothing, and it heard the preamble if it is
ready. -/
structure Answering (listenSock sock : NcclSocket) : Prop where
  incoming : Incoming [] sock
  magic : sock.magic = listenSock.magic
  type : sock.type = listenSock.type
  sent : sock.sent = []

/-- Whatever it finds out about connecting, it says nothing. -/
theorem Opening.replies {addr : ConnectAddr} {sock : NcclSocket} (opening : Opening addr sock)
    (unready : sock.state ≠ .ready) (answers : List ConnectAnswer) :
    Opening addr (answers.foldl NcclSocket.reply sock) := by
  induction answers generalizing sock with
  | nil => exact opening
  | cons answer rest ih =>
    have unsent := opening.unsent unready
    have replied : (sock.reply answer).state ≠ .ready ∧ Opening addr (sock.reply answer) := by
      cases answer with
      | connected =>
        exact ⟨by simp [NcclSocket.reply], by simp [NcclSocket.reply], opening.magic, opening.type,
          opening.received, fun _ => unsent, by simp [NcclSocket.reply]⟩
      | inProgress =>
        exact ⟨by simp [NcclSocket.reply], by simp [NcclSocket.reply], opening.magic, opening.type,
          opening.received, fun _ => unsent, by simp [NcclSocket.reply]⟩
      | failed =>
        exact ⟨by simp [NcclSocket.reply], by simp [NcclSocket.reply], opening.magic, opening.type,
          opening.received, fun _ => unsent, by simp [NcclSocket.reply]⟩
      | refused =>
        simp only [NcclSocket.reply]
        split
        · exact ⟨by simp, by simp, opening.magic, opening.type, opening.received,
            fun _ => unsent, by simp⟩
        · exact ⟨by simp, by simp, opening.magic, opening.type, opening.received,
            fun _ => unsent, by simp⟩
      | timedOut =>
        simp only [NcclSocket.reply]
        split
        · exact ⟨by simp, by simp, opening.magic, opening.type, opening.received,
            fun _ => unsent, by simp⟩
        · exact ⟨by simp, by simp, opening.magic, opening.type, opening.received,
            fun _ => unsent, by simp⟩
    exact ih replied.2 replied.1

theorem Opening.round {addr : ConnectAddr} {sock after : NcclSocket} (opening : Opening addr sock)
    (went : ConnectRound sock none after) : Opening addr after := by
  cases went with
  | unconnected still => exact opening
  | connected connected finished =>
    cases finished with
    | quiet => exact opening
    | ready =>
      refine ⟨by simp, opening.magic, opening.type, opening.received, fun unready =>
        absurd rfl unready, fun _ => ?_⟩
      have unsent := opening.unsent (by rw [connected]; decide)
      rw [unsent, NcclSocket.preamble, opening.magic, opening.type]
      rfl

theorem Finalized.quiet_rest {sock after : NcclSocket} {answers : SocketAnswers}
    (finalized : Finalized sock answers none after) :
    after.sent = sock.sent ∧ after.magic = sock.magic ∧ after.type = sock.type := by
  cases finalized <;> exact ⟨rfl, rfl, rfl⟩

theorem Answering.round {listenSock sock after : NcclSocket} {answers : SocketAnswers}
    (answering : Answering listenSock sock) (went : AcceptRound sock answers none after) :
    Answering listenSock after := by
  have incoming := Incoming.round [] answering.incoming.accepted went
  rw [if_pos rfl, ite_self] at incoming
  cases went with
  | unaccepted accepting tried still =>
    generalize answers.accept = answer at tried
    cases tried with
    | accepted fd => exact nomatch still
    | again => exact ⟨incoming, answering.magic, answering.type, answering.sent⟩
  | accepting accepting isAnswer finalized =>
    obtain ⟨sent, magic, type⟩ := finalized.quiet_rest
    exact ⟨incoming, magic.trans answering.magic, type.trans answering.type, sent⟩
  | accepted accepted finalized =>
    obtain ⟨sent, magic, type⟩ := finalized.quiet_rest
    exact ⟨incoming, magic.trans answering.magic, type.trans answering.type,
      sent.trans answering.sent⟩

namespace Setup

variable {start : Attempt}

/-- A part of a call that works on the socket alone, and what it leaves of the socket. -/
theorem DrivesSock.turns {part : Setup α} {ways : Option Exit → NcclSocket → Prop}
    (drives : DrivesSock start part) (turns : Turns start.comm.sock part ways) :
    Meets (fun now => now = start) part
      (fun _ after => SockOnly start after ∧ ways none after.comm.sock)
      (fun exit _ => exit.Breaks) := by
  apply (drives.both turns).weaken
  · rintro _ rfl
    exact ⟨⟨_, _, rfl⟩, rfl⟩
  · exact fun _ _ => id
  · exact fun _ _ left => left.1.2

/-- The answer whether a socket is ready is right. -/
theorem ncclSocketReady_right (answers : Answers) :
    Meets (fun _ => True) (ncclSocketReady answers)
      (fun ready after => ready = true ↔ after.comm.sock.state = .ready) (fun _ _ => True) := by
  have anyhow {part : Setup PUnit} :
      Meets (fun _ => True) part (fun _ _ => True) (fun _ _ => True) := by
    intro attempt _
    cases part attempt <;> exact True.intro
  unfold ncclSocketReady
  apply Meets.get_bind
  intro _ _
  apply anyhow.weaken (fun _ _ => True.intro) (fun _ _ => id) (fun _ _ => id) |>.bind
  intro _
  apply Meets.bind _ anyhow
  intro _
  apply Meets.get_bind
  intro attempt _
  apply Meets.pure
  rintro _ rfl
  exact decide_eq_true_iff

/-- Asking whether a socket is ready keeps what a round keeps. -/
theorem ncclSocketReady_meets {holds : NcclSocket → Prop} (answers : Answers)
    (held : holds start.comm.sock)
    (round : start.comm.sock.state ≠ .ready → start.comm.sock.state ≠ .error →
      start.comm.sock.state ≠ .closed →
        Turns start.comm.sock (socketProgressState (answers.socket .asking))
          (fun exit after => exit = none → holds after)) :
    Meets (fun now => now = start) (ncclSocketReady answers)
      (fun ready after => (SockOnly start after ∧ holds after.comm.sock) ∧
        (ready = true ↔ after.comm.sock.state = .ready))
      (fun exit _ => exit.Breaks) := by
  have turns : Turns start.comm.sock (ncclSocketReady answers)
      (fun exit after => exit = none → holds after) := by
    by_cases settled : start.comm.sock.state = .ready ∨ start.comm.sock.state = .error ∨
        start.comm.sock.state = .closed
    · apply (ncclSocketReady_turns (turns_anyhow _ _)).weaken
      rintro exit after (⟨_, _, rfl⟩ | ⟨_, _, rfl⟩ | ⟨working, unclosed, unready, _⟩) none
      · exact held
      · exact held
      · tauto
    · simp only [not_or] at settled
      apply (ncclSocketReady_turns (round settled.1 settled.2.1 settled.2.2)).weaken
      rintro exit after (⟨_, _, rfl⟩ | ⟨_, _, rfl⟩ | ⟨_, _, _, went⟩)
      · exact fun _ => held
      · exact fun _ => held
      · exact went
  have driven := (drives_ncclSocketReady answers).turns turns
  apply (driven.both (ncclSocketReady_right answers)).weaken
  · exact fun _ same => ⟨same, True.intro⟩
  · exact fun _ _ ⟨⟨only, went⟩, right⟩ => ⟨⟨only, went rfl⟩, right⟩
  · exact fun _ _ left => left.1

theorem ncclSocketReady_opening {addr : ConnectAddr} (opening : Opening addr start.comm.sock)
    (answers : Answers) :
    Meets (fun now => now = start) (ncclSocketReady answers)
      (fun ready after => (SockOnly start after ∧ Opening addr after.comm.sock) ∧
        (ready = true ↔ after.comm.sock.state = .ready))
      (fun exit _ => exit.Breaks) := by
  apply ncclSocketReady_meets answers opening
  intro unready working _
  have trying : start.comm.sock.state = .connecting ∨
      start.comm.sock.state = .connectPolling ∨ start.comm.sock.state = .connected := by
    have states := opening.state
    tauto
  apply (connect_round _ trying).weaken
  rintro exit after went rfl
  exact (opening.replies unready _).round went

theorem ncclSocketReady_answering {listenSock : NcclSocket}
    (answering : Answering listenSock start.comm.sock) (answers : Answers) :
    Meets (fun now => now = start) (ncclSocketReady answers)
      (fun ready after => (SockOnly start after ∧ Answering listenSock after.comm.sock) ∧
        (ready = true ↔ after.comm.sock.state = .ready))
      (fun exit _ => exit.Breaks) := by
  apply ncclSocketReady_meets answers answering
  intro unready working _
  have waiting : start.comm.sock.state = .accepting ∨ start.comm.sock.state = .accepted := by
    have states := answering.incoming.state
    tauto
  apply (accept_round _ waiting).weaken
  rintro exit after went rfl
  exact answering.round went

/-- A socket just initialized with an address is connected. -/
theorem ncclSocketConnect_opening {addr : ConnectAddr} (answers : Answers)
    (untouched : Untouched start.comm.sock) (magic : start.comm.sock.magic = addr.magic)
    (type : start.comm.sock.type = ncclSocketTypeNetIb) :
    Meets (fun now => now = start) (ncclSocketConnect answers)
      (fun _ after => SockOnly start after ∧ Opening addr after.comm.sock)
      (fun exit _ => exit.Breaks) := by
  apply ((drives_ncclSocketConnect answers).turns (ncclSocketConnect_turns _ answers)).weaken
  · exact fun _ => id
  · rintro _ after ⟨only, ⟨_, none, _⟩ | ⟨_, round⟩⟩
    · exact absurd rfl none
    have opening : Opening addr { start.comm.sock with state := .connecting } :=
      ⟨Or.inl rfl, magic, type, untouched.received, fun _ => untouched.sent, nofun⟩
    exact ⟨only, (opening.replies nofun _).round round⟩
  · exact fun _ _ => id

/-- A socket is made to accept on a listening one, over which nothing went. -/
theorem ncclSocketAccept_answering {listenSock : NcclSocket} (answers : Answers)
    (unused : listenSock.sent = []) :
    Meets (fun now => now = start) (ncclSocketAccept answers listenSock)
      (fun _ after => SockOnly start after ∧ Answering listenSock after.comm.sock)
      (fun exit _ => exit.Breaks) := by
  apply ((drives_ncclSocketAccept answers listenSock).turns
    (ncclSocketAccept_turns _ listenSock answers)).weaken
  · exact fun _ => id
  · rintro _ after ⟨only, ⟨none, _⟩ | round⟩
    · exact absurd rfl none
    have answering : Answering listenSock
        { listenSock with acceptFd := listenSock.fd, state := .accepting } :=
      ⟨⟨Or.inl rfl, nofun, nofun⟩, rfl, rfl, unused⟩
    exact ⟨only, answering.round round⟩
  · exact fun _ _ => id

/-- Initializing a cleared socket leaves it untouched. -/
theorem ncclSocketInit_meets (answers : Answers) (addr : Option SockFamily) (magic type : Nat)
    (cleared : start.comm.sock = .zero) :
    Meets (fun now => now = start) (ncclSocketInit answers addr magic type)
      (fun _ after => SockOnly start after ∧ Untouched after.comm.sock ∧
        after.comm.sock.magic = magic ∧ after.comm.sock.type = type)
      (fun exit _ => exit.Breaks) := by
  have turns := ncclSocketInit_turns answers addr magic type
  rw [← cleared] at turns
  apply ((drives_ncclSocketInit answers addr magic type).turns turns).weaken
  · exact fun _ => id
  · exact fun _ _ ⟨only, went⟩ => ⟨only, went rfl⟩
  · exact fun _ _ => id

end Setup

/-! ## A transfer, call after call -/

/-- The first bytes were sent behind what was said before, and the offset says how many. -/
def Attempt.sends (attempt : Attempt) (said bytes : List UInt8) (count : Nat) : Attempt :=
  { attempt with stage.offset := count, comm.sock.sent := said ++ bytes.take count }

/-- More bytes were received and stored at the offset, which moved behind them. -/
def Attempt.hears (attempt : Attempt) (store : Nat → List UInt8 → Attempt → Attempt)
    (data : List UInt8) : Attempt :=
  { store attempt.stage.offset data
      { attempt with comm.sock.received := attempt.comm.sock.received ++ data } with
    stage.offset := attempt.stage.offset + data.length }

namespace Setup

variable {start : Attempt}

theorem progressSend_meets {said bytes : List UInt8} {point : Point}
    (called : point.called = true) (answers : List SendAnswer)
    (inside : start.stage.offset ≤ bytes.length)
    (sent : start.comm.sock.sent = said ++ bytes.take start.stage.offset) :
    Meets (fun now => now = start) (progressSend point bytes answers)
      (fun _ after => after = start.sends said bytes bytes.length)
      (fun exit after => exit.Breaks ∨
        exit = .again ∧ ∃ count < bytes.length, after = start.sends said bytes count) := by
  unfold progressSend
  apply Meets.get_bind
  rintro start rfl
  have fits := socketSend_count (bytes.drop start.stage.offset).length answers
  simp only [List.length_drop] at fits
  apply Meets.bind fun count after =>
    count ≤ bytes.length - start.stage.offset ∧
      after = { start with
        comm.sock.sent := said ++ bytes.take (start.stage.offset + count) }
  · unfold sendSome
    simp only [List.length_drop]
    generalize socketSend (bytes.length - start.stage.offset) answers = progress at fits
    have further : start.comm.sock.sent ++ (bytes.drop start.stage.offset).take progress.count =
        said ++ bytes.take (start.stage.offset + progress.count) := by
      rw [sent, List.append_assoc, ← List.take_add]
    apply Meets.bind fun _ after => after =
      { start with comm.sock.sent := said ++ bytes.take (start.stage.offset + progress.count) }
    · apply Meets.modify
      rintro _ rfl
      rw [← further]
    intro _
    apply Meets.ite
    · exact fun _ => Meets.pure fun _ same => ⟨fits, same⟩
    · exact fun _ => Meets.throw fun _ _ => Or.inl called
  intro count
  apply Meets.given
  intro fits
  apply Meets.bind fun _ after => after = start.sends said bytes (start.stage.offset + count)
  · apply Meets.modify
    rintro _ rfl
    rfl
  intro _
  apply Meets.ite
  · intro short
    apply Meets.throw
    rintro _ rfl
    exact Or.inr ⟨rfl, _, by omega, rfl⟩
  · intro whole
    rw [not_not] at whole
    apply Meets.pure
    rintro _ rfl
    rw [whole]

theorem progressRecv_meets {size : Nat} {store : Nat → List UInt8 → Attempt → Attempt}
    {point : Point} (called : point.called = true) (answers : List RecvAnswer)
    (inside : start.stage.offset ≤ size) :
    Meets (fun now => now = start) (progressRecv point size answers store)
      (fun _ after => ∃ data, start.stage.offset + data.length = size ∧
        after = start.hears store data)
      (fun exit after => exit.Breaks ∨
        exit = .again ∧ ∃ data, start.stage.offset + data.length < size ∧
          after = start.hears store data) := by
  unfold progressRecv
  apply Meets.get_bind
  rintro start rfl
  have fits := socketRecv_length (size - start.stage.offset) answers
  apply Meets.bind fun data after =>
    data.length ≤ size - start.stage.offset ∧
      after = { start with comm.sock.received := start.comm.sock.received ++ data }
  · unfold recvSome
    generalize socketRecv (size - start.stage.offset) answers = progress at fits
    apply Meets.bind fun _ after => after =
      { start with comm.sock.received := start.comm.sock.received ++ progress.data }
    · apply Meets.modify
      rintro _ rfl
      rfl
    intro _
    apply Meets.ite
    · exact fun _ => Meets.pure fun _ same => ⟨fits, same⟩
    · exact fun _ => Meets.throw fun _ _ => Or.inl called
  intro data
  apply Meets.given
  intro fits
  apply Meets.bind fun _ after => after = start.hears store data
  · apply Meets.modify
    rintro _ rfl
    rfl
  intro _
  apply Meets.ite
  · intro short
    apply Meets.throw
    rintro _ rfl
    exact Or.inr ⟨rfl, data, by omega, rfl⟩
  · intro whole
    rw [not_not] at whole
    apply Meets.pure
    rintro _ rfl
    exact ⟨data, whole, rfl⟩

end Setup

/-- Memory of a size that was cleared, and then filled from the front. -/
def filled (size : Nat) (heard : List UInt8) : List UInt8 :=
  heard ++ List.replicate (size - heard.length) 0

/-- Storing behind what is there fills more of it. -/
theorem overwrite_filled (size : Nat) (heard data : List UInt8) :
    overwrite (filled size heard) heard.length data = filled size (heard ++ data) := by
  have rest : size - heard.length - data.length = size - (heard ++ data).length := by
    rw [List.length_append]
    omega
  have behind : (heard ++ List.replicate (size - heard.length) (0 : UInt8)).drop
      (heard.length + data.length) =
        List.replicate (size - (heard ++ data).length) 0 := by
    rw [List.drop_length_add_append, List.drop_replicate, rest]
  unfold overwrite filled
  rw [List.take_left, behind]

theorem filled_whole (heard : List UInt8) : filled heard.length heard = heard := by
  simp [filled]

end NcclExts.Unet
