import NcclExts.Unet.Attempt

/-!
# The rounds of the socket state machine

One round of the socket state machine runs through the parts for the states of both sides.
What a part can leave of a socket is stated once, as a relation between the socket before,
the answers of the system calls, the exit and the socket after. A round of the side that
accepts and a round of the side that connects are composed of these.
-/

namespace NcclExts.Unet

open NcclExts.Foundation

/-- The bytes that identify a connection: the magic and the type. -/
def NcclSocket.preamble (sock : NcclSocket) : List UInt8 :=
  wordBytes 8 sock.magic ++ wordBytes 4 sock.type

/-- How `socketFinalizeAccept` can go out of a socket, and what it leaves of it. -/
inductive Finalized (sock : NcclSocket) (answers : SocketAnswers) :
    Option Exit → NcclSocket → Prop
  | sockopt (unset : answers.setsockopt = false) :
      Finalized sock answers (some (.failed .acceptSockopt .ncclSystemError)) sock
  | failed {data : List UInt8} (first : socketRecv 8 answers.recvMagic = ⟨data, false⟩) :
      Finalized sock answers (some (.failed .recvMagic .ncclRemoteError))
        { sock with received := sock.received ++ data }
  | quiet (first : socketRecv 8 answers.recvMagic = ⟨[], true⟩) :
      Finalized sock answers none sock
  | waiting {data : List UInt8} (first : socketRecv 8 answers.recvMagic = ⟨data, true⟩)
      (arrived : data ≠ [])
      (rest : socketWaitRecv (8 - data.length) answers.recvMagicRest = none) :
      Finalized sock answers (some (.waiting .recvMagic))
        { sock with received := sock.received ++ data }
  | cut {data more : List UInt8} (first : socketRecv 8 answers.recvMagic = ⟨data, true⟩)
      (arrived : data ≠ [])
      (rest : socketWaitRecv (8 - data.length) answers.recvMagicRest = some ⟨more, false⟩) :
      Finalized sock answers (some (.failed .recvMagic .ncclRemoteError))
        { sock with received := sock.received ++ data ++ more }
  | stranger {data more : List UInt8} (first : socketRecv 8 answers.recvMagic = ⟨data, true⟩)
      (arrived : data ≠ [])
      (rest : socketWaitRecv (8 - data.length) answers.recvMagicRest = some ⟨more, true⟩)
      (wrong : data ++ more ≠ wordBytes 8 sock.magic) :
      Finalized sock answers none
        { sock with
          received := sock.received ++ data ++ more, fd := none, state := .accepting }
  | typeWaiting {data more : List UInt8} (first : socketRecv 8 answers.recvMagic = ⟨data, true⟩)
      (arrived : data ≠ [])
      (rest : socketWaitRecv (8 - data.length) answers.recvMagicRest = some ⟨more, true⟩)
      (magic : data ++ more = wordBytes 8 sock.magic)
      (type : socketWaitRecv 4 answers.recvType = none) :
      Finalized sock answers (some (.waiting .recvType))
        { sock with received := sock.received ++ data ++ more }
  | typeCut {data more last : List UInt8}
      (first : socketRecv 8 answers.recvMagic = ⟨data, true⟩)
      (arrived : data ≠ [])
      (rest : socketWaitRecv (8 - data.length) answers.recvMagicRest = some ⟨more, true⟩)
      (magic : data ++ more = wordBytes 8 sock.magic)
      (type : socketWaitRecv 4 answers.recvType = some ⟨last, false⟩) :
      Finalized sock answers (some (.failed .recvType .ncclRemoteError))
        { sock with received := sock.received ++ data ++ more ++ last }
  | wrongType {data more last : List UInt8}
      (first : socketRecv 8 answers.recvMagic = ⟨data, true⟩)
      (arrived : data ≠ [])
      (rest : socketWaitRecv (8 - data.length) answers.recvMagicRest = some ⟨more, true⟩)
      (magic : data ++ more = wordBytes 8 sock.magic)
      (type : socketWaitRecv 4 answers.recvType = some ⟨last, true⟩)
      (wrong : last ≠ wordBytes 4 sock.type) :
      Finalized sock answers (some (.failed .wrongType .ncclInternalError))
        { sock with
          received := sock.received ++ data ++ more ++ last, fd := none, state := .error }
  | ready {data more last : List UInt8}
      (first : socketRecv 8 answers.recvMagic = ⟨data, true⟩)
      (arrived : data ≠ [])
      (rest : socketWaitRecv (8 - data.length) answers.recvMagicRest = some ⟨more, true⟩)
      (magic : data ++ more = wordBytes 8 sock.magic)
      (type : socketWaitRecv 4 answers.recvType = some ⟨last, true⟩)
      (right : last = wordBytes 4 sock.type) :
      Finalized sock answers none
        { sock with received := sock.received ++ data ++ more ++ last, state := .ready }

/-- How `socketTryAccept` can go out. -/
inductive Tried (sock : NcclSocket) : AcceptAnswer → Option Exit → NcclSocket → Prop
  | accepted (fd : Nat) :
      Tried sock (.accepted fd) none
        { sock with fd := some fd, sent := [], received := [], state := .accepted }
  | again : Tried sock .again none { sock with fd := none }
  | failed : Tried sock .failed (some (.failed .accept .ncclSystemError)) { sock with fd := none }

/-- How a round of a side that accepts can go out. -/
inductive AcceptRound (sock : NcclSocket) (answers : SocketAnswers) :
    Option Exit → NcclSocket → Prop
  | unaccepted {exit : Option Exit} {after : NcclSocket} (accepting : sock.state = .accepting)
      (tried : Tried sock answers.accept exit after) (still : after.state = .accepting) :
      AcceptRound sock answers exit after
  | accepting {fd : Nat} {exit : Option Exit} {after : NcclSocket}
      (accepting : sock.state = .accepting) (incoming : answers.accept = .accepted fd)
      (finalized : Finalized
        { sock with fd := some fd, sent := [], received := [], state := .accepted }
        answers exit after) : AcceptRound sock answers exit after
  | accepted {exit : Option Exit} {after : NcclSocket} (accepted : sock.state = .accepted)
      (finalized : Finalized sock answers exit after) : AcceptRound sock answers exit after

/-- How `socketFinalizeConnect` can go out. -/
inductive Finished (sock : NcclSocket) : Option Exit → NcclSocket → Prop
  | quiet : Finished sock none sock
  | failed (exit : Exit) (bytes : List UInt8) :
      Finished sock (some exit) { sock with sent := sock.sent ++ bytes }
  | ready : Finished sock none
      { sock with sent := sock.sent ++ sock.preamble, state := .ready }

/-- What `connect`, or the pending error of a polled socket, makes of the socket. -/
def NcclSocket.reply (sock : NcclSocket) : ConnectAnswer → NcclSocket
  | .connected => { sock with state := .connected }
  | .inProgress => { sock with state := .connectPolling }
  | .refused =>
    { sock with
      refusedRetries := sock.refusedRetries + 1
      state := if sock.refusedRetries + 1 = retryRefusedTimes then .error else .connecting }
  | .timedOut =>
    { sock with
      timedOutRetries := sock.timedOutRetries + 1
      state := if sock.timedOutRetries + 1 = retryTimedoutTimes then .error else .connecting }
  | .failed => { sock with state := .error }

/-- The pending error that polling the socket finds. -/
def PollAnswer.error : PollAnswer → Option ConnectAnswer
  | .pending error => some error
  | _ => none

/-- What a round finds out about connecting, by `connect` and by polling. -/
def SocketAnswers.met (answers : SocketAnswers) : NcclSocketState → List ConnectAnswer
  | .connecting =>
    answers.connect :: if answers.connect = .inProgress then answers.poll.error.toList else []
  | .connectPolling => answers.poll.error.toList
  | _ => []

/-- How a round of a side that connects can go out, once it found out what it could. -/
inductive ConnectRound (sock : NcclSocket) : Option Exit → NcclSocket → Prop
  | unconnected (exit : Option Exit)
      (still : sock.state = .error ∨ sock.state = .connecting ∨ sock.state = .connectPolling) :
      ConnectRound sock exit sock
  | connected {exit : Option Exit} {after : NcclSocket} (connected : sock.state = .connected)
      (finished : Finished sock exit after) : ConnectRound sock exit after

/-- Behind an accepted connection the socket is ready, or it still accepts. -/
theorem Finalized.state {sock after : NcclSocket} {answers : SocketAnswers}
    (finalized : Finalized sock answers none after) (accepted : sock.state = .accepted) :
    after.state = .accepting ∨ after.state = .accepted ∨ after.state = .ready := by
  cases finalized with
  | quiet => exact Or.inr (Or.inl accepted)
  | stranger => exact Or.inl rfl
  | ready => exact Or.inr (Or.inr rfl)

namespace Setup

/-- From the given socket, a part of a call goes out in one of the given ways. -/
def Turns (sock : NcclSocket) (part : Setup α) (ways : Option Exit → NcclSocket → Prop) :
    Prop :=
  Meets (fun attempt => attempt.comm.sock = sock) part (fun _ after => ways none after.comm.sock)
    (fun exit after => ways (some exit) after.comm.sock)

/-- A receive that does not wait. -/
theorem recvSome_meets (sock : NcclSocket) (point : Point) (wanted : Nat)
    (answers : List RecvAnswer) :
    Meets (fun attempt => attempt.comm.sock = sock) (recvSome point wanted answers)
      (fun data after => socketRecv wanted answers = ⟨data, true⟩ ∧
        after.comm.sock = { sock with received := sock.received ++ data })
      (fun exit after => exit = .failed point .ncclRemoteError ∧
        ∃ data, socketRecv wanted answers = ⟨data, false⟩ ∧
          after.comm.sock = { sock with received := sock.received ++ data }) := by
  unfold recvSome
  obtain ⟨data, ok⟩ := socketRecv wanted answers
  apply Meets.bind fun _ attempt =>
    attempt.comm.sock = { sock with received := sock.received ++ data }
  · apply Meets.modify
    rintro attempt rfl
    rfl
  intro _
  cases ok with
  | true => exact Meets.pure fun _ same => ⟨rfl, same⟩
  | false => exact Meets.throw fun _ same => ⟨rfl, data, rfl, same⟩

/-- A receive that waits until it is complete. -/
theorem recvAll_meets (sock : NcclSocket) (point : Point) (wanted : Nat)
    (answers : List RecvAnswer) :
    Meets (fun attempt => attempt.comm.sock = sock) (recvAll point wanted answers)
      (fun data after => socketWaitRecv wanted answers = some ⟨data, true⟩ ∧
        after.comm.sock = { sock with received := sock.received ++ data })
      (fun exit after =>
        (exit = .waiting point ∧ socketWaitRecv wanted answers = none ∧
          after.comm.sock = sock) ∨
        (exit = .failed point .ncclRemoteError ∧
          ∃ data, socketWaitRecv wanted answers = some ⟨data, false⟩ ∧
            after.comm.sock = { sock with received := sock.received ++ data })) := by
  unfold recvAll
  split
  next waits => exact Meets.throw fun _ same => Or.inl ⟨rfl, waits, same⟩
  next progress waited =>
    obtain ⟨data, ok⟩ := progress
    apply Meets.bind fun _ attempt =>
      attempt.comm.sock = { sock with received := sock.received ++ data }
    · apply Meets.modify
      rintro attempt rfl
      rfl
    intro _
    cases ok with
    | true => exact Meets.pure fun _ same => ⟨waited, same⟩
    | false => exact Meets.throw fun _ same => Or.inr ⟨rfl, data, waited, same⟩

theorem socketFinalizeAccept_turns (sock : NcclSocket) (answers : SocketAnswers) :
    Turns sock (socketFinalizeAccept answers) (Finalized sock answers) := by
  unfold Turns socketFinalizeAccept
  apply Meets.bind fun _ attempt => attempt.comm.sock = sock
  · apply Meets.ite
    · intro unset
      exact Meets.throw fun _ same => same ▸ .sockopt unset
    · exact fun _ => Meets.pure fun _ => id
  intro _
  apply Meets.bind fun data attempt => socketRecv 8 answers.recvMagic = ⟨data, true⟩ ∧
    attempt.comm.sock = { sock with received := sock.received ++ data }
  · apply (recvSome_meets sock .recvMagic 8 answers.recvMagic).weaken (fun _ => id) (fun _ _ => id)
    rintro _ after ⟨rfl, data, first, same⟩
    exact same ▸ .failed first
  intro data
  apply Meets.given
  intro first
  set got : NcclSocket := { sock with received := sock.received ++ data } with isGot
  apply Meets.ite
  swap
  · intro nothing
    apply Meets.pure
    rintro after same
    rw [not_not.mp nothing] at first isGot
    rw [same, isGot, List.append_nil]
    exact .quiet first
  intro arrived
  apply Meets.bind fun more attempt =>
    socketWaitRecv (8 - data.length) answers.recvMagicRest = some ⟨more, true⟩ ∧
      attempt.comm.sock = { got with received := got.received ++ more }
  · apply (recvAll_meets got .recvMagic _ answers.recvMagicRest).weaken (fun _ => id)
      (fun _ _ => id)
    rintro _ after (⟨rfl, rest, same⟩ | ⟨rfl, more, rest, same⟩)
    · exact same ▸ .waiting first arrived rest
    · exact same ▸ .cut first arrived rest
  intro more
  apply Meets.given
  intro rest
  apply Meets.get_bind
  intro attempt same
  rw [same]
  apply Meets.ite
  · intro wrong
    apply Meets.bind fun _ after => after.comm.sock =
      { got with received := got.received ++ more, fd := none }
    · apply Meets.modify
      rintro _ rfl
      rw [same]
    · intro _
      apply Meets.modify
      intro after closed
      rw [closed]
      exact .stranger first arrived rest wrong
  intro magic
  rw [not_not] at magic
  apply Meets.bind fun last after =>
    socketWaitRecv 4 answers.recvType = some ⟨last, true⟩ ∧
      after.comm.sock = { got with received := got.received ++ more ++ last }
  · apply (recvAll_meets { got with received := got.received ++ more } .recvType 4
      answers.recvType).weaken
    · rintro _ rfl
      exact same
    · exact fun _ _ => id
    · rintro _ after (⟨rfl, type, same⟩ | ⟨rfl, last, type, same⟩)
      · exact same ▸ .typeWaiting first arrived rest magic type
      · exact same ▸ .typeCut first arrived rest magic type
  intro last
  apply Meets.given
  intro type
  apply Meets.get_bind
  intro attempt same
  rw [same]
  apply Meets.ite
  · intro wrong
    apply Meets.bind fun _ after => after.comm.sock =
      { got with received := got.received ++ more ++ last, state := .error }
    · apply Meets.modify
      rintro _ rfl
      rw [same]
    intro _
    apply Meets.bind fun _ after => after.comm.sock =
      { got with received := got.received ++ more ++ last, state := .error, fd := none }
    · apply Meets.modify
      intro after same
      rw [same]
    intro _
    apply Meets.throw
    intro after same
    rw [same]
    exact .wrongType first arrived rest magic type wrong
  · intro right
    rw [not_not] at right
    apply Meets.modify
    rintro _ rfl
    rw [same]
    exact .ready first arrived rest magic type right

theorem Turns.bind {sock : NcclSocket} {part : Setup β} {next : β → Setup α}
    {ways goal : Option Exit → NcclSocket → Prop} (first : Turns sock part ways)
    (leaves : ∀ exit after, ways (some exit) after → goal (some exit) after)
    (rest : ∀ value after, ways none after → Turns after (next value) goal) :
    Turns sock (part >>= next) goal := by
  apply Meets.bind fun _ after => ways none after.comm.sock
  · exact Meets.weaken first (fun _ => id) (fun _ _ => id) (fun _ _ => leaves _ _)
  · exact fun value attempt went => rest value _ went attempt rfl

theorem Turns.weaken {sock : NcclSocket} {part : Setup α}
    {ways goal : Option Exit → NcclSocket → Prop} (turns : Turns sock part ways)
    (implied : ∀ exit after, ways exit after → goal exit after) : Turns sock part goal :=
  Meets.weaken turns (fun _ => id) (fun _ _ => implied _ _) (fun _ _ => implied _ _)

/-- A part of the socket state machine, in its state. -/
theorem whenState_runs {sock : NcclSocket} {state : NcclSocketState} {part : Setup PUnit}
    {ways : Option Exit → NcclSocket → Prop} (inState : sock.state = state)
    (turns : Turns sock part ways) : Turns sock (whenState state part) ways := by
  apply Meets.get_bind
  rintro attempt rfl
  unfold doIf
  rw [if_pos inState]
  exact Meets.weaken turns (fun _ same => same ▸ rfl) (fun _ _ => id) (fun _ _ => id)

/-- In another state, it goes on as it is. -/
theorem whenState_passes {sock : NcclSocket} {state : NcclSocketState} {part : Setup PUnit}
    (other : sock.state ≠ state) :
    Turns sock (whenState state part) (fun exit after => exit = none ∧ after = sock) := by
  apply Meets.get_bind
  rintro attempt rfl
  unfold doIf
  rw [if_neg other]
  exact Meets.pure fun _ same => ⟨rfl, same ▸ rfl⟩

/-- A part that does not concern the state in front of a program. -/
theorem Turns.pass {sock : NcclSocket} {state : NcclSocketState} {part : Setup PUnit}
    {next : PUnit → Setup α} {goal : Option Exit → NcclSocket → Prop}
    (other : sock.state ≠ state) (rest : Turns sock (next ⟨⟩) goal) :
    Turns sock (whenState state part >>= next) goal := by
  apply Turns.bind (whenState_passes other)
  · rintro exit after ⟨none, _⟩
    exact nomatch none
  · rintro ⟨⟩ after ⟨_, rfl⟩
    exact rest

theorem socketTryAccept_turns (sock : NcclSocket) (answer : AcceptAnswer) :
    Turns sock (socketTryAccept answer) (Tried sock answer) := by
  cases answer with
  | accepted fd =>
    apply Meets.bind fun _ after => after.comm.sock =
      { sock with fd := some fd, sent := [], received := [] }
    · apply Meets.modify
      rintro attempt rfl
      rfl
    · intro _
      apply Meets.modify
      intro after same
      rw [same]
      exact .accepted fd
  | again =>
    apply Meets.modify
    rintro attempt rfl
    exact .again
  | failed =>
    apply Meets.bind fun _ after => after.comm.sock = { sock with fd := none }
    · apply Meets.modify
      rintro attempt rfl
      rfl
    · exact fun _ => Meets.throw fun after same => same ▸ .failed

/-- A socket that accepted a connection, or still accepts, is left by the parts that
connect. -/
theorem accepted_passes {sock : NcclSocket} {answers : SocketAnswers}
    {goal : Option Exit → NcclSocket → Prop} (went : goal none sock)
    (incoming : sock.state = .accepting ∨ sock.state = .accepted ∨ sock.state = .ready) :
    Turns sock (do
      whenState .connecting (socketStartConnect answers.connect)
      whenState .connectPolling (socketPollConnect answers.poll)
      whenState .connected (socketFinalizeConnect answers)) goal := by
  apply Turns.pass
  · rcases incoming with state | state | state <;> rw [state] <;> decide
  apply Turns.pass
  · rcases incoming with state | state | state <;> rw [state] <;> decide
  apply (whenState_passes _).weaken
  · rintro exit after ⟨rfl, rfl⟩
    exact went
  · rcases incoming with state | state | state <;> rw [state] <;> decide

theorem accept_round {sock : NcclSocket} (answers : SocketAnswers)
    (incoming : sock.state = .accepting ∨ sock.state = .accepted) :
    Turns sock (socketProgressState answers) (AcceptRound sock answers) := by
  rcases incoming with accepting | accepted
  · apply Turns.bind (whenState_runs accepting (socketTryAccept_turns sock answers.accept))
    · intro exit after tried
      apply AcceptRound.unaccepted accepting tried
      generalize answers.accept = answer at tried
      cases tried with
      | failed => exact accepting
    rintro ⟨⟩ after tried
    generalize isAnswer : answers.accept = answer at tried
    cases tried with
    | accepted fd =>
      apply Turns.bind (whenState_runs rfl (socketFinalizeAccept_turns _ answers))
      · exact fun exit after finalized => .accepting accepting isAnswer finalized
      · intro value after finalized
        exact accepted_passes (.accepting accepting isAnswer finalized) (finalized.state rfl)
    | again =>
      apply Turns.pass
      · rw [accepting]
        decide
      · apply accepted_passes
        · exact .unaccepted accepting (isAnswer ▸ .again) accepting
        · exact Or.inl accepting
  · apply Turns.pass
    · rw [accepted]
      decide
    apply Turns.bind (whenState_runs accepted (socketFinalizeAccept_turns sock answers))
    · exact fun exit after finalized => .accepted accepted finalized
    · intro value after finalized
      exact accepted_passes (.accepted accepted finalized) (finalized.state accepted)

/-! ## The side that connects -/

/-- One more retry is counted, and the last of them is an error. -/
theorem retry_turns (last : NcclSocket → Prop) [DecidablePred last] (sock : NcclSocket)
    (count : NcclSocket → NcclSocket) (point : Point) :
    Turns sock (do
      setSock count
      let attempt ← get
      doIf (last attempt.comm.sock) do
        setState .error
        throw (.failed point .ncclRemoteError) : Setup PUnit)
      (fun exit after =>
        (last (count sock) ∧ exit ≠ none ∧ after = { count sock with state := .error }) ∨
          (¬ last (count sock) ∧ exit = none ∧ after = count sock)) := by
  apply Meets.bind fun _ after => after.comm.sock = count sock
  · apply Meets.modify
    rintro attempt rfl
    rfl
  intro _
  apply Meets.get_bind
  intro attempt same
  rw [same]
  apply Meets.ite
  · intro isLast
    apply Meets.bind fun _ after => after.comm.sock = { count sock with state := .error }
    · apply Meets.modify
      rintro _ rfl
      rw [same]
    · intro _
      exact Meets.throw fun after same => Or.inl ⟨isLast, nofun, same⟩
  · intro further
    apply Meets.pure
    rintro _ rfl
    exact Or.inr ⟨further, rfl, same⟩

theorem retryRefused_turns (sock : NcclSocket) (point : Point) :
    Turns sock (retryRefused point) (fun exit after =>
      (sock.refusedRetries + 1 = retryRefusedTimes ∧ exit ≠ none ∧
        after = { sock with refusedRetries := sock.refusedRetries + 1, state := .error }) ∨
      (sock.refusedRetries + 1 ≠ retryRefusedTimes ∧ exit = none ∧
        after = { sock with refusedRetries := sock.refusedRetries + 1 })) :=
  retry_turns (fun sock => sock.refusedRetries = retryRefusedTimes) sock _ point

theorem retryTimedout_turns (sock : NcclSocket) (point : Point) :
    Turns sock (retryTimedout point) (fun exit after =>
      (sock.timedOutRetries + 1 = retryTimedoutTimes ∧ exit ≠ none ∧
        after = { sock with timedOutRetries := sock.timedOutRetries + 1, state := .error }) ∨
      (sock.timedOutRetries + 1 ≠ retryTimedoutTimes ∧ exit = none ∧
        after = { sock with timedOutRetries := sock.timedOutRetries + 1 })) :=
  retry_turns (fun sock => sock.timedOutRetries = retryTimedoutTimes) sock _ point

theorem setState_turns (sock : NcclSocket) (state : NcclSocketState) :
    Turns sock (setState state) (fun exit after =>
      exit = none ∧ after = { sock with state := state }) := by
  apply Meets.modify
  rintro attempt rfl
  exact ⟨rfl, rfl⟩

/-- The socket goes where its reply sends it, and an error is one of them. -/
def Replied (sock : NcclSocket) (answer : ConnectAnswer) (exit : Option Exit)
    (after : NcclSocket) : Prop :=
  after = sock.reply answer ∧ (exit = none ↔ after.state ≠ .error)

theorem socketStartConnect_turns {sock : NcclSocket} (connecting : sock.state = .connecting)
    (answer : ConnectAnswer) :
    Turns sock (socketStartConnect answer) (Replied sock answer) := by
  cases answer with
  | connected =>
    apply (setState_turns sock .connected).weaken
    rintro exit after ⟨rfl, rfl⟩
    exact ⟨rfl, by simp⟩
  | inProgress =>
    apply (setState_turns sock .connectPolling).weaken
    rintro exit after ⟨rfl, rfl⟩
    exact ⟨rfl, by simp⟩
  | refused =>
    apply (retryRefused_turns sock .connect).weaken
    rintro exit after (⟨last, left, rfl⟩ | ⟨further, rfl, rfl⟩)
    · simp [Replied, NcclSocket.reply, last, left]
    · simp [Replied, NcclSocket.reply, further, connecting]
  | timedOut =>
    apply (retryTimedout_turns sock .connect).weaken
    rintro exit after (⟨last, left, rfl⟩ | ⟨further, rfl, rfl⟩)
    · simp [Replied, NcclSocket.reply, last, left]
    · simp [Replied, NcclSocket.reply, further, connecting]
  | failed =>
    apply Turns.bind (setState_turns sock .error)
    · rintro exit after ⟨none, _⟩
      exact nomatch none
    · rintro ⟨⟩ after ⟨_, rfl⟩
      exact Meets.throw fun _ same => ⟨same, by simp [same]⟩

theorem socketPollConnect_turns {sock : NcclSocket} (polling : sock.state = .connectPolling)
    (answer : PollAnswer) :
    Turns sock (socketPollConnect answer) (fun exit after =>
      (answer.error = none ∧ after = sock) ∨
        ∃ error, answer.error = some error ∧ Replied sock error exit after) := by
  cases answer with
  | notYet => exact Meets.pure fun _ same => Or.inl ⟨rfl, same⟩
  | failed => exact Meets.throw fun _ same => Or.inl ⟨rfl, same⟩
  | otherEvents => exact Meets.throw fun _ same => Or.inl ⟨rfl, same⟩
  | getsockoptFailed => exact Meets.throw fun _ same => Or.inl ⟨rfl, same⟩
  | pending error =>
    have replies : ∀ exit after, Replied sock error exit after →
        (PollAnswer.pending error).error = none ∧ after = sock ∨
          ∃ found, (PollAnswer.pending error).error = some found ∧
            Replied sock found exit after :=
      fun exit after replied => Or.inr ⟨error, rfl, replied⟩
    apply Turns.weaken _ replies
    cases error with
    | connected =>
      apply (setState_turns sock .connected).weaken
      rintro exit after ⟨rfl, rfl⟩
      exact ⟨rfl, by simp⟩
    | inProgress =>
      have same : { sock with state := .connectPolling } = sock := by rw [← polling]
      apply Meets.pure
      rintro attempt rfl
      exact ⟨same.symm, by simp [polling]⟩
    | refused =>
      apply Turns.bind (retryRefused_turns sock .poll)
      · rintro exit after (⟨last, _, rfl⟩ | ⟨_, none, _⟩)
        · simp [Replied, NcclSocket.reply, last]
        · exact nomatch none
      · rintro ⟨⟩ after (⟨_, none, _⟩ | ⟨further, _, rfl⟩)
        · exact absurd rfl none
        · apply (setState_turns _ .connecting).weaken
          rintro exit after ⟨rfl, rfl⟩
          simp [Replied, NcclSocket.reply, further]
    | timedOut =>
      apply Turns.bind (retryTimedout_turns sock .poll)
      · rintro exit after (⟨last, _, rfl⟩ | ⟨_, none, _⟩)
        · simp [Replied, NcclSocket.reply, last]
        · exact nomatch none
      · rintro ⟨⟩ after (⟨_, none, _⟩ | ⟨further, _, rfl⟩)
        · exact absurd rfl none
        · apply (setState_turns _ .connecting).weaken
          rintro exit after ⟨rfl, rfl⟩
          simp [Replied, NcclSocket.reply, further]
    | failed =>
      apply Turns.bind (setState_turns sock .error)
      · rintro exit after ⟨none, _⟩
        exact nomatch none
      · rintro ⟨⟩ after ⟨_, rfl⟩
        exact Meets.throw fun _ same => ⟨same, by simp [same]⟩

/-- A send that does not wait. -/
theorem sendSome_meets (sock : NcclSocket) (point : Point) (bytes : List UInt8)
    (answers : List SendAnswer) :
    Meets (fun attempt => attempt.comm.sock = sock) (sendSome point bytes answers)
      (fun count after =>
        after.comm.sock = { sock with sent := sock.sent ++ bytes.take count })
      (fun _ after => ∃ count,
        after.comm.sock = { sock with sent := sock.sent ++ bytes.take count }) := by
  unfold sendSome
  generalize socketSend bytes.length answers = progress
  apply Meets.bind fun _ attempt =>
    attempt.comm.sock = { sock with sent := sock.sent ++ bytes.take progress.count }
  · apply Meets.modify
    rintro attempt rfl
    rfl
  intro _
  apply Meets.ite
  · exact fun _ => Meets.pure fun _ => id
  · exact fun _ => Meets.throw fun _ same => ⟨_, same⟩

/-- A send that waits until it is complete. -/
theorem sendAll_meets (sock : NcclSocket) (point : Point) (bytes : List UInt8)
    (answers : List SendAnswer) :
    Meets (fun attempt => attempt.comm.sock = sock) (sendAll point bytes answers)
      (fun _ after => after.comm.sock = { sock with sent := sock.sent ++ bytes })
      (fun _ after => ∃ count,
        after.comm.sock = { sock with sent := sock.sent ++ bytes.take count }) := by
  unfold sendAll
  split
  next waits =>
    apply Meets.throw
    rintro attempt rfl
    exact ⟨0, by simp⟩
  next progress waited =>
    apply Meets.bind fun _ attempt =>
      attempt.comm.sock = { sock with sent := sock.sent ++ bytes.take progress.count }
    · apply Meets.modify
      rintro attempt rfl
      rfl
    intro _
    apply Meets.ite
    · intro ok
      apply Meets.pure
      intro after same
      rw [same, socketWaitSend_complete waited ok, List.take_length]
    · exact fun _ => Meets.throw fun _ same => ⟨_, same⟩

theorem socketFinalizeConnect_turns (sock : NcclSocket) (answers : SocketAnswers) :
    Turns sock (socketFinalizeConnect answers) (Finished sock) := by
  unfold Turns socketFinalizeConnect
  apply Meets.get_bind
  intro attempt same
  rw [same]
  set magic := wordBytes 8 sock.magic with isMagic
  apply Meets.bind fun count after =>
    after.comm.sock = { sock with sent := sock.sent ++ magic.take count }
  · apply (sendSome_meets sock .sendMagic magic answers.sendMagic).weaken
    · rintro _ rfl
      exact same
    · exact fun _ _ => id
    · rintro exit after ⟨count, same⟩
      exact same ▸ .failed exit _
  intro count
  apply Meets.ite
  swap
  · intro nothing
    apply Meets.pure
    intro after same
    rw [same, not_not.mp nothing, List.take_zero, List.append_nil]
    exact .quiet
  intro _
  apply Meets.bind fun _ after => after.comm.sock = { sock with sent := sock.sent ++ magic }
  · apply (sendAll_meets _ .sendMagic (magic.drop count) answers.sendMagicRest).weaken
      (fun _ => id)
    · intro _ after same
      rw [same, List.append_assoc, List.take_append_drop]
    · rintro exit after ⟨more, same⟩
      rw [same, List.append_assoc]
      exact .failed exit _
  intro _
  apply Meets.get_bind
  intro attempt same
  rw [same]
  apply Meets.bind fun _ after =>
    after.comm.sock = { sock with sent := sock.sent ++ sock.preamble }
  · apply (sendAll_meets { sock with sent := sock.sent ++ magic } .sendType
      (wordBytes 4 sock.type) answers.sendType).weaken
    · rintro _ rfl
      exact same
    · intro _ after same
      rw [same, List.append_assoc]
      rfl
    · rintro exit after ⟨more, same⟩
      rw [same, List.append_assoc]
      exact .failed exit _
  · intro _
    apply Meets.modify
    intro after same
    rw [same]
    exact .ready

/-- A reply is an error, lets the socket try again or poll, or connects it. -/
theorem reply_state (sock : NcclSocket) (answer : ConnectAnswer) :
    (sock.reply answer).state = .error ∨ (sock.reply answer).state = .connecting ∨
      (sock.reply answer).state = .connectPolling ∨ (sock.reply answer).state = .connected := by
  cases answer with
  | connected => exact Or.inr (Or.inr (Or.inr rfl))
  | inProgress => exact Or.inr (Or.inr (Or.inl rfl))
  | refused =>
    simp only [NcclSocket.reply]
    split_ifs
    · exact Or.inl rfl
    · exact Or.inr (Or.inl rfl)
  | timedOut =>
    simp only [NcclSocket.reply]
    split_ifs
    · exact Or.inl rfl
    · exact Or.inr (Or.inl rfl)
  | failed => exact Or.inl rfl

/-- A socket is polled right away exactly when connecting is in progress. -/
theorem reply_polling (sock : NcclSocket) (answer : ConnectAnswer) :
    (sock.reply answer).state = .connectPolling ↔ answer = .inProgress := by
  cases answer <;> simp [NcclSocket.reply] <;> split_ifs <;> simp

/-- The last part of a round sends the preamble on a connected socket. -/
theorem finishing_round {sock : NcclSocket} (answers : SocketAnswers)
    (outgoing : sock.state = .connecting ∨ sock.state = .connectPolling ∨
      sock.state = .connected) :
    Turns sock (whenState .connected (socketFinalizeConnect answers)) (ConnectRound sock) := by
  by_cases connected : sock.state = .connected
  · apply (whenState_runs connected (socketFinalizeConnect_turns sock answers)).weaken
    exact fun exit after finished => .connected connected finished
  · apply (whenState_passes connected).weaken
    rintro exit after ⟨rfl, rfl⟩
    refine .unconnected none (Or.inr ?_)
    rcases outgoing with state | state | state
    · exact Or.inl state
    · exact Or.inr state
    · exact absurd state connected

/-- The socket after a reply, when that is no error. -/
theorem Replied.outgoing {sock after : NcclSocket} {answer : ConnectAnswer}
    (replied : Replied sock answer none after) :
    after.state = .connecting ∨ after.state = .connectPolling ∨ after.state = .connected := by
  obtain ⟨rfl, working⟩ := replied
  rcases reply_state sock answer with failed | outgoing
  · exact absurd failed (working.mp rfl)
  · exact outgoing

/-- A reply that makes the round leave is an error. -/
theorem Replied.left {sock after : NcclSocket} {answer : ConnectAnswer} {exit : Exit}
    (replied : Replied sock answer (some exit) after) :
    ConnectRound (sock.reply answer) (some exit) after := by
  obtain ⟨rfl, working⟩ := replied
  refine .unconnected _ (Or.inl ?_)
  by_contra fine
  exact nomatch working.mpr fine

/-- The last two parts poll a socket that is connecting, and send the preamble on one that
is connected. -/
theorem polled_round {sock : NcclSocket} (answers : SocketAnswers)
    (outgoing : sock.state = .connecting ∨ sock.state = .connectPolling ∨
      sock.state = .connected) :
    Turns sock (do
      whenState .connectPolling (socketPollConnect answers.poll)
      whenState .connected (socketFinalizeConnect answers))
      (ConnectRound ((if sock.state = .connectPolling then answers.poll.error.toList
        else []).foldl NcclSocket.reply sock)) := by
  split_ifs with polling
  · apply Turns.bind (whenState_runs polling (socketPollConnect_turns polling answers.poll))
    · rintro exit after (⟨nothing, rfl⟩ | ⟨error, found, replied⟩)
      · rw [nothing]
        exact .unconnected _ (Or.inr (Or.inr polling))
      · rw [found]
        exact replied.left
    · rintro ⟨⟩ after (⟨nothing, rfl⟩ | ⟨error, found, replied⟩)
      · rw [nothing]
        exact finishing_round answers outgoing
      · rw [found, Option.toList_some, List.foldl_cons, List.foldl_nil, ← replied.1]
        exact finishing_round answers replied.outgoing
  · apply Turns.pass polling
    exact finishing_round answers outgoing

/-- How a round of a side that connects goes out: the socket is replied to, and is ready
once it sent its preamble. -/
theorem connect_round {sock : NcclSocket} (answers : SocketAnswers)
    (outgoing : sock.state = .connecting ∨ sock.state = .connectPolling ∨
      sock.state = .connected) :
    Turns sock (socketProgressState answers)
      (ConnectRound ((answers.met sock.state).foldl NcclSocket.reply sock)) := by
  have notAccepting : sock.state ≠ .accepting ∧ sock.state ≠ .accepted := by
    rcases outgoing with state | state | state <;> rw [state] <;> decide
  apply Turns.pass notAccepting.1
  apply Turns.pass notAccepting.2
  by_cases connecting : sock.state = .connecting
  · apply Turns.bind (whenState_runs connecting
      (socketStartConnect_turns connecting answers.connect))
    · intro exit after replied
      have first := replied.left
      have unpolled : answers.connect ≠ .inProgress := by
        intro inProgress
        have working : after.state ≠ .error := by
          rw [replied.1, (reply_polling sock _).mpr inProgress]
          decide
        exact nomatch replied.2.mpr working
      rw [connecting, SocketAnswers.met, if_neg unpolled]
      exact first
    · rintro ⟨⟩ after replied
      have round := polled_round answers replied.outgoing
      rw [replied.1] at round ⊢
      simp only [reply_polling] at round
      rw [connecting, SocketAnswers.met]
      exact round
  · apply Turns.pass connecting
    have round := polled_round answers outgoing
    split_ifs at round with polling
    · rw [polling]
      exact round
    · have connected : sock.state = .connected := by tauto
      rw [connected]
      exact round

end Setup

end NcclExts.Unet
