import NcclExts.Foundation.System
import NcclExts.Unet.Cleanup
import NcclExts.Unet.SocketMachine

/-!
# Driving a socket

A socket is connected, or made to accept, and then asked again and again whether it is
ready. Either side exchanges a preamble of twelve bytes first. A transfer that fails in the
middle leaves the socket where it is, so a call made after such an error starts the
preamble anew on the same descriptor: the bytes that failed calls moved come in addition.
-/

namespace NcclExts.Unet

open NcclExts.Foundation

/-- A call on a socket: the first one connects it, or makes it accept on a listening
socket, and the others ask whether it is ready. -/
inductive SocketCall where
  | connect (answers : Answers)
  | accept (answers : Answers) (listenSock : NcclSocket)
  | ready (answers : Answers)

/-- A socket that is driven, on the side that connects or the one that accepts; the bytes
that calls which returned an error had moved on its current descriptor; and what it found
out about connecting. -/
structure Driven where
  attempt : Attempt
  outgoing : Bool
  lost : List UInt8
  replies : List ConnectAnswer

namespace SocketCall

def program : SocketCall → Setup PUnit
  | .connect answers => Setup.ncclSocketConnect answers
  | .accept answers listenSock => Setup.ncclSocketAccept answers listenSock
  | .ready answers => do
    let _ ← Setup.ncclSocketReady answers
    pure ⟨⟩

/-- The side that is decided by the first call. -/
def outgoing (before : Bool) : SocketCall → Bool
  | .connect _ => true
  | .accept _ _ => false
  | .ready _ => before

/-- Whether the call can be made on the socket. -/
def Possible (sock : NcclSocket) : SocketCall → Prop
  | .connect _ => sock.state = .initialized ∧ sock.fd ≠ none
  | .accept _ _ => sock.state = .initialized
  | .ready _ => True

instance (sock : NcclSocket) (call : SocketCall) : Decidable (call.Possible sock) := by
  cases call <;> unfold Possible <;> infer_instance

/-- What the socket finds out about connecting during the call. -/
def met (state : NcclSocketState) : SocketCall → List ConnectAnswer
  | .connect answers =>
    if answers.outcome .connectSockopt = none then []
    else (answers.socket .starting).met .connecting
  | .accept _ _ => []
  | .ready answers => (answers.socket .asking).met state

end SocketCall

namespace Driven

def sock (driven : Driven) : NcclSocket := driven.attempt.comm.sock

/-- The bytes of the preamble that were moved. -/
def moved (outgoing : Bool) (sock : NcclSocket) : List UInt8 :=
  if outgoing then sock.sent else sock.received

/-- Connecting and accepting are called on a socket just initialized, and connecting needs a
descriptor. A call that waits for a transfer has not returned. -/
def step (driven : Driven) (call : SocketCall) : Option Driven :=
  if call.Possible driven.sock then
    let outgoing := call.outgoing driven.outgoing
    let replies := driven.replies ++ call.met driven.sock.state
    match call.program driven.attempt with
    | .ok _ after =>
      some ⟨after, outgoing, if driven.sock.state = .accepting then [] else driven.lost, replies⟩
    | .error (.waiting _) _ => none
    | .error _ after => some ⟨after, outgoing, moved outgoing after.comm.sock, replies⟩
  else none

end Driven

/-- A socket from its initialization on, through the calls of either side. -/
def drivingSocket : System Driven SocketCall where
  starts := fun driven => ∃ answers addr magic type process stage,
    Setup.ncclSocketInit answers addr magic type ⟨process, stage, .zero 0⟩ =
      .ok ⟨⟩ driven.attempt ∧ driven.lost = [] ∧ driven.replies = []
  step := Driven.step

/-! ## What holds of a driven socket -/

/-- A socket that was just initialized. -/
structure Untouched (sock : NcclSocket) : Prop where
  state : sock.state = .initialized
  sent : sock.sent = []
  received : sock.received = []
  refusedRetries : sock.refusedRetries = 0
  timedOutRetries : sock.timedOutRetries = 0

/-- A socket that accepts. -/
structure Incoming (lost : List UInt8) (sock : NcclSocket) : Prop where
  state : sock.state = .accepting ∨ sock.state = .accepted ∨ sock.state = .ready ∨
    sock.state = .error
  accepted : sock.state = .accepted → sock.received = lost
  ready : sock.state = .ready → sock.received = lost ++ sock.preamble

/-- A socket that connects. -/
structure Outgoing (lost : List UInt8) (replies : List ConnectAnswer) (sock : NcclSocket) :
    Prop where
  state : sock.state = .connecting ∨ sock.state = .connectPolling ∨ sock.state = .connected ∨
    sock.state = .ready ∨ sock.state = .error
  unsent : sock.state ≠ .ready → sock.state ≠ .error → sock.sent = lost
  ready : sock.state = .ready → sock.sent = lost ++ sock.preamble
  refused : sock.refusedRetries = replies.count .refused
  timedOut : sock.timedOutRetries = replies.count .timedOut
  tolerated : sock.state ≠ .error →
    sock.refusedRetries < retryRefusedTimes ∧ sock.timedOutRetries < retryTimedoutTimes

namespace Outgoing

variable {lost : List UInt8} {replies : List ConnectAnswer} {sock : NcclSocket}

/-- A reply is counted, and the last one that is counted is an error. -/
theorem reply (outgoing : Outgoing lost replies sock)
    (trying : sock.state = .connecting ∨ sock.state = .connectPolling) (answer : ConnectAnswer) :
    Outgoing lost (replies ++ [answer]) (sock.reply answer) := by
  have working : sock.state ≠ .error := by
    rcases trying with state | state <;> rw [state] <;> decide
  have unready : sock.state ≠ .ready := by
    rcases trying with state | state <;> rw [state] <;> decide
  have unsent := outgoing.unsent unready working
  have ⟨fewRefused, fewTimedOut⟩ := outgoing.tolerated working
  have refused := outgoing.refused
  have timedOut := outgoing.timedOut
  cases answer with
  | connected =>
    exact ⟨by simp [NcclSocket.reply], fun _ _ => unsent, by simp [NcclSocket.reply],
      by simpa [NcclSocket.reply],
      by simpa [NcclSocket.reply], fun _ => ⟨fewRefused, fewTimedOut⟩⟩
  | inProgress =>
    exact ⟨by simp [NcclSocket.reply], fun _ _ => unsent, by simp [NcclSocket.reply],
      by simpa [NcclSocket.reply],
      by simpa [NcclSocket.reply], fun _ => ⟨fewRefused, fewTimedOut⟩⟩
  | failed =>
    exact ⟨by simp [NcclSocket.reply], fun _ _ => unsent, by simp [NcclSocket.reply],
      by simpa [NcclSocket.reply],
      by simpa [NcclSocket.reply], fun working => absurd rfl working⟩
  | refused =>
    have counted :
        sock.refusedRetries + 1 = (replies ++ [ConnectAnswer.refused]).count .refused := by
      simp [refused]
    have others : sock.timedOutRetries = (replies ++ [ConnectAnswer.refused]).count .timedOut := by
      simp [timedOut]
    by_cases last : sock.refusedRetries + 1 = retryRefusedTimes
    · simp only [NcclSocket.reply, if_pos last]
      exact ⟨by simp, fun _ _ => unsent, by simp, counted, others, fun working => absurd rfl working⟩
    · simp only [NcclSocket.reply, if_neg last]
      exact ⟨by simp, fun _ _ => unsent, by simp, counted, others,
        fun _ => ⟨Nat.lt_of_le_of_ne fewRefused last, fewTimedOut⟩⟩
  | timedOut =>
    have counted :
        sock.timedOutRetries + 1 = (replies ++ [ConnectAnswer.timedOut]).count .timedOut := by
      simp [timedOut]
    have others : sock.refusedRetries = (replies ++ [ConnectAnswer.timedOut]).count .refused := by
      simp [refused]
    by_cases last : sock.timedOutRetries + 1 = retryTimedoutTimes
    · simp only [NcclSocket.reply, if_pos last]
      exact ⟨by simp, fun _ _ => unsent, by simp, others, counted, fun working => absurd rfl working⟩
    · simp only [NcclSocket.reply, if_neg last]
      exact ⟨by simp, fun _ _ => unsent, by simp, others, counted,
        fun _ => ⟨fewRefused, Nat.lt_of_le_of_ne fewTimedOut last⟩⟩

/-- What a round finds out is counted. -/
theorem met (outgoing : Outgoing lost replies sock) (answers : SocketAnswers) :
    Outgoing lost (replies ++ answers.met sock.state)
      ((answers.met sock.state).foldl NcclSocket.reply sock) := by
  have polled : ∀ {replies : List ConnectAnswer} {sock : NcclSocket},
      Outgoing lost replies sock → sock.state = .connectPolling →
        Outgoing lost (replies ++ answers.poll.error.toList)
          (answers.poll.error.toList.foldl NcclSocket.reply sock) := by
    intro replies sock outgoing polling
    cases answers.poll.error with
    | none => simpa using outgoing
    | some error => exact outgoing.reply (Or.inr polling) error
  by_cases connecting : sock.state = .connecting
  · have replied := outgoing.reply (Or.inl connecting) answers.connect
    rw [connecting, SocketAnswers.met, List.append_cons]
    split_ifs with inProgress
    · exact polled replied ((Setup.reply_polling sock _).mpr inProgress)
    · simpa using replied
  by_cases polling : sock.state = .connectPolling
  · rw [polling, SocketAnswers.met]
    exact polled outgoing polling
  · have nothing : answers.met sock.state = [] := by
      cases state : sock.state with
      | connecting => exact absurd state connecting
      | connectPolling => exact absurd state polling
      | _ => rfl
    simpa [nothing] using outgoing

/-- A socket after a round, when the call returns an error from it or goes on. -/
theorem round (outgoing : Outgoing lost replies sock) {exit : Option Exit} {after : NcclSocket}
    (went : ConnectRound sock exit after) :
    Outgoing (if exit = none then lost else after.sent) replies after := by
  cases went with
  | unconnected still =>
    have unready : sock.state ≠ .ready := by
      rcases still with state | state | state <;> rw [state] <;> decide
    refine ⟨outgoing.state, ?_, fun ready => absurd ready unready, outgoing.refused,
      outgoing.timedOut, outgoing.tolerated⟩
    intro _ working
    split_ifs
    · exact outgoing.unsent unready working
    · rfl
  | connected connected finished =>
    have unready : sock.state ≠ .ready := by rw [connected]; decide
    have working : sock.state ≠ .error := by rw [connected]; decide
    have unsent := outgoing.unsent unready working
    cases finished with
    | quiet => exact outgoing
    | failed exit bytes =>
      exact ⟨outgoing.state, fun _ _ => rfl, fun ready => absurd ready unready, outgoing.refused,
        outgoing.timedOut, outgoing.tolerated⟩
    | ready =>
      refine ⟨by simp, fun unready => absurd rfl unready, fun _ => ?_, outgoing.refused,
        outgoing.timedOut, fun _ => outgoing.tolerated working⟩
      rw [unsent]
      rfl

end Outgoing

/-- A socket with a connection, after the preamble was asked for. -/
theorem Finalized.incoming {lost : List UInt8} {sock after : NcclSocket} {answers : SocketAnswers}
    {exit : Option Exit} (finalized : Finalized sock answers exit after)
    (accepted : sock.state = .accepted) (unread : sock.received = lost) :
    Incoming (if exit = none then lost else after.received) after := by
  have unready : sock.state ≠ .ready := by rw [accepted]; decide
  have open' : ∀ received : List UInt8,
      Incoming received { sock with received := received } := fun received =>
    ⟨Or.inr (Or.inl accepted), fun _ => rfl, fun ready => absurd ready unready⟩
  cases finalized with
  | sockopt => exact open' sock.received
  | failed => exact open' _
  | quiet => exact unread ▸ open' sock.received
  | waiting => exact open' _
  | cut => exact open' _
  | stranger => exact ⟨Or.inl rfl, nofun, nofun⟩
  | typeWaiting => exact open' _
  | typeCut => exact open' _
  | wrongType => exact ⟨Or.inr (Or.inr (Or.inr rfl)), nofun, nofun⟩
  | ready first arrived rest magic type right =>
    refine ⟨Or.inr (Or.inr (Or.inl rfl)), nofun, fun _ => ?_⟩
    rw [NcclSocket.preamble, ← magic, ← right]
    simp [unread]

/-- A socket that accepts, after a round. -/
theorem Incoming.round (lost : List UInt8) {sock after : NcclSocket} {answers : SocketAnswers}
    {exit : Option Exit} (unread : sock.state = .accepted → sock.received = lost)
    (went : AcceptRound sock answers exit after) :
    Incoming (if exit = none then if sock.state = .accepting then [] else lost else after.received)
      after := by
  cases went with
  | unaccepted accepting tried still => exact ⟨Or.inl still, by simp [still], by simp [still]⟩
  | accepting accepting incoming finalized =>
    rw [if_pos accepting]
    exact finalized.incoming rfl rfl
  | accepted accepted finalized =>
    have unaccepting : sock.state ≠ .accepting := by rw [accepted]; decide
    rw [if_neg unaccepting]
    exact finalized.incoming accepted (unread accepted)

/-- The states that the check at the end refuses are errors. -/
theorem ConnectRound.checked {sock after : NcclSocket} (went : ConnectRound sock none after)
    (outside : after.state ∉ [NcclSocketState.connecting, .connectPolling, .connected, .ready])
    (exit : Option Exit) : ConnectRound sock exit after := by
  cases went with
  | unconnected still => exact .unconnected exit still
  | connected connected finished =>
    cases finished with
    | quiet => simp [connected] at outside
    | ready => simp at outside

/-- After a round that went well, the socket accepts, is accepted, or is ready. -/
theorem AcceptRound.state {sock after : NcclSocket} {answers : SocketAnswers}
    (went : AcceptRound sock answers none after) :
    after.state ∈ [NcclSocketState.accepting, .accepted, .ready] := by
  cases went with
  | unaccepted accepting tried still => simp [still]
  | accepting accepting incoming finalized => simpa using finalized.state rfl
  | accepted accepted finalized => simpa using finalized.state accepted

namespace Setup

/-- The check at the end lets the states through that it names. -/
theorem checkState_turns (sock : NcclSocket) (states : List NcclSocketState) :
    Turns sock (checkState states) (fun exit after =>
      after = sock ∧ (exit = none ↔ sock.state ∈ states)) := by
  apply Meets.get_bind
  rintro attempt rfl
  apply Meets.ite
  · intro outside
    apply Meets.throw
    rintro _ rfl
    exact ⟨rfl, by simpa using outside⟩
  · intro inside
    apply Meets.pure
    rintro _ rfl
    exact ⟨rfl, by simpa using inside⟩

/-- Asking whether a socket is ready: an error or a closed socket is refused, a ready one is
ready, and any other one makes a round. -/
theorem ncclSocketReady_turns {sock : NcclSocket} {answers : Answers}
    {ways : Option Exit → NcclSocket → Prop}
    (round : Turns sock (socketProgressState (answers.socket .asking)) ways) :
    Turns sock (ncclSocketReady answers) (fun exit after =>
      ((sock.state = .error ∨ sock.state = .closed) ∧ exit ≠ none ∧ after = sock) ∨
      (sock.state = .ready ∧ exit = none ∧ after = sock) ∨
      (sock.state ≠ .error ∧ sock.state ≠ .closed ∧ sock.state ≠ .ready ∧ ways exit after)) := by
  apply Meets.get_bind
  intro attempt same
  rw [same]
  apply Meets.bind fun _ after => (sock.state ≠ .error ∧ sock.state ≠ .closed) ∧
    after.comm.sock = sock
  · apply Meets.ite
    · intro refused
      apply Meets.throw
      rintro _ rfl
      exact Or.inl ⟨refused, nofun, same⟩
    · intro fine
      apply Meets.pure
      rintro _ rfl
      exact ⟨not_or.mp fine, same⟩
  intro _
  apply Meets.given
  rintro ⟨working, unclosed⟩
  apply Meets.bind fun _ after => (sock.state = .ready ∧ after.comm.sock = sock) ∨
    (sock.state ≠ .ready ∧ ways none after.comm.sock)
  · apply Meets.ite
    · intro unready
      exact Meets.weaken round (fun _ => id) (fun _ _ went => Or.inr ⟨unready, went⟩)
        (fun _ _ went => Or.inr (Or.inr ⟨working, unclosed, unready, went⟩))
    · intro ready
      exact Meets.pure fun _ same => Or.inl ⟨not_not.mp ready, same⟩
  intro _
  apply Meets.get_bind
  rintro attempt (⟨ready, same⟩ | ⟨unready, went⟩)
  · apply Meets.pure
    rintro _ rfl
    exact Or.inr (Or.inl ⟨ready, rfl, same⟩)
  · apply Meets.pure
    rintro _ rfl
    exact Or.inr (Or.inr ⟨working, unclosed, unready, went⟩)

/-- What connecting leaves: nothing new when an option of the socket cannot be set, and what
a round leaves otherwise. -/
def Connects (sock : NcclSocket) (answers : Answers) (exit : Option Exit) (after : NcclSocket) :
    Prop :=
  (answers.outcome .connectSockopt = none ∧ exit ≠ none ∧ after = sock) ∨
    (answers.outcome .connectSockopt ≠ none ∧
      ConnectRound (((answers.socket .starting).met .connecting).foldl NcclSocket.reply
        { sock with state := .connecting }) exit after)

theorem ncclSocketConnect_turns (sock : NcclSocket) (answers : Answers) :
    Turns sock (ncclSocketConnect answers) (Connects sock answers) := by
  unfold ncclSocketConnect
  apply Meets.bind fun _ after => answers.outcome .connectSockopt ≠ none ∧
    after.comm.sock = sock
  · unfold demand
    split
    next handle given => exact Meets.pure fun _ same => ⟨by simp [given], same⟩
    next unset => exact Meets.throw fun _ same => Or.inl ⟨unset, nofun, same⟩
  intro _
  apply Meets.given
  intro set
  change Turns sock _ (Connects sock answers)
  apply Turns.bind (setState_turns sock .connecting)
  · rintro exit after ⟨none, _⟩
    exact nomatch none
  rintro _ after ⟨_, rfl⟩
  apply Turns.bind (connect_round (answers.socket .starting) (Or.inl rfl))
  · exact fun exit after went => Or.inr ⟨set, went⟩
  intro _ after went
  apply (checkState_turns after _).weaken
  rintro exit _ ⟨rfl, checked⟩
  refine Or.inr ⟨set, ?_⟩
  cases exit with
  | none => exact went
  | some exit => exact went.checked (fun inside => nomatch checked.mpr inside) _

/-- What accepting leaves: nothing new on a listening socket that is not ready, and what a
round leaves otherwise. -/
def Accepts (sock listenSock : NcclSocket) (answers : Answers) (exit : Option Exit)
    (after : NcclSocket) : Prop :=
  (exit ≠ none ∧ after = sock) ∨
    AcceptRound { listenSock with acceptFd := listenSock.fd, state := .accepting }
      (answers.socket .starting) exit after

theorem ncclSocketAccept_turns (sock listenSock : NcclSocket) (answers : Answers) :
    Turns sock (ncclSocketAccept answers listenSock) (Accepts sock listenSock answers) := by
  unfold ncclSocketAccept
  apply Meets.bind fun _ after => after.comm.sock = sock
  · apply Meets.ite
    · exact fun _ => Meets.throw fun _ same => Or.inl ⟨nofun, same⟩
    · exact fun _ => Meets.pure fun _ => id
  intro _
  apply Meets.bind fun _ after => after.comm.sock =
    { listenSock with acceptFd := listenSock.fd, state := .accepting }
  · apply Meets.modify
    rintro attempt rfl
    rfl
  intro _
  change Turns _ _ (Accepts sock listenSock answers)
  apply Turns.bind (accept_round (answers.socket .starting) (Or.inl rfl))
  · exact fun exit after went => Or.inr went
  intro _ after went
  apply (checkState_turns after _).weaken
  rintro exit _ ⟨rfl, checked⟩
  cases exit with
  | none => exact Or.inr went
  | some exit => exact nomatch checked.mpr went.state

end Setup

namespace Setup

/-- What asking leaves of a socket, given what a round can leave. -/
def Asks (sock : NcclSocket) (ways : Option Exit → NcclSocket → Prop) (exit : Option Exit)
    (after : NcclSocket) : Prop :=
  ((sock.state = .error ∨ sock.state = .closed) ∧ exit ≠ none ∧ after = sock) ∨
    (sock.state = .ready ∧ exit = none ∧ after = sock) ∨
    (sock.state ≠ .error ∧ sock.state ≠ .closed ∧ sock.state ≠ .ready ∧ ways exit after)

theorem asks_turns {sock : NcclSocket} {answers : Answers}
    {ways : Option Exit → NcclSocket → Prop}
    (round : Turns sock (socketProgressState (answers.socket .asking)) ways) :
    Turns sock (SocketCall.ready answers).program (Asks sock ways) := by
  apply Turns.bind (ncclSocketReady_turns round)
  · exact fun _ _ => id
  · intro _ after went
    exact Meets.pure fun _ same => same ▸ went

theorem turns_anyhow (sock : NcclSocket) (part : Setup α) :
    Turns sock part (fun _ _ => True) := by
  intro attempt _
  cases part attempt <;> exact True.intro

/-- A round on a socket that was just initialized. -/
theorem initialized_round {sock : NcclSocket} (answers : SocketAnswers)
    (initialized : sock.state = .initialized) :
    Turns sock (socketProgressState answers) (fun exit after => exit = none ∧ after = sock) := by
  apply Turns.pass (by rw [initialized]; decide)
  apply Turns.pass (by rw [initialized]; decide)
  apply Turns.pass (by rw [initialized]; decide)
  apply Turns.pass (by rw [initialized]; decide)
  exact whenState_passes (by rw [initialized]; decide)

end Setup

/-! ## Every driven socket -/

/-- What holds of a socket between two calls. -/
def Driven.Sound (driven : Driven) : Prop :=
  (Untouched driven.sock ∧ driven.lost = [] ∧ driven.replies = []) ∨
    (driven.outgoing = false ∧ Incoming driven.lost driven.sock ∧ driven.replies = []) ∨
    (driven.outgoing = true ∧ Outgoing driven.lost driven.replies driven.sock)

namespace Driven

variable {driven after : Driven}

/-- What a call that returned left. -/
theorem step_cases {call : SocketCall} (stepped : driven.step call = some after) :
    ∃ exit, call.Possible driven.sock ∧
      (∀ ways, Setup.Turns driven.sock call.program ways → ways exit after.sock) ∧
      after.outgoing = call.outgoing driven.outgoing ∧
      after.replies = driven.replies ++ call.met driven.sock.state ∧
      after.lost = if exit = none then if driven.sock.state = .accepting then [] else driven.lost
        else moved after.outgoing after.sock := by
  unfold step at stepped
  split at stepped
  next possible =>
    have went := fun ways (turns : Setup.Turns driven.sock call.program ways) =>
      turns driven.attempt rfl
    cases ran : call.program driven.attempt with
    | ok value later =>
      rw [ran] at stepped
      simp only [ran] at went
      rw [← Option.some.inj stepped]
      exact ⟨none, possible, went, rfl, rfl, rfl⟩
    | error exit later =>
      rw [ran] at stepped
      simp only [ran] at went
      cases exit with
      | waiting point => exact nomatch stepped
      | again =>
        rw [← Option.some.inj stepped]
        exact ⟨some _, possible, went, rfl, rfl, rfl⟩
      | failed point result =>
        rw [← Option.some.inj stepped]
        exact ⟨some _, possible, went, rfl, rfl, rfl⟩
      | bailed point result =>
        rw [← Option.some.inj stepped]
        exact ⟨some _, possible, went, rfl, rfl, rfl⟩
  next => exact nomatch stepped

/-- A socket that was just initialized starts one of the two sides. -/
theorem Sound.untouched (sound : driven.Sound) (initialized : driven.sock.state = .initialized) :
    Untouched driven.sock ∧ driven.lost = [] ∧ driven.replies = [] := by
  rcases sound with untouched | ⟨_, incoming, _⟩ | ⟨_, outgoing⟩
  · exact untouched
  · have state := incoming.state
    rw [initialized] at state
    simp at state
  · have state := outgoing.state
    rw [initialized] at state
    simp at state

theorem Sound.connect (sound : driven.Sound) {answers : Answers}
    (stepped : driven.step (.connect answers) = some after) : after.Sound := by
  obtain ⟨exit, possible, went, side, replies, lost⟩ := step_cases stepped
  obtain ⟨untouched, noneLost, noReplies⟩ := sound.untouched possible.1
  rw [noReplies, List.nil_append, SocketCall.met] at replies
  rw [noneLost, ite_self, side] at lost
  rcases went _ (Setup.ncclSocketConnect_turns _ answers) with
    ⟨unset, left, same⟩ | ⟨set, round⟩
  · rw [if_pos unset] at replies
    rw [if_neg left, same] at lost
    exact Or.inl ⟨same ▸ untouched, lost.trans untouched.sent, replies⟩
  · rw [if_neg set] at replies
    have started : Outgoing [] [] { driven.sock with state := .connecting } :=
      ⟨Or.inl rfl, fun _ _ => untouched.sent, nofun, untouched.refusedRetries,
        untouched.timedOutRetries, fun _ => by
          simp [untouched.refusedRetries, untouched.timedOutRetries, retryRefusedTimes,
            retryTimedoutTimes]⟩
    have outgoing := (started.met (answers.socket .starting)).round round
    rw [List.nil_append] at outgoing
    refine Or.inr (Or.inr ⟨side, ?_⟩)
    rw [lost, replies]
    exact outgoing

theorem Sound.accept (sound : driven.Sound) {answers : Answers} {listenSock : NcclSocket}
    (stepped : driven.step (.accept answers listenSock) = some after) : after.Sound := by
  obtain ⟨exit, possible, went, side, replies, lost⟩ := step_cases stepped
  obtain ⟨untouched, noneLost, noReplies⟩ := sound.untouched possible
  rw [noReplies] at replies
  rw [noneLost, ite_self, side] at lost
  rcases went _ (Setup.ncclSocketAccept_turns _ listenSock answers) with ⟨left, same⟩ | round
  · rw [if_neg left, same] at lost
    exact Or.inl ⟨same ▸ untouched, lost.trans untouched.received, replies⟩
  · have incoming := Incoming.round [] (by simp) round
    rw [if_pos rfl] at incoming
    refine Or.inr (Or.inl ⟨side, ?_, replies⟩)
    rw [lost]
    exact incoming

/-- A socket that is ready, or in error, stays as it is when it is asked. -/
theorem ready_settled {answers : Answers} (stepped : driven.step (.ready answers) = some after)
    (settled : driven.sock.state = .ready ∨ driven.sock.state = .error ∨
      driven.sock.state = .closed) :
    after.sock = driven.sock ∧ after.replies = driven.replies ∧
      (driven.sock.state = .ready → after.lost = driven.lost) := by
  obtain ⟨exit, _, went, _, replies, lost⟩ := step_cases stepped
  have unanswered : SocketCall.met driven.sock.state (.ready answers) = [] := by
    rcases settled with state | state | state <;> rw [state] <;> rfl
  rw [unanswered, List.append_nil] at replies
  rcases went _ (Setup.asks_turns (Setup.turns_anyhow _ _)) with
    ⟨refused, _, same⟩ | ⟨ready, none, same⟩ | ⟨working, unclosed, unready, _⟩
  · refine ⟨same, replies, fun ready => ?_⟩
    rw [ready] at refused
    simp at refused
  · refine ⟨same, replies, fun _ => ?_⟩
    rw [lost, if_pos none, if_neg (by rw [ready]; decide)]
  · tauto

theorem Sound.ready (sound : driven.Sound) {answers : Answers}
    (stepped : driven.step (.ready answers) = some after) : after.Sound := by
  obtain ⟨exit, _, went, side, replies, lost⟩ := step_cases stepped
  rcases sound with ⟨untouched, noneLost, noReplies⟩ | ⟨accepts, incoming, noReplies⟩ |
    ⟨connects, outgoing⟩
  · rw [noReplies, untouched.state] at replies
    rcases went _ (Setup.asks_turns (Setup.initialized_round _ untouched.state)) with
      ⟨refused, _, _⟩ | ⟨ready, _, _⟩ | ⟨_, _, _, none, same⟩
    · rw [untouched.state] at refused
      simp at refused
    · rw [untouched.state] at ready
      simp at ready
    · rw [if_pos none, noneLost, ite_self] at lost
      exact Or.inl ⟨same ▸ untouched, lost, replies⟩
  · by_cases waiting : driven.sock.state = .accepting ∨ driven.sock.state = .accepted
    · have unanswered : SocketCall.met driven.sock.state (.ready answers) = [] := by
        rcases waiting with state | state <;> rw [state] <;> rfl
      rw [unanswered, noReplies] at replies
      rcases went _ (Setup.asks_turns (Setup.accept_round _ waiting)) with
        ⟨refused, _, _⟩ | ⟨ready, _, _⟩ | ⟨_, _, _, round⟩
      · rcases waiting with state | state <;> rw [state] at refused <;> simp at refused
      · rcases waiting with state | state <;> rw [state] at ready <;> simp at ready
      · have now := Incoming.round driven.lost incoming.accepted round
        rw [side] at lost
        simp only [SocketCall.outgoing, moved, accepts, Bool.false_eq_true, if_false] at lost
        exact Or.inr (Or.inl ⟨side.trans accepts, lost ▸ now, replies⟩)
    · have settled : driven.sock.state = .ready ∨ driven.sock.state = .error ∨
          driven.sock.state = .closed := by
        have states := incoming.state
        tauto
      obtain ⟨same, unanswered, kept⟩ := ready_settled stepped settled
      refine Or.inr (Or.inl ⟨side.trans accepts, ?_, unanswered.trans noReplies⟩)
      rw [same]
      exact ⟨incoming.state, fun accepted => absurd (Or.inr accepted) waiting,
        fun ready => kept ready ▸ incoming.ready ready⟩
  · by_cases trying : driven.sock.state = .connecting ∨ driven.sock.state = .connectPolling ∨
        driven.sock.state = .connected
    · rcases went _ (Setup.asks_turns (Setup.connect_round _ trying)) with
        ⟨refused, _, _⟩ | ⟨ready, _, _⟩ | ⟨_, _, _, round⟩
      · rcases trying with state | state | state <;> rw [state] at refused <;> simp at refused
      · rcases trying with state | state | state <;> rw [state] at ready <;> simp at ready
      · have now := (outgoing.met (answers.socket .asking)).round round
        have unaccepting : driven.sock.state ≠ .accepting := by
          rcases trying with state | state | state <;> rw [state] <;> decide
        rw [if_neg unaccepting, side] at lost
        simp only [SocketCall.outgoing, moved, connects, if_true] at lost
        exact Or.inr (Or.inr ⟨side.trans connects, lost ▸ replies ▸ now⟩)
    · have settled : driven.sock.state = .ready ∨ driven.sock.state = .error ∨
          driven.sock.state = .closed := by
        have states := outgoing.state
        tauto
      obtain ⟨same, unanswered, kept⟩ := ready_settled stepped settled
      refine Or.inr (Or.inr ⟨side.trans connects, ?_⟩)
      rw [same, unanswered]
      refine ⟨outgoing.state, fun unready working => ?_,
        fun ready => kept ready ▸ outgoing.ready ready, outgoing.refused, outgoing.timedOut,
        outgoing.tolerated⟩
      have states := outgoing.state
      tauto

theorem Sound.step {call : SocketCall} (sound : driven.Sound)
    (stepped : driven.step call = some after) : after.Sound := by
  cases call with
  | connect answers => exact sound.connect stepped
  | accept answers listenSock => exact sound.accept stepped
  | ready answers => exact sound.ready stepped

/-- A socket in error, or closed, stays so. -/
theorem Sound.stays {call : SocketCall} (stepped : driven.step call = some after)
    (stuck : driven.sock.state = .error ∨ driven.sock.state = .closed) :
    after.sock.state = driven.sock.state := by
  have unstarted : driven.sock.state ≠ .initialized := by
    rcases stuck with state | state <;> rw [state] <;> decide
  obtain ⟨_, possible, _⟩ := step_cases stepped
  cases call with
  | connect answers => exact absurd possible.1 unstarted
  | accept answers listenSock => exact absurd possible unstarted
  | ready answers => rw [(ready_settled stepped (Or.inr stuck)).1]

end Driven

namespace Setup

/-- A descriptor is opened for a socket that was not used. -/
theorem openSocket_turns {sock : NcclSocket} (untouched : Untouched sock) (answers : Answers) :
    Turns sock (openSocket answers) (fun exit after => exit = none →
      Untouched after ∧ after.magic = sock.magic ∧ after.type = sock.type) := by
  unfold openSocket
  apply Meets.bind fun _ attempt => attempt.comm.sock = sock
  · unfold demand
    split
    · exact Meets.pure fun _ => id
    · exact Meets.throw fun _ _ => nofun
  intro fd
  apply Meets.bind fun _ attempt =>
    attempt.comm.sock = { sock with fd := some fd, sent := [], received := [] }
  · apply Meets.modify
    rintro _ rfl
    rfl
  intro _
  apply Meets.ite
  · intro _
    apply Meets.bind fun _ _ => True
    · exact Meets.modify fun _ _ => True.intro
    · exact fun _ => Meets.throw fun _ _ => nofun
  · intro _
    apply Meets.pure
    intro _ same _
    rw [same]
    exact ⟨⟨untouched.state, rfl, rfl, untouched.refusedRetries, untouched.timedOutRetries⟩,
      rfl, rfl⟩

/-- Initializing a cleared socket leaves it untouched. -/
theorem ncclSocketInit_turns (answers : Answers) (addr : Option SockFamily) (magic type : Nat) :
    Turns .zero (ncclSocketInit answers addr magic type) (fun exit after => exit = none →
      Untouched after ∧ after.magic = magic ∧ after.type = type) := by
  unfold ncclSocketInit
  set cleared : NcclSocket :=
    { NcclSocket.zero with
      timedOutRetries := 0, refusedRetries := 0, state := .initialized, magic := magic,
      type := type, fd := none, acceptFd := none }
  have untouched : Untouched cleared := ⟨rfl, rfl, rfl, rfl, rfl⟩
  apply Meets.bind fun _ attempt => attempt.comm.sock = cleared
  · apply Meets.modify
    intro _ same
    rw [same]
  intro _
  split
  · apply Meets.pure
    intro _ same _
    rw [same]
    exact ⟨untouched, rfl, rfl⟩
  · exact Meets.throw fun _ _ => nofun
  · exact openSocket_turns untouched answers
  · exact openSocket_turns untouched answers

end Setup

theorem Setup.ncclSocketInit_untouched {answers : Answers} {addr : Option SockFamily}
    {magic type : Nat} {process : Process} {stage : NcclIbCommStage} {after : Attempt}
    (ran : ncclSocketInit answers addr magic type ⟨process, stage, .zero 0⟩ = .ok ⟨⟩ after) :
    Untouched after.comm.sock := by
  have met := ncclSocketInit_turns answers addr magic type ⟨process, stage, .zero 0⟩ rfl
  rw [ran] at met
  exact (met rfl).1

/-- Whatever the system calls answer, a socket that accepts is ready only after it received
its preamble, and one that connects only after it sent its own, apart from what calls that
returned an error had moved on the descriptor before; an error is never left; and only so
many refused connections and timeouts are not an error. -/
theorem socket_machine {driven : Driven} (reached : drivingSocket.Reachable driven) :
    (driven.sock.state = .ready → driven.outgoing = false →
      driven.sock.received = driven.lost ++ driven.sock.preamble) ∧
    (driven.sock.state = .ready → driven.outgoing = true →
      driven.sock.sent = driven.lost ++ driven.sock.preamble) ∧
    (driven.sock.state = .error ∨ driven.sock.state = .closed →
      ∀ call after, driven.step call = some after → after.sock.state = driven.sock.state) ∧
    (driven.sock.state ≠ .error →
      driven.replies.count .refused < 20000 ∧ driven.replies.count .timedOut < 3) := by
  have sound : driven.Sound := by
    apply reached.invariant
    · rintro state ⟨answers, addr, magic, type, process, stage, ran, lost, replies⟩
      exact Or.inl ⟨Setup.ncclSocketInit_untouched ran, lost, replies⟩
    · exact fun state call after sound stepped => sound.step stepped
  refine ⟨?_, ?_, fun stuck call after stepped => Driven.Sound.stays stepped stuck, ?_⟩
  · intro ready accepts
    rcases sound with ⟨untouched, _⟩ | ⟨_, incoming, _⟩ | ⟨connects, _⟩
    · exact nomatch ready.symm.trans untouched.state
    · exact incoming.ready ready
    · exact nomatch accepts.symm.trans connects
  · intro ready connects
    rcases sound with ⟨untouched, _⟩ | ⟨accepts, _, _⟩ | ⟨_, outgoing⟩
    · exact nomatch ready.symm.trans untouched.state
    · exact nomatch accepts.symm.trans connects
    · exact outgoing.ready ready
  · intro working
    rcases sound with ⟨_, _, none⟩ | ⟨_, _, none⟩ | ⟨_, outgoing⟩
    · simp [none]
    · simp [none]
    · rw [← outgoing.refused, ← outgoing.timedOut]
      exact outgoing.tolerated working


/-- A socket that was just initialized without an address. -/
def Driven.sample : Driven :=
  { attempt :=
      { Attempt.sample with
        comm.sock := { NcclSocket.zero with state := .initialized, fd := none, acceptFd := none } }
    outgoing := false, lost := [], replies := [] }

theorem Driven.sample_starts : drivingSocket.starts .sample :=
  ⟨.failing none .again, none, 0, 0, _, _, rfl, rfl, rfl⟩

/-- Answers for a connection, whose preamble arrives in the given pieces. -/
def Answers.incoming (accept : AcceptAnswer) (magic rest type : List RecvAnswer) : Answers :=
  { Answers.failing none accept with
    socket := fun _ =>
      { SocketAnswers.sample accept with
        recvMagic := magic, recvMagicRest := rest, recvType := type } }

/-- The preamble arrives, its magic in two pieces. -/
def acceptedDriven : Driven :=
  (drivingSocket.replay .sample
    [.accept (.incoming .again [] [] []) .listening,
      .ready (.incoming (.accepted 5) [.bytes (wordBytes 3 0)] [.blocked, .bytes (wordBytes 5 0)]
        [.bytes (wordBytes 4 0)])]).get (by decide)

/-- The socket received its preamble and nothing else. -/
theorem socket_machine_accepted : acceptedDriven.sock.received = acceptedDriven.sock.preamble := by
  have start : drivingSocket.Reachable .sample := .start Driven.sample_starts
  have reached : drivingSocket.Reachable acceptedDriven :=
    start.replay _ (Option.some_get _).symm
  exact (socket_machine reached).1 (by decide) (by decide)

/-- One byte arrives before the transfer fails, and then the whole preamble. -/
def resumedDriven : Driven :=
  (drivingSocket.replay .sample
    [.accept (.incoming (.accepted 5) [.bytes [1]] [.failed] []) .listening,
      .ready (.incoming .again [.bytes (wordBytes 8 0)] [] [.bytes (wordBytes 4 0)])]).get
    (by decide)

/-- The socket is ready, though the first byte is not of the preamble. -/
theorem socket_machine_resumed : ¬ ∀ driven, drivingSocket.Reachable driven →
    driven.sock.state = .ready → driven.outgoing = false →
      driven.sock.preamble <+: driven.sock.received := by
  intro always
  have start : drivingSocket.Reachable .sample := .start Driven.sample_starts
  have reached : drivingSocket.Reachable resumedDriven := start.replay _ (Option.some_get _).symm
  exact absurd (always resumedDriven reached (by decide) (by decide)) (by decide)

end NcclExts.Unet
