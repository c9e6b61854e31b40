import NcclExts.Foundation.System
import NcclExts.Unet.Cleanup
import NcclExts.Unet.Resumption

/-!
# Both sides of a connection that is set up

The two sides of a connection are called in any order, and the sockets split their transfers
in any way. When the network hands each side what the other one sent, in order, the two sides
understand each other: what one copies is what the other sent, nothing is made twice, and a
comm is returned when all is set up that it needs.
-/

namespace NcclExts.Unet

open NcclExts.Foundation

/-- The two sides of a connection: their settings, where the one goes, where the other
listens, and their processes before. Both have metadata of one layout, and nothing goes over
a listening socket itself. -/
structure Peers where
  connect : Config
  accept : Config
  addr : ConnectAddr
  listenSock : NcclSocket
  connectProcess : Process
  acceptProcess : Process
  sameSize : accept.metaSize = connect.metaSize
  unused : listenSock.sent = []

/-- The attempts of both sides, and what the last call of each returned. -/
structure Conversation where
  connect : Attempt
  connected : Returned
  accept : Attempt
  accepted : Returned

/-- A call of one side. -/
inductive ConversationCall where
  | connect (answers : Answers)
  | accept (answers : Answers)

/-- The call returned, and nothing failed that it called: it is made again, there is a comm,
or the metadata cannot be used. -/
def Returned.Fine : Returned → Prop
  | .again | .done _ | .error .linkLayer _ => True
  | .error _ _ | .waiting => False

instance (returned : Returned) : Decidable returned.Fine := by
  unfold Returned.Fine
  split <;> infer_instance

/-- The label that a side is at; a connection is behind the last one. -/
def Returned.label (last state : NcclIbCommState) : Returned → NcclIbCommState
  | .done _ => last
  | _ => state

namespace Conversation

/-- A side calls again until a call returns a comm or an error. -/
def step (peers : Peers) (conversation : Conversation) : ConversationCall → Option Conversation
  | .connect answers =>
    let (returned, after) := ncclIbConnect peers.connect peers.addr answers conversation.connect
    if conversation.connected = .again ∧ returned.Fine then
      some { conversation with connect := after, connected := returned }
    else none
  | .accept answers =>
    let (returned, after) := ncclIbAccept peers.accept peers.listenSock answers conversation.accept
    if conversation.accepted = .again ∧ returned.Fine then
      some { conversation with accept := after, accepted := returned }
    else none

/-- Neither side has made a call. -/
def start (peers : Peers) : Conversation :=
  { connect := ⟨peers.connectProcess, .clean, .zero 0⟩, connected := .again
    accept := ⟨peers.acceptProcess, .clean, .zero 0⟩, accepted := .again }

/-- The network handed each side, in order, bytes that the other side sent. -/
structure Delivered (conversation : Conversation) : Prop where
  toAccept : conversation.accept.comm.sock.received <+: conversation.connect.comm.sock.sent
  toConnect : conversation.connect.comm.sock.received <+: conversation.accept.comm.sock.sent

end Conversation

/-- The calls of both sides, in any order. A call depends on the other side through what the
network delivered only, so calls that overlap are calls in some order. -/
def conversing (peers : Peers) : System Conversation ConversationCall where
  starts := fun conversation => conversation = .start peers
  step := Conversation.step peers

/-- A side that connects, given what its last call returned. -/
def ConnectState (config : Config) (addr : ConnectAddr) (process : Process) (attempt : Attempt) :
    Returned → Prop
  | .done address => Telling config addr process 4 attempt ∧ address = attempt.comm.address
  | _ => ConnectSide config addr process attempt

/-- A side that accepts, given what its last call returned. -/
def AcceptState (config : Config) (listenSock : NcclSocket) (process : Process)
    (attempt : Attempt) : Returned → Prop
  | .done address => HasAccepted config listenSock process attempt ∧
      address = attempt.comm.address ∧ attempt.stage = .clean
  | _ => AcceptSide config listenSock process attempt

/-- What a call in which nothing failed returns: a comm, or no comm and an attempt between two
calls. -/
theorem Attempt.finish_fine {exit : Attempt → Attempt} {done holds : Attempt → Prop}
    {attempt after : Attempt} {part : Setup PUnit} {returned : Returned}
    (meets : Meets (fun now => now = attempt) part (fun _ => done) (Pauses holds))
    (finished : finish exit (part attempt) = (returned, after)) (fine : returned.Fine) :
    (∃ later, done later ∧ returned = .done later.comm.address ∧ after = exit later) ∨
      (∀ address, returned ≠ .done address) ∧ holds after := by
  have met := meets attempt rfl
  revert met
  cases isResult : part attempt with
  | ok value later =>
    intro met
    rw [isResult] at finished
    obtain ⟨rfl, rfl⟩ := Prod.mk.inj finished
    exact Or.inl ⟨later, met, rfl, rfl⟩
  | error left later =>
    intro met
    rw [isResult] at finished
    cases left with
    | again =>
      obtain ⟨rfl, rfl⟩ := Prod.mk.inj finished
      exact Or.inr ⟨nofun, (met.resolve_left id).2⟩
    | failed point result =>
      obtain ⟨rfl, rfl⟩ := Prod.mk.inj finished
      rcases met with breaks | ⟨never, _⟩
      · cases point with
        | linkLayer => exact nomatch (breaks : false = true)
        | _ => exact nomatch fine
      · exact nomatch never
    | bailed point result =>
      obtain ⟨rfl, rfl⟩ := Prod.mk.inj finished
      rcases met with breaks | ⟨_, held⟩
      · cases point with
        | linkLayer => exact nomatch (breaks : false = true)
        | _ => exact nomatch fine
      · exact Or.inr ⟨nofun, held⟩
    | waiting point =>
      obtain ⟨rfl, rfl⟩ := Prod.mk.inj finished
      exact nomatch fine

theorem ConnectState.call {config : Config} {addr : ConnectAddr} {process : Process}
    {attempt after : Attempt} {returned : Returned} {answers : Answers}
    (side : ConnectState config addr process attempt .again)
    (called : ncclIbConnect config addr answers attempt = (returned, after))
    (fine : returned.Fine) : ConnectState config addr process after returned := by
  rcases Attempt.finish_fine (Setup.connectFrom_meets side answers) called fine with
    ⟨later, told, rfl, rfl⟩ | ⟨none, between⟩
  · exact ⟨⟨told.sent, told.whole, told.copied, told.rts, told.grown⟩, rfl⟩
  · cases returned with
    | done address => exact absurd rfl (none address)
    | _ => exact between

theorem AcceptState.call {config : Config} {listenSock : NcclSocket} {process : Process}
    {attempt after : Attempt} {returned : Returned} {answers : Answers}
    (unused : listenSock.sent = []) (side : AcceptState config listenSock process attempt .again)
    (called : ncclIbAccept config listenSock answers attempt = (returned, after))
    (fine : returned.Fine) : AcceptState config listenSock process after returned := by
  rcases Attempt.finish_fine (Setup.acceptFrom_meets side unused answers) called fine with
    ⟨later, ⟨heard, word, whole, told⟩, rfl, rfl⟩ | ⟨none, between⟩
  · exact ⟨⟨heard, word, whole, ⟨⟨told.whole, told.copied, told.rts, told.grown⟩, told.received,
      told.sent, told.ready⟩⟩, rfl, rfl⟩
  · cases returned with
    | done address => exact absurd rfl (none address)
    | _ => exact between

/-! ## What each side says -/

section ConnectFacts

variable {config : Config} {addr : ConnectAddr} {process : Process} {attempt : Attempt}
  {returned : Returned}

/-- All that a side which connects is ever going to say. -/
def Config.speech (config : Config) (addr : ConnectAddr) : List UInt8 :=
  addr.preamble ++ config.request ++ readyWord

theorem ConnectSide.spoken (side : ConnectSide config addr process attempt) :
    attempt.comm.sock.sent <+: config.speech addr := by
  have start : addr.preamble ++ config.request <+: config.speech addr := List.prefix_append _ _
  cases side with
  | unasked unasked =>
    rw [unasked.sent]
    exact List.nil_prefix
  | trying trying =>
    by_cases ready : attempt.comm.sock.state = .ready
    · rw [trying.opening.sent ready]
      exact (List.prefix_append _ _).trans start
    · rw [trying.opening.unsent ready]
      exact List.nil_prefix
  | requesting requesting =>
    rw [requesting.sent]
    exact ((List.prefix_append_right_inj _).mpr (List.take_prefix _ _)).trans start
  | awaiting awaiting =>
    rw [awaiting.sent]
    exact start
  | confirming confirming =>
    rw [confirming.sent]
    exact (List.prefix_append_right_inj _).mpr (List.take_prefix _ _)

/-- Who said all of it has queue pairs that are ready. -/
theorem ConnectSide.told (side : ConnectSide config addr process attempt)
    (all : attempt.comm.sock.sent = config.speech addr) :
    Telling config addr process 4 attempt := by
  have said : attempt.comm.sock.sent.length =
      addr.preamble.length + config.request.length + 4 := by
    rw [all, Config.speech, List.length_append, List.length_append]
    rfl
  cases side with
  | unasked unasked =>
    rw [unasked.sent] at said
    exact absurd said (by simp)
  | trying trying =>
    by_cases ready : attempt.comm.sock.state = .ready
    · rw [trying.opening.sent ready] at said
      omega
    · rw [trying.opening.unsent ready] at said
      exact absurd said (by simp)
  | requesting requesting =>
    rw [requesting.sent, List.length_append, List.length_take] at said
    omega
  | awaiting awaiting =>
    rw [awaiting.sent, List.length_append] at said
    omega
  | confirming confirming =>
    have inside := confirming.inside
    have word : readyWord.length = 4 := rfl
    rw [confirming.sent, List.length_append, List.length_append, List.length_take] at said
    have offset : attempt.stage.offset = 4 := by omega
    exact offset ▸ confirming.toTelling

theorem ConnectSide.copied (side : ConnectSide config addr process attempt) :
    attempt.comm.remMeta = [] ∨ attempt.comm.remMeta = attempt.comm.sock.received ∧
      attempt.comm.sock.received.length = config.metaSize := by
  cases side with
  | unasked unasked => exact Or.inl unasked.copied
  | trying trying => exact Or.inl trying.copied
  | requesting requesting => exact Or.inl requesting.copied
  | awaiting awaiting => exact awaiting.copied
  | confirming confirming => exact Or.inr ⟨confirming.copied, confirming.whole⟩

theorem ConnectSide.grown (side : ConnectSide config addr process attempt) :
    process.Grown (config.connectMade attempt.stage.state) attempt.process := by
  cases side with
  | unasked unasked => exact unasked.state ▸ unasked.grown
  | trying trying => exact trying.state ▸ trying.grown
  | requesting requesting => exact requesting.state ▸ requesting.grown
  | awaiting awaiting => exact awaiting.state ▸ awaiting.grown
  | confirming confirming => exact confirming.state ▸ confirming.grown

/-- What holds whether there is a comm or not. -/
theorem ConnectState.facts (state : ConnectState config addr process attempt returned) :
    attempt.comm.sock.sent <+: config.speech addr ∧
    (attempt.comm.sock.sent = config.speech addr → Telling config addr process 4 attempt) ∧
    (attempt.comm.remMeta = [] ∨ attempt.comm.remMeta = attempt.comm.sock.received ∧
      attempt.comm.sock.received.length = config.metaSize) ∧
    process.Grown (config.connectMade (returned.label .connected attempt.stage.state))
      attempt.process := by
  cases returned with
  | done address =>
    obtain ⟨telling, _⟩ := state
    have all : attempt.comm.sock.sent = config.speech addr := telling.sent
    exact ⟨all ▸ List.prefix_rfl, fun _ => telling, Or.inr ⟨telling.copied, telling.whole⟩,
      telling.grown⟩
  | again => exact ⟨state.spoken, state.told, state.copied, state.grown⟩
  | error point result => exact ⟨state.spoken, state.told, state.copied, state.grown⟩
  | waiting => exact ⟨state.spoken, state.told, state.copied, state.grown⟩

end ConnectFacts

section AcceptFacts

variable {config : Config} {listenSock : NcclSocket} {process : Process} {attempt : Attempt}
  {returned : Returned}

theorem AcceptSide.spoken (side : AcceptSide config listenSock process attempt) :
    attempt.comm.sock.sent <+: config.answer attempt.comm.remMeta := by
  cases side with
  | unaccepted unaccepted =>
    rw [unaccepted.sent]
    exact List.nil_prefix
  | listening listening =>
    rw [listening.answering.sent]
    exact List.nil_prefix
  | hearing heard hearing =>
    rw [hearing.sent]
    exact List.nil_prefix
  | replying heard replying =>
    rw [replying.sent, replying.copied]
    exact List.take_prefix _ _
  | expecting heard word expecting =>
    rw [expecting.sent, expecting.copied]

/-- What was copied is what was received behind the preamble, and nothing is said before. -/
theorem AcceptSide.copied (side : AcceptSide config listenSock process attempt) :
    attempt.comm.remMeta = [] ∧ attempt.comm.sock.sent = [] ∨
      ∃ word, attempt.comm.remMeta.length = config.metaSize ∧
        attempt.comm.sock.received = listenSock.preamble ++ attempt.comm.remMeta ++ word := by
  cases side with
  | unaccepted unaccepted => exact Or.inl ⟨unaccepted.copied, unaccepted.sent⟩
  | listening listening => exact Or.inl ⟨listening.copied, listening.answering.sent⟩
  | hearing heard hearing => exact Or.inl ⟨hearing.copied, hearing.sent⟩
  | replying heard replying =>
    refine Or.inr ⟨[], ?_⟩
    rw [replying.copied, replying.received, List.append_nil]
    exact ⟨replying.whole, rfl⟩
  | expecting heard word expecting =>
    refine Or.inr ⟨word, ?_⟩
    rw [expecting.copied]
    exact ⟨expecting.whole, expecting.received⟩

theorem AcceptSide.grown (side : AcceptSide config listenSock process attempt) :
    process.Grown (config.acceptMade attempt.stage.state) attempt.process := by
  cases side with
  | unaccepted unaccepted => exact unaccepted.state ▸ unaccepted.grown
  | listening listening => exact listening.state ▸ listening.grown
  | hearing heard hearing => exact hearing.state ▸ hearing.grown
  | replying heard replying => exact replying.state ▸ replying.grown
  | expecting heard word expecting => exact expecting.state ▸ expecting.grown

theorem AcceptState.facts (state : AcceptState config listenSock process attempt returned) :
    attempt.comm.sock.sent <+: config.answer attempt.comm.remMeta ∧
    (attempt.comm.remMeta = [] ∧ attempt.comm.sock.sent = [] ∨
      ∃ word, attempt.comm.remMeta.length = config.metaSize ∧
        attempt.comm.sock.received = listenSock.preamble ++ attempt.comm.remMeta ++ word) ∧
    process.Grown (config.acceptMade (returned.label .pendingReady attempt.stage.state))
      attempt.process := by
  cases returned with
  | done address =>
    obtain ⟨⟨heard, word, _, told⟩, _⟩ := state
    rw [told.copied, told.sent, told.received]
    exact ⟨List.prefix_rfl, Or.inr ⟨word, told.whole, rfl⟩, told.grown⟩
  | again => exact ⟨state.spoken, state.copied, state.grown⟩
  | error point result => exact ⟨state.spoken, state.copied, state.grown⟩
  | waiting => exact ⟨state.spoken, state.copied, state.grown⟩

end AcceptFacts

/-! ## What the sides understand -/

/-- A prefix in three parts, the first two of which are as long as those of the whole. -/
theorem prefix_parts {α : Type} {one two rest first second third : List α}
    (front : one ++ two ++ rest <+: first ++ second ++ third)
    (ones : one.length = first.length) (twos : two.length = second.length) :
    one = first ∧ two = second ∧ rest <+: third := by
  obtain ⟨behind, whole⟩ := front
  rw [List.append_assoc, List.append_assoc, List.append_assoc] at whole
  obtain ⟨same, whole⟩ := List.append_inj whole ones
  obtain ⟨same', whole⟩ := List.append_inj whole twos
  exact ⟨same, same', behind, whole⟩

/-- What a handshake comes to, whenever it is looked at. Nothing that is copied differs from
what the other side sent, every phase that was passed was run once, and a comm means that all
is ready that it needs, and that all bytes were read. -/
structure Conversation.Exact (peers : Peers) (conversation : Conversation) : Prop where
  acceptCopied : conversation.accept.comm.remMeta = [] ∨
    conversation.accept.comm.remMeta = peers.connect.request ∧
      peers.addr.preamble ++ conversation.accept.comm.remMeta <+:
        conversation.connect.comm.sock.sent
  connectCopied : conversation.connect.comm.remMeta = [] ∨
    conversation.connect.comm.remMeta = peers.accept.answer peers.connect.request ∧
      conversation.connect.comm.remMeta = conversation.accept.comm.sock.sent
  connectPhases : peers.connectProcess.Grown
    (peers.connect.connectMade
      (conversation.connected.label .connected conversation.connect.stage.state))
    conversation.connect.process
  acceptPhases : peers.acceptProcess.Grown
    (peers.accept.acceptMade
      (conversation.accepted.label .pendingReady conversation.accept.stage.state))
    conversation.accept.process
  connectDone : ∀ comm, conversation.connected = .done comm →
    comm = conversation.connect.comm.address ∧
    DataIn peers.connect.side.numQps .rts conversation.connect.comm.states ∧
    conversation.connect.comm.sock.sent = peers.connect.speech peers.addr ∧
    conversation.connect.comm.sock.received = conversation.accept.comm.sock.sent ∧
    conversation.connect.comm.remMeta = peers.accept.answer peers.connect.request
  acceptDone : ∀ comm, conversation.accepted = .done comm →
    comm = conversation.accept.comm.address ∧
    DataIn peers.accept.side.numQps .rts conversation.accept.comm.states ∧
    DataIn peers.connect.side.numQps .rts conversation.connect.comm.states ∧
    conversation.accept.comm.ready = readyWord ∧
    conversation.accept.comm.sock.received = conversation.connect.comm.sock.sent ∧
    conversation.connect.comm.sock.received = conversation.accept.comm.sock.sent ∧
    conversation.accept.comm.remMeta = peers.connect.request ∧
    conversation.accept.stage = .clean

/-- Both sides are as their calls left them. -/
def Conversation.Sound (peers : Peers) (conversation : Conversation) : Prop :=
  ConnectState peers.connect peers.addr peers.connectProcess conversation.connect
    conversation.connected ∧
  AcceptState peers.accept peers.listenSock peers.acceptProcess conversation.accept
    conversation.accepted

theorem Conversation.Sound.step {peers : Peers} {conversation after : Conversation}
    {call : ConversationCall} (sound : conversation.Sound peers)
    (stepped : conversation.step peers call = some after) : after.Sound peers := by
  cases call with
  | connect answers =>
    simp only [Conversation.step] at stepped
    split at stepped
    next possible =>
      obtain ⟨again, fine⟩ := possible
      rw [← Option.some.inj stepped]
      have side := sound.1
      rw [again] at side
      exact ⟨side.call rfl fine, sound.2⟩
    next => exact nomatch stepped
  | accept answers =>
    simp only [Conversation.step] at stepped
    split at stepped
    next possible =>
      obtain ⟨again, fine⟩ := possible
      rw [← Option.some.inj stepped]
      have side := sound.2
      rw [again] at side
      exact ⟨sound.1, side.call peers.unused rfl fine⟩
    next => exact nomatch stepped

namespace Conversation

variable {peers : Peers} {conversation : Conversation}

@[simp] theorem length_preamble (addr : ConnectAddr) : addr.preamble.length = 12 := by
  simp [ConnectAddr.preamble]

@[simp] theorem length_listenPreamble (sock : NcclSocket) : sock.preamble.length = 12 := by
  simp [NcclSocket.preamble]

/-- The accepting side copied nothing and said nothing yet, or it copied the request. -/
theorem Sound.understood (sound : conversation.Sound peers) (delivered : conversation.Delivered) :
    conversation.accept.comm.remMeta = [] ∧ conversation.accept.comm.sock.sent = [] ∨
      conversation.accept.comm.remMeta = peers.connect.request ∧
        peers.addr.preamble ++ conversation.accept.comm.remMeta <+:
          conversation.connect.comm.sock.sent := by
  obtain ⟨spoken, _⟩ := sound.1.facts
  obtain ⟨_, nothing | ⟨word, whole, received⟩, _⟩ := sound.2.facts
  · exact Or.inl nothing
  have arrived := delivered.toAccept
  rw [received] at arrived
  obtain ⟨preamble, request, _⟩ := prefix_parts (arrived.trans spoken) (by simp)
    (by rw [whole, peers.sameSize, Config.length_request])
  refine Or.inr ⟨request, ?_⟩
  rw [← preamble]
  exact (List.prefix_append _ _).trans arrived

/-- What the connecting side received whole is all that the other side said, its answer. -/
theorem Sound.answered (sound : conversation.Sound peers) (delivered : conversation.Delivered)
    (whole : conversation.connect.comm.sock.received.length = peers.connect.metaSize) :
    conversation.connect.comm.sock.received = peers.accept.answer peers.connect.request ∧
      conversation.connect.comm.sock.received = conversation.accept.comm.sock.sent := by
  obtain ⟨spoken, _⟩ := sound.2.facts
  have arrived := delivered.toConnect
  have long (heard : List UInt8) : (peers.accept.answer heard).length = peers.connect.metaSize := by
    rw [Config.length_answer, peers.sameSize]
  have sent : conversation.connect.comm.sock.received = conversation.accept.comm.sock.sent := by
    apply arrived.eq_of_length_le
    rw [whole, ← long]
    exact spoken.length_le
  refine ⟨?_, sent⟩
  rcases sound.understood delivered with ⟨_, silent⟩ | ⟨request, _⟩
  · rw [sent, silent] at whole ⊢
    exact (List.eq_nil_of_length_eq_zero ((long _).trans whole.symm)).symm
  · rw [sent, ← request]
    apply spoken.eq_of_length_le
    rw [← sent, whole, long]

/-- A side that read the ready word knows that the other side is ready. -/
theorem Sound.accepted (sound : conversation.Sound peers) (delivered : conversation.Delivered)
    {comm : Nat} (done : conversation.accepted = .done comm) :
    conversation.accept.comm.ready = readyWord ∧
      conversation.accept.comm.remMeta = peers.connect.request ∧
      conversation.accept.comm.sock.received = peers.connect.speech peers.addr ∧
      conversation.connect.comm.sock.sent = peers.connect.speech peers.addr := by
  obtain ⟨spoken, _⟩ := sound.1.facts
  have state := sound.2
  rw [done] at state
  obtain ⟨⟨heard, word, four, told⟩, _⟩ := state
  have arrived := delivered.toAccept
  rw [told.received] at arrived
  obtain ⟨preamble, request, ready⟩ := prefix_parts (arrived.trans spoken) (by simp)
    (by rw [told.whole, peers.sameSize, Config.length_request])
  have same : word = readyWord := ready.eq_of_length four
  have received : conversation.accept.comm.sock.received = peers.connect.speech peers.addr := by
    rw [told.received, preamble, request, same]
    rfl
  refine ⟨?_, told.copied.trans request, received, ?_⟩
  · rw [told.ready, ← four, filled_whole, same]
  · apply spoken.eq_of_length_le
    rw [← received]
    exact delivered.toAccept.length_le

end Conversation

/-- However the transfers are split and the calls of both sides are interleaved: what a side
copies out of its buffer is what the other side sent, each phase that a side passed was run
once, `ncclIbConnect` returns a comm only when its queue pairs are in RTS and the ready word is
sent, and `ncclIbAccept` only when it received that word, so that the queue pairs of the other
side are in RTS; then no byte is missing, and the stage is clean. -/
theorem handshake_exact {peers : Peers} {conversation : Conversation}
    (reached : (conversing peers).Reachable conversation) (delivered : conversation.Delivered) :
    conversation.Exact peers := by
  have sound : conversation.Sound peers := by
    apply reached.invariant
    · rintro _ rfl
      exact ⟨.unasked ⟨rfl, rfl, rfl, rfl, .refl _⟩, .unaccepted ⟨rfl, rfl, rfl, .refl _⟩⟩
    · exact fun _ _ _ sound stepped => sound.step stepped
  obtain ⟨_, told, connectCopied, connectPhases⟩ := sound.1.facts
  obtain ⟨_, _, acceptPhases⟩ := sound.2.facts
  refine ⟨?_, ?_, connectPhases, acceptPhases, ?_, ?_⟩
  · exact (sound.understood delivered).imp_left And.left
  · rcases connectCopied with nothing | ⟨copied, whole⟩
    · exact Or.inl nothing
    · rw [copied]
      exact Or.inr (sound.answered delivered whole)
  · intro comm done
    have state := sound.1
    rw [done] at state
    obtain ⟨telling, address⟩ := state
    obtain ⟨answer, sent⟩ := sound.answered delivered telling.whole
    exact ⟨address, telling.rts, telling.sent, sent, telling.copied.trans answer⟩
  · intro comm done
    obtain ⟨ready, copied, received, sent⟩ := sound.accepted delivered done
    have telling := told sent
    have state := sound.2
    rw [done] at state
    obtain ⟨⟨heard, word, _, accepted⟩, address, clean⟩ := state
    exact ⟨address, accepted.rts, telling.rts, ready, received.trans sent.symm,
      (sound.answered delivered telling.whole).2, copied, clean⟩

/-- Two sides with one device each, whose metadata has four bytes. -/
def Peers.sample : Peers :=
  { connect := { Config.sample with
      metaBytes := fun _ => [1, 2, 3, 4], length_metaBytes := fun _ => rfl }
    accept := { Config.sample with
      metaBytes := fun _ => [5, 6, 7, 8], length_metaBytes := fun _ => rfl }
    addr := ⟨.inet, 1⟩
    listenSock := { NcclSocket.listening with magic := 1, type := ncclSocketTypeNetIb }
    connectProcess := Attempt.sample.process, acceptProcess := Attempt.sample.process
    sameSize := rfl, unused := rfl }

/-- Everything succeeds that a call asks for, the preamble goes in two pieces, and the
transfers move what is given. -/
def Answers.moving (sendMeta : List SendAnswer) (recvMeta : List RecvAnswer)
    (sendReady : List SendAnswer) (recvReady : List RecvAnswer) : Answers :=
  { outcome := fun _ => some 1
    socket := fun _ =>
      { SocketAnswers.sample (.accepted 9) with
        sendMagic := [.bytes 3], sendMagicRest := [.blocked, .bytes 5], sendType := [.bytes 4]
        recvMagic := [.bytes ((wordBytes 8 1).take 3)]
        recvMagicRest := [.blocked, .bytes ((wordBytes 8 1).drop 3)]
        recvType := [.bytes (wordBytes 4 ncclSocketTypeNetIb)] }
    sendMeta := sendMeta, recvMeta := recvMeta, sendReady := sendReady, recvReady := recvReady }

/-- Nine calls, most of which leave in the middle of a transfer. -/
def splitCalls : List ConversationCall :=
  [.connect (.moving [.bytes 1] [] [] []),
    .accept (.moving [] [.bytes [1]] [] []),
    .connect (.moving [.bytes 3] [.blocked] [] []),
    .accept (.moving [.bytes 1, .bytes 1, .blocked] [.bytes [2, 3], .bytes [4]] [] []),
    .connect (.moving [] [.bytes [5, 6]] [] []),
    .accept (.moving [.bytes 2] [] [] [.blocked]),
    .connect (.moving [] [.bytes [7], .bytes [8]] [.bytes 4] []),
    .accept (.moving [] [] [] [.bytes [1, 0]]),
    .accept (.moving [] [] [] [.bytes [0, 0]])]

/-- What these calls come to. -/
def splitConversation : Conversation :=
  ((conversing .sample).replay (.start .sample) splitCalls).get (by decide +kernel)

/-- Both sides have their comms. -/
theorem handshake_exact_split :
    splitConversation.connected = .done 1 ∧ splitConversation.accepted = .done 1 ∧
      splitConversation.Exact .sample := by
  have start : (conversing .sample).Reachable (.start .sample) := .start rfl
  have reached : (conversing .sample).Reachable splitConversation :=
    start.replay _ (Option.some_get _).symm
  exact ⟨by decide +kernel, by decide +kernel,
    handshake_exact reached ⟨by decide +kernel, by decide +kernel⟩⟩

end NcclExts.Unet
