import NcclExts.Unet.Transfers

/-!
# A connection that is set up in many calls

A side of a connection is called again and again, on any split of its transfers, until it has
a comm. Between two calls it remembers a label, an offset and a buffer; what it said and heard
so far, and what it made, is determined by these. Each label leads from the state that it
stands for to the next one, or stays.
-/

namespace NcclExts.Unet

open NcclExts.Foundation

/-- The word that a side which is ready sends. -/
def readyWord : List UInt8 := wordBytes 4 1

/-- The bytes of the metadata with which a side asks for a connection. -/
def Config.request (config : Config) : List UInt8 :=
  config.metaBytes (connectMeta config.side config.stack)

/-- The bytes of the metadata with which a side answers the bytes it heard. -/
def Config.answer (config : Config) (heard : List UInt8) : List UInt8 :=
  config.metaBytes (acceptSetup config.side config.stack (config.metaOfBytes heard)).value.2

theorem Config.length_request (config : Config) : config.request.length = config.metaSize :=
  config.length_metaBytes _

theorem Config.length_answer (config : Config) (heard : List UInt8) :
    (config.answer heard).length = config.metaSize :=
  config.length_metaBytes _

/-- The exits of calls in which nothing fails: they are made again, or the metadata cannot be
used. -/
def Exit.Pauses : Exit → Prop
  | .again | .bailed .linkLayer _ => True
  | _ => False

/-- What a call leaves of an attempt, unless it breaks. -/
def Pauses (holds : Attempt → Prop) (exit : Exit) (after : Attempt) : Prop :=
  exit.Breaks ∨ exit.Pauses ∧ holds after

/-- A part that goes on unless it breaks. -/
theorem pauses_of_breaks {part : Setup α} {before : Attempt → Prop} {done : α → Attempt → Prop}
    {holds : Attempt → Prop} (meets : Meets before part done fun exit _ => exit.Breaks) :
    Meets before part done (Pauses holds) :=
  meets.weaken (fun _ => id) (fun _ _ => id) fun _ _ => Or.inl

/-! ## The side that connects -/

/-- What connecting has made when it is at a label: its phases until then ran once. -/
def Config.connectMade (config : Config) : NcclIbCommState → Objects
  | .connect => ⟨1, 0, 0, 0⟩
  | .send | .connecting => ⟨1, config.side.ndevs, config.side.numQps, config.side.ndevs⟩
  | .connected =>
    ⟨1, config.side.ndevs, config.side.numQps, config.side.ndevs + config.side.ndevs⟩
  | _ => ⟨0, 0, 0, 0⟩

section ConnectSide

variable (config : Config) (addr : ConnectAddr) (process : Process)

/-- An attempt to connect that was not begun. -/
structure Unasked (attempt : Attempt) : Prop where
  state : attempt.stage.state = .start
  sent : attempt.comm.sock.sent = []
  received : attempt.comm.sock.received = []
  copied : attempt.comm.remMeta = []
  grown : process.Grown (config.connectMade .start) attempt.process

/-- The socket is being connected. -/
structure Trying (attempt : Attempt) : Prop where
  state : attempt.stage.state = .connect
  opening : Opening addr attempt.comm.sock
  copied : attempt.comm.remMeta = []
  grown : process.Grown (config.connectMade .connect) attempt.process

/-- The metadata is being sent. -/
structure Requesting (attempt : Attempt) : Prop where
  state : attempt.stage.state = .send
  inside : attempt.stage.offset ≤ config.request.length
  buffer : attempt.stage.buffer = some config.request
  sent : attempt.comm.sock.sent = addr.preamble ++ config.request.take attempt.stage.offset
  received : attempt.comm.sock.received = []
  copied : attempt.comm.remMeta = []
  created : DataIn config.side.numQps .init attempt.comm.states
  grown : process.Grown (config.connectMade .send) attempt.process

/-- The metadata of the other side is being received. It was copied already when it could not
be used. -/
structure Awaiting (attempt : Attempt) : Prop where
  state : attempt.stage.state = .connecting
  inside : attempt.comm.sock.received.length ≤ config.metaSize
  offset : attempt.stage.offset = attempt.comm.sock.received.length
  buffer : attempt.stage.buffer = some (filled config.metaSize attempt.comm.sock.received)
  sent : attempt.comm.sock.sent = addr.preamble ++ config.request
  copied : attempt.comm.remMeta = [] ∨ attempt.comm.remMeta = attempt.comm.sock.received ∧
    attempt.comm.sock.received.length = config.metaSize
  created : DataIn config.side.numQps .init attempt.comm.states
  grown : process.Grown (config.connectMade .connecting) attempt.process

/-- The queue pairs are ready, and so much of the ready word was sent. -/
structure Telling (count : Nat) (attempt : Attempt) : Prop where
  sent : attempt.comm.sock.sent = addr.preamble ++ config.request ++ readyWord.take count
  whole : attempt.comm.sock.received.length = config.metaSize
  copied : attempt.comm.remMeta = attempt.comm.sock.received
  rts : DataIn config.side.numQps .rts attempt.comm.states
  grown : process.Grown (config.connectMade .connected) attempt.process

/-- The ready word is being sent. -/
structure Confirming (attempt : Attempt) : Prop
    extends Telling config addr process attempt.stage.offset attempt where
  state : attempt.stage.state = .connected
  inside : attempt.stage.offset ≤ readyWord.length
  ready : attempt.comm.ready = readyWord

/-- An attempt to connect between two calls. -/
inductive ConnectSide (attempt : Attempt) : Prop
  | unasked (unasked : Unasked config process attempt)
  | trying (trying : Trying config addr process attempt)
  | requesting (requesting : Requesting config addr process attempt)
  | awaiting (awaiting : Awaiting config addr process attempt)
  | confirming (confirming : Confirming config addr process attempt)

end ConnectSide

namespace Setup

variable {config : Config} {addr : ConnectAddr} {process : Process}

/-- A comm is allocated and cleared. -/
theorem mallocComm_meets (answers : Answers) :
    Meets (fun now => process.Grown ⟨0, 0, 0, 0⟩ now.process) (mallocComm answers)
      (fun address now => now.comm = .zero address ∧ process.Grown ⟨1, 0, 0, 0⟩ now.process)
      (fun exit _ => exit.Breaks) := by
  unfold mallocComm
  split
  · exact Meets.throw fun _ _ => rfl
  next address _ =>
    apply Meets.bind fun _ now => now.comm = .zero address ∧
      process.Grown ⟨1, 0, 0, 0⟩ now.process
    · exact Meets.modify fun _ grown =>
        ⟨rfl, congrArg (· + 1) grown.comms, grown.cqs, grown.qps, grown.mrs⟩
    · exact fun _ => Meets.pure fun _ => id

theorem ibSendReady_meets (answers : Answers) :
    Meets (Confirming config addr process) (ibSendReady answers)
      (fun _ => Telling config addr process 4) (Pauses (ConnectSide config addr process)) := by
  apply Meets.each
  intro start confirming
  apply Meets.get_bind
  rintro start rfl
  rw [confirming.ready]
  apply (progressSend_meets rfl answers.sendReady confirming.inside confirming.sent).weaken
  · exact fun _ => id
  · rintro _ _ rfl
    exact ⟨rfl, confirming.whole, confirming.copied, confirming.rts, confirming.grown⟩
  · rintro exit _ (breaks | ⟨rfl, count, less, rfl⟩)
    · exact Or.inl breaks
    · refine Or.inr ⟨True.intro, .confirming ?_⟩
      exact ⟨⟨rfl, confirming.whole, confirming.copied, confirming.rts, confirming.grown⟩,
        confirming.state, less.le, confirming.ready⟩

/-- The metadata was received, and copied out of the buffer. -/
structure Copied (config : Config) (addr : ConnectAddr) (process : Process)
    (attempt : Attempt) : Prop extends Awaiting config addr process attempt where
  whole : attempt.comm.sock.received.length = config.metaSize
  copy : attempt.comm.remMeta = attempt.comm.sock.received

/-- A receive into the buffer stays in step. -/
theorem awaiting_hears {attempt : Attempt} (awaiting : Awaiting config addr process attempt)
    {data : List UInt8} (fits : attempt.stage.offset + data.length ≤ config.metaSize) :
    Awaiting config addr process (attempt.hears storeBuffer data) := by
  rw [awaiting.offset] at fits
  refine ⟨awaiting.state, ?_, ?_, ?_, awaiting.sent, ?_, awaiting.created, awaiting.grown⟩
  · simpa [Attempt.hears, storeBuffer] using fits
  · simp [Attempt.hears, storeBuffer, awaiting.offset]
  · simp only [Attempt.hears, storeBuffer, awaiting.buffer, awaiting.offset, Option.map_some,
      overwrite_filled]
  · rcases awaiting.copied with none | ⟨copied, whole⟩
    · exact Or.inl none
    · have nothing : data = [] := List.eq_nil_of_length_eq_zero (by omega)
      subst nothing
      refine Or.inr ⟨?_, ?_⟩
      · simpa [Attempt.hears, storeBuffer] using copied
      · simpa [Attempt.hears, storeBuffer] using whole

theorem recvMeta_meets (answers : List RecvAnswer) :
    Meets (Awaiting config addr process)
      (progressRecv .recvMeta config.metaSize answers storeBuffer)
      (fun _ after => Awaiting config addr process after ∧
        after.comm.sock.received.length = config.metaSize)
      (Pauses (ConnectSide config addr process)) := by
  apply Meets.each
  intro start awaiting
  apply (progressRecv_meets rfl answers (awaiting.offset ▸ awaiting.inside)).weaken
  · exact fun _ => id
  · rintro _ _ ⟨data, whole, rfl⟩
    refine ⟨awaiting_hears awaiting whole.le, ?_⟩
    simpa [Attempt.hears, storeBuffer, awaiting.offset] using whole
  · rintro exit _ (breaks | ⟨rfl, data, short, rfl⟩)
    · exact Or.inl breaks
    · exact Or.inr ⟨True.intro, .awaiting (awaiting_hears awaiting short.le)⟩

theorem copyMeta_meets :
    Meets
      (fun now => Awaiting config addr process now ∧
        now.comm.sock.received.length = config.metaSize)
      (copyMeta config) (fun _ => Copied config addr process)
      (Pauses (ConnectSide config addr process)) := by
  apply Meets.get_bind
  rintro start ⟨awaiting, whole⟩
  have bytes : start.stage.buffer.getD [] = start.comm.sock.received := by
    rw [awaiting.buffer, ← whole, filled_whole]
    rfl
  rw [bytes]
  apply Meets.bind fun _ => Copied config addr process
  · apply Meets.modify
    rintro _ rfl
    exact ⟨⟨awaiting.state, awaiting.inside, awaiting.offset, awaiting.buffer, awaiting.sent,
      Or.inr ⟨rfl, whole⟩, awaiting.created, awaiting.grown⟩, whole, rfl⟩
  · exact fun _ => Meets.pure fun _ => id

theorem ibConnect_meets (answers : Answers) :
    Meets (Awaiting config addr process) (ibConnect config answers)
      (fun _ => Telling config addr process 4) (Pauses (ConnectSide config addr process)) := by
  unfold ibConnect
  apply Meets.bind _ (recvMeta_meets answers.recvMeta)
  intro _
  apply Meets.bind _ copyMeta_meets
  intro remMeta
  apply Meets.bind fun _ => Copied config addr process
  · apply Meets.ite
    · exact fun _ => Meets.throw fun _ copied => Or.inr ⟨True.intro, .awaiting copied.toAwaiting⟩
    · exact fun _ => Meets.pure fun _ => id
  intro _
  apply Meets.each
  intro start copied
  apply Meets.bind _ (pauses_of_breaks ((does_regSizes config answers).first copied.created))
  intro _
  apply Meets.bind _ (pauses_of_breaks (does_connectQps config answers remMeta))
  intro _
  apply Meets.bind fun _ after => ∃ now,
    Doing start ⟨0, 0, 0, 0 + config.side.ndevs⟩ (DataIn config.side.numQps .rts) now ∧
      after = { now with comm.ready := readyWord }
  · exact Meets.modify fun now doing => ⟨now, doing, rfl⟩
  intro _
  apply Meets.bind fun _ => Confirming config addr process
  · apply Meets.modify
    rintro _ ⟨now, doing, rfl⟩
    refine ⟨⟨?_, ?_, ?_, doing.moved, ?_⟩, rfl, Nat.zero_le _, rfl⟩
    · simpa [doing.sock] using copied.sent
    · exact doing.sock ▸ copied.whole
    · exact (doing.remMeta.trans copied.copy).trans (by rw [doing.sock])
    · have grown := copied.grown.trans doing.grown
      simpa [Config.connectMade] using grown
  · exact fun _ => ibSendReady_meets answers

theorem ibSend_meets (answers : Answers) :
    Meets (Requesting config addr process) (ibSend config answers)
      (fun _ => Telling config addr process 4) (Pauses (ConnectSide config addr process)) := by
  apply Meets.each
  intro start requesting
  apply Meets.get_bind
  rintro start rfl
  rw [requesting.buffer, Option.getD_some]
  apply Meets.bind fun _ after =>
    after = start.sends addr.preamble config.request config.request.length
  · apply (progressSend_meets rfl answers.sendMeta requesting.inside
      requesting.sent).weaken
    · exact fun _ => id
    · exact fun _ _ => id
    · rintro exit _ (breaks | ⟨rfl, count, less, rfl⟩)
      · exact Or.inl breaks
      · exact Or.inr ⟨True.intro, .requesting ⟨requesting.state, less.le, requesting.buffer, rfl,
          requesting.received, requesting.copied, requesting.created, requesting.grown⟩⟩
  intro _
  apply Meets.bind fun _ => Awaiting config addr process
  · apply Meets.modify
    rintro _ rfl
    have received :
        (start.sends addr.preamble config.request config.request.length).comm.sock.received = [] :=
      requesting.received
    refine ⟨rfl, ?_, ?_, ?_, ?_, Or.inl requesting.copied, requesting.created, requesting.grown⟩
    · rw [received]
      exact Nat.zero_le _
    · rw [received]
      rfl
    · rw [received]
      simp [filled]
    · simp [Attempt.sends]
  · exact fun _ => ibConnect_meets answers

/-- Driving the socket leaves an attempt that tries to connect. -/
theorem trying_driven {start after : Attempt} (trying : Trying config addr process start)
    (only : SockOnly start after) (opening : Opening addr after.comm.sock) :
    Trying config addr process after := by
  obtain ⟨fds, sock, rfl⟩ := only
  exact ⟨trying.state, opening, trying.copied,
    ⟨trying.grown.comms, trying.grown.cqs, trying.grown.qps, trying.grown.mrs⟩⟩

theorem ibConnectCheck_meets (answers : Answers) :
    Meets (Trying config addr process) (ibConnectCheck config answers)
      (fun _ => Telling config addr process 4) (Pauses (ConnectSide config addr process)) := by
  apply Meets.bind fun ready now => Trying config addr process now ∧
    (ready = true ↔ now.comm.sock.state = .ready)
  · apply Meets.each
    intro start trying
    apply (pauses_of_breaks (ncclSocketReady_opening trying.opening answers)).weaken
    · exact fun _ => id
    · exact fun _ now ⟨⟨only, opening⟩, isReady⟩ => ⟨trying_driven trying only opening, isReady⟩
    · exact fun _ _ => id
  intro ready
  apply Meets.bind fun _ now => Trying config addr process now ∧ now.comm.sock.state = .ready
  · apply Meets.ite
    · exact fun _ => Meets.throw fun _ now => Or.inr ⟨True.intro, .trying now.1⟩
    · intro isReady
      rw [Bool.not_eq_false] at isReady
      exact Meets.pure fun _ now => ⟨now.1, now.2.mp isReady⟩
  intro _
  apply Meets.each
  rintro start ⟨trying, isReady⟩
  have sizes : Does start ⟨0, 0, 0, 0⟩ (fun _ => True) (sizeComm config) ⟨0, 0, 0, 0⟩
      (fun _ => True) := does_sizeComm config
  apply Meets.bind _ (pauses_of_breaks (sizes.first True.intro))
  intro _
  apply Meets.bind _ (pauses_of_breaks (does_initDevs config answers))
  intro _
  apply Meets.bind _ (pauses_of_breaks (does_createQps config answers))
  intro _
  apply Meets.bind _ (pauses_of_breaks (does_prepareFifos config answers))
  intro _
  apply Meets.bind fun _ after => ∃ now, Doing start _ (DataIn config.side.numQps .init) now ∧
    after = { now with stage.state := .send, stage.offset := 0 }
  · exact Meets.modify fun now doing => ⟨now, doing, rfl⟩
  intro _
  apply Meets.bind _ (pauses_of_breaks (demand_breaks answers _ rfl))
  intro _
  apply Meets.bind fun _ => Requesting config addr process
  · apply Meets.modify
    rintro _ ⟨now, doing, rfl⟩
    refine ⟨rfl, Nat.zero_le _, rfl, ?_, ?_, ?_, doing.moved, ?_⟩
    · simpa [doing.sock] using trying.opening.sent isReady
    · simpa [doing.sock] using trying.opening.received
    · exact doing.remMeta.trans trying.copied
    · have grown := trying.grown.trans doing.grown
      simpa [Config.connectMade] using grown
  · exact fun _ => ibSend_meets answers

theorem connectStart_meets (answers : Answers) :
    Meets (Unasked config process) (connectStart config addr answers)
      (fun _ => Telling config addr process 4) (Pauses (ConnectSide config addr process)) := by
  apply Meets.bind fun _ now => process.Grown ⟨0, 0, 0, 0⟩ now.process
  · exact Meets.modify fun _ unasked => unasked.grown
  intro _
  apply Meets.bind _ (pauses_of_breaks (mallocComm_meets answers))
  intro address
  apply Meets.bind fun _ now => now.comm.remMeta = [] ∧ process.Grown ⟨1, 0, 0, 0⟩ now.process ∧
    Untouched now.comm.sock ∧ now.comm.sock.magic = addr.magic ∧
      now.comm.sock.type = ncclSocketTypeNetIb
  · apply Meets.each
    rintro start ⟨allocated, grown⟩
    apply (pauses_of_breaks (ncclSocketInit_meets answers (some addr.family) addr.magic
      ncclSocketTypeNetIb (congrArg SetupComm.sock allocated))).weaken
    · exact fun _ => id
    · rintro _ _ ⟨⟨fds, sock, rfl⟩, initialized⟩
      exact ⟨congrArg SetupComm.remMeta allocated,
        ⟨grown.comms, grown.cqs, grown.qps, grown.mrs⟩, initialized⟩
    · exact fun _ _ => id
  intro _
  apply Meets.bind fun _ now => now.stage.state = .connect ∧ now.comm.remMeta = [] ∧
    process.Grown ⟨1, 0, 0, 0⟩ now.process ∧ Untouched now.comm.sock ∧
      now.comm.sock.magic = addr.magic ∧ now.comm.sock.type = ncclSocketTypeNetIb
  · exact Meets.modify fun _ now => ⟨rfl, now⟩
  intro _
  apply Meets.bind fun _ => Trying config addr process
  · apply Meets.each
    rintro start ⟨state, copied, grown, untouched, magic, type⟩
    apply (pauses_of_breaks (ncclSocketConnect_opening answers untouched magic type)).weaken
    · exact fun _ => id
    · rintro _ _ ⟨⟨fds, sock, rfl⟩, opening⟩
      exact ⟨state, opening, copied, ⟨grown.comms, grown.cqs, grown.qps, grown.mrs⟩⟩
    · exact fun _ _ => id
  · exact fun _ => ibConnectCheck_meets answers

/-- Whatever its stage, a call of `ncclIbConnect` leaves an attempt between two calls, or a
connection. -/
theorem connectFrom_meets {attempt : Attempt} (side : ConnectSide config addr process attempt)
    (answers : Answers) :
    Meets (fun now => now = attempt) (connectFrom config addr answers attempt.stage.state)
      (fun _ => Telling config addr process 4) (Pauses (ConnectSide config addr process)) := by
  have alone {holds : Attempt → Prop} (held : holds attempt) :
      ∀ now, now = attempt → holds now := by
    rintro _ rfl
    exact held
  cases side with
  | unasked unasked =>
    rw [unasked.state]
    exact (connectStart_meets answers).weaken (alone unasked) (fun _ _ => id) (fun _ _ => id)
  | trying trying =>
    rw [trying.state]
    exact (ibConnectCheck_meets answers).weaken (alone trying) (fun _ _ => id) (fun _ _ => id)
  | requesting requesting =>
    rw [requesting.state]
    exact (ibSend_meets answers).weaken (alone requesting) (fun _ _ => id) (fun _ _ => id)
  | awaiting awaiting =>
    rw [awaiting.state]
    exact (ibConnect_meets answers).weaken (alone awaiting) (fun _ _ => id) (fun _ _ => id)
  | confirming confirming =>
    rw [confirming.state]
    exact (ibSendReady_meets answers).weaken (alone confirming) (fun _ _ => id) (fun _ _ => id)

end Setup

/-! ## The side that accepts -/

/-- What accepting has made when it is at a label: its phases until then ran once. -/
def Config.acceptMade (config : Config) : NcclIbCommState → Objects
  | .accept | .recv => ⟨1, 0, 0, 0⟩
  | .send | .pendingReady =>
    ⟨1, config.side.ndevs,
      config.side.numQps + config.side.ndevs * Setup.flushes config,
      config.side.ndevs * (2 + Setup.flushes config)⟩
  | _ => ⟨0, 0, 0, 0⟩

section AcceptSide

variable (config : Config) (listenSock : NcclSocket) (process : Process)

/-- An attempt to accept that was not begun. -/
structure Unaccepted (attempt : Attempt) : Prop where
  state : attempt.stage.state = .start
  sent : attempt.comm.sock.sent = []
  copied : attempt.comm.remMeta = []
  grown : process.Grown (config.acceptMade .start) attempt.process

/-- A connection is being accepted. -/
structure Listening (attempt : Attempt) : Prop where
  state : attempt.stage.state = .accept
  answering : Answering listenSock attempt.comm.sock
  ready : attempt.comm.ready = filled 4 []
  copied : attempt.comm.remMeta = []
  grown : process.Grown (config.acceptMade .accept) attempt.process

/-- The metadata of the other side is being received. -/
structure Hearing (heard : List UInt8) (attempt : Attempt) : Prop where
  state : attempt.stage.state = .recv
  inside : heard.length ≤ config.metaSize
  offset : attempt.stage.offset = heard.length
  buffer : attempt.stage.buffer = some (filled config.metaSize heard)
  received : attempt.comm.sock.received = listenSock.preamble ++ heard
  sent : attempt.comm.sock.sent = []
  ready : attempt.comm.ready = filled 4 []
  copied : attempt.comm.remMeta = []
  grown : process.Grown (config.acceptMade .recv) attempt.process

/-- The queue pairs are ready, and the metadata of the other side was copied. -/
structure Prepared (heard : List UInt8) (attempt : Attempt) : Prop where
  whole : heard.length = config.metaSize
  copied : attempt.comm.remMeta = heard
  rts : DataIn config.side.numQps .rts attempt.comm.states
  grown : process.Grown (config.acceptMade .send) attempt.process

/-- The answer is being sent. -/
structure Replying (heard : List UInt8) (attempt : Attempt) : Prop
    extends Prepared config process heard attempt where
  state : attempt.stage.state = .send
  inside : attempt.stage.offset ≤ (config.answer heard).length
  buffer : attempt.stage.buffer = some (config.answer heard)
  received : attempt.comm.sock.received = listenSock.preamble ++ heard
  sent : attempt.comm.sock.sent = (config.answer heard).take attempt.stage.offset
  ready : attempt.comm.ready = filled 4 []

/-- The answer was sent, and so much of the ready word was received. -/
structure Told (heard word : List UInt8) (attempt : Attempt) : Prop
    extends Prepared config process heard attempt where
  received : attempt.comm.sock.received = listenSock.preamble ++ heard ++ word
  sent : attempt.comm.sock.sent = config.answer heard
  ready : attempt.comm.ready = filled 4 word

/-- The ready word is being received. -/
structure Expecting (heard word : List UInt8) (attempt : Attempt) : Prop
    extends Told config listenSock process heard word attempt where
  state : attempt.stage.state = .pendingReady
  inside : word.length ≤ 4
  offset : attempt.stage.offset = word.length

/-- An attempt to accept between two calls. -/
inductive AcceptSide (attempt : Attempt) : Prop
  | unaccepted (unaccepted : Unaccepted config process attempt)
  | listening (listening : Listening config listenSock process attempt)
  | hearing (heard : List UInt8) (hearing : Hearing config listenSock process heard attempt)
  | replying (heard : List UInt8) (replying : Replying config listenSock process heard attempt)
  | expecting (heard word : List UInt8)
      (expecting : Expecting config listenSock process heard word attempt)

/-- A connection was accepted. -/
def HasAccepted (attempt : Attempt) : Prop :=
  ∃ heard word, word.length = 4 ∧ Told config listenSock process heard word attempt

end AcceptSide

namespace Setup

variable {config : Config} {listenSock : NcclSocket} {process : Process} {heard : List UInt8}

theorem ibRecvReady_meets (answers : Answers) {word : List UInt8} :
    Meets (Expecting config listenSock process heard word) (ibRecvReady answers)
      (fun _ => HasAccepted config listenSock process)
      (Pauses (AcceptSide config listenSock process)) := by
  apply Meets.each
  intro start expecting
  have told (data : List UInt8) : Told config listenSock process heard (word ++ data)
      (start.hears storeReady data) := by
    refine ⟨⟨expecting.whole, expecting.copied, expecting.rts, expecting.grown⟩, ?_,
      expecting.sent, ?_⟩
    · simp [Attempt.hears, storeReady, expecting.received]
    · simp only [Attempt.hears, storeReady, expecting.ready, expecting.offset, overwrite_filled]
  have inside : start.stage.offset ≤ 4 := expecting.offset ▸ expecting.inside
  apply (progressRecv_meets rfl answers.recvReady inside).weaken
  · exact fun _ => id
  · rintro _ _ ⟨data, whole, rfl⟩
    refine ⟨heard, word ++ data, ?_, told data⟩
    rw [List.length_append, ← expecting.offset, whole]
  · rintro exit _ (breaks | ⟨rfl, data, short, rfl⟩)
    · exact Or.inl breaks
    · rw [expecting.offset, ← List.length_append] at short
      exact Or.inr ⟨True.intro, .expecting heard (word ++ data)
        ⟨told data, expecting.state, short.le, by simp [Attempt.hears, expecting.offset]⟩⟩

theorem ibReply_meets (answers : Answers) :
    Meets (Replying config listenSock process heard) (ibReply answers)
      (fun _ => HasAccepted config listenSock process)
      (Pauses (AcceptSide config listenSock process)) := by
  apply Meets.each
  intro start replying
  apply Meets.get_bind
  rintro start rfl
  rw [replying.buffer, Option.getD_some]
  have sent : start.comm.sock.sent =
      [] ++ (config.answer heard).take start.stage.offset := replying.sent
  apply Meets.bind fun _ after =>
    after = start.sends [] (config.answer heard) (config.answer heard).length
  · apply (progressSend_meets rfl answers.sendMeta replying.inside sent).weaken
    · exact fun _ => id
    · exact fun _ _ => id
    · rintro exit _ (breaks | ⟨rfl, count, less, rfl⟩)
      · exact Or.inl breaks
      · exact Or.inr ⟨True.intro, .replying heard
          ⟨⟨replying.whole, replying.copied, replying.rts, replying.grown⟩, replying.state,
            less.le, replying.buffer, replying.received, rfl, replying.ready⟩⟩
  intro _
  apply Meets.bind fun _ => Expecting config listenSock process heard []
  · apply Meets.modify
    rintro _ rfl
    refine ⟨⟨⟨replying.whole, replying.copied, replying.rts, replying.grown⟩, ?_, ?_,
      replying.ready⟩, rfl, Nat.zero_le _, rfl⟩
    · simpa [Attempt.sends] using replying.received
    · simp [Attempt.sends]
  · exact fun _ => ibRecvReady_meets answers

/-- A receive into the buffer stays in step. -/
theorem hearing_hears {attempt : Attempt}
    (hearing : Hearing config listenSock process heard attempt) {data : List UInt8}
    (fits : attempt.stage.offset + data.length ≤ config.metaSize) :
    Hearing config listenSock process (heard ++ data) (attempt.hears storeBuffer data) := by
  rw [hearing.offset] at fits
  refine ⟨hearing.state, ?_, ?_, ?_, ?_, hearing.sent, hearing.ready, hearing.copied,
    hearing.grown⟩
  · rwa [List.length_append]
  · simp [Attempt.hears, storeBuffer, hearing.offset]
  · simp only [Attempt.hears, storeBuffer, hearing.buffer, hearing.offset, Option.map_some,
      overwrite_filled]
  · simp [Attempt.hears, storeBuffer, hearing.received]

/-- The metadata was received, and copied out of the buffer. -/
structure Learned (config : Config) (listenSock : NcclSocket) (process : Process)
    (heard : List UInt8) (attempt : Attempt) : Prop where
  whole : heard.length = config.metaSize
  received : attempt.comm.sock.received = listenSock.preamble ++ heard
  sent : attempt.comm.sock.sent = []
  ready : attempt.comm.ready = filled 4 []
  copied : attempt.comm.remMeta = heard
  grown : process.Grown (config.acceptMade .recv) attempt.process

theorem ibRecv_meets (answers : Answers) :
    Meets (Hearing config listenSock process heard) (ibRecv config answers)
      (fun _ => HasAccepted config listenSock process)
      (Pauses (AcceptSide config listenSock process)) := by
  apply Meets.bind fun _ now => ∃ heard, heard.length = config.metaSize ∧
    Hearing config listenSock process heard now
  · apply Meets.each
    intro start hearing
    apply (progressRecv_meets rfl answers.recvMeta
      (hearing.offset ▸ hearing.inside)).weaken
    · exact fun _ => id
    · rintro _ _ ⟨data, whole, rfl⟩
      refine ⟨heard ++ data, ?_, hearing_hears hearing whole.le⟩
      rw [List.length_append, ← hearing.offset, whole]
    · rintro exit _ (breaks | ⟨rfl, data, short, rfl⟩)
      · exact Or.inl breaks
      · exact Or.inr ⟨True.intro, .hearing _ (hearing_hears hearing short.le)⟩
  intro _
  apply Meets.each
  rintro start ⟨heard, whole, hearing⟩
  have bytes : start.stage.buffer.getD [] = heard := by
    rw [hearing.buffer, ← whole, filled_whole]
    rfl
  apply Meets.bind fun remMeta now => remMeta = config.metaOfBytes heard ∧
    Learned config listenSock process heard now
  · apply Meets.get_bind
    rintro start rfl
    rw [bytes]
    apply Meets.bind fun _ => Learned config listenSock process heard
    · apply Meets.modify
      rintro _ rfl
      exact ⟨whole, hearing.received, hearing.sent, hearing.ready, rfl, hearing.grown⟩
    · exact fun _ => Meets.pure fun _ learned => ⟨rfl, learned⟩
  intro remMeta
  apply Meets.given
  rintro rfl
  apply Meets.each
  intro start learned
  have sizes : Does start ⟨0, 0, 0, 0⟩ (fun _ => True) (sizeComm config) ⟨0, 0, 0, 0⟩
      (fun _ => True) := does_sizeComm config
  apply Meets.bind _ (pauses_of_breaks (sizes.first True.intro))
  intro _
  apply Meets.bind _ (pauses_of_breaks (does_acceptBases config answers))
  intro _
  apply Meets.bind _ (pauses_of_breaks (does_acceptQps config answers _))
  intro _
  apply Meets.bind _ (pauses_of_breaks (does_flushEnabled config))
  intro _
  apply Meets.bind _ (pauses_of_breaks (does_acceptDevs config answers))
  intro _
  apply Meets.bind fun _ after => ∃ now, Doing start _ (DataIn config.side.numQps .rts) now ∧
    after = { now with stage.state := .send, stage.offset := 0, stage.buffer := none }
  · exact Meets.modify fun now doing => ⟨now, doing, rfl⟩
  intro _
  apply Meets.bind _ (pauses_of_breaks (demand_breaks answers _ rfl))
  intro _
  apply Meets.bind fun _ => Replying config listenSock process heard
  · apply Meets.modify
    rintro _ ⟨now, doing, rfl⟩
    refine ⟨⟨learned.whole, ?_, doing.moved, ?_⟩, rfl, Nat.zero_le _, rfl, ?_, ?_, ?_⟩
    · exact doing.remMeta.trans learned.copied
    · have grown := learned.grown.trans doing.grown
      simpa [Config.acceptMade] using grown
    · simpa [doing.sock] using learned.received
    · simpa [doing.sock] using learned.sent
    · exact doing.ready.trans learned.ready
  · exact fun _ => ibReply_meets answers

/-- Driving the socket leaves an attempt that accepts a connection. -/
theorem listening_driven {start after : Attempt}
    (listening : Listening config listenSock process start) (only : SockOnly start after)
    (answering : Answering listenSock after.comm.sock) :
    Listening config listenSock process after := by
  obtain ⟨fds, sock, rfl⟩ := only
  exact ⟨listening.state, answering, listening.ready, listening.copied,
    ⟨listening.grown.comms, listening.grown.cqs, listening.grown.qps, listening.grown.mrs⟩⟩

theorem ibAcceptCheck_meets (answers : Answers) :
    Meets (Listening config listenSock process) (ibAcceptCheck config answers)
      (fun _ => HasAccepted config listenSock process)
      (Pauses (AcceptSide config listenSock process)) := by
  apply Meets.bind fun ready now => Listening config listenSock process now ∧
    (ready = true ↔ now.comm.sock.state = .ready)
  · apply Meets.each
    intro start listening
    apply (pauses_of_breaks (ncclSocketReady_answering listening.answering answers)).weaken
    · exact fun _ => id
    · exact fun _ now ⟨⟨only, answering⟩, isReady⟩ =>
        ⟨listening_driven listening only answering, isReady⟩
    · exact fun _ _ => id
  intro ready
  apply Meets.bind fun _ now => Listening config listenSock process now ∧
    now.comm.sock.state = .ready
  · apply Meets.ite
    · exact fun _ => Meets.throw fun _ now => Or.inr ⟨True.intro, .listening now.1⟩
    · intro isReady
      rw [Bool.not_eq_false] at isReady
      exact Meets.pure fun _ now => ⟨now.1, now.2.mp isReady⟩
  intro _
  apply Meets.bind fun _ now => (Listening config listenSock process { now with
    stage.state := .accept } ∧ now.comm.sock.state = .ready) ∧ now.stage.state = .recv ∧
      now.stage.offset = 0
  · apply Meets.modify
    rintro now ⟨listening, isReady⟩
    exact ⟨⟨⟨rfl, listening.answering, listening.ready, listening.copied, listening.grown⟩,
      isReady⟩, rfl, rfl⟩
  intro _
  apply Meets.bind _ (pauses_of_breaks (demand_breaks answers _ rfl))
  intro _
  apply Meets.bind fun _ => Hearing config listenSock process []
  · apply Meets.modify
    rintro now ⟨⟨listening, isReady⟩, state, offset⟩
    refine ⟨state, Nat.zero_le _, offset, by simp [filled], ?_, listening.answering.sent,
      listening.ready, listening.copied, listening.grown⟩
    have received : now.comm.sock.received = [] ++ now.comm.sock.preamble :=
      listening.answering.incoming.ready isReady
    have magic : now.comm.sock.magic = listenSock.magic := listening.answering.magic
    have type : now.comm.sock.type = listenSock.type := listening.answering.type
    rw [received, NcclSocket.preamble, magic, type]
    simp [NcclSocket.preamble]
  · exact fun _ => ibRecv_meets answers

theorem acceptStart_meets (answers : Answers) (unused : listenSock.sent = []) :
    Meets (Unaccepted config process) (acceptStart config listenSock answers)
      (fun _ => HasAccepted config listenSock process)
      (Pauses (AcceptSide config listenSock process)) := by
  apply Meets.bind fun address now => now.comm = .zero address ∧
    process.Grown ⟨1, 0, 0, 0⟩ now.process
  · apply (pauses_of_breaks (mallocComm_meets answers)).weaken
    · exact fun _ unaccepted => unaccepted.grown
    · exact fun _ _ => id
    · exact fun _ _ => id
  intro address
  apply Meets.bind fun _ now => now.stage.state = .accept ∧ now.comm = .zero address ∧
    process.Grown ⟨1, 0, 0, 0⟩ now.process
  · exact Meets.modify fun _ now => ⟨rfl, now⟩
  intro _
  apply Meets.bind fun _ now => now.stage.state = .accept ∧ now.comm.ready = filled 4 [] ∧
    now.comm.remMeta = [] ∧ process.Grown ⟨1, 0, 0, 0⟩ now.process
  · apply Meets.each
    rintro start ⟨state, allocated, grown⟩
    apply (pauses_of_breaks (ncclSocketInit_meets answers none ncclSocketMagic 0
      (congrArg SetupComm.sock allocated))).weaken
    · exact fun _ => id
    · rintro _ _ ⟨⟨fds, sock, rfl⟩, _⟩
      exact ⟨state, congrArg SetupComm.ready allocated, congrArg SetupComm.remMeta allocated,
        ⟨grown.comms, grown.cqs, grown.qps, grown.mrs⟩⟩
    · exact fun _ _ => id
  intro _
  apply Meets.bind fun _ => Listening config listenSock process
  · apply Meets.each
    rintro start ⟨state, ready, copied, grown⟩
    apply (pauses_of_breaks (ncclSocketAccept_answering answers unused)).weaken
    · exact fun _ => id
    · rintro _ _ ⟨⟨fds, sock, rfl⟩, answering⟩
      exact ⟨state, answering, ready, copied, ⟨grown.comms, grown.cqs, grown.qps, grown.mrs⟩⟩
    · exact fun _ _ => id
  · exact fun _ => ibAcceptCheck_meets answers

/-- Whatever its stage, a call of `ncclIbAccept` leaves an attempt between two calls, or a
connection. -/
theorem acceptFrom_meets {attempt : Attempt}
    (side : AcceptSide config listenSock process attempt) (unused : listenSock.sent = [])
    (answers : Answers) :
    Meets (fun now => now = attempt)
      (acceptFrom config listenSock answers attempt.stage.state)
      (fun _ => HasAccepted config listenSock process)
      (Pauses (AcceptSide config listenSock process)) := by
  have alone {holds : Attempt → Prop} (held : holds attempt) :
      ∀ now, now = attempt → holds now := by
    rintro _ rfl
    exact held
  cases side with
  | unaccepted unaccepted =>
    rw [unaccepted.state]
    exact (acceptStart_meets answers unused).weaken (alone unaccepted) (fun _ _ => id)
      (fun _ _ => id)
  | listening listening =>
    rw [listening.state]
    exact (ibAcceptCheck_meets answers).weaken (alone listening) (fun _ _ => id) (fun _ _ => id)
  | hearing heard hearing =>
    rw [hearing.state]
    exact (ibRecv_meets answers).weaken (alone hearing) (fun _ _ => id) (fun _ _ => id)
  | replying heard replying =>
    rw [replying.state]
    exact (ibReply_meets answers).weaken (alone replying) (fun _ _ => id) (fun _ _ => id)
  | expecting heard word expecting =>
    rw [expecting.state]
    exact (ibRecvReady_meets answers).weaken (alone expecting) (fun _ _ => id) (fun _ _ => id)

end Setup

end NcclExts.Unet
