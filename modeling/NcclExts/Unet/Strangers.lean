import NcclExts.Unet.SocketRuns

/-!
# Strangers on a listening socket

Connections that are not from the peer reach a listening socket before the peer does. Each
sends bytes that do not begin with the magic, and is closed. A socket that accepts reads
the magic of each, and drops those it does not know. It does so as long as a stranger sends
eight bytes: one that closes its connection before is reported like a peer that is gone.
-/

namespace NcclExts.Unet

open NcclExts.Foundation

/-- A connection that waits to be accepted: the bytes it sends, and whether it is closed
after them. -/
structure Arrival where
  bytes : List UInt8
  closes : Bool
deriving DecidableEq, Repr

/-- What a transfer of `wanted` bytes is answered on a connection that works: the bytes in
order, as many at a time as have arrived and were asked for, and the end behind the last
of them. -/
def Delivers (closes : Bool) : (unread : List UInt8) → (wanted : Nat) → List RecvAnswer → Prop
  | _, _, [] => True
  | unread, wanted, .blocked :: rest => Delivers closes unread wanted rest
  | _, wanted, .failed :: _ => wanted = 0
  | unread, wanted, .bytes data :: rest =>
    wanted = 0 ∨
      (data.length ≤ wanted ∧ data <+: unread ∧ (data = [] → closes = true ∧ unread = []) ∧
        Delivers closes (unread.drop data.length) (wanted - data.length) rest)

/-- What a transfer got from a connection: the next bytes, and less than it wanted only when
there were no more. -/
structure Got (closes : Bool) (unread : List UInt8) (wanted : Nat) (got : RecvProgress) :
    Prop where
  next : got.data <+: unread
  ended : got.ok = false → closes = true ∧ unread.length < wanted

theorem Got.fine {closes : Bool} {unread : List UInt8} {wanted : Nat} {got : RecvProgress}
    (next : got.data <+: unread) (ok : got.ok = true) : Got closes unread wanted got :=
  ⟨next, fun failed => absurd ok (by rw [failed]; decide)⟩

theorem socketRecv_got {closes : Bool} {unread : List UInt8} {wanted : Nat}
    {answers : List RecvAnswer} (delivers : Delivers closes unread wanted answers)
    (wants : 0 < wanted) : Got closes unread wanted (socketRecv wanted answers) := by
  induction answers generalizing unread wanted with
  | nil => exact .fine List.nil_prefix rfl
  | cons answer rest ih =>
    cases answer with
    | blocked => exact .fine List.nil_prefix rfl
    | failed => exact absurd delivers (by simp only [Delivers]; omega)
    | bytes data =>
      rcases delivers with none | ⟨fits, next, ended, later⟩
      · omega
      have whole : data.take wanted = data := List.take_of_length_le fits
      obtain ⟨tail, rfl⟩ := next
      rw [List.drop_left] at later
      simp only [socketRecv, whole]
      split_ifs with empty short
      · obtain ⟨closed, nothing⟩ := ended empty
        exact ⟨List.nil_prefix, fun _ => ⟨closed, by simpa [nothing] using wants⟩⟩
      · have got := ih later (by omega)
        refine ⟨(List.prefix_append_right_inj data).mpr got.next, fun failed => ?_⟩
        obtain ⟨closed, few⟩ := got.ended failed
        exact ⟨closed, by simp only [List.length_append]; omega⟩
      · exact .fine (List.prefix_append _ _) rfl

theorem socketWaitRecv_got {closes : Bool} {unread : List UInt8} {wanted : Nat}
    {answers : List RecvAnswer} {got : RecvProgress}
    (delivers : Delivers closes unread wanted answers)
    (returned : socketWaitRecv wanted answers = some got) : Got closes unread wanted got := by
  induction answers generalizing unread wanted got with
  | nil =>
    simp only [socketWaitRecv] at returned
    split at returned
    · rw [← Option.some.inj returned]
      exact .fine List.nil_prefix rfl
    · exact absurd returned (by simp)
  | cons answer rest ih =>
    simp only [socketWaitRecv] at returned
    split_ifs at returned with none
    · rw [← Option.some.inj returned]
      exact .fine List.nil_prefix rfl
    cases answer with
    | blocked => exact ih delivers returned
    | failed => exact absurd delivers none
    | bytes data =>
      rcases delivers with nothing | ⟨fits, next, ended, later⟩
      · exact absurd nothing none
      have whole : data.take wanted = data := List.take_of_length_le fits
      obtain ⟨tail, rfl⟩ := next
      rw [List.drop_left] at later
      simp only [whole] at returned
      split_ifs at returned with empty
      · obtain ⟨closed, nothing⟩ := ended empty
        rw [← Option.some.inj returned]
        exact ⟨List.nil_prefix, fun _ => ⟨closed, by simp [nothing]; omega⟩⟩
      · obtain ⟨rest, waited, rfl⟩ := Option.map_eq_some_iff.mp returned
        have got := ih later waited
        refine ⟨(List.prefix_append_right_inj data).mpr got.next, fun failed => ?_⟩
        obtain ⟨closed, few⟩ := got.ended failed
        exact ⟨closed, by simp only [List.length_append]; omega⟩

/-! ## A socket with strangers in front of it -/

/-- What a round is answered on a connection of which some bytes were already read. -/
structure Arrival.Feeds (arrival : Arrival) (read : Nat) (answers : SocketAnswers) : Prop where
  magic : Delivers arrival.closes (arrival.bytes.drop read) 8 answers.recvMagic
  rest : ∀ first, socketRecv 8 answers.recvMagic = ⟨first, true⟩ →
    Delivers arrival.closes ((arrival.bytes.drop read).drop first.length) (8 - first.length)
      answers.recvMagicRest
  type : Delivers arrival.closes ((arrival.bytes.drop read).drop 8) 4 answers.recvType

/-- A socket that accepts; the connection it accepted last and those that wait; how many
calls found something to read; and whether a call returned an error. -/
structure Besieged where
  attempt : Attempt
  current : Option Arrival
  waiting : List Arrival
  prompts : Nat
  failed : Bool

namespace Besieged

def sock (besieged : Besieged) : NcclSocket := besieged.attempt.comm.sock

/-- The connection that a round reads from, and how much of it was read. -/
def serving (besieged : Besieged) (answers : SocketAnswers) : Option (Arrival × Nat) :=
  match besieged.sock.state, answers.accept with
  | .accepted, _ => besieged.current.map fun arrival => (arrival, besieged.sock.received.length)
  | .accepting, .accepted _ => besieged.waiting.head?.map fun arrival => (arrival, 0)
  | _, _ => none

/-- The system calls answer as the connections have it, and do not fail by themselves. -/
structure Faithful (besieged : Besieged) (answers : SocketAnswers) : Prop where
  accept : answers.accept ≠ .failed
  setsockopt : answers.setsockopt = true
  waiting : ∀ fd, answers.accept = .accepted fd → besieged.sock.state = .accepting →
    besieged.waiting ≠ []
  serving : ∀ served ∈ besieged.serving answers, served.1.Feeds served.2 answers

/-- Whether the round finds something to read. -/
def prompt (besieged : Besieged) (answers : SocketAnswers) : Nat :=
  if besieged.serving answers ≠ none ∧ (socketRecv 8 answers.recvMagic).data ≠ [] then 1 else 0

/-- The connections after a round, which accepts one when the socket accepts and one is
there. -/
def arrivals (besieged : Besieged) (answers : SocketAnswers) : Option Arrival × List Arrival :=
  match besieged.sock.state, answers.accept with
  | .accepting, .accepted _ => (besieged.waiting.head?, besieged.waiting.tail)
  | _, _ => (besieged.current, besieged.waiting)

/-- A call of `ncclSocketReady`, unless it waits for a transfer. -/
def step (besieged : Besieged) (answers : Answers) : Option Besieged :=
  let round := answers.socket .asking
  let (current, waiting) := besieged.arrivals round
  let prompts := besieged.prompts + besieged.prompt round
  match (SocketCall.ready answers).program besieged.attempt with
  | .ok _ after => some ⟨after, current, waiting, prompts, besieged.failed⟩
  | .error (.waiting _) _ => none
  | .error _ after => some ⟨after, current, waiting, prompts, true⟩

end Besieged

/-- The connections in front of a socket: strangers, which close, and then the peer, which
sends the preamble of the socket and goes on. -/
def siege (strangers : List (List UInt8)) (sock : NcclSocket) (more : List UInt8) :
    List Arrival :=
  strangers.map (fun bytes => ⟨bytes, true⟩) ++ [⟨sock.preamble ++ more, false⟩]

/-- Rounds of a socket that accepts, while strangers and then the peer connect. -/
def besieging (start : Attempt) (strangers : List (List UInt8)) (more : List UInt8) :
    System Besieged Answers where
  starts := fun besieged =>
    besieged = ⟨start, none, siege strangers start.comm.sock more, 0, false⟩
  step := Besieged.step

/-- The strangers go unnoticed: no call returns an error, each of them leaves the socket
accepting without a descriptor or its connection unread, and as soon as one more call than
there are strangers found something to read, the socket is ready for the peer. Until then
the next call can find something to read. -/
def Ignored (start : Attempt) (strangers : List (List UInt8)) (more : List UInt8) : Prop :=
  ∀ besieged, (besieging start strangers more).Reaches
      (fun besieged answers => besieged.Faithful (answers.socket .asking)) besieged →
    besieged.failed = false ∧
    ((besieged.sock.state = .accepting ∧ besieged.sock.fd = none ∧
        besieged.attempt.process.fds = start.process.fds) ∨
      (besieged.sock.state = .accepted ∧ besieged.sock.received = []) ∨
      (besieged.sock.state = .ready ∧ besieged.waiting = [])) ∧
    (besieged.sock.state = .ready ↔ strangers.length < besieged.prompts) ∧
    (besieged.sock.state ≠ .ready → ∃ answers after,
      besieged.Faithful (answers.socket .asking) ∧ besieged.step answers = some after ∧
        after.prompts = besieged.prompts + 1)

/-! ## One connection -/

/-- Bytes that were read in two transfers were read in a row. -/
theorem prefix_append {first second bytes : List UInt8} (head : first <+: bytes)
    (next : second <+: bytes.drop first.length) : first ++ second <+: bytes := by
  obtain ⟨tail, rfl⟩ := head
  rw [List.drop_left] at next
  exact (List.prefix_append_right_inj first).mpr next

/-- A prefix of a known length is that many bytes. -/
theorem whole_of_start {read whole more : List UInt8} (next : read <+: whole ++ more)
    (length : read.length = whole.length) : read = whole :=
  List.IsPrefix.eq_of_length (List.prefix_of_prefix_length_le next (List.prefix_append _ _)
    length.le) length

namespace Finalized

variable {sock after : NcclSocket} {answers : SocketAnswers} {exit : Option Exit}

/-- A transfer of eight bytes that is complete read eight bytes. -/
theorem length_magic {data more : List UInt8}
    (first : socketRecv 8 answers.recvMagic = ⟨data, true⟩)
    (rest : socketWaitRecv (8 - data.length) answers.recvMagicRest = some ⟨more, true⟩) :
    (data ++ more).length = 8 := by
  have most := socketRecv_length 8 answers.recvMagic
  have complete := socketWaitRecv_complete rest rfl
  rw [first] at most
  simp only at most complete
  rw [List.length_append]
  omega

/-- A stranger is dropped once something of it was read, or it closed before it sent eight
bytes and is reported as an error. -/
theorem of_stranger {bytes : List UInt8} (finalized : Finalized sock answers exit after)
    (answered : Arrival.Feeds ⟨bytes, true⟩ 0 answers) (setsockopt : answers.setsockopt = true)
    (returned : ∀ point, exit ≠ some (.waiting point))
    (wrong : ¬ wordBytes 8 sock.magic <+: bytes) :
    (exit ≠ none ∧ bytes.length < 8) ∨
      (exit = none ∧ after = sock ∧ (socketRecv 8 answers.recvMagic).data = []) ∨
      (exit = none ∧ (socketRecv 8 answers.recvMagic).data ≠ [] ∧
        ∃ received,
          after = { sock with received := received, fd := none, state := .accepting }) := by
  have magic := socketRecv_got answered.magic (by omega)
  rw [List.drop_zero] at magic
  have rest := answered.rest
  rw [List.drop_zero] at rest
  have notMagic : ∀ {data more : List UInt8}, socketRecv 8 answers.recvMagic = ⟨data, true⟩ →
      socketWaitRecv (8 - data.length) answers.recvMagicRest = some ⟨more, true⟩ →
        data ++ more ≠ wordBytes 8 sock.magic := by
    intro data more first later same
    have got := socketWaitRecv_got (rest data first) later
    rw [first] at magic
    exact wrong (same ▸ prefix_append magic.next got.next)
  cases finalized with
  | sockopt unset => simp [setsockopt] at unset
  | failed first =>
    rw [first] at magic
    exact Or.inl ⟨nofun, (magic.ended rfl).2⟩
  | quiet first => exact Or.inr (Or.inl ⟨rfl, rfl, by rw [first]⟩)
  | waiting => exact absurd rfl (returned _)
  | cut first arrived later =>
    rename_i data more
    have got := socketWaitRecv_got (rest data first) later
    have few : (bytes.drop data.length).length < 8 - data.length := (got.ended rfl).2
    rw [List.length_drop] at few
    exact Or.inl ⟨nofun, by omega⟩
  | stranger first arrived later =>
    exact Or.inr (Or.inr ⟨rfl, by rw [first]; exact arrived, _, rfl⟩)
  | typeWaiting => exact absurd rfl (returned _)
  | typeCut first _ later same => exact absurd same (notMagic first later)
  | wrongType first _ later same => exact absurd same (notMagic first later)
  | ready first _ later same => exact absurd same (notMagic first later)

/-- The peer makes the socket ready once something of it was read. -/
theorem of_peer {more : List UInt8} (finalized : Finalized sock answers exit after)
    (answered : Arrival.Feeds ⟨sock.preamble ++ more, false⟩ 0 answers)
    (setsockopt : answers.setsockopt = true)
    (returned : ∀ point, exit ≠ some (.waiting point)) :
    (exit = none ∧ after = sock ∧ (socketRecv 8 answers.recvMagic).data = []) ∨
      (exit = none ∧ (socketRecv 8 answers.recvMagic).data ≠ [] ∧
        ∃ received, after = { sock with received := received, state := .ready }) := by
  have magic := socketRecv_got answered.magic (by omega)
  rw [List.drop_zero] at magic
  have rest := answered.rest
  have type := answered.type
  rw [List.drop_zero] at rest type
  have typeNext : (sock.preamble ++ more).drop 8 = wordBytes 4 sock.type ++ more := by
    rw [NcclSocket.preamble, List.append_assoc]
    exact List.drop_left' (length_wordBytes 8 _)
  simp only [typeNext] at type
  cases finalized with
  | sockopt unset => simp [setsockopt] at unset
  | failed first =>
    rw [first] at magic
    exact absurd (magic.ended rfl).1 Bool.false_ne_true
  | quiet first => exact Or.inl ⟨rfl, rfl, by rw [first]⟩
  | waiting => exact absurd rfl (returned _)
  | cut first arrived later =>
    exact absurd ((socketWaitRecv_got (rest _ first) later).ended rfl).1 Bool.false_ne_true
  | stranger first arrived later wrong =>
    have got := socketWaitRecv_got (rest _ first) later
    have length := length_magic first later
    rw [first] at magic
    have next := prefix_append magic.next got.next
    rw [NcclSocket.preamble, List.append_assoc] at next
    exact absurd (whole_of_start next (by rw [length, length_wordBytes])) wrong
  | typeWaiting => exact absurd rfl (returned _)
  | typeCut _ _ _ _ last => exact absurd ((socketWaitRecv_got type last).ended rfl).1 Bool.false_ne_true
  | wrongType _ _ _ _ last wrong =>
    have length := socketWaitRecv_complete last rfl
    have got := socketWaitRecv_got type last
    exact absurd (whole_of_start got.next (by rw [length, length_wordBytes])) wrong
  | ready first arrived => exact Or.inr ⟨rfl, by rw [first]; exact arrived, _, rfl⟩

end Finalized

/-! ## Descriptors -/

/-- The descriptor of the socket is open beside those that were open before, and a socket
that still accepts has none. -/
structure OwnsFd (fds : List Nat) (attempt : Attempt) : Prop where
  fds : attempt.process.fds = attempt.comm.sock.fd.toList ++ fds
  accepting : attempt.comm.sock.state = .accepting → attempt.comm.sock.fd = none

theorem ownsFd_connecting (fds : List Nat) :
    Connecting (OwnsFd fds) (fun _ => True) where
  comm := by
    intro attempt comm owns _ fd state
    exact ⟨by simpa only [fd] using owns.fds, fun accepting => by
      simpa only [fd] using owns.accepting (state ▸ accepting)⟩
  waiting := fun _ => True.intro
  failed := fun _ _ _ => True.intro
  sock := by
    intro attempt sock owns fd unaccepting
    exact ⟨by simpa only [fd] using owns.fds, fun accepting => absurd accepting unaccepting.1⟩

namespace Setup

theorem socketTryAccept_ownsFd (fds : List Nat) (answer : AcceptAnswer) :
    Keeps (OwnsFd fds) (fun _ => True) (whenState .accepting (socketTryAccept answer)) := by
  apply Meets.get_bind
  intro attempt owns
  apply Meets.ite
  swap
  · exact fun _ => Meets.pure fun _ same => same ▸ owns
  intro accepting
  have unopened : attempt.process.fds = fds := by
    rw [owns.fds, owns.accepting accepting, Option.toList_none, List.nil_append]
  have kept : OwnsFd fds { attempt with comm.sock := { attempt.comm.sock with fd := none } } :=
    ⟨unopened, fun _ => rfl⟩
  cases answer with
  | accepted fd =>
    apply Meets.bind fun _ after =>
      after.process.fds = fd :: fds ∧ after.comm.sock.fd = some fd
    · apply Meets.modify
      rintro _ rfl
      exact ⟨congrArg _ unopened, rfl⟩
    · intro _
      apply Meets.modify
      rintro after ⟨opened, own⟩
      exact ⟨by rw [opened, own]; rfl, nofun⟩
  | again =>
    apply Meets.modify
    rintro _ rfl
    exact kept
  | failed =>
    apply Meets.bind fun _ => OwnsFd fds
    · apply Meets.modify
      rintro _ rfl
      exact kept
    · exact fun _ => Meets.throw fun _ owns => ⟨owns, True.intro⟩

/-- Closing gives the descriptor back. -/
theorem closeFd_ownsFd {fds : List Nat} {allowed : Exit → Prop} :
    Meets (OwnsFd fds) closeFd (fun _ attempt => attempt.process.fds = fds ∧
      attempt.comm.sock.fd = none) (fun exit after => OwnsFd fds after ∧ allowed exit) := by
  apply Meets.modify
  intro attempt owns
  have opened := owns.fds
  cases fd : attempt.comm.sock.fd with
  | none => simpa [fd] using opened
  | some fd' => simp [opened, fd]

theorem socketFinalizeAccept_ownsFd (fds : List Nat) (answers : SocketAnswers) :
    Keeps (OwnsFd fds) (fun _ => True) (socketFinalizeAccept answers) := by
  have steady := (ownsFd_connecting fds).toSteady
  unfold socketFinalizeAccept
  apply Keeps.bind
  · exact Keeps.leaveIf fun _ => True.intro
  intro _
  apply Keeps.bind
  · exact steady.recvSome _ _ rfl
  intro first
  apply Keeps.doIf
  intro _
  apply Keeps.bind
  · exact steady.recvAll _ _ rfl
  intro rest
  apply Keeps.read
  intro _ _
  apply Keeps.ite
  · intro _
    apply Meets.bind _ closeFd_ownsFd
    intro _
    apply Meets.modify
    rintro attempt ⟨closed, none⟩
    exact ⟨by rw [none]; exact closed, fun _ => none⟩
  intro _
  apply Keeps.bind
  · exact steady.recvAll _ _ rfl
  intro type
  apply Keeps.read
  intro _ _
  apply Keeps.ite
  · intro _
    apply Keeps.bind
    · exact (ownsFd_connecting fds).setState (by decide)
    intro _
    apply Meets.bind _ closeFd_ownsFd
    intro _
    apply Meets.throw
    rintro attempt ⟨closed, none⟩
    exact ⟨⟨by rw [none]; exact closed, fun _ => none⟩, True.intro⟩
  · intro _
    exact (ownsFd_connecting fds).setState (by decide)

/-- Asking whether a socket is ready leaves its descriptor accounted for. -/
theorem ready_ownsFd (fds : List Nat) (answers : Answers) :
    Keeps (OwnsFd fds) (fun _ => True) (SocketCall.ready answers).program := by
  have connecting := ownsFd_connecting fds
  apply Keeps.bind
  · apply ncclSocketReady_keeps connecting.toSteady
    exact socketProgressState_keeps (socketTryAccept_ownsFd fds _)
      (whenState_keeps (socketFinalizeAccept_ownsFd fds _)) connecting
  · exact fun _ => Keeps.pure _

end Setup

/-! ## The whole siege -/

@[simp] theorem length_siege (strangers : List (List UInt8)) (sock : NcclSocket)
    (more : List UInt8) : (siege strangers sock more).length = strangers.length + 1 := by
  simp [siege]

/-- Who is next is a stranger, or the peer behind all of them. -/
theorem siege_drop {strangers : List (List UInt8)} {sock : NcclSocket} {more : List UInt8}
    {served : Nat} {arrival : Arrival} {rest : List Arrival}
    (next : (siege strangers sock more).drop served = arrival :: rest) :
    (∃ early : served < strangers.length, arrival = ⟨strangers[served], true⟩) ∨
      (served = strangers.length ∧ rest = [] ∧ arrival = ⟨sock.preamble ++ more, false⟩) := by
  have inside : served < (siege strangers sock more).length := by
    have positive := congrArg List.length next
    rw [List.length_drop, List.length_cons] at positive
    omega
  have first := List.drop_eq_getElem_cons inside
  rw [next] at first
  obtain ⟨isArrival, isRest⟩ := List.cons.inj first
  rw [length_siege] at inside
  by_cases stranger : served < strangers.length
  · refine Or.inl ⟨stranger, ?_⟩
    rw [isArrival]
    simp [siege, List.getElem_append_left, stranger]
  · have last : served = strangers.length := by omega
    refine Or.inr ⟨last, ?_, ?_⟩
    · rw [isRest]
      apply List.drop_of_length_le
      rw [length_siege]
      omega
    · rw [isArrival]
      simp [siege, last]

/-- Where a socket is that ignores the strangers: it accepts, it has a connection that it
has not read from, or it is ready for the peer. -/
inductive Calm.Place (start : Attempt) (strangers : List (List UInt8)) (more : List UInt8)
    (besieged : Besieged) : Prop
  | accepting (state : besieged.sock.state = .accepting)
      (waiting : besieged.waiting = (siege strangers start.comm.sock more).drop besieged.prompts)
      (served : besieged.prompts ≤ strangers.length)
  | accepted (arrival : Arrival) (state : besieged.sock.state = .accepted)
      (unread : besieged.sock.received = []) (current : besieged.current = some arrival)
      (waiting : (siege strangers start.comm.sock more).drop besieged.prompts =
        arrival :: besieged.waiting)
  | ready (state : besieged.sock.state = .ready) (waiting : besieged.waiting = [])
      (served : besieged.prompts = strangers.length + 1)

/-- The strangers were ignored so far. -/
structure Calm (start : Attempt) (strangers : List (List UInt8)) (more : List UInt8)
    (besieged : Besieged) : Prop where
  owns : OwnsFd start.process.fds besieged.attempt
  failed : besieged.failed = false
  magic : besieged.sock.magic = start.comm.sock.magic
  type : besieged.sock.type = start.comm.sock.type
  place : Calm.Place start strangers more besieged

namespace Besieged

variable {besieged after : Besieged} {answers : Answers}

/-- What a call that returned left. -/
theorem step_cases (stepped : besieged.step answers = some after) :
    ∃ exit, (∀ point, exit ≠ some (.waiting point)) ∧
      (∀ ways, Setup.Turns besieged.sock (SocketCall.ready answers).program ways →
        ways exit after.sock) ∧
      (∀ holds, Keeps holds (fun _ => True) (SocketCall.ready answers).program →
        holds besieged.attempt → holds after.attempt) ∧
      (after.current, after.waiting) = besieged.arrivals (answers.socket .asking) ∧
      after.prompts = besieged.prompts + besieged.prompt (answers.socket .asking) ∧
      after.failed = (besieged.failed || exit.isSome) := by
  unfold step at stepped
  have went := fun ways (turns : Setup.Turns besieged.sock (SocketCall.ready answers).program
    ways) => turns besieged.attempt rfl
  cases ran : (SocketCall.ready answers).program besieged.attempt with
  | ok value later =>
    simp only [ran] at went stepped
    rw [← Option.some.inj stepped]
    exact ⟨none, nofun, went, fun holds keeps held => keeps.after_ok held ran, rfl, rfl,
      (Bool.or_false _).symm⟩
  | error exit later =>
    simp only [ran] at went stepped
    have kept := fun holds (keeps : Keeps holds (fun _ => True)
      (SocketCall.ready answers).program) held => (keeps.after_error held ran).1
    cases exit with
    | waiting point => exact nomatch stepped
    | again =>
      rw [← Option.some.inj stepped]
      exact ⟨some .again, nofun, went, kept, rfl, rfl, (Bool.or_true _).symm⟩
    | failed point result =>
      rw [← Option.some.inj stepped]
      exact ⟨some (.failed point result), nofun, went, kept, rfl, rfl, (Bool.or_true _).symm⟩
    | bailed point result =>
      rw [← Option.some.inj stepped]
      exact ⟨some (.bailed point result), nofun, went, kept, rfl, rfl, (Bool.or_true _).symm⟩

end Besieged

/-- None of the strangers sends the magic. -/
def Wrong (strangers : List (List UInt8)) (sock : NcclSocket) : Prop :=
  ∀ bytes ∈ strangers, ¬ wordBytes 8 sock.magic <+: bytes

instance (strangers : List (List UInt8)) (sock : NcclSocket) : Decidable (Wrong strangers sock) :=
  inferInstanceAs (Decidable (∀ bytes ∈ strangers, ¬ wordBytes 8 sock.magic <+: bytes))

/-- What becomes of a connection that the socket reads from. -/
theorem Finalized.served {strangers : List (List UInt8)} {start sock after : NcclSocket}
    {more : List UInt8} {answers : SocketAnswers} {exit : Option Exit} {served : Nat}
    {arrival : Arrival} {rest : List Arrival} (finalized : Finalized sock answers exit after)
    (wrong : Wrong strangers start) (magic : sock.magic = start.magic)
    (type : sock.type = start.type)
    (next : (siege strangers start more).drop served = arrival :: rest)
    (answered : arrival.Feeds 0 answers) (setsockopt : answers.setsockopt = true)
    (returned : ∀ point, exit ≠ some (.waiting point)) :
    (exit ≠ none ∧ ∃ bytes ∈ strangers, bytes.length < 8) ∨
      (exit = none ∧ after.magic = sock.magic ∧ after.type = sock.type ∧
        ((after = sock ∧ (socketRecv 8 answers.recvMagic).data = []) ∨
          ((socketRecv 8 answers.recvMagic).data ≠ [] ∧
            ((after.state = .accepting ∧ served < strangers.length) ∨
              (after.state = .ready ∧ served = strangers.length ∧ rest = []))))) := by
  rcases siege_drop next with ⟨early, rfl⟩ | ⟨last, behind, rfl⟩
  · have member := List.getElem_mem early
    rcases finalized.of_stranger answered setsockopt returned (magic ▸ wrong _ member) with
      ⟨left, short⟩ | ⟨ok, same, quiet⟩ | ⟨ok, arrived, received, rfl⟩
    · exact Or.inl ⟨left, _, member, short⟩
    · exact Or.inr ⟨ok, by rw [same], by rw [same], Or.inl ⟨same, quiet⟩⟩
    · exact Or.inr ⟨ok, rfl, rfl, Or.inr ⟨arrived, Or.inl ⟨rfl, early⟩⟩⟩
  · have preamble : start.preamble = sock.preamble := by
      rw [NcclSocket.preamble, NcclSocket.preamble, magic, type]
    rw [preamble] at answered
    rcases finalized.of_peer answered setsockopt returned with
      ⟨ok, same, quiet⟩ | ⟨ok, arrived, received, rfl⟩
    · exact Or.inr ⟨ok, by rw [same], by rw [same], Or.inl ⟨same, quiet⟩⟩
    · exact Or.inr ⟨ok, rfl, rfl, Or.inr ⟨arrived, Or.inr ⟨rfl, last, behind⟩⟩⟩

namespace Calm

variable {start : Attempt} {strangers : List (List UInt8)} {more : List UInt8}
  {besieged after : Besieged} {answers : Answers}

/-- A call that reads from a connection. -/
theorem serve {sock : NcclSocket} {exit : Option Exit} {served : Nat} {arrival : Arrival}
    {rest : List Arrival} {round : SocketAnswers} (wrong : Wrong strangers start.comm.sock)
    (finalized : Finalized sock round exit after.sock)
    (accepted : sock.state = .accepted) (unread : sock.received = [])
    (magic : sock.magic = start.comm.sock.magic) (type : sock.type = start.comm.sock.type)
    (next : (siege strangers start.comm.sock more).drop served = arrival :: rest)
    (answered : arrival.Feeds 0 round) (setsockopt : round.setsockopt = true)
    (returned : ∀ point, exit ≠ some (.waiting point))
    (owns : OwnsFd start.process.fds after.attempt)
    (arrivals : (after.current, after.waiting) = (some arrival, rest))
    (prompts : after.prompts = served + if (socketRecv 8 round.recvMagic).data ≠ [] then 1 else 0)
    (failed : after.failed = exit.isSome) :
    Calm start strangers more after ∨
      (after.failed = true ∧ ∃ bytes ∈ strangers, bytes.length < 8) := by
  obtain ⟨current, waiting⟩ := Prod.mk.inj arrivals
  rcases finalized.served wrong magic type next answered setsockopt returned with
    ⟨left, short⟩ | ⟨ok, sameMagic, sameType, outcome⟩
  · exact Or.inr ⟨failed.trans (Option.isSome_iff_ne_none.mpr left), short⟩
  refine Or.inl ⟨owns, by rw [failed, ok]; rfl, sameMagic.trans magic, sameType.trans type, ?_⟩
  rcases outcome with ⟨same, quiet⟩ | ⟨arrived, ⟨state, early⟩ | ⟨state, last, behind⟩⟩
  · rw [if_neg (by simpa using quiet), Nat.add_zero] at prompts
    refine .accepted arrival ?_ ?_ current ?_
    · rw [same, accepted]
    · rw [same, unread]
    · rw [prompts, next, waiting]
  · rw [if_pos arrived] at prompts
    refine .accepting state ?_ (by omega)
    rw [waiting, prompts, ← List.drop_drop, next, List.drop_one, List.tail_cons]
  · rw [if_pos arrived] at prompts
    exact .ready state (by rw [waiting, behind]) (by omega)

/-- Every call ignores the strangers, or a stranger is too short and the call returns an
error. -/
theorem step (calm : Calm start strangers more besieged) (wrong : Wrong strangers start.comm.sock)
    (faithful : besieged.Faithful (answers.socket .asking))
    (stepped : besieged.step answers = some after) :
    Calm start strangers more after ∨
      (after.failed = true ∧ ∃ bytes ∈ strangers, bytes.length < 8) := by
  obtain ⟨exit, returned, went, kept, arrivals, prompts, failed⟩ := Besieged.step_cases stepped
  have owns := kept _ (Setup.ready_ownsFd start.process.fds answers) calm.owns
  rw [calm.failed, Bool.false_or] at failed
  rcases calm.place with ⟨state, waiting, served⟩ | ⟨arrival, state, unread, current, waiting⟩ |
    ⟨state, waiting, served⟩
  · rcases went _ (Setup.asks_turns (Setup.accept_round _ (Or.inl state))) with
      ⟨refused, _, _⟩ | ⟨ready, _, _⟩ | ⟨_, _, _, round⟩
    · simp [state] at refused
    · simp [state] at ready
    generalize isNow : after.sock = now at round
    cases round with
    | unaccepted _ tried still =>
      generalize isAnswer : (answers.socket .asking).accept = answer at tried
      cases tried with
      | accepted => exact nomatch still
      | failed => exact absurd isAnswer faithful.accept
      | again =>
        simp only [Besieged.arrivals, state, isAnswer, Prod.mk.injEq] at arrivals
        simp only [Besieged.prompt, Besieged.serving, state, isAnswer, ne_eq, not_true_eq_false,
          false_and, if_false, Nat.add_zero] at prompts
        refine Or.inl ⟨owns, failed, isNow ▸ calm.magic, isNow ▸ calm.type, ?_⟩
        exact .accepting (isNow ▸ still) (by rw [arrivals.2, prompts, waiting])
          (by rw [prompts]; exact served)
    | accepting _ incoming finalized =>
      cases line : besieged.waiting with
      | nil => exact absurd line (faithful.waiting _ incoming state)
      | cons arrival rest =>
        have serving : besieged.serving (answers.socket .asking) = some (arrival, 0) := by
          simp [Besieged.serving, state, incoming, line]
        simp only [Besieged.arrivals, state, incoming, line, List.head?_cons,
          List.tail_cons] at arrivals
        simp only [Besieged.prompt, serving, ne_eq, reduceCtorEq, not_false_eq_true,
          true_and] at prompts
        rw [line] at waiting
        rw [← isNow] at finalized
        exact serve wrong finalized rfl rfl calm.magic calm.type waiting.symm
          (faithful.serving _ serving) faithful.setsockopt returned owns arrivals prompts failed
    | accepted accepted _ => simp [state] at accepted
  · rcases went _ (Setup.asks_turns (Setup.accept_round _ (Or.inr state))) with
      ⟨refused, _, _⟩ | ⟨ready, _, _⟩ | ⟨_, _, _, round⟩
    · simp [state] at refused
    · simp [state] at ready
    generalize isNow : after.sock = now at round
    cases round with
    | unaccepted accepting => simp [state] at accepting
    | accepting accepting => simp [state] at accepting
    | accepted _ finalized =>
      have serving : besieged.serving (answers.socket .asking) = some (arrival, 0) := by
        simp [Besieged.serving, state, current, unread]
      simp only [Besieged.arrivals, state, current] at arrivals
      simp only [Besieged.prompt, serving, ne_eq, reduceCtorEq, not_false_eq_true,
        true_and] at prompts
      rw [← isNow] at finalized
      exact serve wrong finalized state unread calm.magic calm.type waiting
        (faithful.serving _ serving) faithful.setsockopt returned owns arrivals prompts failed
  · rcases went _ (Setup.asks_turns (Setup.turns_anyhow _ _)) with
      ⟨refused, _, _⟩ | ⟨_, ok, same⟩ | ⟨_, _, unready, _⟩
    · simp [state] at refused
    · simp only [Besieged.arrivals, state, Prod.mk.injEq] at arrivals
      simp only [Besieged.prompt, Besieged.serving, state, ne_eq, not_true_eq_false, false_and,
        if_false, Nat.add_zero] at prompts
      refine Or.inl ⟨owns, by rw [failed, ok]; rfl, same ▸ calm.magic, same ▸ calm.type, ?_⟩
      exact .ready (same ▸ state) (by rw [arrivals.2, waiting]) (by rw [prompts, served])
    · exact absurd state unready

end Calm

/-! ## A connection that delivers at once -/

/-- The answers when everything a connection sends is there. -/
def Arrival.pour (arrival : Arrival) : Answers :=
  .incoming (.accepted 0) [.bytes (arrival.bytes.take 8)] [.bytes []]
    [.bytes ((arrival.bytes.drop 8).take 4), .bytes []]

theorem drop_length_take (wanted : Nat) (unread : List UInt8) :
    unread.drop (unread.take wanted).length = unread.drop wanted := by
  rw [List.length_take]
  rcases Nat.le_total wanted unread.length with enough | few
  · rw [Nat.min_eq_left enough]
  · rw [Nat.min_eq_right few, List.drop_length, List.drop_of_length_le few]

/-- A piece at the front of what is there. -/
theorem delivers_take {closes : Bool} {unread : List UInt8} {wanted : Nat}
    {rest : List RecvAnswer} (wants : 0 < wanted)
    (ends : closes = true ∨ wanted ≤ unread.length)
    (later : Delivers closes (unread.drop wanted) (wanted - (unread.take wanted).length) rest) :
    Delivers closes unread wanted (.bytes (unread.take wanted) :: rest) := by
  have behind := drop_length_take wanted unread
  refine Or.inr ⟨List.length_take_le .., List.take_prefix .., fun empty => ?_, ?_⟩
  swap
  · rw [behind]
    exact later
  have nothing : unread = [] := by
    rcases List.take_eq_nil_iff.mp empty with none | nothing
    · omega
    · exact nothing
  refine ⟨ends.resolve_right fun enough => ?_, nothing⟩
  rw [nothing, List.length_nil] at enough
  omega

/-- The end behind what is there. -/
theorem delivers_end {closes : Bool} {unread : List UInt8} {wanted : Nat}
    (ended : wanted = 0 ∨ (closes = true ∧ unread = [])) :
    Delivers closes unread wanted [.bytes []] := by
  rcases ended with nothing | ended
  · exact Or.inl nothing
  · exact Or.inr ⟨Nat.zero_le _, List.nil_prefix, fun _ => ended, True.intro⟩

/-- What one piece gets to a transfer that does not wait. -/
theorem socketRecv_take (bytes : List UInt8) :
    socketRecv 8 [.bytes (bytes.take 8)] =
      if bytes = [] then ⟨[], false⟩ else ⟨bytes.take 8, true⟩ := by
  have whole : (bytes.take 8).take 8 = bytes.take 8 := by
    rw [List.take_take, Nat.min_self]
  have empty : bytes.take 8 = [] ↔ bytes = [] := by simp [List.take_eq_nil_iff]
  simp only [socketRecv, whole, empty, List.append_nil, ite_self]

/-- A connection that closes, or sends as much as it is asked for, delivers like that. -/
theorem Arrival.pour_feeds {arrival : Arrival}
    (ends : arrival.closes = true ∨ 12 ≤ arrival.bytes.length) :
    arrival.Feeds 0 (arrival.pour.socket .asking) := by
  obtain ⟨bytes, closes⟩ := arrival
  change closes = true ∨ 12 ≤ bytes.length at ends
  have later : closes = true ∨ 4 ≤ (bytes.drop 8).length := by
    rw [List.length_drop]
    exact ends.imp_right fun enough => by omega
  have behind : ∀ {unread : List UInt8} {wanted : Nat}, (closes = true ∨ wanted ≤ unread.length) →
      wanted - (unread.take wanted).length = 0 ∨ (closes = true ∧ unread.drop wanted = []) := by
    intro unread wanted ends
    rw [List.length_take, List.drop_eq_nil_iff]
    rcases ends with closed | enough
    · rcases Nat.le_total wanted unread.length with enough | few
      · exact Or.inl (by omega)
      · exact Or.inr ⟨closed, few⟩
    · exact Or.inl (by omega)
  have magic : closes = true ∨ 8 ≤ bytes.length := ends.imp_right fun enough => by omega
  constructor
  · exact delivers_take (by omega) magic True.intro
  · intro first read
    change socketRecv 8 [.bytes (bytes.take 8)] = _ at read
    rw [socketRecv_take] at read
    split_ifs at read with nothing
    · exact nomatch read
    · rw [← (RecvProgress.mk.inj read).1]
      apply delivers_end
      change _ ∨ closes = true ∧ bytes.drop (bytes.take 8).length = []
      rw [drop_length_take]
      exact behind magic
  · apply delivers_take (by omega) later
    exact delivers_end (behind later)

theorem socketWaitRecv_end (wanted : Nat) :
    socketWaitRecv wanted [.bytes []] = some ⟨[], decide (wanted = 0)⟩ := by
  by_cases nothing : wanted = 0
  · simp [socketWaitRecv, nothing]
  · simp [socketWaitRecv, nothing]

/-- A connection that delivers at once lets no transfer wait. -/
theorem Finalized.pour_returns {arrival : Arrival} {sock after : NcclSocket} {point : Point}
    (finalized : Finalized sock (arrival.pour.socket .asking) (some (.waiting point)) after) :
    False := by
  cases finalized with
  | waiting _ _ rest => exact nomatch (socketWaitRecv_end _).symm.trans rest
  | typeWaiting _ _ _ _ type =>
    change socketWaitRecv 4 [.bytes ((arrival.bytes.drop 8).take 4), .bytes []] = none at type
    rw [socketWaitRecv] at type
    simp only [socketWaitRecv_end, Option.map_some] at type
    split_ifs at type

/-- A connection that closes before it sent eight bytes makes the call return an error. -/
theorem Finalized.pour_fails {arrival : Arrival} {sock after : NcclSocket}
    (finalized : Finalized sock (arrival.pour.socket .asking) none after)
    (short : arrival.bytes.length < 8) : False := by
  have first : socketRecv 8 (arrival.pour.socket .asking).recvMagic =
      if arrival.bytes = [] then ⟨[], false⟩ else ⟨arrival.bytes.take 8, true⟩ :=
    socketRecv_take arrival.bytes
  have cut : ∀ {data more : List UInt8},
      socketRecv 8 (arrival.pour.socket .asking).recvMagic = ⟨data, true⟩ →
        socketWaitRecv (8 - data.length) (arrival.pour.socket .asking).recvMagicRest ≠
          some ⟨more, true⟩ := by
    intro data more read rest
    rw [first] at read
    split_ifs at read with nothing
    · exact nomatch read
    · have ended := (socketWaitRecv_end _).symm.trans rest
      simp only [Option.some.injEq, RecvProgress.mk.injEq, decide_eq_true_eq] at ended
      rw [← (RecvProgress.mk.inj read).1, List.length_take] at ended
      omega
  cases finalized with
  | quiet nothing =>
    rw [first] at nothing
    split_ifs at nothing with empty
    · exact nomatch nothing
    · simp [empty] at nothing
  | stranger read _ rest => exact cut read rest
  | ready read _ rest => exact cut read rest

/-- When a connection is there, a round reads from one. -/
theorem AcceptRound.finalized {sock after : NcclSocket} {answers : SocketAnswers} {fd : Nat}
    {exit : Option Exit} (round : AcceptRound sock answers exit after)
    (incoming : answers.accept = .accepted fd) :
    ∃ mid, Finalized mid answers exit after := by
  cases round with
  | unaccepted _ tried still =>
    rw [incoming] at tried
    cases tried with
    | accepted => exact nomatch still
  | accepting _ _ finalized => exact ⟨_, finalized⟩
  | accepted _ finalized => exact ⟨_, finalized⟩

/-- A call that no transfer keeps waiting returns. -/
theorem Besieged.step_returns {besieged : Besieged} {answers : Answers}
    {ways : Option Exit → NcclSocket → Prop}
    (turns : Setup.Turns besieged.sock (SocketCall.ready answers).program ways)
    (returns : ∀ point now, ¬ ways (some (.waiting point)) now) :
    ∃ after, besieged.step answers = some after := by
  have went := turns besieged.attempt rfl
  unfold step
  cases ran : (SocketCall.ready answers).program besieged.attempt with
  | ok value later => exact ⟨_, rfl⟩
  | error exit later =>
    rw [ran] at went
    cases exit with
    | waiting point => exact absurd went (returns point _)
    | again => exact ⟨_, rfl⟩
    | failed point result => exact ⟨_, rfl⟩
    | bailed point result => exact ⟨_, rfl⟩

namespace Calm

variable {start : Attempt} {strangers : List (List UInt8)} {more : List UInt8}
  {besieged : Besieged}

/-- There is always a next connection, until the socket is ready; it is one that the socket
accepts, or has accepted. -/
theorem next (calm : Calm start strangers more besieged)
    (unready : besieged.sock.state ≠ .ready) :
    (besieged.sock.state = .accepting ∨ besieged.sock.state = .accepted) ∧
      ∃ arrival rest, (siege strangers start.comm.sock more).drop besieged.prompts =
        arrival :: rest ∧
      ∀ round : SocketAnswers, round.accept = .accepted 0 →
        besieged.serving round = some (arrival, 0) := by
  rcases calm.place with ⟨state, waiting, served⟩ | ⟨arrival, state, unread, current, waiting⟩ |
    ⟨state, _, _⟩
  · refine ⟨Or.inl state, ?_⟩
    cases line : besieged.waiting with
    | nil =>
      have length := congrArg List.length (line ▸ waiting)
      rw [List.length_drop, length_siege, List.length_nil] at length
      omega
    | cons arrival rest =>
      refine ⟨arrival, rest, (line ▸ waiting).symm, fun round incoming => ?_⟩
      simp [Besieged.serving, state, incoming, line]
  · refine ⟨Or.inr state, arrival, _, waiting, fun round _ => ?_⟩
    simp [Besieged.serving, state, current, unread]
  · exact absurd state unready

/-- The next connection can deliver at once; the call then reads from it, and fails when it
is a stranger that is too short. -/
theorem progress (calm : Calm start strangers more besieged)
    (unready : besieged.sock.state ≠ .ready) :
    ∃ arrival rest after, (siege strangers start.comm.sock more).drop besieged.prompts =
        arrival :: rest ∧
      besieged.Faithful (arrival.pour.socket .asking) ∧
      besieged.step arrival.pour = some after ∧
      (arrival.bytes ≠ [] → after.prompts = besieged.prompts + 1) ∧
      (arrival.bytes.length < 8 → after.failed = true) := by
  obtain ⟨state, arrival, rest, next, serving⟩ := calm.next unready
  have turns := Setup.asks_turns (Setup.accept_round (arrival.pour.socket .asking) state)
  have reads : ∀ {exit now}, Setup.Asks besieged.sock
      (AcceptRound besieged.sock (arrival.pour.socket .asking)) exit now →
        ∃ mid, Finalized mid (arrival.pour.socket .asking) exit now := by
    rintro exit now (⟨refused, _, _⟩ | ⟨ready, _, _⟩ | ⟨_, _, _, round⟩)
    · rcases state with state | state <;> simp [state] at refused
    · exact absurd ready unready
    · exact round.finalized rfl
  have ends : arrival.closes = true ∨ 12 ≤ arrival.bytes.length := by
    rcases siege_drop next with ⟨_, rfl⟩ | ⟨_, _, rfl⟩
    · exact Or.inl rfl
    · refine Or.inr ?_
      simp only [NcclSocket.preamble, List.length_append, length_wordBytes]
      omega
  have serves := serving (arrival.pour.socket .asking) rfl
  have faithful : besieged.Faithful (arrival.pour.socket .asking) := by
    refine ⟨by simp [Arrival.pour, Answers.incoming, SocketAnswers.sample], rfl,
      fun _ _ accepting none => ?_, fun served isServed => ?_⟩
    · simp [Besieged.serving, accepting, none, Arrival.pour, Answers.incoming,
        SocketAnswers.sample] at serves
    · rw [serves] at isServed
      rw [← Option.some.inj isServed]
      exact Arrival.pour_feeds ends
  obtain ⟨after, stepped⟩ := Besieged.step_returns turns fun point now went =>
    (reads went).choose_spec.pour_returns
  obtain ⟨exit, _, went, _, _, prompts, failed⟩ := Besieged.step_cases stepped
  refine ⟨arrival, rest, after, next, faithful, stepped, fun some => ?_, fun short => ?_⟩
  · have first : (socketRecv 8 (arrival.pour.socket .asking).recvMagic).data ≠ [] := by
      change (socketRecv 8 [.bytes (arrival.bytes.take 8)]).data ≠ []
      rw [socketRecv_take, if_neg some]
      simpa [List.take_eq_nil_iff] using some
    rw [prompts, Besieged.prompt, serves, if_pos ⟨Option.some_ne_none _, first⟩]
  · cases exit with
    | none => exact absurd short fun short => (reads (went _ turns)).choose_spec.pour_fails short
    | some exit =>
      rw [failed, Option.isSome_some, Bool.or_true]

/-- What it is to have ignored the strangers so far. -/
theorem ignored (calm : Calm start strangers more besieged) :
    ((besieged.sock.state = .accepting ∧ besieged.sock.fd = none ∧
        besieged.attempt.process.fds = start.process.fds) ∨
      (besieged.sock.state = .accepted ∧ besieged.sock.received = []) ∨
      (besieged.sock.state = .ready ∧ besieged.waiting = [])) ∧
    (besieged.sock.state = .ready ↔ strangers.length < besieged.prompts) := by
  have unopened : besieged.sock.state = .accepting →
      besieged.sock.fd = none ∧ besieged.attempt.process.fds = start.process.fds := by
    intro accepting
    have closed := calm.owns.accepting accepting
    refine ⟨closed, ?_⟩
    rw [calm.owns.fds, closed]
    rfl
  rcases calm.place with ⟨state, waiting, served⟩ | ⟨arrival, state, unread, current, waiting⟩ |
    ⟨state, waiting, served⟩
  · exact ⟨Or.inl ⟨state, unopened state⟩, iff_of_false (by simp [state]) (by omega)⟩
  · refine ⟨Or.inr (Or.inl ⟨state, unread⟩), iff_of_false (by simp [state]) ?_⟩
    rcases siege_drop waiting with ⟨early, _⟩ | ⟨last, _⟩ <;> omega
  · exact ⟨Or.inr (Or.inr ⟨state, waiting⟩), iff_of_true state (by omega)⟩

end Calm

/-- The siege begins calmly. -/
theorem Calm.begins {start : Attempt} (accepting : start.comm.sock.state = .accepting)
    (unopened : start.comm.sock.fd = none) (strangers : List (List UInt8)) (more : List UInt8) :
    Calm start strangers more ⟨start, none, siege strangers start.comm.sock more, 0, false⟩ where
  owns := ⟨by rw [unopened]; rfl, fun _ => unopened⟩
  failed := rfl
  magic := rfl
  type := rfl
  place := .accepting accepting rfl (Nat.zero_le _)

/-- When the strangers are ignored, each of them is reached. -/
theorem reaches_calm {start : Attempt} {strangers : List (List UInt8)} {more : List UInt8}
    (accepting : start.comm.sock.state = .accepting) (unopened : start.comm.sock.fd = none)
    (wrong : Wrong strangers start.comm.sock) (ignored : Ignored start strangers more) {k : Nat}
    (inside : k ≤ strangers.length) :
    ∃ besieged, (besieging start strangers more).Reaches
        (fun besieged answers => besieged.Faithful (answers.socket .asking)) besieged ∧
      Calm start strangers more besieged ∧ besieged.prompts = k := by
  induction k with
  | zero => exact ⟨_, .start rfl, Calm.begins accepting unopened strangers more, rfl⟩
  | succ k ih =>
    obtain ⟨besieged, reached, calm, rfl⟩ := ih (by omega)
    obtain ⟨_, _, ready, further⟩ := ignored besieged reached
    have unready : besieged.sock.state ≠ .ready := by
      rw [ne_eq, ready]
      omega
    obtain ⟨answers, after, faithful, stepped, prompted⟩ := further unready
    have reachedAfter := reached.next faithful stepped
    rcases calm.step wrong faithful stepped with later | ⟨failed, _⟩
    · exact ⟨after, reachedAfter, later, prompted⟩
    · exact nomatch (ignored after reachedAfter).1.symm.trans failed

/-- Strangers that do not send the magic are ignored exactly when each of them sends at
least eight bytes. -/
theorem strangers_ignored_iff {start : Attempt} {strangers : List (List UInt8)}
    (accepting : start.comm.sock.state = .accepting) (unopened : start.comm.sock.fd = none)
    (wrong : Wrong strangers start.comm.sock) (more : List UInt8) :
    Ignored start strangers more ↔ ∀ bytes ∈ strangers, 8 ≤ bytes.length := by
  constructor
  · intro ignored bytes member
    obtain ⟨k, inside, rfl⟩ := List.getElem_of_mem member
    obtain ⟨besieged, reached, calm, served⟩ := reaches_calm accepting unopened wrong ignored
      inside.le
    have unready : besieged.sock.state ≠ .ready := by
      rw [ne_eq, calm.ignored.2]
      omega
    obtain ⟨arrival, rest, after, next, faithful, stepped, _, fails⟩ := calm.progress unready
    have unfailed := (ignored after (reached.next faithful stepped)).1
    rcases siege_drop next with ⟨_, rfl⟩ | ⟨last, _⟩
    · by_contra few
      subst served
      have failed := fails (Nat.lt_of_not_le few)
      rw [unfailed] at failed
      exact nomatch failed
    · omega
  · intro enough besieged reached
    have calm : Calm start strangers more besieged := by
      apply reached.invariant
      · rintro _ rfl
        exact Calm.begins accepting unopened strangers more
      · intro state answers after _ calm faithful stepped
        rcases calm.step wrong faithful stepped with calm | ⟨_, bytes, member, short⟩
        · exact calm
        · exact absurd (enough bytes member) (by omega)
    obtain ⟨place, ready⟩ := calm.ignored
    refine ⟨calm.failed, place, ready, fun unready => ?_⟩
    obtain ⟨arrival, rest, after, next, faithful, stepped, prompted, _⟩ := calm.progress unready
    refine ⟨arrival.pour, after, faithful, stepped, prompted fun nothing => ?_⟩
    rcases siege_drop next with ⟨early, rfl⟩ | ⟨_, _, rfl⟩
    · have some := enough _ (List.getElem_mem early)
      rw [show strangers[besieged.prompts] = [] from nothing] at some
      simp at some
    · have length := congrArg List.length nothing
      simp [NcclSocket.preamble] at length

/-- A socket that accepts, and has accepted nothing yet. -/
def acceptingAttempt : Attempt :=
  { Attempt.sample with
    comm.sock := { NcclSocket.listening with acceptFd := some 3, fd := none, state := .accepting } }

/-- A stranger that sends eight bytes is ignored. -/
theorem strangers_ignored_once :
    Ignored acceptingAttempt [[1, 2, 3, 4, 5, 6, 7, 8]] [] :=
  (strangers_ignored_iff rfl rfl (by decide) []).mpr (by decide)

/-- A stranger that closes without a byte makes the call return an error. -/
theorem stranger_noticed : ¬ ∀ (start : Attempt) (strangers : List (List UInt8))
    (more : List UInt8), start.comm.sock.state = .accepting → start.comm.sock.fd = none →
      Wrong strangers start.comm.sock → Ignored start strangers more := by
  intro always
  have ignored := always acceptingAttempt [[]] [] rfl rfl (by decide)
  have calm : Calm acceptingAttempt [[]] [] _ := Calm.begins rfl rfl [[]] []
  obtain ⟨arrival, rest, after, next, faithful, stepped, _, fails⟩ := calm.progress nofun
  have reached : (besieging acceptingAttempt [[]] []).Reaches
      (fun besieged answers => besieged.Faithful (answers.socket .asking)) after :=
    .next (.start rfl) faithful stepped
  have short : arrival.bytes.length < 8 := by
    have same : arrival = ⟨[], true⟩ := (List.cons.inj next).1.symm
    rw [same]
    decide
  exact nomatch (ignored after reached).1.symm.trans (fails short)

end NcclExts.Unet
