import NcclExts.Unet.Result

/-!
# Sockets and the transfers on them

A nonblocking socket moves as many bytes as the kernel is ready to move, in as many
system calls as it takes. What those calls answer comes from outside; the loops around
them are the program's. A transfer that has to complete asks again until it did, so it
returns only when the answers suffice.

A socket also notes the bytes that were sent and received on its connection; no
function of the program reads these notes.
-/

namespace NcclExts.Unet

/-- `enum ncclSocketState`; cleared memory is `ncclSocketStateNone`. -/
inductive NcclSocketState where
  | unset
  | initialized
  | accepting
  | accepted
  | connecting
  | connectPolling
  | connected
  | ready
  | closed
  | error
deriving DecidableEq, Repr

/-- `sa_family` of an address. -/
inductive SockFamily where
  | inet
  | inet6
  | other (family : Nat)
deriving DecidableEq, Repr

/-- `struct ncclSocket`. A descriptor of `-1` is `none`. The network plugin sets no abort
flag, and its sockets are asynchronous. -/
structure NcclSocket where
  fd : Option Nat
  acceptFd : Option Nat
  timedOutRetries : Nat
  refusedRetries : Nat
  state : NcclSocketState
  magic : Nat
  type : Nat
  sent : List UInt8
  received : List UInt8
deriving DecidableEq, Repr

/-- A socket in memory just allocated and cleared, before it is initialized. -/
def NcclSocket.zero : NcclSocket :=
  { fd := some 0, acceptFd := some 0, timedOutRetries := 0, refusedRetries := 0,
    state := .unset, magic := 0, type := 0, sent := [], received := [] }

/-- `RETRY_REFUSED_TIMES`. -/
def retryRefusedTimes : Nat := 20000

/-- `RETRY_TIMEDOUT_TIMES`. -/
def retryTimedoutTimes : Nat := 3

/-- `NCCL_SOCKET_MAGIC`. -/
def ncclSocketMagic : Nat := 0x564ab9f2fc4b9d6c

/-- `ncclSocketTypeNetIb`. -/
def ncclSocketTypeNetIb : Nat := 4

/-- The bytes of a word in memory, the least significant first. -/
def wordBytes (width value : Nat) : List UInt8 :=
  (List.range width).map fun i => UInt8.ofNat (value / 256 ^ i)

@[simp] theorem length_wordBytes (width value : Nat) : (wordBytes width value).length = width := by
  simp [wordBytes]

/-! ## What the system calls answer -/

/-- One `recv`: the bytes it took, nothing to take yet, or an error. Taking no bytes
means that the peer closed the connection. -/
inductive RecvAnswer where
  | bytes (data : List UInt8)
  | blocked
  | failed
deriving DecidableEq, Repr

/-- One `send`: how many bytes it took, no room yet, or an error. -/
inductive SendAnswer where
  | bytes (count : Nat)
  | blocked
  | failed
deriving DecidableEq, Repr

/-- One `accept`. -/
inductive AcceptAnswer where
  | accepted (fd : Nat)
  | again
  | failed
deriving DecidableEq, Repr

/-- `connect`, or the pending error of a socket that was polled. -/
inductive ConnectAnswer where
  | connected
  | inProgress
  | refused
  | timedOut
  | failed
deriving DecidableEq, Repr

/-- `poll`, and then `getsockopt` on a socket that is ready for writing. -/
inductive PollAnswer where
  | notYet
  | failed
  | otherEvents
  | getsockoptFailed
  | pending (error : ConnectAnswer)
deriving DecidableEq, Repr

/-- The answers for one round of the socket state machine. `magic` and `type` are those
of the preamble, whose first transfer may move nothing. -/
structure SocketAnswers where
  accept : AcceptAnswer
  setsockopt : Bool
  recvMagic : List RecvAnswer
  recvMagicRest : List RecvAnswer
  recvType : List RecvAnswer
  connect : ConnectAnswer
  poll : PollAnswer
  sendMagic : List SendAnswer
  sendMagicRest : List SendAnswer
  sendType : List SendAnswer
deriving DecidableEq, Repr

/-! ## The loops of a transfer -/

/-- What a transfer moved, and whether it went without an error. -/
structure RecvProgress where
  data : List UInt8
  ok : Bool
deriving DecidableEq, Repr

/-- How much a transfer moved, and whether it went without an error. -/
structure SendProgress where
  count : Nat
  ok : Bool
deriving DecidableEq, Repr

/-- `socketProgressOpt` on a receive of `wanted` bytes, with the check for a closed
connection that `socketProgress` adds. -/
def socketRecv (wanted : Nat) : List RecvAnswer → RecvProgress
  | [] => ⟨[], true⟩
  | .blocked :: _ => ⟨[], true⟩
  | .failed :: _ => ⟨[], false⟩
  | .bytes data :: rest =>
    let taken := data.take wanted
    if taken = [] then ⟨[], false⟩
    else if taken.length < wanted then
      let later := socketRecv (wanted - taken.length) rest
      ⟨taken ++ later.data, later.ok⟩
    else ⟨taken, true⟩

/-- `socketProgressOpt` on a send of `wanted` bytes. -/
def socketSend (wanted : Nat) : List SendAnswer → SendProgress
  | [] => ⟨0, true⟩
  | .blocked :: _ => ⟨0, true⟩
  | .failed :: _ => ⟨0, false⟩
  | .bytes count :: rest =>
    let taken := min count wanted
    if taken = 0 then ⟨0, true⟩
    else if taken < wanted then
      let later := socketSend (wanted - taken) rest
      ⟨taken + later.count, later.ok⟩
    else ⟨taken, true⟩

/-- `socketWait` on a receive of `wanted` bytes; `none` while the answers do not suffice
for it to return. -/
def socketWaitRecv (wanted : Nat) : List RecvAnswer → Option RecvProgress
  | [] => if wanted = 0 then some ⟨[], true⟩ else none
  | answer :: rest =>
    if wanted = 0 then some ⟨[], true⟩
    else
      match answer with
      | .blocked => socketWaitRecv wanted rest
      | .failed => some ⟨[], false⟩
      | .bytes data =>
        let taken := data.take wanted
        if taken = [] then some ⟨[], false⟩
        else (socketWaitRecv (wanted - taken.length) rest).map fun later =>
          ⟨taken ++ later.data, later.ok⟩

/-- `socketWait` on a send of `wanted` bytes. -/
def socketWaitSend (wanted : Nat) : List SendAnswer → Option SendProgress
  | [] => if wanted = 0 then some ⟨0, true⟩ else none
  | answer :: rest =>
    if wanted = 0 then some ⟨0, true⟩
    else
      match answer with
      | .blocked => socketWaitSend wanted rest
      | .failed => some ⟨0, false⟩
      | .bytes count =>
        let taken := min count wanted
        (socketWaitSend (wanted - taken) rest).map fun later => ⟨taken + later.count, later.ok⟩

/-- A transfer takes no more than it was asked for. -/
theorem socketRecv_length (wanted : Nat) (answers : List RecvAnswer) :
    (socketRecv wanted answers).data.length ≤ wanted := by
  induction answers generalizing wanted with
  | nil => simp [socketRecv]
  | cons answer rest ih =>
    cases answer with
    | blocked => simp [socketRecv]
    | failed => simp [socketRecv]
    | bytes data =>
      have taken : (data.take wanted).length ≤ wanted := List.length_take_le ..
      have later := ih (wanted - (data.take wanted).length)
      simp only [socketRecv]
      split
      · simp
      · split
        · simp only [List.length_append]
          omega
        · exact taken

theorem socketSend_count (wanted : Nat) (answers : List SendAnswer) :
    (socketSend wanted answers).count ≤ wanted := by
  induction answers generalizing wanted with
  | nil => simp [socketSend]
  | cons answer rest ih =>
    cases answer with
    | blocked => simp [socketSend]
    | failed => simp [socketSend]
    | bytes count =>
      have later := ih (wanted - min count wanted)
      simp only [socketSend]
      split
      · simp
      · split
        · simp only
          omega
        · simp only
          omega

/-- A transfer that was waited for without an error is complete. -/
theorem socketWaitRecv_complete {wanted : Nat} {answers : List RecvAnswer} {got : RecvProgress}
    (returned : socketWaitRecv wanted answers = some got) (ok : got.ok = true) :
    got.data.length = wanted := by
  induction answers generalizing wanted got with
  | nil =>
    simp only [socketWaitRecv] at returned
    split at returned
    next none =>
      rw [← Option.some.inj returned]
      exact none.symm
    next => simp at returned
  | cons answer rest ih =>
    simp only [socketWaitRecv] at returned
    split at returned
    next none =>
      rw [← Option.some.inj returned]
      exact none.symm
    next =>
      cases answer with
      | blocked => exact ih returned ok
      | failed =>
        rw [← Option.some.inj returned] at ok
        simp at ok
      | bytes data =>
        simp only at returned
        split at returned
        · rw [← Option.some.inj returned] at ok
          simp at ok
        · obtain ⟨later, waited, rfl⟩ := Option.map_eq_some_iff.mp returned
          have rest := ih waited ok
          simp only [List.length_append, rest, List.length_take]
          omega

theorem socketWaitSend_complete {wanted : Nat} {answers : List SendAnswer} {moved : SendProgress}
    (returned : socketWaitSend wanted answers = some moved) (ok : moved.ok = true) :
    moved.count = wanted := by
  induction answers generalizing wanted moved with
  | nil =>
    simp only [socketWaitSend] at returned
    split at returned
    next none =>
      rw [← Option.some.inj returned]
      exact none.symm
    next => simp at returned
  | cons answer rest ih =>
    simp only [socketWaitSend] at returned
    split at returned
    next none =>
      rw [← Option.some.inj returned]
      exact none.symm
    next =>
      cases answer with
      | blocked => exact ih returned ok
      | failed =>
        rw [← Option.some.inj returned] at ok
        simp at ok
      | bytes count =>
        obtain ⟨later, waited, rfl⟩ := Option.map_eq_some_iff.mp returned
        have rest := ih waited ok
        simp only [rest]
        omega

/-- Write at an offset of a buffer. -/
def overwrite (buffer : List UInt8) (offset : Nat) (data : List UInt8) : List UInt8 :=
  buffer.take offset ++ data ++ buffer.drop (offset + data.length)

/-- A write that fits leaves the length of the buffer. -/
theorem length_overwrite {buffer data : List UInt8} {offset : Nat}
    (fits : offset + data.length ≤ buffer.length) :
    (overwrite buffer offset data).length = buffer.length := by
  simp only [overwrite, List.length_append, List.length_take, List.length_drop]
  omega

end NcclExts.Unet
