import NcclExts.Unet.Completions

/-!
# A connection

A receive comm and the send comm it announces to. The announcements are entries of the
sender's FIFO that land in any order; the writes of the sender arrive on each queue
pair in the order they were posted, and a write with immediate takes the oldest receive
that its queue pair has. Everything else both ends do in any order.

Besides the two comms a connection has what is in flight between them: the entries of
announcements that have not landed, and how many writes with immediate each queue pair
has delivered. The history keeps what every receive call announced, and which send was
matched to which receive; neither end reads it.
-/

namespace NcclExts.Unet

open NcclExts.Foundation NcclExts.Ucommd

/-- The two ends of a connection, and whether announcements are sent inline. -/
structure Ends where
  send : SendSetup
  recv : RecvSetup
  inline : Bool

/-- Two ends with the same device count, queue pair count and split setting. -/
structure ConnSetup extends Ends where
  sameDevs : recv.ndevs = send.ndevs
  sameQps : recv.nqps = send.nqps
  sameSplit : recv.splitDataOnQps = send.splitDataOnQps

theorem ConnSetup.samePerMessage (setup : ConnSetup) :
    setup.recv.perMessage = setup.send.perMessage := by
  simp only [CommSetup.perMessage, setup.sameDevs, setup.sameQps, setup.sameSplit]

/-- A send that was matched: the receive call, the receive of the call, and the tag and
size the send was called with. -/
structure Match where
  call : Nat
  r : Nat
  tag : Int32
  size : Int32
deriving DecidableEq

/-- The two ends of a connection and what is between them. -/
structure Connection where
  send : SendComm
  recv : RecvComm
  history : List (List NcclIbSendFifo)
  cts : List (Nat × Nat)
  delivered : Nat → Nat
  matched : List Match

inductive ConnEvent where
  | isend (data : Int) (size tag : Int32) (lkeys : Dev → UInt32)
  | sendComplete (position : Nat)
  | sendTest (i : ReqId)
  | irecv (recvs : List RecvArg)
  | iflush (recvs : List RecvArg)
  | recvComplete (position : Nat)
  | recvTest (i : ReqId)
  | landCts (position : Nat)
  | deliver (q : Nat)

/-- The postings of receives. -/
def Posting.IsRecv (posting : Posting) : Bool := posting.kind = .recv

/-- The postings on a queue pair of the connection. -/
def Posting.OnQp (q : Nat) (posting : Posting) : Bool := posting.qp = .data q

/-- The receives among some postings that are on a queue pair. -/
def receivesOn (postings : List Posting) (q : Nat) : List Posting :=
  postings.filter fun posting => posting.IsRecv && posting.OnQp q

/-- The write with immediate that ends the chain of a posting. -/
def Posting.closing (posting : Posting) : Option IbvSendWr := posting.chain.getLast?

/-- The immediate that a posting delivers. -/
def Posting.immData (posting : Posting) : UInt32 := (posting.closing.map IbvSendWr.immData).getD 0

namespace Connection

/-- What each receive call announced; calls to come announce nothing yet. -/
def calls (c : Connection) : Calls := fun call => c.history.getD call []

/-- The messages posted on a queue pair. -/
def writesOn (c : Connection) (q : Nat) : List Posting := c.send.ep.log.filter (Posting.OnQp q)

/-- The match that a send made, when it got a request. -/
def matchOf (c : Connection) (size tag : Int32) (request : Option ReqId) : List Match :=
  match request, matching c.send (c.send.fifoHead % maxRequests)
      (c.send.fifo (c.send.fifoHead % maxRequests) 0).nreqs tag with
  | some _, some r => [⟨c.send.fifoHead, r, tag, size⟩]
  | _, _ => []

/-- The sender calls its send function. -/
def isend (ends : Ends) (c : Connection) (data : Int) (size tag : Int32)
    (lkeys : Dev → UInt32) : Option Connection :=
  match ncclIbIsend ends.send c.send data size tag lkeys with
  | .returned _ request send =>
    some { c with send := send, matched := c.matched ++ c.matchOf size tag request }
  | _ => none

/-- The receiver calls its receive function for at least one receive. -/
def irecv (ends : Ends) (c : Connection) (recvs : List RecvArg) : Option Connection :=
  if recvs = [] then none
  else
    match ncclIbIrecv ends.recv c.recv recvs with
    | .returned _ none recv => some { c with recv := recv }
    | .returned _ (some _) recv =>
      some { c with
        recv := recv
        history := c.history ++
          [(List.range recvs.length).map (recv.elems (c.recv.fifoTail % maxRequests))]
        cts := c.cts ++ (List.range recvs.length).map (fun r => (c.recv.fifoTail, r)) }
    | _ => none

/-- What an entry of an announcement lands as: what was announced, or what its staging
row holds now when the announcement was not sent inline. -/
def entry (ends : Ends) (c : Connection) (call r : Nat) : NcclIbSendFifo :=
  if ends.inline then (c.calls call).getD r .zero else c.recv.elems (call % maxRequests) r

/-- An entry of an announcement lands in the sender's FIFO. -/
def landCts (ends : Ends) (c : Connection) (position : Nat) : Option Connection :=
  c.cts[position]?.map fun (call, r) =>
    { c with
      cts := c.cts.eraseIdx position
      send := { c.send with
        fifo := Function.update c.send.fifo (call % maxRequests)
          (Function.update (c.send.fifo (call % maxRequests)) r (c.entry ends call r)) } }

/-- The write of a group's sizes copies the sender's row of them; the other writes go to
user memory. -/
def landSizes (elems : Nat → Nat → Int32) (wr : IbvSendWr) (ep : Endpoint) : Endpoint :=
  match wr.remoteAddr, wr.sge with
  | .sizesRow slot, some ⟨.sizesRow source, length, _⟩ =>
    { ep with
      sizesFifo := Function.update ep.sizesFifo slot (fun r =>
        if (r : Int) * 4 < length then elems source r else ep.sizesFifo slot r) }
  | _, _ => ep

/-- The next message of a queue pair arrives: its writes are done, and the last of them
takes the oldest receive of the queue pair. A write that finds no receive is retried. -/
def deliver (c : Connection) (q : Nat) : Option Connection :=
  (c.writesOn q)[c.delivered q]?.bind fun posting =>
    (c.recv.ep.posted.findIdx? (fun posting => posting.IsRecv && posting.OnQp q)).bind
      fun position =>
        let ep := posting.chain.foldl (fun ep wr => landSizes c.send.elems wr ep) c.recv.ep
        (ep.complete position posting.immData).map fun ep =>
          { c with
            recv := { c.recv with ep := ep }
            delivered := Function.update c.delivered q (c.delivered q + 1) }

/-- A request of the sender in use is tested. -/
def sendTest (ends : Ends) (c : Connection) (i : ReqId) : Option Connection :=
  if (c.send.ep.reqs i).type = .unused then none
  else
    match c.send.ep.ncclIbTest ends.send.asyncEvents i with
    | .returned _ _ _ ep => some { c with send := { c.send with ep := ep } }
    | _ => none

/-- An announcement or the read of a flush completes. -/
def recvComplete (c : Connection) (position : Nat) : Option Connection :=
  if c.recv.ep.posted[position]?.any Posting.IsRecv then none
  else
    (c.recv.ep.complete position 0).map fun ep => { c with recv := { c.recv with ep := ep } }

def step (ends : Ends) (c : Connection) : ConnEvent → Option Connection
  | .isend data size tag lkeys => c.isend ends data size tag lkeys
  | .sendComplete position =>
    (c.send.ep.complete position 0).map fun ep => { c with send := { c.send with ep := ep } }
  | .sendTest i => c.sendTest ends i
  | .irecv recvs => c.irecv ends recvs
  | .iflush recvs =>
    (RecvComm.returned (ncclIbIflush ends.recv c.recv recvs)).map fun recv =>
      { c with recv := recv }
  | .recvComplete position => c.recvComplete position
  | .recvTest i => (c.recv.test ends.recv i).map fun recv => { c with recv := recv }
  | .landCts position => c.landCts ends position
  | .deliver q => c.deliver q

/-- A connection as connecting leaves it. -/
def Fresh (c : Connection) : Prop :=
  c.send.Fresh ∧ c.recv.Fresh ∧ c.history = [] ∧ c.cts = [] ∧ c.delivered = (fun _ => 0) ∧
    c.matched = []

end Connection

/-- All runs of a connection. -/
def connection (ends : Ends) : System Connection ConnEvent where
  starts := Connection.Fresh
  step := Connection.step ends

/-- A buffer of the receiver, registered on both of its devices. -/
def RecvArg.buffer (tag : Int32) : RecvArg :=
  { data := 4096, size := 100, tag := tag, rkeys := fun dev => UInt32.ofNat (50 + dev) }

/-- A connection as connecting leaves it. -/
def Connection.initial : Connection :=
  { send := .initial
    recv := .initial
    history := [], cts := [], delivered := fun _ => 0, matched := [] }

theorem Connection.initial_fresh : Connection.initial.Fresh :=
  ⟨SendComm.initial_fresh, ⟨Endpoint.initial_fresh none none, rfl, rfl, rfl⟩, rfl, rfl, rfl, rfl⟩

/-- Two devices at both ends, and announcements that are not sent inline. -/
def ConnSetup.twoDevices : ConnSetup :=
  { send := Unet.twoDevices.send, recv := Unet.twoDevices.recv, inline := false
    sameDevs := rfl, sameQps := rfl, sameSplit := rfl }

end NcclExts.Unet
