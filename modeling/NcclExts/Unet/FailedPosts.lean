import NcclExts.Unet.Faults
import NcclExts.Unet.Receiving

/-!
# Calls that fail to post

A send, a receive or a flush posts several work requests, and returns an error at the
first that is refused. What it posted before stays posted, and what its request waits
for and never got posted will never complete. Such a call leaves the comm as a call
whose remaining postings were lost at once.

A send that fails inside the message of its slot does not move on. The slot stays full,
so that no later send finds a receive in it.
-/

namespace NcclExts.Unet

open NcclExts.Foundation NcclExts.Ucommd

/-! ## Sends -/

/-- The message of a slot after some of its posts succeeded. -/
def sendSome (setup : SendSetup) (comm : SendComm) (slot nreqs : Nat) (reqs : List ReqId)
    (firstSize : Int32) (posts : Nat) : SendComm :=
  let comm := if nreqs = 1 then comm else writeSizes comm slot reqs
  let message := messageOf setup comm slot nreqs reqs firstSize
  { comm with ep := (postChunks setup message posts (cursorsOf comm slot reqs) 0 comm.ep).2 }

/-- `ncclIbMultiSend` when the post after the given number of posts is refused. -/
def multiSendFails (setup : SendSetup) (comm : SendComm) (slot posts : Nat) : Option SendComm :=
  let nreqs := (comm.fifo slot 0).nreqs
  if nreqs > maxRecvs ∨ setup.perMessage ≤ posts then none
  else
    (matchedReqs comm slot nreqs).bind fun reqs =>
      reqs.head?.map fun first =>
        sendSome setup comm slot nreqs reqs (comm.ep.reqs first).size posts

/-- `ncclIbIsend` when the post after the given number of posts is refused; `none` when
the call does not come to that post. -/
def isendFails (setup : SendSetup) (comm : SendComm) (posts : Nat) (data : Int)
    (size tag : Int32) (lkeys : Dev → UInt32) : Option SendComm :=
  let slot := comm.fifoHead % maxRequests
  let slots := comm.fifo slot
  let idx := comm.fifoHead + 1
  let nreqs := (slots 0).nreqs
  if setup.ready = false ∨ (slots 0).idx ≠ idx ∨ nreqs > maxRecvs ∨
      ∃ r ∈ List.range nreqs, r ≠ 0 ∧ (slots r).idx ≠ idx then none
  else
    let comm := { comm with ep := comm.ep.countIb unetIbFifoRecvCount }
    (matching comm slot nreqs tag).bind fun r =>
      let recv := comm.fifo slot r
      if recv.Incorrect then none
      else
        comm.ep.ncclIbGetRequest.bind fun (i, ep) =>
          let req := sendRequest setup lkeys nreqs ep.qpIndex (clip size recv) data (ep.reqs i)
          let comm := { comm with ep := ep.setReq i req }
          multiSendFails setup (comm.setFifoReq slot r i) slot posts

/-- A partial function that maps a list is defined all over it. -/
theorem map_of_mapM {α β : Type} {f : α → Option β} {items : List α} {images : List β}
    (mapped : items.mapM f = some images) : items.map f = images.map some := by
  induction items generalizing images with
  | nil =>
    have none : images = [] := by simpa using mapped.symm
    simp [none]
  | cons item rest ih =>
    simp only [List.mapM_cons, Option.bind_eq_bind, Option.bind_eq_some_iff, Option.pure_def,
      Option.some.injEq] at mapped
    obtain ⟨image, isImage, more, isMore, rfl⟩ := mapped
    simp [isImage, ih isMore]

/-- The sends of a slot are the ones in its row. -/
theorem matchedReqs_rows {comm : SendComm} {slot nreqs : Nat} {reqs : List ReqId}
    (isMatched : matchedReqs comm slot nreqs = some reqs) :
    reqs.length = nreqs ∧ ∀ r, r < nreqs → comm.fifoReqs slot r = reqs[r]? := by
  have mapped := map_of_mapM isMatched
  constructor
  · simpa using (congrArg List.length mapped).symm
  · intro r below
    have row := congrArg (fun rows => rows[r]?) mapped
    simp only [List.getElem?_map, List.getElem?_range below, Option.map_some] at row
    cases placed : reqs[r]? with
    | none => simp [placed] at row
    | some i => simpa [placed] using row

section

variable {setup : SendSetup} {calls : Calls} {comm : SendComm}

/-- A send that fails to post completed the match of its slot before. -/
theorem isendFails_effect (isLanded : comm.Landed calls)
    (announced : ∀ call, Announced call (calls call)) {posts : Nat} {data : Int}
    {size tag : Int32} {lkeys : Dev → UInt32} {after : SendComm}
    (failed : isendFails setup comm posts data size tag lkeys = some after) :
    ∃ r i recv reqs first, Hit calls comm tag r i recv ∧
      Full calls (comm.hit setup calls data size lkeys r i recv) reqs first ∧
      posts < setup.perMessage ∧
      after = sendSome setup (comm.hit setup calls data size lkeys r i recv)
        (comm.fifoHead % maxRequests) reqs.length reqs
        ((comm.hit setup calls data size lkeys r i recv).ep.reqs first).size posts := by
  simp only [isendFails] at failed
  split at failed
  · simp at failed
  rename_i possible
  simp only [not_or, not_not, not_exists, not_and] at possible
  obtain ⟨_, isStamp, _, others⟩ := possible
  obtain ⟨firstRecv, nreqs⟩ := isLanded.arrived announced isStamp
  rw [nreqs] at failed others
  have lands : ∀ r', r' < (calls comm.fifoHead).length →
      (calls comm.fifoHead)[r']? = some (comm.fifo (comm.fifoHead % maxRequests) r') := by
    intro r' below
    by_cases start : r' = 0
    · rw [start]
      exact firstRecv
    · exact (isLanded.arrived announced (others r' (List.mem_range.mpr below) start)).1
  obtain ⟨r, found, failed⟩ := Option.bind_eq_some_iff.mp failed
  split at failed
  · simp at failed
  rename_i correct
  obtain ⟨⟨i, ep⟩, got, failed⟩ := Option.bind_eq_some_iff.mp failed
  obtain ⟨unused, rfl⟩ := Endpoint.ncclIbGetRequest_some got
  have below : r < (calls comm.fifoHead).length :=
    List.mem_range.mp (List.mem_of_find?_eq_some found)
  have facts := List.find?_some found
  simp only [decide_eq_true_eq] at facts
  obtain ⟨free, tagged⟩ := facts
  have hit : Hit calls comm tag r i (comm.fifo (comm.fifoHead % maxRequests) r) :=
    ⟨lands r below, isStamp, found, lands, tagged, correct, free, unused⟩
  have some : 0 < (calls comm.fifoHead).length := by omega
  have stamped := ((announced comm.fifoHead).stamped _
    (List.mem_of_getElem? (lands 0 some))).2
  have failed : multiSendFails setup (comm.hit setup calls data size lkeys r i
      (comm.fifo (comm.fifoHead % maxRequests) r)) (comm.fifoHead % maxRequests) posts =
      Option.some after := by
    rw [← failed]
    simp only [SendComm.hit, SendComm.place, Endpoint.setReq, SendComm.withIbStat,
      Function.update_self, Function.update_idem]
    rfl
  have slot : ((comm.hit setup calls data size lkeys r i (comm.fifo (comm.fifoHead % maxRequests)
      r)).fifo (comm.fifoHead % maxRequests) 0).nreqs = (calls comm.fifoHead).length := nreqs
  simp only [multiSendFails, slot] at failed
  split at failed
  · simp at failed
  rename_i refused
  obtain ⟨reqs, isMatched, failed⟩ := Option.bind_eq_some_iff.mp failed
  obtain ⟨first, isFirst, rfl⟩ := Option.map_eq_some_iff.mp failed
  obtain ⟨length, rows⟩ := matchedReqs_rows isMatched
  refine ⟨r, i, _, reqs, first, hit, ⟨length, ?_, fun r' inside => rows r' (length ▸ inside)⟩,
    by omega, by rw [length]⟩
  rw [← List.head?_eq_getElem?]
  exact isFirst

/-! ## A message and the healed comm -/

/-- The send comm with its endpoint healed. -/
def SendComm.healed (comm : SendComm) (lost : List Posting) : SendComm :=
  { comm with ep := comm.ep.healed lost }

theorem advanceOffsets_healed (setup : SendSetup) (nqps : Nat) (ep : Endpoint)
    (cursors : List Cursor) (lost : List Posting) :
    advanceOffsets setup nqps (ep.healed lost) cursors =
      (advanceOffsets setup nqps ep cursors).healed lost := by
  unfold advanceOffsets
  induction cursors generalizing ep with
  | nil => rfl
  | cons cursor rest ih =>
    rw [List.foldl_cons, List.foldl_cons, ← ih]
    rfl

theorem postChunks_healed (setup : SendSetup) (message : Message) (count : Nat)
    (cursors : List Cursor) (totalSize : UInt64) (ep : Endpoint) (lost : List Posting) :
    postChunks setup message count cursors totalSize (ep.healed lost) =
      ((postChunks setup message count cursors totalSize ep).1,
        (postChunks setup message count cursors totalSize ep).2.healed lost) := by
  induction count generalizing cursors totalSize ep with
  | zero => rfl
  | succ count ih =>
    simp only [postChunks]
    have posted (posting : Posting) : (ep.healed lost).postSignaled posting =
        (ep.postSignaled posting).healed lost := by
      simp only [Endpoint.postSignaled, Endpoint.healed, List.append_assoc]
    have same : chain setup message (ep.healed lost) (setup.qps (ep.healed lost).qpIndex) cursors =
        chain setup message ep (setup.qps ep.qpIndex) cursors := rfl
    rw [same, posted, advanceOffsets_healed]
    exact ih (cursors.map (Cursor.advance setup ep message.nqps))
      (totalSize + chunkBytes setup ep message.nqps cursors)
      { advanceOffsets setup message.nqps (ep.postSignaled (messagePosting setup message ep.qpIndex
          cursors.length (chain setup message ep (setup.qps ep.qpIndex) cursors))) cursors with
        qpIndex := (ep.qpIndex + 1) % setup.nqps }

theorem sendSome_healed (setup : SendSetup) (comm : SendComm) (slot nreqs : Nat)
    (reqs : List ReqId) (firstSize : Int32) (posts : Nat) (lost : List Posting) :
    sendSome setup (comm.healed lost) slot nreqs reqs firstSize posts =
      (sendSome setup comm slot nreqs reqs firstSize posts).healed lost := by
  have posted (cursors : List Cursor) (message : Message) :
      (postChunks setup message posts cursors 0 (comm.healed lost).ep).2 =
        (postChunks setup message posts cursors 0 comm.ep).2.healed lost :=
    congrArg Prod.snd (postChunks_healed setup message posts cursors 0 comm.ep lost)
  by_cases one : nreqs = 1
  · simp only [sendSome, if_pos one, posted]
    rfl
  · simp only [sendSome, if_neg one]
    have written : (writeSizes (comm.healed lost) slot reqs).ep = (comm.healed lost).ep := rfl
    rw [written, posted]
    rfl

theorem post_healed (setup : SendSetup) (comm : SendComm) (reqs : List ReqId) (first : ReqId)
    (lost : List Posting) :
    (comm.healed lost).post setup reqs first = (comm.post setup reqs first).healed lost := by
  have posted (cursors : List Cursor) (message : Message) :
      postChunks setup message setup.perMessage cursors 0 (comm.healed lost).ep =
        ((postChunks setup message setup.perMessage cursors 0 comm.ep).1,
          (postChunks setup message setup.perMessage cursors 0 comm.ep).2.healed lost) :=
    postChunks_healed setup message setup.perMessage cursors 0 comm.ep lost
  by_cases one : reqs.length = 1
  · simp only [SendComm.post, sendMessage, if_pos one, posted]
    rfl
  · simp only [SendComm.post, sendMessage, if_neg one]
    have written : (writeSizes (comm.healed lost) ((comm.healed lost).fifoHead % maxRequests)
        reqs).ep = (comm.healed lost).ep := rfl
    rw [written, posted]
    rfl

theorem hit_healed (setup : SendSetup) (calls : Calls) (comm : SendComm) (data : Int)
    (size : Int32) (lkeys : Dev → UInt32) (r : Nat) (i : ReqId) (recv : NcclIbSendFifo)
    (lost : List Posting) :
    (comm.healed lost).hit setup calls data size lkeys r i recv =
      (comm.hit setup calls data size lkeys r i recv).healed lost := rfl

theorem Hit.healed {tag : Int32} {r : Nat} {i : ReqId} {recv : NcclIbSendFifo}
    (hit : Hit calls comm tag r i recv) (lost : List Posting) :
    Hit calls (comm.healed lost) tag r i recv :=
  ⟨hit.isRecv, hit.stamp, hit.found, hit.lands, hit.tagged, hit.correct, hit.free, hit.unused⟩

theorem Full.healed {reqs : List ReqId} {first : ReqId} (full : Full calls comm reqs first)
    (lost : List Posting) : Full calls (comm.healed lost) reqs first :=
  ⟨full.length, full.isFirst, full.rows⟩

/-- What posting some of a message does not change. -/
structure SentSome (comm after : SendComm) : Prop where
  fifo : after.fifo = comm.fifo
  fifoReqs : after.fifoReqs = comm.fifoReqs
  fifoHead : after.fifoHead = comm.fifoHead
  cqs : after.ep.cqs = comm.ep.cqs
  sameFatal : Endpoint.SameFatal comm.ep after.ep

theorem sendSome_rest (inside : comm.ep.qpIndex < setup.nqps) (slot nreqs : Nat)
    (reqs : List ReqId) (firstSize : Int32) (posts : Nat) :
    SentSome comm (sendSome setup comm slot nreqs reqs firstSize posts) := by
  have kept (message : Message) (cursors : List Cursor) :
      (postChunks setup message posts cursors 0 comm.ep).2.cqs = comm.ep.cqs ∧
        Endpoint.SameFatal comm.ep (postChunks setup message posts cursors 0 comm.ep).2 := by
    obtain ⟨postings, posted⟩ := postChunks_posted setup message posts cursors 0 comm.ep inside
    have cqs := congrArg Endpoint.cqs posted.rest
    have fatal := congrArg Endpoint.fatalErrorCount posted.rest
    have devFatal := congrArg Endpoint.devFatalErrorCount posted.rest
    exact ⟨cqs, fatal, devFatal⟩
  by_cases one : nreqs = 1
  · simp only [sendSome, if_pos one]
    exact ⟨rfl, rfl, rfl, (kept _ _).1, (kept _ _).2⟩
  · simp only [sendSome, if_neg one]
    exact ⟨rfl, rfl, rfl, (kept _ _).1, (kept _ _).2⟩

/-- When only some postings of a message succeed, the count is right once those missing
are put among the outstanding ones. -/
theorem SendOk.sendSome (ok : SendOk setup calls comm)
    (announced : ∀ call, Announced call (calls call)) {reqs : List ReqId} {first : ReqId}
    (full : Full calls comm reqs first) {posts : Nat} (fewer : posts < setup.perMessage)
    (size : Int32) :
    ∃ missing, Endpoint.Accounted (fun _ _ => 0)
      { (sendSome setup comm (comm.fifoHead % maxRequests) reqs.length reqs size posts).ep with
        posted := missing ++ (sendSome setup comm (comm.fifoHead % maxRequests) reqs.length reqs
          size posts).ep.posted } := by
  obtain ⟨message, word, cursors, length, isSome⟩ : ∃ message : Message,
      message.wrId = packReqs reqs ∧ ∃ cursors : List Cursor, cursors.length = reqs.length ∧
      (Unet.sendSome setup comm (comm.fifoHead % maxRequests) reqs.length reqs size posts).ep =
        (postChunks setup message posts cursors 0 comm.ep).2 := by
    refine ⟨messageOf setup comm (comm.fifoHead % maxRequests) reqs.length reqs size, rfl,
      cursorsOf comm (comm.fifoHead % maxRequests) reqs, cursorsOf_length _ _ _, ?_⟩
    simp only [Unet.sendSome]
    split <;> rfl
  rw [isSome]
  obtain ⟨postings, posted⟩ := postChunks_posted setup message posts cursors 0 comm.ep ok.inside
  obtain ⟨ep, isEp⟩ : ∃ ep, (postChunks setup message posts cursors 0 comm.ep).2 = ep := ⟨_, rfl⟩
  rw [isEp] at posted
  rw [isEp]
  have taken : roundRobin setup.nqps comm.ep.qpIndex posts =
      (roundRobin setup.nqps comm.ep.qpIndex setup.perMessage).take posts := by
    rw [roundRobin_eq ok.inside, roundRobin_eq ok.inside, ← List.map_take, List.take_range,
      Nat.min_eq_left (Nat.le_of_lt fewer)]
  obtain ⟨missing, isMissing⟩ : ∃ missing, missing =
      ((roundRobin setup.nqps comm.ep.qpIndex setup.perMessage).drop posts).map
        (fun q => messagePosting setup message q reqs.length []) := ⟨_, rfl⟩
  have routed : Routed setup message reqs
      (roundRobin setup.nqps comm.ep.qpIndex setup.perMessage) (postings ++ missing) := by
    have routes := posted.routes
    rw [length, taken] at routes
    have route : (Posting.route ∘ fun q => messagePosting setup message q reqs.length []) =
        fun q => messagePosting setup message q reqs.length [] := rfl
    rw [Routed, List.map_append, routes, isMissing, List.map_map, route, ← List.map_append,
      List.take_append_drop]
  have rest := posted.rest
  have cqs := congrArg Endpoint.cqs rest
  have fatal := congrArg Endpoint.fatalErrorCount rest
  have devFatal := congrArg Endpoint.devFatalErrorCount rest
  have whole : Endpoint.Accounted (fun _ _ => 0)
      { ep with posted := comm.ep.posted ++ (postings ++ missing) } := by
    refine ok.accounted.post (postings ++ missing) rfl cqs fatal devFatal ?_ ?_ ?_ ?_ ?_
    · intro i _
      show (ep.reqs i).type = _ ∧ (ep.reqs i).nreqs = _
      rw [posted.reqs i]
      exact ⟨rfl, rfl⟩
    · intro posting member
      refine routed.named word full.some (full.distinct ok) (fun i inside => ?_) member
      show (ep.reqs i).type = _ ∧ (ep.reqs i).nreqs = _
      rw [posted.reqs i]
      exact full.typed ok inside
    · intro i dev
      show (ep.reqs i).events dev = _
      rw [posted.reqs i, routed.naming word i dev]
      have counted := ok.accounted.counted i dev
      simp only [counted, SendComm.owed, full.matchedTo_iff ok announced i, Nat.add_zero, stripes]
    · intro i unused dev
      have unused : (ep.reqs i).type = .unused := unused
      show (ep.reqs i).events dev = 0
      rw [posted.reqs i] at unused ⊢
      exact ok.accounted.idle i unused dev
    · intro i dev waits
      have waits : (ep.reqs i).events dev ≠ 0 := waits
      show (ep.reqs i).devBases dev = some dev
      rw [posted.reqs i] at waits ⊢
      exact ok.accounted.based i dev waits
  refine ⟨missing, whole.shuffled ?_⟩
  rw [posted.posted]
  show (missing ++ (comm.ep.posted ++ postings)).Perm (comm.ep.posted ++ (postings ++ missing))
  rw [← List.append_assoc comm.ep.posted]
  exact List.perm_append_comm

end

/-! ## Receives -/

/-- `ncclIbPostFifo` when its post is refused: the announcement is staged and awaited, but
not counted. -/
def postFifoFails (setup : RecvSetup) (comm : RecvComm) (recvs : List RecvArg) (i : ReqId) :
    RecvComm :=
  let slot := comm.fifoTail % maxRequests
  let qp := setup.qps comm.devIndex
  let ep := comm.ep.mapReq i (fun req => { req with sizes := slot })
  let ep := ep.clearSizes slot recvs.length
  let ep :=
    if slot = qp.devIndex.val then
      ep.mapReq i (fun req => Endpoint.ncclIbAddEvent req qp.devIndex)
    else ep
  { ep := ep
    devIndex := (comm.devIndex + 1) % setup.ndevs
    fifoTail := comm.fifoTail
    elems := stage setup slot (comm.fifoTail + 1) recvs comm.elems }

/-- `ncclIbIrecv` when the post after the given number of posts is refused; `none` when
the call does not come to that post. -/
def irecvFails (setup : RecvSetup) (comm : RecvComm) (posts : Nat) (recvs : List RecvArg) :
    Option RecvComm :=
  if setup.ready = false ∨ recvs.length > maxRecvs ∨
      Endpoint.ncclIbStatsCheckFatalCount setup.asyncEvents comm.ep.fatalErrorCount ≠
        .ncclSuccess then none
  else
    comm.ep.ncclIbGetRequest.bind fun (i, ep) =>
      let ep := ep.mapReq i (recvRequest setup recvs.length)
      if posts < setup.perMessage then
        let ep := postRecvs setup comm.fifoTail i posts ep
        some { comm with
          ep := ep.mapReq i (fun req =>
            Endpoint.ncclIbAddEvent req (setup.qps ep.qpIndex).devIndex) }
      else if posts = setup.perMessage then
        let ep := postRecvs setup comm.fifoTail i setup.perMessage ep
        some (postFifoFails setup { comm with ep := ep } recvs i)
      else none

/-- `ncclIbIflush` when the post after the given number of posts is refused; `none` when
the call does not come to that post. -/
def iflushFails (setup : RecvSetup) (comm : RecvComm) (posts : Nat) (recvs : List RecvArg) :
    Option RecvComm :=
  match (recvs.filter (fun recv => recv.size ≠ 0)).getLast? with
  | none => none
  | some last =>
    if setup.flushEnabled = false ∨ setup.devices.length ≤ posts then none
    else
      comm.ep.ncclIbGetRequest.map fun (i, ep) =>
        let ep := ep.mapReq i (fun req => { req with type := .flush })
        { comm with
          ep := postFlushes setup last comm.fifoTail i (setup.devices.take posts) ep }

section

variable {setup : RecvSetup} {comm : RecvComm}

/-- The receive comm with its endpoint healed. -/
def RecvComm.healed (comm : RecvComm) (lost : List Posting) : RecvComm :=
  { comm with ep := comm.ep.healed lost }

theorem Received.healed {recvs : List RecvArg} {i : ReqId} {after : RecvComm}
    (received : Received setup comm recvs i after) (lost : List Posting) :
    Received setup (comm.healed lost) recvs i (after.healed lost) := by
  have cqs : (fun dev => (after.ep.cqs dev).filter IbvWc.success) =
      fun dev => (comm.ep.cqs dev).filter IbvWc.success := by
    rw [received.cqs]
  have posted : lost ++ after.ep.posted = lost ++ comm.ep.posted ++
      (comm.recvPostings setup i ++ comm.ctsPostings setup recvs.length i) := by
    rw [received.posted, List.append_assoc]
  exact ⟨posted, received.log, received.type, received.nreqs, received.sizes, received.events,
    received.devBases, received.others, received.qpIndex, cqs, rfl, rfl, received.sizesFifo,
    received.devIndex, received.fifoTail, received.elems⟩

theorem IrecvEffect.healed {recvs : List RecvArg} {request : Option ReqId} {after : RecvComm}
    (effect : IrecvEffect setup comm recvs request after) (lost : List Posting) :
    IrecvEffect setup (comm.healed lost) recvs request (after.healed lost) := by
  cases effect with
  | nothing => exact .nothing
  | received unused few received => exact .received unused few (received.healed lost)

/-- The flushes of an endpoint are flushes of the healed one. -/
theorem FlushesPosted.healed {last : RecvArg} {group : Nat} {i : ReqId} {devs : List Dev}
    {ep after : Endpoint}
    (flushes : FlushesPosted setup last group i devs
      ((ep.setReq i (Endpoint.cleared (ep.reqs i))).mapReq i
        (fun req => { req with type := .flush })) after) (lost : List Posting) :
    FlushesPosted setup last group i devs
      (((ep.healed lost).setReq i (Endpoint.cleared (ep.reqs i))).mapReq i
        (fun req => { req with type := .flush })) (after.healed lost) := by
  refine ⟨?_, flushes.others, flushes.fields, flushes.events, flushes.devBases⟩
  have rest := flushes.rest
  have posted := congrArg Endpoint.posted rest
  rw [rest]
  simp only [Endpoint.healed, Endpoint.mapReq, Endpoint.setReq, List.append_assoc]

theorem IflushEffect.healed {request : Option ReqId} {after : RecvComm}
    (effect : IflushEffect setup comm request after) (lost : List Posting) :
    IflushEffect setup (comm.healed lost) request (after.healed lost) := by
  cases effect with
  | nothing => exact .nothing
  | flushed unused flushes => exact .flushed unused (flushes.healed lost)

theorem postRecvs_succ (setup : RecvSetup) (group : Nat) (i : ReqId) (count : Nat)
    (ep : Endpoint) :
    postRecvs setup group i (count + 1) ep =
      postRecv setup group i (postRecvs setup group i count ep) := by
  induction count generalizing ep with
  | zero => rfl
  | succ count ih =>
    rw [postRecvs, ih]
    rfl

/-- What a receive leaves whose posts stop at an empty receive: its request waits for
that receive too. -/
structure Stopped (setup : RecvSetup) (comm : RecvComm) (posts : Nat) (i : ReqId)
    (ep : Endpoint) : Prop where
  others : ∀ j, j ≠ i → ep.reqs j = comm.ep.reqs j
  type : (ep.reqs i).type = .recv
  events : ∀ dev, (ep.reqs i).events dev =
    ((roundRobin setup.nqps comm.ep.qpIndex (posts + 1)).countP
      (fun q => (setup.qps q).devIndex = dev) : Nat)
  devBases : ∀ dev, dev.val < setup.ndevs → (ep.reqs i).devBases dev = some dev
  posted : ep.posted = comm.ep.posted ++
    (roundRobin setup.nqps comm.ep.qpIndex posts).map (fun q => recvPosting setup q comm.fifoTail i)
  cqs : ep.cqs = comm.ep.cqs
  fatalErrorCount : ep.fatalErrorCount = comm.ep.fatalErrorCount
  devFatalErrorCount : ep.devFatalErrorCount = comm.ep.devFatalErrorCount
  qpIndex : ep.qpIndex = roundEnd setup.nqps comm.ep.qpIndex posts

theorem stopped (inside : comm.ep.qpIndex < setup.nqps) (posts nreqs : Nat) (i : ReqId)
    {ep : Endpoint} (isEp : ep = postRecvs setup comm.fifoTail i posts
      ((comm.ep.setReq i (Endpoint.cleared (comm.ep.reqs i))).mapReq i
        (recvRequest setup nreqs))) :
    Stopped setup comm posts i (ep.mapReq i (fun req =>
      Endpoint.ncclIbAddEvent req (setup.qps ep.qpIndex).devIndex)) := by
  subst isEp
  have start : ((comm.ep.setReq i (Endpoint.cleared (comm.ep.reqs i))).mapReq i
      (recvRequest setup nreqs)).reqs i =
      recvRequest setup nreqs (Endpoint.cleared (comm.ep.reqs i)) := by
    simp [Endpoint.mapReq, Endpoint.setReq]
  obtain ⟨begun, isBegun⟩ : ∃ begun, (comm.ep.setReq i (Endpoint.cleared (comm.ep.reqs i))).mapReq i
      (recvRequest setup nreqs) = begun := ⟨_, rfl⟩
  have qps : begun.qpIndex = comm.ep.qpIndex := by
    rw [← isBegun]
    rfl
  have more := postRecvs_posted setup comm.fifoTail i (posts + 1) begun (qps ▸ inside)
  have some := (postRecvs_posted setup comm.fifoTail i posts begun (qps ▸ inside)).rest
  rw [postRecvs_succ] at more
  have others := more.others
  have fields := more.fields
  have events := more.events
  have devBases := more.devBases
  rw [isBegun] at start ⊢
  rw [start] at fields events devBases
  rw [qps] at events
  have away (j : ReqId) (other : j ≠ i) : begun.reqs j = comm.ep.reqs j := by
    rw [← isBegun]
    simp [Endpoint.mapReq, Endpoint.setReq, other]
  constructor
  · exact fun j other => (others j other).trans (away j other)
  · exact congrArg NcclIbRequest.type fields
  · intro dev
    refine (events dev).trans ?_
    exact Int.zero_add _
  · exact fun dev onDev => devBases dev (if_pos onDev)
  · have posted := congrArg Endpoint.posted some
    rw [qps, show begun.posted = comm.ep.posted by rw [← isBegun]; rfl] at posted
    exact posted
  · exact (congrArg Endpoint.cqs some).trans (by rw [← isBegun]; rfl)
  · exact (congrArg Endpoint.fatalErrorCount some).trans (by rw [← isBegun]; rfl)
  · exact (congrArg Endpoint.devFatalErrorCount some).trans (by rw [← isBegun]; rfl)
  · have qpIndex := congrArg Endpoint.qpIndex some
    rw [qps] at qpIndex
    exact qpIndex

/-- Such a receive keeps the count once the receive it stopped at is put among the
outstanding ones. -/
theorem Stopped.accounted {posts : Nat} {i : ReqId} {ep : Endpoint}
    (stop : Stopped setup comm posts i ep) (ok : RecvOk setup (comm.healed lost))
    (unused : (comm.ep.reqs i).type = .unused) :
    ∃ lost, Endpoint.Accounted (fun _ _ => 0) (ep.healed lost) := by
  have inside : comm.ep.qpIndex < setup.nqps := ok.inside
  obtain ⟨last, isLast⟩ : ∃ last, roundRobin setup.nqps comm.ep.qpIndex (posts + 1) =
      roundRobin setup.nqps comm.ep.qpIndex posts ++ [last] := by
    refine ⟨(comm.ep.qpIndex + posts) % setup.nqps, ?_⟩
    rw [roundRobin_eq inside, roundRobin_eq inside, List.range_succ, List.map_append]
    rfl
  have posted : (comm.ep.healed lost).posted ++
      (roundRobin setup.nqps comm.ep.qpIndex (posts + 1)).map
        (fun q => recvPosting setup q comm.fifoTail i) =
      lost ++ ep.posted ++ [recvPosting setup last comm.fifoTail i] := by
    rw [isLast, List.map_append, stop.posted]
    simp [Endpoint.healed]
  have cqs : (ep.healed lost).cqs = (comm.ep.healed lost).cqs := by
    simp only [Endpoint.healed, stop.cqs]
  have whole : Endpoint.Accounted (fun _ _ => 0) { ep.healed lost with
      posted := lost ++ ep.posted ++ [recvPosting setup last comm.fifoTail i] } := by
    refine ok.accounted.started unused ?_ stop.others posted.symm cqs rfl rfl ?_ ?_ ?_ ?_
    · show (ep.reqs i).type ≠ .unused
      rw [stop.type]
      decide
    · intro posting member
      obtain ⟨q, _, rfl⟩ := List.mem_map.mp member
      exact Posting.Named.one rfl rfl stop.type (by simp [recvPosting])
    · intro dev
      rw [recvPosting_naming, if_pos rfl]
      exact stop.events dev
    · intro j other dev
      rw [recvPosting_naming, if_neg other]
    · intro dev waits
      have waits : (ep.reqs i).events dev ≠ 0 := waits
      refine stop.devBases dev ?_
      rw [stop.events dev] at waits
      have some : 0 < (roundRobin setup.nqps comm.ep.qpIndex (posts + 1)).countP
          (fun q => decide ((setup.qps q).devIndex = dev)) := by omega
      obtain ⟨q, _, lives⟩ := List.countP_pos_iff.mp some
      rw [← of_decide_eq_true lives]
      exact setup.onDevs q
  refine ⟨recvPosting setup last comm.fifoTail i :: lost, whole.shuffled ?_⟩
  show (recvPosting setup last comm.fifoTail i :: (lost ++ ep.posted)).Perm
    (lost ++ ep.posted ++ [recvPosting setup last comm.fifoTail i])
  exact (List.perm_append_singleton _ _).symm

/-- A receive whose announcement is refused leaves the requests of one whose announcement
was posted, and lost. -/
theorem postFifoFails_eq (setup : RecvSetup) (comm : RecvComm) (recvs : List RecvArg)
    (i : ReqId) :
    (ncclIbPostFifo setup comm recvs i).ep =
      { (postFifoFails setup comm recvs i).ep with
        posted := comm.ep.posted ++ comm.ctsPostings setup recvs.length i
        log := comm.ep.log ++ [comm.ctsPosting setup recvs.length i]
        ibStat := comm.ep.ibStat.map (fun stat => stat.inc unetIbFifoPostCount) } ∧
      (postFifoFails setup comm recvs i).ep.posted = comm.ep.posted := by
  rw [ncclIbPostFifo_eq]
  by_cases signaled : comm.Signaled setup
  · have isSlot : comm.fifoTail % maxRequests = (setup.qps comm.devIndex).devIndex.val := signaled
    simp [postFifoFails, isSlot, announcedRequest, RecvComm.Signaled, Endpoint.mapReq,
      Endpoint.setReq, Endpoint.clearSizes]
  · have notSlot : ¬ comm.fifoTail % maxRequests = (setup.qps comm.devIndex).devIndex.val :=
      signaled
    simp [postFifoFails, notSlot, announcedRequest, RecvComm.Signaled, Endpoint.mapReq,
      Endpoint.setReq, Endpoint.clearSizes]

/-- The count is right when the announcement that was refused is put among the
outstanding postings. -/
theorem postFifoFails_accounted {recvs : List RecvArg} {i : ReqId} {lost : List Posting}
    (counted : Endpoint.Accounted (fun _ _ => 0)
      ((ncclIbPostFifo setup comm recvs i).ep.healed lost)) :
    Endpoint.Accounted (fun _ _ => 0) ((postFifoFails setup comm recvs i).ep.healed
      (comm.ctsPostings setup recvs.length i ++ lost)) := by
  obtain ⟨same, posted⟩ := postFifoFails_eq setup comm recvs i
  rw [same] at counted
  have moved : (comm.ctsPostings setup recvs.length i ++ lost ++
      (postFifoFails setup comm recvs i).ep.posted).Perm
      (lost ++ (comm.ep.posted ++ comm.ctsPostings setup recvs.length i)) := by
    rw [posted, ← List.append_assoc, List.append_assoc]
    exact List.perm_append_comm
  exact (counted.shuffled moved).congr rfl rfl rfl rfl rfl

/-- A receive that fails to post keeps the invariant of the healed comm. -/
theorem RecvOk.irecvFails {lost : List Posting} (ok : RecvOk setup (comm.healed lost))
    {posts : Nat} {recvs : List RecvArg} {after : RecvComm}
    (failed : irecvFails setup comm posts recvs = some after) :
    ∃ lost, RecvOk setup (after.healed lost) := by
  simp only [Unet.irecvFails] at failed
  split at failed
  · simp at failed
  rename_i possible
  simp only [not_or] at possible
  obtain ⟨⟨i, ep⟩, got, failed⟩ := Option.bind_eq_some_iff.mp failed
  obtain ⟨unused, rfl⟩ := Endpoint.ncclIbGetRequest_some got
  have inside : comm.ep.qpIndex < setup.nqps := ok.inside
  split at failed
  · have stop := stopped inside posts recvs.length i rfl
    obtain ⟨lost, accounted⟩ := stop.accounted ok unused
    rw [← Option.some.inj failed]
    refine ⟨lost, accounted, ?_, ok.devInside⟩
    show Endpoint.qpIndex _ < _
    have qpIndex := stop.qpIndex
    exact lt_of_eq_of_lt qpIndex (Nat.mod_lt _ setup.someQp)
  · split at failed
    · rw [← Option.some.inj failed]
      have received := comm.receive_received setup recvs i inside
      have whole := ok.irecv (.received unused (by omega) (received.healed lost))
      have counted : Endpoint.Accounted (fun _ _ => 0)
          ((comm.receive setup recvs i).ep.healed lost) := whole.accounted
      refine ⟨_, postFifoFails_accounted counted, ?_, Nat.mod_lt _ setup.someDev⟩
      have qpIndex := congrArg Endpoint.qpIndex (postFifoFails_eq setup { comm with
        ep := postRecvs setup comm.fifoTail i setup.perMessage
          ((comm.ep.setReq i (Endpoint.cleared (comm.ep.reqs i))).mapReq i
            (recvRequest setup recvs.length)) } recvs i).1
      exact lt_of_eq_of_lt qpIndex.symm whole.inside
    · simp at failed

/-- A flush that fails to post keeps the invariant of the healed comm. -/
theorem RecvOk.iflushFails {lost : List Posting} (ok : RecvOk setup (comm.healed lost))
    {posts : Nat} {recvs : List RecvArg} {after : RecvComm}
    (failed : iflushFails setup comm posts recvs = some after) :
    RecvOk setup (after.healed lost) := by
  simp only [Unet.iflushFails] at failed
  split at failed
  · simp at failed
  rename_i last _
  split at failed
  · simp at failed
  obtain ⟨⟨i, ep⟩, got, rfl⟩ := Option.map_eq_some_iff.mp failed
  obtain ⟨unused, rfl⟩ := Endpoint.ncclIbGetRequest_some got
  have flushes := postFlushes_posted setup last comm.fifoTail i (setup.devices.take posts)
    ((comm.ep.setReq i (Endpoint.cleared (comm.ep.reqs i))).mapReq i
      (fun req => { req with type := .flush }))
  have qpIndex := congrArg Endpoint.qpIndex flushes.rest
  exact ⟨(flushes.healed lost).accounted ok.accounted unused, lt_of_eq_of_lt qpIndex ok.inside,
    ok.devInside⟩

/-- A receive that fails to post leaves queues and fatal counts alone. -/
theorem irecvFails_rest (inside : comm.ep.qpIndex < setup.nqps) {posts : Nat}
    {recvs : List RecvArg} {after : RecvComm}
    (failed : irecvFails setup comm posts recvs = some after) :
    after.ep.cqs = comm.ep.cqs ∧ Endpoint.SameFatal comm.ep after.ep := by
  simp only [Unet.irecvFails] at failed
  split at failed
  · simp at failed
  obtain ⟨⟨i, ep⟩, got, failed⟩ := Option.bind_eq_some_iff.mp failed
  obtain ⟨unused, rfl⟩ := Endpoint.ncclIbGetRequest_some got
  split at failed
  · have stop := stopped inside posts recvs.length i rfl
    rw [← Option.some.inj failed]
    exact ⟨stop.cqs, stop.fatalErrorCount, stop.devFatalErrorCount⟩
  · split at failed
    · rw [← Option.some.inj failed]
      have received := comm.receive_received setup recvs i inside
      have same := (postFifoFails_eq setup { comm with
        ep := postRecvs setup comm.fifoTail i setup.perMessage
          ((comm.ep.setReq i (Endpoint.cleared (comm.ep.reqs i))).mapReq i
            (recvRequest setup recvs.length)) } recvs i).1
      have cqs := congrArg Endpoint.cqs same
      have fatal := congrArg Endpoint.fatalErrorCount same
      have devFatal := congrArg Endpoint.devFatalErrorCount same
      exact ⟨cqs.symm.trans received.cqs, fatal.symm.trans received.fatalErrorCount,
        devFatal.symm.trans received.devFatalErrorCount⟩
    · simp at failed

theorem iflushFails_rest {posts : Nat} {recvs : List RecvArg} {after : RecvComm}
    (failed : iflushFails setup comm posts recvs = some after) :
    after.ep.cqs = comm.ep.cqs ∧ Endpoint.SameFatal comm.ep after.ep := by
  simp only [Unet.iflushFails] at failed
  split at failed
  · simp at failed
  rename_i last _
  split at failed
  · simp at failed
  obtain ⟨⟨i, ep⟩, got, rfl⟩ := Option.map_eq_some_iff.mp failed
  obtain ⟨_, rfl⟩ := Endpoint.ncclIbGetRequest_some got
  have rest := (postFlushes_posted setup last comm.fifoTail i (setup.devices.take posts)
    ((comm.ep.setReq i (Endpoint.cleared (comm.ep.reqs i))).mapReq i
      (fun req => { req with type := .flush }))).rest
  have cqs := congrArg Endpoint.cqs rest
  have fatal := congrArg Endpoint.fatalErrorCount rest
  have devFatal := congrArg Endpoint.devFatalErrorCount rest
  exact ⟨cqs, fatal, devFatal⟩

end

end NcclExts.Unet
