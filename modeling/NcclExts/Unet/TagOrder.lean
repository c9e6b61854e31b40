import NcclExts.Foundation.Refinement
import NcclExts.Foundation.TagQueues
import NcclExts.Unet.Matching

/-!
# Sends and receives of one tag

What a connection does with tags is what queues of tagged places do. The receives of a
call are put up with their tags when the call announces them, and a send that gets a
request takes the next place of its tag. The announcements of a call land in any order,
sends of other tags come between, and a call is only left once all its receives have
their sends; none of it lets a send of a tag overtake another.
-/

namespace NcclExts.Unet

open NcclExts.Foundation NcclExts.Ucommd

/-- The receives of a call in their order: the tag of each, and its place. -/
def callPlaces (call : Nat) (recvs : List NcclIbSendFifo) : List (UInt32 × Nat × Nat) :=
  (List.range recvs.length).map fun r => ((recvs.getD r .zero).tag, call, r)

namespace Connection

/-- The receives of all calls so far, in order. -/
def placesCalled (c : Connection) : List (UInt32 × Nat × Nat) :=
  (List.range c.history.length).flatMap fun call => callPlaces call (c.calls call)

/-- The places that the matches with a tag took, in the order of the sends. -/
def placesTaken (c : Connection) (tag : UInt32) : List (Nat × Nat) :=
  (c.matched.filter fun m => m.tag.toUInt32 = tag).map Match.place

/-- The queues that a connection stands for. -/
def queues (c : Connection) : TagQueues UInt32 (Nat × Nat) where
  places := fun tag => (c.placesCalled.filter fun item => item.1 = tag).map Prod.snd
  taken := fun tag => (c.placesTaken tag).length

/-- What a step means to the queues: the call it adds, or the match it makes. -/
def means (c after : Connection) : List (TagEvent UInt32 (Nat × Nat)) :=
  ((List.range' c.history.length (after.history.length - c.history.length)).flatMap fun call =>
      (callPlaces call (after.calls call)).map fun item => .put item.1 item.2) ++
    (after.matched.drop c.matched.length).map fun m => .take m.tag.toUInt32 m.place

end Connection

/-- The order of places: by call, and within a call by receive. -/
def Ahead (place other : Nat × Nat) : Prop :=
  place.1 < other.1 ∨ place.1 = other.1 ∧ place.2 < other.2

theorem callPlaces_ahead (call : Nat) (recvs : List NcclIbSendFifo) :
    (callPlaces call recvs).Pairwise fun item other => Ahead item.2 other.2 := by
  rw [callPlaces, List.pairwise_map]
  exact List.pairwise_lt_range.imp fun earlier => Or.inr ⟨rfl, earlier⟩

theorem mem_callPlaces {call : Nat} {recvs : List NcclIbSendFifo} {item : UInt32 × Nat × Nat} :
    item ∈ callPlaces call recvs ↔
      ∃ r recv, recvs[r]? = some recv ∧ item = (recv.tag, call, r) := by
  simp only [callPlaces, List.mem_map, List.mem_range]
  constructor
  · rintro ⟨r, below, rfl⟩
    exact ⟨r, recvs[r], List.getElem?_eq_getElem below, by simp [below]⟩
  · rintro ⟨r, recv, isRecv, rfl⟩
    have below := (List.getElem?_eq_some_iff.mp isRecv).1
    exact ⟨r, below, by rw [List.getD_eq_getElem?_getD, isRecv]; rfl⟩

namespace Connection

variable {c : Connection}

theorem placesCalled_ahead (c : Connection) :
    c.placesCalled.Pairwise fun item other => Ahead item.2 other.2 := by
  rw [placesCalled, List.pairwise_flatMap]
  refine ⟨fun call _ => callPlaces_ahead call _, List.pairwise_lt_range.imp ?_⟩
  intro call other earlier item inCall item' inOther
  obtain ⟨_, _, _, rfl⟩ := mem_callPlaces.mp inCall
  obtain ⟨_, _, _, rfl⟩ := mem_callPlaces.mp inOther
  exact Or.inl earlier

theorem mem_placesCalled {item : UInt32 × Nat × Nat} :
    item ∈ c.placesCalled ↔
      ∃ recv, (c.calls item.2.1)[item.2.2]? = some recv ∧ item.1 = recv.tag := by
  simp only [placesCalled, List.mem_flatMap, List.mem_range, mem_callPlaces]
  constructor
  · rintro ⟨call, _, r, recv, isRecv, rfl⟩
    exact ⟨recv, isRecv, rfl⟩
  · obtain ⟨tag, call, r⟩ := item
    rintro ⟨recv, isRecv, rfl⟩
    refine ⟨call, ?_, r, recv, isRecv, rfl⟩
    by_contra beyond
    rw [Connection.calls, List.getD_eq_getElem?_getD,
      List.getElem?_eq_none (Nat.not_lt.mp beyond)] at isRecv
    simp at isRecv

theorem mem_queues {tag : UInt32} {place : Nat × Nat} :
    place ∈ c.queues.places tag ↔
      ∃ recv, (c.calls place.1)[place.2]? = some recv ∧ recv.tag = tag := by
  simp only [queues, List.mem_map, List.mem_filter, mem_placesCalled, decide_eq_true_eq]
  constructor
  · rintro ⟨_, ⟨⟨recv, isRecv, same⟩, isTag⟩, rfl⟩
    exact ⟨recv, isRecv, same.symm.trans isTag⟩
  · rintro ⟨recv, isRecv, rfl⟩
    exact ⟨(recv.tag, place), ⟨⟨recv, isRecv, rfl⟩, rfl⟩, rfl⟩

theorem queues_ahead (c : Connection) (tag : UInt32) :
    (c.queues.places tag).Pairwise Ahead := by
  rw [queues, List.pairwise_map]
  exact c.placesCalled_ahead.filter _

theorem queues_nodup (c : Connection) (tag : UInt32) : (c.queues.places tag).Nodup :=
  (c.queues_ahead tag).imp fun ahead same => by
    subst same
    rcases ahead with less | ⟨_, less⟩ <;> exact Nat.lt_irrefl _ less

theorem mem_placesTaken {tag : UInt32} {place : Nat × Nat} :
    place ∈ c.placesTaken tag ↔ ∃ m ∈ c.matched, m.tag.toUInt32 = tag ∧ m.place = place := by
  simp [placesTaken, and_assoc]

/-- Matches with a tag took the first places of its queue. -/
def InOrder (c : Connection) : Prop :=
  ∀ tag, c.placesTaken tag <+: c.queues.places tag

/-- A place of a queue in front of the place that a hit takes is taken. -/
theorem ahead_taken {setup : SendSetup} (answered : Answered setup c) {tag : Int32} {r : Nat} {i : ReqId}
    {recv : NcclIbSendFifo} (hit : Hit c.calls c.send tag r i recv) {place : Nat × Nat}
    (inQueue : place ∈ c.queues.places tag.toUInt32) (ahead : Ahead place (c.send.fifoHead, r)) :
    place ∈ c.placesTaken tag.toUInt32 := by
  obtain ⟨other, isOther, tagged⟩ := mem_queues.mp inQueue
  obtain ⟨call, r'⟩ := place
  obtain ⟨m, member, isPlace⟩ : ∃ m ∈ c.matched, m.place = (call, r') := by
    rcases ahead with earlier | ⟨here, before⟩
    · exact answered.whole call r' earlier (List.getElem?_eq_some_iff.mp isOther).1
    · -- the search for a free receive with the tag went past this one
      obtain rfl : call = c.send.fifoHead := here
      have below := (List.getElem?_eq_some_iff.mp isOther).1
      have passed := (List.find?_range_eq_some.mp hit.found).2.2 r' before
      have landed := hit.lands r' below
      rw [isOther, Option.some.injEq] at landed
      rw [← landed, tagged] at passed
      simp only [and_true, Bool.not_eq_true', decide_eq_false_iff_not] at passed
      obtain ⟨j, isTaken⟩ := Option.ne_none_iff_exists'.mp passed
      obtain ⟨m, member, isPlace, _⟩ := answered.waiting r' j isTaken
      exact ⟨m, member, isPlace⟩
  refine mem_placesTaken.mpr ⟨m, member, ?_, isPlace⟩
  obtain ⟨own, isOwn, sameTag⟩ := answered.real m member
  obtain ⟨isCall, isR⟩ := Prod.mk.inj isPlace
  rw [isCall, isR, isOther, Option.some.injEq] at isOwn
  rw [← sameTag, ← isOwn, tagged]

/-- The place that a hit takes is the next of its queue. -/
theorem hit_next {setup : SendSetup} (answered : Answered setup c) (inOrder : c.InOrder) {tag : Int32} {r : Nat} {i : ReqId}
    {recv : NcclIbSendFifo} (hit : Hit c.calls c.send tag r i recv) :
    (c.queues.places tag.toUInt32)[c.queues.taken tag.toUInt32]? = some (c.send.fifoHead, r) := by
  have member : (c.send.fifoHead, r) ∈ c.queues.places tag.toUInt32 :=
    mem_queues.mpr ⟨recv, hit.isRecv, hit.tagged⟩
  obtain ⟨before, rest, cut⟩ := List.append_of_mem member
  have lacks : (c.send.fifoHead, r) ∉ c.placesTaken tag.toUInt32 := by
    intro taken
    obtain ⟨m, matched, _, place⟩ := mem_placesTaken.mp taken
    obtain ⟨isCall, isR⟩ := Prod.mk.inj place
    exact answered.taken m matched isCall (isR ▸ hit.free)
  have sorted := c.queues_ahead tag.toUInt32
  rw [cut] at sorted
  have has : ∀ other ∈ before, other ∈ c.placesTaken tag.toUInt32 := by
    intro other inBefore
    refine ahead_taken answered hit ?_
      ((List.pairwise_append.mp sorted).2.2 other inBefore _ List.mem_cons_self)
    rw [cut]
    exact List.mem_append_left _ inBefore
  have same := prefix_eq_of_lacks (inOrder tag.toUInt32) cut (c.queues_nodup _) lacks has
  rw [cut]
  change (before ++ (c.send.fifoHead, r) :: rest)[(c.placesTaken tag.toUInt32).length]? = _
  rw [same, List.getElem?_append_right (Nat.le_refl _), Nat.sub_self, List.getElem?_cons_zero]

/-! ## Every step -/

/-- A step that neither calls nor matches. -/
theorem queues_congr {after : Connection} (history : after.history = c.history)
    (matched : after.matched = c.matched) : after.queues = c.queues ∧ c.means after = [] := by
  have calls : after.calls = c.calls := by
    unfold Connection.calls
    rw [history]
  constructor
  · unfold queues placesCalled placesTaken
    rw [history, matched, calls]
  · unfold means
    rw [history, matched, Nat.sub_self, List.drop_length]
    rfl

/-- A call has its receives behind those of the earlier calls. -/
theorem queues_places_receive (c : Connection) (recv : RecvComm) (n : Nat) (tag : UInt32) :
    (c.receive recv n).queues.places tag = c.queues.places tag ++
      ((callPlaces c.history.length ((c.receive recv n).calls c.history.length)).filter
        fun item => item.1 = tag).map Prod.snd := by
  have length : (c.receive recv n).history.length = c.history.length + 1 := by
    simp [Connection.receive]
  have grown : (c.receive recv n).placesCalled =
      c.placesCalled ++ callPlaces c.history.length ((c.receive recv n).calls c.history.length) := by
    rw [placesCalled, length, List.range_succ, List.flatMap_append, List.flatMap_singleton]
    congr 1
    refine List.flatMap_congr fun call member => ?_
    rw [receive_calls_other recv n (Nat.ne_of_lt (List.mem_range.mp member))]
  change ((c.receive recv n).placesCalled.filter fun item => item.1 = tag).map Prod.snd = _
  rw [grown, List.filter_append, List.map_append]
  rfl

/-- A call puts its receives at the ends of the queues of their tags. -/
theorem queues_receive (c : Connection) (recv : RecvComm) (n : Nat) :
    (tagQueues UInt32 (Nat × Nat)).replay c.queues (c.means (c.receive recv n)) =
      some (c.receive recv n).queues := by
  have means : c.means (c.receive recv n) =
      (callPlaces c.history.length ((c.receive recv n).calls c.history.length)).map
        fun item => .put item.1 item.2 := by
    have length : (c.receive recv n).history.length = c.history.length + 1 := by
      simp [Connection.receive]
    have matched : (c.receive recv n).matched = c.matched := rfl
    rw [Connection.means, length, matched, List.drop_length, Nat.add_sub_cancel_left]
    simp [List.range']
  rw [means, TagQueues.replay_put, Option.some.injEq]
  refine TagQueues.ext ?_ rfl
  funext tag
  exact (queues_places_receive c recv n tag).symm

/-- A match takes the next place of its tag. -/
theorem queues_match {m : Match} {after : Connection} (history : after.history = c.history)
    (matched : after.matched = c.matched ++ [m])
    (isNext : (c.queues.places m.tag.toUInt32)[c.queues.taken m.tag.toUInt32]? = some m.place) :
    (tagQueues UInt32 (Nat × Nat)).replay c.queues (c.means after) = some after.queues := by
  have calls : after.calls = c.calls := by
    unfold Connection.calls
    rw [history]
  have means : c.means after = [.take m.tag.toUInt32 m.place] := by
    rw [Connection.means, history, matched, Nat.sub_self, List.drop_left]
    rfl
  rw [means, TagQueues.replay_take _ isNext, Option.some.injEq]
  refine TagQueues.ext ?_ ?_
  · unfold queues placesCalled
    rw [history, calls]
  · funext tag
    change Function.update c.queues.taken _ _ tag = (after.placesTaken tag).length
    rw [placesTaken, matched, List.filter_append, List.map_append, List.length_append]
    by_cases here : tag = m.tag.toUInt32
    · subst here
      rw [Function.update_self]
      simp [queues, placesTaken]
    · rw [Function.update_of_ne here]
      simp [queues, placesTaken, Ne.symm here]

/-- Taking the next place keeps the order. -/
theorem InOrder.match (inOrder : c.InOrder) {m : Match} {after : Connection}
    (history : after.history = c.history) (matched : after.matched = c.matched ++ [m])
    (isNext : (c.queues.places m.tag.toUInt32)[c.queues.taken m.tag.toUInt32]? = some m.place) :
    after.InOrder := by
  intro tag
  have places : after.queues.places tag = c.queues.places tag := by
    have calls : after.calls = c.calls := by
      unfold Connection.calls
      rw [history]
    unfold queues placesCalled
    rw [history, calls]
  rw [places, placesTaken, matched, List.filter_append, List.map_append]
  by_cases here : m.tag.toUInt32 = tag
  · subst here
    rw [List.filter_cons_of_pos (by simp), List.filter_nil, List.map_singleton]
    obtain ⟨rest, whole⟩ := inOrder m.tag.toUInt32
    have count : c.queues.taken m.tag.toUInt32 = (c.placesTaken m.tag.toUInt32).length := rfl
    rw [← whole, count, List.getElem?_append_right (Nat.le_refl _), Nat.sub_self] at isNext
    rw [← whole]
    cases rest with
    | nil => simp at isNext
    | cons place rest =>
      have same : place = m.place := by simpa using isNext
      exact ⟨rest, by rw [same, List.append_assoc]; rfl⟩
  · rw [List.filter_cons_of_neg (by simpa using here), List.filter_nil, List.map_nil,
      List.append_nil]
    exact inOrder tag

/-- A further call keeps the order. -/
theorem InOrder.receive (inOrder : c.InOrder) (recv : RecvComm) (n : Nat) :
    (c.receive recv n).InOrder := by
  intro tag
  rw [queues_places_receive]
  exact (inOrder tag).trans (List.prefix_append _ _)

end Connection

section

variable {setup : ConnSetup} {c : Connection}

/-- What a step does to the queues is what it means. -/
theorem Connection.InOrder.step (inOrder : c.InOrder) (linked : Linked setup.toEnds c)
    (answered : Answered setup.send c) {event : ConnEvent} {after : Connection}
    (stepped : ConnStep setup.toEnds c event after) :
    after.InOrder ∧
      (tagQueues UInt32 (Nat × Nat)).replay c.queues (c.means after) = some after.queues := by
  have still {after : Connection} (history : after.history = c.history)
      (matched : after.matched = c.matched) :
      after.InOrder ∧
        (tagQueues UInt32 (Nat × Nat)).replay c.queues (c.means after) = some after.queues := by
    obtain ⟨same, nothing⟩ := queues_congr history matched
    refine ⟨fun tag => ?_, by rw [nothing, same]; rfl⟩
    rw [same, placesTaken, matched]
    exact inOrder tag
  have hits {tag : Int32} {r : Nat} {i : ReqId} {recv : NcclIbSendFifo}
      (hit : Hit c.calls c.send tag r i recv) (size : Int32) (send : SendComm) :
      InOrder { c with send := send, matched := c.matched ++ c.matchOf size tag (some i) } ∧
        (tagQueues UInt32 (Nat × Nat)).replay c.queues
          (c.means { c with send := send, matched := c.matched ++ c.matchOf size tag (some i) }) =
          some (queues { c with
            send := send, matched := c.matched ++ c.matchOf size tag (some i) }) := by
    rw [matchOf_hit linked.sendOk linked.announced hit]
    have isNext := hit_next answered inOrder hit
    exact ⟨inOrder.match rfl rfl isNext, queues_match rfl rfl isNext⟩
  cases stepped with
  | sent effect =>
    cases effect with
    | nothing => exact still rfl (List.append_nil _)
    | matched hit => exact hits hit _ _
    | posted hit => exact hits hit _ _
  | received => exact ⟨inOrder.receive _ _, queues_receive c _ _⟩
  | sendCompleted => exact still rfl rfl
  | sendWaits => exact still rfl rfl
  | sendDone => exact still rfl rfl
  | refused => exact still rfl rfl
  | flushed => exact still rfl rfl
  | recvCompleted => exact still rfl rfl
  | recvWaits => exact still rfl rfl
  | recvDone => exact still rfl rfl
  | landed => exact still rfl rfl
  | delivered => exact still rfl rfl

/-- Every run keeps the order. -/
theorem connection_inOrder {permitted : Connection → ConnEvent → Prop}
    (reached : (connection setup.toEnds).Reaches permitted c) : c.InOrder := by
  induction reached with
  | start first =>
    obtain ⟨_, _, _, _, _, matched⟩ := first
    intro tag
    rw [Connection.placesTaken, matched]
    exact List.nil_prefix
  | next before _ stepped ih =>
    have linked := connection_linked before
    exact (ih.step linked (connection_answered before) (linked.connStep stepped)).1

end

/-- A connection refines the queues of tagged places. -/
theorem tag_queues_refined (setup : ConnSetup) :
    Refines (connection setup.toEnds) (fun _ _ => True) (tagQueues UInt32 (Nat × Nat))
      Connection.queues Connection.means := by
  refine ⟨fun c fresh => ?_, fun c event after reached _ stepped => ?_⟩
  · obtain ⟨_, _, history, _, _, matched⟩ := fresh
    refine TagQueues.ext ?_ ?_
    · simp [Connection.queues, Connection.placesCalled, history]
    · simp [Connection.queues, Connection.placesTaken, matched]
  · have linked := connection_linked reached
    exact ((connection_inOrder reached).step linked (connection_answered reached)
      (linked.connStep stepped)).2

end NcclExts.Unet
