import Mathlib.Data.List.Nodup
import Mathlib.Data.Nat.ModEq

/-!
# Round-robin use of a ring

A user of a ring of slots takes them one after the other, wrapping at the end. Two
users that take the same number of slots in each round, and start from the same slot,
stay in step without telling each other where they are: the slots of the first rounds
are a function of the number of rounds alone.
-/

namespace NcclExts.Foundation

/-- The next `count` slots of a ring of `length` slots, from `start` on. -/
def roundRobin (length : Nat) : Nat → Nat → List Nat
  | _, 0 => []
  | start, count + 1 => start :: roundRobin length ((start + 1) % length) count

/-- Every slot taken in the first `rounds` rounds of `count` slots each, with its round. -/
def schedule (length count rounds : Nat) : List (Nat × Nat) :=
  (List.range rounds).flatMap fun round =>
    (roundRobin length (count * round % length) count).map fun slot => (slot, round)

@[simp] theorem roundRobin_length (length start count : Nat) :
    (roundRobin length start count).length = count := by
  induction count generalizing start with
  | zero => rfl
  | succ count ih => simp [roundRobin, ih]

/-- Slots of the ring are followed by slots of the ring. -/
theorem roundRobin_lt {length start count : Nat} (inside : start < length) :
    ∀ slot ∈ roundRobin length start count, slot < length := by
  induction count generalizing start with
  | zero => simp [roundRobin]
  | succ count ih =>
    intro slot member
    rcases List.mem_cons.mp member with rfl | member
    · exact inside
    · exact ih (Nat.mod_lt _ (by omega)) slot member

/-- The slot a round of `count` slots ends at. -/
def roundEnd (length start count : Nat) : Nat := (start + count) % length

theorem roundEnd_zero {length start : Nat} (inside : start < length) :
    roundEnd length start 0 = start := Nat.mod_eq_of_lt inside

theorem roundEnd_succ (length start count : Nat) :
    roundEnd length ((start + 1) % length) count = roundEnd length start (count + 1) := by
  simp only [roundEnd, Nat.mod_add_mod]
  congr 1
  omega

/-- The start of the next round. -/
theorem roundEnd_round (length count round : Nat) :
    roundEnd length (count * round % length) count = count * (round + 1) % length := by
  simp only [roundEnd, Nat.mod_add_mod]
  rfl

/-- The slots of a round in closed form. -/
theorem roundRobin_eq {length start count : Nat} (inside : start < length) :
    roundRobin length start count = (List.range count).map fun step => (start + step) % length := by
  induction count generalizing start with
  | zero => rfl
  | succ count ih =>
    have first : (start + 0) % length = start := Nat.mod_eq_of_lt inside
    rw [roundRobin, ih (Nat.mod_lt _ (by omega)), List.range_succ_eq_map, List.map_cons, first,
      List.map_map]
    congr 1
    apply List.map_congr_left
    intro step _
    simp only [Function.comp_apply, Nat.mod_add_mod, Nat.succ_eq_add_one]
    congr 1
    omega

/-- A round that is no longer than the ring takes no slot twice. -/
theorem roundRobin_nodup {length start count : Nat} (inside : start < length)
    (short : count ≤ length) : (roundRobin length start count).Nodup := by
  rw [roundRobin_eq inside]
  refine List.Nodup.map_on ?_ List.nodup_range
  intro first isFirst second isSecond same
  have below := List.mem_range.mp isFirst
  have below' := List.mem_range.mp isSecond
  exact (Nat.ModEq.add_left_cancel' start same).eq_of_lt_of_lt (by omega) (by omega)

/-- The slots of a ring of `rounds` rounds of `count` slots that have a given place in
their round: one in each round. -/
theorem countP_mod_le (count rounds place : Nat) :
    (List.range (rounds * count)).countP (fun slot => slot % count = place) ≤ rounds := by
  induction rounds with
  | zero => simp
  | succ rounds ih =>
    have last : ((List.range count).map (rounds * count + ·)).countP
        (fun slot => slot % count = place) ≤ 1 := by
      rw [List.countP_map]
      have same : (List.range count).countP
          ((fun slot => decide (slot % count = place)) ∘ (rounds * count + ·)) =
          (List.range count).count place := by
        apply List.countP_congr
        intro slot member
        have inside := Nat.mod_eq_of_lt (List.mem_range.mp member)
        simp [inside]
      rw [same]
      exact List.nodup_iff_count_le_one.mp List.nodup_range place
    rw [Nat.succ_mul, List.range_add, List.countP_append]
    omega

theorem schedule_zero (length count : Nat) : schedule length count 0 = [] := rfl

/-- One more round takes the slots that follow. -/
theorem schedule_succ (length count rounds : Nat) :
    schedule length count (rounds + 1) = schedule length count rounds ++
      (roundRobin length (count * rounds % length) count).map (fun slot => (slot, rounds)) := by
  simp [schedule, List.range_succ]

/-- Fewer rounds take the first of the slots that more rounds take. -/
theorem schedule_initial {length count fewer more : Nat} (fewest : fewer ≤ more) :
    schedule length count fewer <+: schedule length count more := by
  induction more with
  | zero =>
    obtain rfl := Nat.le_zero.mp fewest
    exact List.prefix_rfl
  | succ more ih =>
    rcases Nat.lt_or_eq_of_le fewest with below | rfl
    · rw [schedule_succ]
      exact (ih (Nat.lt_succ_iff.mp below)).trans (List.prefix_append _ _)
    · exact List.prefix_rfl

/-- More rounds go on with later ones. -/
theorem schedule_later (length count : Nat) {fewer more : Nat} (fewest : fewer ≤ more) :
    ∃ later, schedule length count more = schedule length count fewer ++ later ∧
      ∀ entry ∈ later, fewer ≤ entry.2 := by
  induction more with
  | zero =>
    obtain rfl := Nat.le_zero.mp fewest
    exact ⟨[], by simp, by simp⟩
  | succ more ih =>
    rcases Nat.lt_or_eq_of_le fewest with below | rfl
    · have within := Nat.lt_succ_iff.mp below
      obtain ⟨later, whole, rounds⟩ := ih within
      refine ⟨later ++ (roundRobin length (count * more % length) count).map
        (fun slot => (slot, more)), ?_, ?_⟩
      · rw [schedule_succ, whole, List.append_assoc]
      · intro entry member
        rcases List.mem_append.mp member with old | new
        · exact rounds entry old
        · obtain ⟨_, _, rfl⟩ := List.mem_map.mp new
          exact within
    · exact ⟨[], by simp, by simp⟩

/-- The rounds of a schedule are the ones it was built from. -/
theorem schedule_round_lt {length count rounds : Nat} :
    ∀ entry ∈ schedule length count rounds, entry.2 < rounds := by
  intro entry member
  obtain ⟨round, inRange, inRound⟩ := List.mem_flatMap.mp member
  obtain ⟨slot, _, rfl⟩ := List.mem_map.mp inRound
  exact List.mem_range.mp inRange

/-- The rounds that take a slot, in order. -/
def roundsOn (length count rounds slot : Nat) : List Nat :=
  ((schedule length count rounds).filter fun entry => entry.1 = slot).map Prod.snd

theorem roundsOn_initial {length count fewer more : Nat} (fewest : fewer ≤ more) (slot : Nat) :
    roundsOn length count fewer slot <+: roundsOn length count more slot :=
  ((schedule_initial fewest).filter _).map _

/-- The further rounds that take a slot are later ones. -/
theorem roundsOn_later (length count slot : Nat) {fewer more : Nat} (fewest : fewer ≤ more) :
    ∃ later, roundsOn length count more slot = roundsOn length count fewer slot ++ later ∧
      ∀ round ∈ later, fewer ≤ round := by
  obtain ⟨later, whole, rounds⟩ := schedule_later length count fewest
  refine ⟨(later.filter fun entry => entry.1 = slot).map Prod.snd, ?_, ?_⟩
  · rw [roundsOn, whole, List.filter_append, List.map_append]
    rfl
  · intro round member
    obtain ⟨entry, inside, rfl⟩ := List.mem_map.mp member
    exact rounds entry (List.mem_filter.mp inside).1

theorem roundsOn_lt {length count rounds slot : Nat} :
    ∀ round ∈ roundsOn length count rounds slot, round < rounds := by
  intro round member
  obtain ⟨entry, inside, rfl⟩ := List.mem_map.mp member
  exact schedule_round_lt entry (List.mem_filter.mp inside).1

/-- A round takes a slot at most once, where it takes no more slots than there are. -/
theorem roundsOn_nodup {length count : Nat} (some : 0 < length) (few : count ≤ length)
    (rounds slot : Nat) : (roundsOn length count rounds slot).Nodup := by
  induction rounds with
  | zero => simp [roundsOn, schedule_zero]
  | succ rounds ih =>
    have taken {entry : Nat × Nat} (member : entry ∈ ((roundRobin length
        (count * rounds % length) count).map fun q => (q, rounds)).filter
          fun entry => entry.1 = slot) : entry = (slot, rounds) := by
      obtain ⟨inRound, isSlot⟩ := List.mem_filter.mp member
      obtain ⟨q, _, rfl⟩ := List.mem_map.mp inRound
      simpa using isSlot
    rw [roundsOn, schedule_succ, List.filter_append, List.map_append, List.nodup_append]
    refine ⟨ih, ?_, ?_⟩
    · refine List.Nodup.map_on (fun entry member other member' _ => ?_) (List.Nodup.filter _ ?_)
      · rw [taken member, taken member']
      · refine (roundRobin_nodup (Nat.mod_lt _ some) few).map ?_
        exact fun _ _ same => (Prod.mk.inj same).1
    · intro round earlier round' new
      obtain ⟨entry, member, rfl⟩ := List.mem_map.mp new
      rw [taken member]
      exact Nat.ne_of_lt (roundsOn_lt round earlier)

/-- A round takes the slot it starts from. -/
theorem mem_roundsOn_start (length : Nat) {count rounds round : Nat} (some : 0 < count)
    (below : round < rounds) : round ∈ roundsOn length count rounds (count * round % length) := by
  refine List.mem_map.mpr ⟨(count * round % length, round), List.mem_filter.mpr ⟨?_, ?_⟩, rfl⟩
  · refine List.mem_flatMap.mpr ⟨round, List.mem_range.mpr below, List.mem_map.mpr ⟨_, ?_, rfl⟩⟩
    obtain ⟨fewer, rfl⟩ := Nat.exists_eq_succ_of_ne_zero (Nat.pos_iff_ne_zero.mp some)
    exact List.mem_cons_self
  · simp

end NcclExts.Foundation
