import NcclExts.Unet.MergedDevs

/-!
# When the merged devices come out mixed

A pass pairs the ports of a card as they turn up. A card is left with a single port when
the number of its eligible ports is odd, and has a pair as soon as it has two. Whether the
list is built again can therefore be read off the eligible ports.
-/

namespace NcclExts.Unet

/-- What the ports of one card have in common. -/
def IbDevEntry.card (dev : IbDevEntry) : List Char × Nat × LinkLayer :=
  (dev.pciPath, dev.guid, dev.link)

namespace IbTables

theorem sameCard_iff (left right : IbDevEntry) : SameCard left right ↔ left.card = right.card := by
  simp [SameCard, IbDevEntry.card]

/-- The number of ports of a card. -/
def cardPorts (ports : List IbDevEntry) (card : List Char × Nat × LinkLayer) : Nat :=
  (ports.map IbDevEntry.card).count card

/-- Some card has two ports, and some card has an odd number of them. -/
def MixedCards (ports : List IbDevEntry) : Prop :=
  (∃ dev ∈ ports, 2 ≤ cardPorts ports dev.card) ∧ ∃ dev ∈ ports, cardPorts ports dev.card % 2 = 1

instance (ports : List IbDevEntry) : Decidable (MixedCards ports) :=
  inferInstanceAs (Decidable (_ ∧ _))

/-- A merged device has so many ports, and they are of the card. -/
def GroupAt (tables : IbTables) (d : Nat) (card : List Char × Nat × LinkLayer) (size : Nat) :
    Prop :=
  d < tables.nMerged ∧ (tables.merged d).ndevs = size ∧
    ∃ first, tables.ibDevs[(tables.merged d).devs 0]? = some first ∧ first.card = card

/-- The pairing of the ports of each card: a single is left for an odd number, one alone,
and there is a pair from two ports on. -/
structure Paired (ports : List IbDevEntry) (tables : IbTables) : Prop where
  merging : tables.Merging
  single : ∀ card, (∃ d, tables.GroupAt d card 1) ↔ cardPorts ports card % 2 = 1
  pair : ∀ card, (∃ d, tables.GroupAt d card 2) ↔ 2 ≤ cardPorts ports card
  lone : ∀ {card d e}, tables.GroupAt d card 1 → tables.GroupAt e card 1 → d = e

/-- A merged device is of one card only. -/
theorem GroupAt.unique {tables : IbTables} {d size size' : Nat}
    {card card' : List Char × Nat × LinkLayer} (left : tables.GroupAt d card size)
    (right : tables.GroupAt d card' size') : card = card' ∧ size = size' := by
  obtain ⟨_, sized, first, firstAt, rfl⟩ := left
  obtain ⟨_, sized', first', firstAt', rfl⟩ := right
  rw [firstAt] at firstAt'
  exact ⟨congrArg _ (Option.some.inj firstAt'), sized.symm.trans sized'⟩

/-- Every merged device has a group. -/
theorem Merging.group {tables : IbTables} (merging : tables.Merging) {d : Nat}
    (inside : d < tables.nMerged) : ∃ card, tables.GroupAt d card (tables.merged d).ndevs := by
  have known := merging.known (merging.first inside)
  exact ⟨_, inside, rfl, _, List.getElem?_eq_getElem known, rfl⟩

/-- A port that opens a merged device finds no single of its card. -/
theorem no_single_of_opened {tables : IbTables} {dev : IbDevEntry}
    (none : tables.ncclIbFindMatchingDev dev = tables.nMerged) :
    ¬ ∃ d, tables.GroupAt d dev.card 1 := by
  rintro ⟨d, inside, sized, first, firstAt, same⟩
  have matched : tables.matchesDev dev d = true := by
    simp only [matchesDev, sized, firstAt, Option.any_some, Bool.and_eq_true, decide_eq_true_eq]
    exact ⟨by decide, (sameCard_iff dev first).mpr same.symm⟩
  cases found : (List.range tables.nMerged).find? (tables.matchesDev dev) with
  | none => exact List.find?_eq_none.mp found d (List.mem_range.mpr inside) matched
  | some other =>
    have chosen := List.mem_range.mp (List.mem_of_find?_eq_some found)
    rw [ncclIbFindMatchingDev, found, Option.getD_some] at none
    omega

/-- The groups after a port has opened a merged device. -/
theorem opened_groupAt {tables : IbTables} (merging : tables.Merging) (dev : IbDevEntry) (d : Nat)
    (card : List Char × Nat × LinkLayer) (size : Nat) :
    (tables.opened dev).GroupAt d card size ↔
      tables.GroupAt d card size ∨ (d = tables.nMerged ∧ size = 1 ∧ dev.card = card) := by
  have entered := opened_placed tables dev
  by_cases new : d = tables.nMerged
  · subst new
    have newest := entered.newest
    have out : tables.GroupAt tables.nMerged card size ↔ False :=
      ⟨fun group => Nat.lt_irrefl _ group.1, False.elim⟩
    have fresh : ((tables.opened dev).merged tables.nMerged).devs 0 = tables.ibDevs.length := by
      simp [opened]
    have counted : ((tables.opened dev).merged tables.nMerged).ndevs = 1 := by simp [opened]
    have inside : tables.nMerged < (tables.opened dev).nMerged := Nat.lt_succ_self _
    rw [out, false_or]
    simp only [GroupAt, fresh, newest, counted, inside, Option.some.injEq, exists_eq_left',
      true_and]
    rw [@eq_comm _ size]
  · have alone : (tables.opened dev).merged d = tables.merged d := Function.update_of_ne new ..
    have inside : d < (tables.opened dev).nMerged ↔ d < tables.nMerged := by
      change d < tables.nMerged + 1 ↔ d < tables.nMerged
      omega
    simp only [GroupAt, alone, inside, new, false_and, or_false]
    constructor
    · rintro ⟨known, sized, first, firstAt, same⟩
      rw [entered.older (merging.known (merging.first known))] at firstAt
      exact ⟨known, sized, first, firstAt, same⟩
    · rintro ⟨known, sized, first, firstAt, same⟩
      rw [← entered.older (merging.known (merging.first known))] at firstAt
      exact ⟨known, sized, first, firstAt, same⟩

/-- The groups after a port has joined a single. -/
theorem joined_groupAt {tables : IbTables} (merging : tables.Merging) (dev : IbDevEntry) {m : Nat}
    (single : tables.GroupAt m dev.card 1) (d : Nat) (card : List Char × Nat × LinkLayer)
    (size : Nat) :
    (tables.joined m dev).GroupAt d card size ↔
      (d ≠ m ∧ tables.GroupAt d card size) ∨ (d = m ∧ size = 2 ∧ dev.card = card) := by
  obtain ⟨known, sized, first, firstAt, same⟩ := single
  have entered := joined_placed tables dev known sized
  by_cases grown : d = m
  · subst grown
    have head : ((tables.joined d dev).merged d).devs 0 = (tables.merged d).devs 0 := by
      simp [joined, sized]
    have counted : ((tables.joined d dev).merged d).ndevs = 2 := by simp [joined, sized]
    have inside : d < (tables.joined d dev).nMerged := known
    have headAt := entered.older (merging.known (merging.first known))
    simp only [GroupAt, head, counted, headAt, firstAt, inside, Option.some.injEq,
      exists_eq_left', same, true_and, ne_eq, not_true_eq_false, false_and, false_or]
    simp only [eq_comm]
  · have alone : (tables.joined m dev).merged d = tables.merged d := Function.update_of_ne grown ..
    simp only [GroupAt, alone, grown, ne_eq, not_false_eq_true, true_and, false_and, or_false]
    constructor
    · rintro ⟨within, sized, first, firstAt, same⟩
      rw [entered.older (merging.known (merging.first within))] at firstAt
      exact ⟨within, sized, first, firstAt, same⟩
    · rintro ⟨within, sized, first, firstAt, same⟩
      rw [← entered.older (merging.known (merging.first within))] at firstAt
      exact ⟨within, sized, first, firstAt, same⟩

theorem empty_paired : Paired [] .empty := by
  have nothing (d : Nat) (card : List Char × Nat × LinkLayer) (size : Nat) :
      ¬ empty.GroupAt d card size := fun group => Nat.not_lt_zero d group.1
  refine ⟨empty_merging, ?_, ?_, fun left _ => absurd left (nothing _ _ _)⟩
  · simp [nothing, cardPorts]
  · simp [nothing, cardPorts]

/-- A further port counts for its card. -/
theorem cardPorts_concat (ports : List IbDevEntry) (dev : IbDevEntry)
    (card : List Char × Nat × LinkLayer) :
    cardPorts (ports ++ [dev]) card = cardPorts ports card + if dev.card = card then 1 else 0 := by
  simp [cardPorts, List.count_singleton]

theorem Paired.opened {ports : List IbDevEntry} {tables : IbTables} (paired : Paired ports tables)
    {dev : IbDevEntry} (none : ¬ ∃ d, tables.GroupAt d dev.card 1) :
    Paired (ports ++ [dev]) (tables.opened dev) := by
  have groups := opened_groupAt paired.merging dev
  have even : cardPorts ports dev.card % 2 = 0 := by
    rw [paired.single] at none
    omega
  refine ⟨opened_merging paired.merging dev, ?_, ?_, ?_⟩
  · intro card
    simp only [groups, exists_or, paired.single, cardPorts_concat, true_and, exists_eq_left]
    by_cases same : dev.card = card
    · subst same
      simp only [if_true, or_true, true_iff]
      omega
    · simp [same]
  · intro card
    simp only [groups, exists_or, paired.pair, cardPorts_concat]
    by_cases same : dev.card = card
    · subst same
      simp only [if_true]
      constructor
      · rintro (two | ⟨_, _, one, _⟩)
        · omega
        · exact absurd one (by decide)
      · intro many
        exact .inl (by omega)
    · simp [same]
  · intro card d e left right
    rcases (groups _ _ _).mp left with oldLeft | ⟨rfl, _, rfl⟩
    · rcases (groups _ _ _).mp right with oldRight | ⟨rfl, _, rfl⟩
      · exact paired.lone oldLeft oldRight
      · exact absurd ⟨d, oldLeft⟩ none
    · rcases (groups _ _ _).mp right with oldRight | ⟨rfl, _, _⟩
      · exact absurd ⟨e, oldRight⟩ none
      · rfl

theorem Paired.joined {ports : List IbDevEntry} {tables : IbTables} (paired : Paired ports tables)
    {dev : IbDevEntry} {m : Nat} (single : tables.GroupAt m dev.card 1)
    (merging : (tables.joined m dev).Merging) :
    Paired (ports ++ [dev]) (tables.joined m dev) := by
  have groups := joined_groupAt paired.merging dev single
  have odd := (paired.single dev.card).mp ⟨m, single⟩
  refine ⟨merging, ?_, ?_, ?_⟩
  · intro card
    rw [cardPorts_concat]
    by_cases same : dev.card = card
    · subst same
      simp only [if_true]
      constructor
      · rintro ⟨d, group⟩
        rcases (groups _ _ _).mp group with ⟨other, old⟩ | ⟨_, two, _⟩
        · exact absurd (paired.lone old single) other
        · exact absurd two (by decide)
      · omega
    · simp only [same, if_false, Nat.add_zero, ← paired.single]
      constructor
      · rintro ⟨d, group⟩
        rcases (groups _ _ _).mp group with ⟨_, old⟩ | ⟨_, _, here⟩
        · exact ⟨d, old⟩
        · exact absurd here same
      · rintro ⟨d, group⟩
        refine ⟨d, (groups _ _ _).mpr (.inl ⟨?_, group⟩)⟩
        rintro rfl
        exact same (single.unique group).1
  · intro card
    rw [cardPorts_concat]
    by_cases same : dev.card = card
    · subst same
      simp only [if_true]
      constructor
      · omega
      · exact fun _ => ⟨m, (groups _ _ _).mpr (.inr ⟨rfl, rfl, rfl⟩)⟩
    · simp only [same, if_false, Nat.add_zero, ← paired.pair]
      constructor
      · rintro ⟨d, group⟩
        rcases (groups _ _ _).mp group with ⟨_, old⟩ | ⟨_, _, here⟩
        · exact ⟨d, old⟩
        · exact absurd here same
      · rintro ⟨d, group⟩
        refine ⟨d, (groups _ _ _).mpr (.inl ⟨?_, group⟩)⟩
        rintro rfl
        exact same (single.unique group).1
  · intro card d e left right
    rcases (groups _ _ _).mp left with ⟨_, oldLeft⟩ | ⟨_, two, _⟩
    · rcases (groups _ _ _).mp right with ⟨_, oldRight⟩ | ⟨_, two, _⟩
      · exact paired.lone oldLeft oldRight
      · exact absurd two (by decide)
    · exact absurd two (by decide)

theorem Paired.addPort {ports : List IbDevEntry} {tables : IbTables} (paired : Paired ports tables)
    (dev : IbDevEntry) : Paired (ports ++ [dev]) (tables.addPort true dev) := by
  rcases addPort_cases paired.merging true dev with
    added | ⟨_, d, first, added, inside, sized, firstAt, same⟩
  · by_cases none : tables.ncclIbFindMatchingDev dev = tables.nMerged
    · rw [added]
      exact paired.opened (no_single_of_opened none)
    · have more := congrArg IbTables.nMerged added
      simp only [IbTables.addPort, if_true, if_neg none, IbTables.joined, IbTables.opened] at more
      omega
  · rw [added]
    exact paired.joined ⟨inside, sized, first, firstAt, ((sameCard_iff dev first).mp same).symm⟩
      (joined_merging paired.merging inside sized firstAt same)

/-- A pass pairs the ports of each card. -/
theorem foldl_addPort_paired (ports : List IbDevEntry) :
    Paired ports (ports.foldl (addPort true) .empty) := by
  induction ports using List.reverseRecOn with
  | nil => exact empty_paired
  | append_singleton ports dev ih =>
    rw [List.foldl_append]
    exact ih.addPort dev

/-- The merged devices are mixed when there is a single and there is a pair. -/
theorem Merging.mixed_iff {tables : IbTables} (merging : tables.Merging) :
    tables.mixed = true ↔
      (∃ card d, tables.GroupAt d card 2) ∧ ∃ card d, tables.GroupAt d card 1 := by
  simp only [mixed, List.any_eq_true, List.mem_range, decide_eq_true_eq]
  constructor
  · rintro ⟨d, inside, differs⟩
    obtain ⟨card, group⟩ := merging.group inside
    obtain ⟨card', group'⟩ := merging.group (Nat.zero_lt_of_lt inside)
    rcases merging.oneOrTwo inside with one | two
    · rcases merging.oneOrTwo (Nat.zero_lt_of_lt inside) with one' | two'
      · omega
      · exact ⟨⟨card', 0, two' ▸ group'⟩, ⟨card, d, one ▸ group⟩⟩
    · rcases merging.oneOrTwo (Nat.zero_lt_of_lt inside) with one' | two'
      · exact ⟨⟨card, d, two ▸ group⟩, ⟨card', 0, one' ▸ group'⟩⟩
      · omega
  · rintro ⟨⟨_, p, pairInside, pairSized, _⟩, ⟨_, s, singleInside, singleSized, _⟩⟩
    by_cases first : (tables.merged 0).ndevs = 2
    · exact ⟨s, singleInside, by omega⟩
    · exact ⟨p, pairInside, by omega⟩

/-- A card with a property that no port lacks has a port. -/
theorem exists_card_iff (ports : List IbDevEntry) (large : Nat → Prop) (none : ¬ large 0) :
    (∃ card, large (cardPorts ports card)) ↔ ∃ dev ∈ ports, large (cardPorts ports dev.card) := by
  constructor
  · rintro ⟨card, holds⟩
    have member : card ∈ ports.map IbDevEntry.card := by
      by_contra absent
      rw [cardPorts, List.count_eq_zero_of_not_mem absent] at holds
      exact none holds
    obtain ⟨dev, listed, rfl⟩ := List.mem_map.mp member
    exact ⟨dev, listed, holds⟩
  · rintro ⟨dev, _, holds⟩
    exact ⟨dev.card, holds⟩

/-- The pass with merging comes out mixed exactly when the ports it enters are of mixed
cards. -/
theorem mixed_iff_mixedCards (ports : List IbDevEntry) :
    (ports.foldl (addPort true) .empty).mixed = true ↔ MixedCards ports := by
  have paired := foldl_addPort_paired ports
  simp only [paired.merging.mixed_iff, paired.pair, paired.single]
  rw [exists_card_iff ports (fun count => 2 ≤ count) (by decide),
    exists_card_iff ports (fun count => count % 2 = 1) (by decide)]
  rfl

end IbTables

end NcclExts.Unet
