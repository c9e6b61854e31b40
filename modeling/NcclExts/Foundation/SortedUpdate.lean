import NcclExts.Foundation.SortedMap

/-!
# Looking up and updating

A sorted map of lists is looked up by its keys. Updating a key changes the list of the key,
which is empty before its first update, and no other. A sorted set is a list that ascends.
-/

namespace NcclExts.Foundation

variable {κ α : Type} [LinearOrder κ]

/-- The values of a key, if the map has it. -/
def lookAt (key : κ) (map : List (κ × List α)) : Option (List α) :=
  (map.find? fun entry => entry.1 = key).map Prod.snd

/-- Change the values of a key. -/
def updateAt (key : κ) (change : List α → List α) : List (κ × List α) → List (κ × List α)
  | [] => [(key, change [])]
  | (other, values) :: rest =>
    if key < other then (key, change []) :: (other, values) :: rest
    else if key = other then (other, change values) :: rest
    else (other, values) :: updateAt key change rest

theorem lookAt_cons (key other : κ) (values : List α) (rest : List (κ × List α)) :
    lookAt key ((other, values) :: rest) =
      if other = key then some values else lookAt key rest := by
  by_cases same : other = key <;> simp [lookAt, same]

theorem lookAt_of_notMem {key : κ} {map : List (κ × List α)}
    (missing : ∀ entry ∈ map, entry.1 ≠ key) : lookAt key map = none := by
  rw [lookAt, Option.map_eq_none_iff, List.find?_eq_none]
  intro entry member
  simpa using missing entry member

/-- A sorted map has what it is looked up for. -/
theorem mem_iff_lookAt {map : List (κ × List α)} (ascending : Ascending map) {key : κ}
    {values : List α} : (key, values) ∈ map ↔ lookAt key map = some values := by
  constructor
  · intro member
    cases found : lookAt key map with
    | none =>
      rw [lookAt, Option.map_eq_none_iff, List.find?_eq_none] at found
      have other : ¬ key = key := by simpa using found _ member
      exact absurd rfl other
    | some others =>
      obtain ⟨entry, isFound, rfl⟩ := Option.map_eq_some_iff.mp found
      have isKey : entry.1 = key := by simpa using List.find?_some isFound
      have there := List.mem_of_find?_eq_some isFound
      obtain ⟨key', others⟩ := entry
      obtain rfl : key' = key := isKey
      rw [ascending.unique there member]
  · intro found
    obtain ⟨entry, isFound, rfl⟩ := Option.map_eq_some_iff.mp found
    have isKey : entry.1 = key := by simpa using List.find?_some isFound
    exact isKey ▸ List.mem_of_find?_eq_some isFound

/-- An update is seen under its key, and nowhere else. -/
theorem lookAt_updateAt {map : List (κ × List α)} (ascending : Ascending map) (key : κ)
    (change : List α → List α) (other : κ) :
    lookAt other (updateAt key change map) =
      if other = key then some (change ((lookAt key map).getD [])) else lookAt other map := by
  induction map with
  | nil =>
    rw [updateAt, lookAt_cons]
    by_cases here : other = key
    · simp [here, lookAt]
    · simp [here, Ne.symm here, lookAt]
  | cons entry rest ih =>
    obtain ⟨first, values⟩ := entry
    obtain ⟨least, later⟩ := List.pairwise_cons.mp ascending
    have ih := ih later
    unfold updateAt
    rcases lt_trichotomy key first with below | rfl | above
    · have missing : lookAt key ((first, values) :: rest) = none := by
        refine lookAt_of_notMem fun entry member => ?_
        rcases List.mem_cons.mp member with rfl | behind
        · exact ne_of_gt below
        · exact ne_of_gt (lt_trans below (least _ (List.mem_map_of_mem behind)))
      rw [if_pos below, lookAt_cons, missing, Option.getD_none]
      by_cases here : other = key
      · rw [if_pos here.symm, if_pos here]
      · rw [if_neg (Ne.symm here), if_neg here]
    · rw [if_neg (lt_irrefl key), if_pos rfl, lookAt_cons, lookAt_cons key, if_pos rfl,
        Option.getD_some, lookAt_cons]
      by_cases here : other = key
      · rw [if_pos here.symm, if_pos here]
      · rw [if_neg (Ne.symm here), if_neg here, if_neg (Ne.symm here)]
    · rw [if_neg (lt_asymm above), if_neg (ne_of_gt above), lookAt_cons, ih, lookAt_cons key,
        if_neg (ne_of_lt above), lookAt_cons]
      by_cases here : other = key
      · rw [if_neg fun same => ne_of_lt above (same.trans here), if_pos here, if_pos here]
      · rw [if_neg here, if_neg here]

theorem mem_updateAt {map : List (κ × List α)} {key : κ} {change : List α → List α}
    {entry : κ × List α} (member : entry ∈ updateAt key change map) :
    entry ∈ map ∨ entry = (key, change []) ∨
      ∃ values, (key, values) ∈ map ∧ entry = (key, change values) := by
  induction map with
  | nil => exact .inr (.inl (List.mem_singleton.mp member))
  | cons first rest ih =>
    obtain ⟨other, values⟩ := first
    unfold updateAt at member
    split_ifs at member with below same
    · rcases List.mem_cons.mp member with rfl | old
      · exact .inr (.inl rfl)
      · exact .inl old
    · subst same
      rcases List.mem_cons.mp member with rfl | old
      · exact .inr (.inr ⟨values, List.mem_cons_self, rfl⟩)
      · exact .inl (List.mem_cons_of_mem _ old)
    · rcases List.mem_cons.mp member with rfl | behind
      · exact .inl List.mem_cons_self
      · rcases ih behind with old | new | ⟨values, old, new⟩
        · exact .inl (List.mem_cons_of_mem _ old)
        · exact .inr (.inl new)
        · exact .inr (.inr ⟨values, List.mem_cons_of_mem _ old, new⟩)

theorem mem_keys_updateAt {map : List (κ × List α)} {key other : κ} {change : List α → List α} :
    other ∈ (updateAt key change map).map Prod.fst ↔ other = key ∨ other ∈ map.map Prod.fst := by
  induction map with
  | nil => simp [updateAt]
  | cons entry rest ih =>
    unfold updateAt
    split_ifs with below same
    · simp
    · simp [same]
    · simp only [List.map_cons, List.mem_cons, ih]
      exact or_left_comm

theorem Ascending.updateAt {map : List (κ × List α)} (ascending : Ascending map) (key : κ)
    (change : List α → List α) : Ascending (updateAt key change map) := by
  induction map with
  | nil => exact List.pairwise_singleton _ _
  | cons entry rest ih =>
    obtain ⟨least, later⟩ := List.pairwise_cons.mp ascending
    unfold Foundation.updateAt
    split_ifs with below same
    · refine List.pairwise_cons.mpr ⟨?_, ascending⟩
      intro other member
      rcases List.mem_cons.mp member with rfl | behind
      · exact below
      · exact lt_trans below (least other behind)
    · exact List.pairwise_cons.mpr ⟨least, later⟩
    · refine List.pairwise_cons.mpr ⟨?_, ih later⟩
      intro other member
      rcases mem_keys_updateAt.mp member with rfl | behind
      · exact lt_of_le_of_ne (not_lt.mp below) (Ne.symm same)
      · exact least other behind

/-! ## Sorted sets -/

/-- Put a value into a sorted set. -/
def insertSorted (value : κ) : List κ → List κ
  | [] => [value]
  | other :: rest =>
    if value < other then value :: other :: rest
    else if value = other then other :: rest
    else other :: insertSorted value rest

theorem mem_insertSorted {value other : κ} {set : List κ} :
    other ∈ insertSorted value set ↔ other = value ∨ other ∈ set := by
  induction set with
  | nil => simp [insertSorted]
  | cons first rest ih =>
    unfold insertSorted
    split_ifs with below same
    · simp
    · simp [same]
    · simp only [List.mem_cons, ih]
      exact or_left_comm

theorem pairwise_insertSorted {set : List κ} (sorted : set.Pairwise (· < ·)) (value : κ) :
    (insertSorted value set).Pairwise (· < ·) := by
  induction set with
  | nil => exact List.pairwise_singleton _ _
  | cons first rest ih =>
    obtain ⟨least, later⟩ := List.pairwise_cons.mp sorted
    unfold insertSorted
    split_ifs with below same
    · refine List.pairwise_cons.mpr ⟨?_, sorted⟩
      intro other member
      rcases List.mem_cons.mp member with rfl | behind
      · exact below
      · exact lt_trans below (least other behind)
    · exact sorted
    · refine List.pairwise_cons.mpr ⟨?_, ih later⟩
      intro other member
      rcases mem_insertSorted.mp member with rfl | behind
      · exact lt_of_le_of_ne (not_lt.mp below) (Ne.symm same)
      · exact least other behind

theorem toFinset_insertSorted [DecidableEq κ] (value : κ) (set : List κ) :
    (insertSorted value set).toFinset = insert value set.toFinset := by
  ext other
  simp [mem_insertSorted]

end NcclExts.Foundation
