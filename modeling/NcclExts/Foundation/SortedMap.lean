import Mathlib

/-!
# Sorted maps of lists

A map from keys to lists, kept as the list of its entries in the order of the keys. A
value that is pushed under a key goes behind the values that the key has, and a key
without an entry gets one in its place.
-/

namespace NcclExts.Foundation

variable {κ α : Type} [LinearOrder κ]

/-- Push a value under a key. -/
def pushBack (key : κ) (value : α) : List (κ × List α) → List (κ × List α)
  | [] => [(key, [value])]
  | (other, values) :: rest =>
    if key < other then (key, [value]) :: (other, values) :: rest
    else if key = other then (other, values ++ [value]) :: rest
    else (other, values) :: pushBack key value rest

/-- Push values under their keys, one after the other. -/
def pushAll (entries : List (κ × α)) (map : List (κ × List α)) : List (κ × List α) :=
  entries.foldl (fun map entry => pushBack entry.1 entry.2 map) map

/-- The keys of a map ascend. -/
def Ascending (map : List (κ × List α)) : Prop := (map.map Prod.fst).Pairwise (· < ·)

theorem Ascending.nil : Ascending ([] : List (κ × List α)) := List.Pairwise.nil

theorem Ascending.nodup {map : List (κ × List α)} (ascending : Ascending map) :
    (map.map Prod.fst).Nodup := List.Pairwise.imp ne_of_lt ascending

/-- A key has one entry. -/
theorem Ascending.unique {map : List (κ × List α)} (ascending : Ascending map) {key : κ}
    {values values' : List α} (first : (key, values) ∈ map) (second : (key, values') ∈ map) :
    values = values' := by
  have same := List.inj_on_of_nodup_map ascending.nodup first second rfl
  exact congrArg Prod.snd same

theorem mem_keys_pushBack {key : κ} {value : α} {map : List (κ × List α)} {other : κ} :
    other ∈ (pushBack key value map).map Prod.fst ↔
      other = key ∨ other ∈ map.map Prod.fst := by
  induction map with
  | nil => simp [pushBack]
  | cons entry rest ih =>
    unfold pushBack
    split_ifs with below same
    · simp
    · simp [same]
    · simp only [List.map_cons, List.mem_cons, ih]
      exact or_left_comm

theorem Ascending.pushBack {map : List (κ × List α)} (ascending : Ascending map) (key : κ)
    (value : α) : Ascending (pushBack key value map) := by
  induction map with
  | nil => exact List.pairwise_singleton _ _
  | cons entry rest ih =>
    obtain ⟨least, later⟩ := List.pairwise_cons.mp ascending
    unfold Foundation.pushBack
    split_ifs with below same
    · refine List.pairwise_cons.mpr ⟨?_, ascending⟩
      intro other member
      rcases List.mem_cons.mp member with rfl | behind
      · exact below
      · exact lt_trans below (least other behind)
    · exact List.pairwise_cons.mpr ⟨least, later⟩
    · refine List.pairwise_cons.mpr ⟨?_, ih later⟩
      intro other member
      rcases mem_keys_pushBack.mp member with rfl | behind
      · exact lt_of_le_of_ne (not_lt.mp below) (Ne.symm same)
      · exact least other behind

/-- A value joins those that its key has. -/
theorem mem_pushBack {map : List (κ × List α)} (ascending : Ascending map) (key : κ)
    (value : α) {other : κ} {values : List α} (member : (other, values) ∈ map) :
    (other, values ++ if key = other then [value] else []) ∈ pushBack key value map := by
  induction map with
  | nil => simp at member
  | cons entry rest ih =>
    obtain ⟨least, later⟩ := List.pairwise_cons.mp ascending
    have placed : other = entry.1 ∨ entry.1 < other := by
      rcases List.mem_cons.mp member with rfl | behind
      · exact Or.inl rfl
      · exact Or.inr (least other (List.mem_map_of_mem behind))
    unfold Foundation.pushBack
    rcases lt_trichotomy key entry.1 with below | here | above
    · have apart : key ≠ other := by
        rcases placed with rfl | after
        · exact ne_of_lt below
        · exact ne_of_lt (lt_trans below after)
      rw [if_pos below, if_neg apart, List.append_nil]
      exact List.mem_cons_of_mem _ member
    · rw [if_neg (not_lt.mpr (le_of_eq here.symm)), if_pos here]
      rcases List.mem_cons.mp member with rfl | behind
      · rw [if_pos here]
        exact List.mem_cons_self
      · have after : entry.1 < other := least other (List.mem_map_of_mem behind)
        rw [if_neg (here ▸ ne_of_lt after), List.append_nil]
        exact List.mem_cons_of_mem _ behind
    · rw [if_neg (lt_asymm above), if_neg (ne_of_gt above)]
      rcases List.mem_cons.mp member with rfl | behind
      · rw [if_neg (ne_of_gt above), List.append_nil]
        exact List.mem_cons_self
      · exact List.mem_cons_of_mem _ (ih later behind)

/-- What a map holds under its keys. -/
def listing (map : List (κ × List α)) : List (κ × α) :=
  map.flatMap fun entry => entry.2.map (entry.1, ·)

theorem listing_pushBack (key : κ) (value : α) (map : List (κ × List α)) :
    (listing (pushBack key value map)).Perm ((key, value) :: listing map) := by
  induction map with
  | nil => exact List.Perm.refl _
  | cons entry rest ih =>
    unfold pushBack
    split_ifs with below same
    · simp [listing]
    · subst same
      simp only [listing, List.flatMap_cons, List.map_append, List.map_cons, List.map_nil,
        List.append_assoc, List.singleton_append]
      exact List.perm_middle
    · simp only [listing, List.flatMap_cons] at ih ⊢
      exact (ih.append_left _).trans List.perm_middle

theorem nonempty_pushBack {map : List (κ × List α)} (nonempty : ∀ entry ∈ map, entry.2 ≠ [])
    (key : κ) (value : α) : ∀ entry ∈ pushBack key value map, entry.2 ≠ [] := by
  induction map with
  | nil => simp [pushBack]
  | cons first rest ih =>
    obtain ⟨some, others⟩ := List.forall_mem_cons.mp nonempty
    unfold pushBack
    split_ifs with below same
    · exact List.forall_mem_cons.mpr ⟨by simp, nonempty⟩
    · exact List.forall_mem_cons.mpr ⟨by simp, others⟩
    · exact List.forall_mem_cons.mpr ⟨some, ih others⟩

/-! ## Many values -/

theorem Ascending.pushAll {map : List (κ × List α)} (ascending : Ascending map)
    (entries : List (κ × α)) : Ascending (pushAll entries map) := by
  induction entries generalizing map with
  | nil => exact ascending
  | cons entry entries ih => exact ih (ascending.pushBack entry.1 entry.2)

theorem mem_keys_pushAll {entries : List (κ × α)} {map : List (κ × List α)} {key : κ} :
    key ∈ (pushAll entries map).map Prod.fst ↔
      key ∈ entries.map Prod.fst ∨ key ∈ map.map Prod.fst := by
  induction entries generalizing map with
  | nil => simp [pushAll]
  | cons entry entries ih =>
    have later := @ih (pushBack entry.1 entry.2 map)
    rw [mem_keys_pushBack] at later
    rw [List.map_cons, List.mem_cons]
    refine later.trans ?_
    tauto

/-- The values of a key are those that it had and those that were pushed under it. -/
theorem mem_pushAll {map : List (κ × List α)} (ascending : Ascending map)
    (entries : List (κ × α)) {key : κ} {values : List α} (member : (key, values) ∈ map) :
    (key, values ++ (entries.filter (·.1 = key)).map Prod.snd) ∈ pushAll entries map := by
  induction entries generalizing map values with
  | nil => simpa [pushAll] using member
  | cons entry entries ih =>
    have joined := ih (ascending.pushBack entry.1 entry.2)
      (mem_pushBack ascending entry.1 entry.2 member)
    have rest : (values ++ if entry.1 = key then [entry.2] else []) ++
        (entries.filter (·.1 = key)).map Prod.snd =
        values ++ ((entry :: entries).filter (·.1 = key)).map Prod.snd := by
      by_cases same : entry.1 = key <;> simp [same]
    rw [rest] at joined
    exact joined

theorem listing_pushAll (entries : List (κ × α)) (map : List (κ × List α)) :
    (listing (pushAll entries map)).Perm (entries ++ listing map) := by
  induction entries generalizing map with
  | nil => exact List.Perm.refl _
  | cons entry entries ih =>
    refine (ih (pushBack entry.1 entry.2 map)).trans ?_
    refine ((listing_pushBack entry.1 entry.2 map).append_left _).trans ?_
    exact List.perm_middle

theorem nonempty_pushAll {map : List (κ × List α)} (nonempty : ∀ entry ∈ map, entry.2 ≠ [])
    (entries : List (κ × α)) : ∀ entry ∈ pushAll entries map, entry.2 ≠ [] := by
  induction entries generalizing map with
  | nil => exact nonempty
  | cons entry entries ih => exact ih (nonempty_pushBack nonempty entry.1 entry.2)

end NcclExts.Foundation
