import NcclExts.Unet.StringList

/-!
# Which ports the user selects

`NCCL_IB_HCA` is a list of devices and ports, behind an optional `^` that turns the choice
around and an optional `=` that asks for whole names. The list is read into an array of
`MAX_IB_DEVS` entries, and what does not fit is left out.
-/

namespace NcclExts.Unet

open NcclExts.Foundation

/-- `'^'`. -/
def caret : UInt8 := 94

/-- `'='`. -/
def equals : UInt8 := 61

/-- Strip a mark from the front of a text, if it is there. -/
def stripMark (mark : UInt8) (text : List UInt8) : Bool × List UInt8 :=
  if text.head? = some mark then (true, text.tail) else (false, text)

/-- How `ncclIbInit` reads `NCCL_IB_HCA`; `none` for the text is an unset variable. -/
def readUserIbEnv (mergeVfs : Bool) (userIbEnv : Option (List UInt8)) : Option IbEnv :=
  match userIbEnv with
  | none =>
    (parseStringList none maxIbDevs).map fun userIfs =>
      { userIfs := userIfs, searchNot := false, searchExact := false, mergeVfs := mergeVfs }
  | some text =>
    let (searchNot, text) := stripMark caret text
    let (searchExact, text) := stripMark equals text
    (parseStringList (some text) maxIbDevs).map fun userIfs =>
      { userIfs := userIfs, searchNot := searchNot, searchExact := searchExact
        mergeVfs := mergeVfs }

/-- The check of a port against the user's list. -/
def IbEnv.accepts (env : IbEnv) (name : String) (portNum : Int) : Bool :=
  matchIfList name portNum env.userIfs env.searchExact ^^ env.searchNot

/-- A port that the check refuses is passed over. -/
theorem IbvPort.entry_refused (env : IbEnv) (device : Nat) (dev : IbvDevice) (portNum : Nat)
    (port : IbvPort) (refused : env.accepts dev.name portNum = false) :
    port.entry env device dev portNum = none :=
  if_pos refused

/-! ## Comparing names -/

/-- `strncmp(s, t, n) == 0` on the bytes in front of the terminating zeros. -/
def strncmpEq : Nat → List UInt8 → List UInt8 → Bool
  | 0, _, _ => true
  | _ + 1, [], [] => true
  | n + 1, a :: s, b :: t => a = b && strncmpEq n s t
  | _ + 1, _, _ => false

/-- Compared up to the length of the second text, the second one is in front of the
first. -/
theorem strncmpEq_prefix (s t : List UInt8) : strncmpEq t.length s t = true ↔ t <+: s := by
  induction t generalizing s with
  | nil => simp [strncmpEq]
  | cons b t ih =>
    cases s with
    | nil => simp [strncmpEq]
    | cons a s =>
      simp only [List.length_cons, strncmpEq, Bool.and_eq_true, decide_eq_true_eq, ih,
        List.cons_prefix_cons]
      rw [eq_comm]

/-- Compared one byte beyond the first text, both texts are the same. -/
theorem strncmpEq_whole (s t : List UInt8) : strncmpEq (s.length + 1) s t = true ↔ s = t := by
  induction s generalizing t with
  | nil => cases t <;> simp [strncmpEq]
  | cons a s ih => cases t <;> simp [strncmpEq, ih]

theorem toNat_charOf (byte : UInt8) : (charOf byte).toNat = byte.toNat := by
  have small := byte.toNat_lt
  have valid : byte.toNat.isValidChar := Or.inl (by omega)
  simp [charOf, Char.ofNat, valid, Char.ofNatAux, Char.toNat, UInt32.toNat]

theorem charOf_injective : Function.Injective charOf := by
  intro a b same
  rw [← UInt8.toNat_inj, ← toNat_charOf a, ← toNat_charOf b, same]

/-- `matchIf` on texts is `strncmp` on their bytes, up to the end of the reference, or of
the name with its zero. -/
theorem matchIf_textOf (name ref : List UInt8) (matchExact : Bool) :
    matchIf (textOf name) (textOf ref) matchExact =
      strncmpEq (if matchExact then name.length + 1 else ref.length) name ref := by
  rw [Bool.eq_iff_iff]
  cases matchExact with
  | true =>
    rw [if_pos rfl, strncmpEq_whole, matchIf, if_pos rfl, decide_eq_true_eq, textOf, textOf,
      String.ofList_inj, List.map_inj_right fun _ _ same => charOf_injective same]
  | false =>
    have texts : (textOf ref).toList.isPrefixOf (textOf name).toList = true ↔ ref <+: name := by
      rw [List.isPrefixOf_iff_prefix, textOf, textOf, String.toList_ofList, String.toList_ofList,
        List.prefix_map_iff_of_injective charOf_injective]
    simpa [matchIf, strncmpEq_prefix] using texts

/-! ## The choice -/

/-- The list behind the marks. -/
def hcaList (text : List UInt8) : List UInt8 :=
  (stripMark equals (stripMark caret text).2).2

/-- The user asks for whole names. -/
def asksExact (text : List UInt8) : Prop := (stripMark caret text).2.head? = some equals

instance (text : List UInt8) : Decidable (asksExact text) := inferInstanceAs (Decidable (_ = _))

/-- A part of the list names a device and port: by its whole name or by the start of it,
and by its number or by any. -/
def Names (text part name : List UInt8) (portNum : Nat) : Prop :=
  (if asksExact text then name = nameOf part else nameOf part <+: name) ∧
    (portOf part = portNum ∨ portOf part = -1)

instance (text part name : List UInt8) (portNum : Nat) :
    Decidable (Names text part name portNum) :=
  inferInstanceAs (Decidable ((if asksExact text then _ else _) ∧ _))

/-- The parts that the array has room for. -/
def listedParts (text : List UInt8) : List (List UInt8) :=
  (namedParts (hcaList text)).take maxIbDevs

/-- A list of short names is read into its parts and its marks. -/
theorem readUserIbEnv_eq (mergeVfs : Bool) (text : List UInt8)
    (short : ∀ part ∈ (hcaList text).splitOn comma, (nameOf part).length ≤ 63) :
    readUserIbEnv mergeVfs (some text) = some
      { userIfs := (listedParts text).map entryOf, searchNot := decide (text.head? = some caret)
        searchExact := decide (asksExact text), mergeVfs := mergeVfs } := by
  have parsed : parseStringList (some (hcaList text)) maxIbDevs =
      some ((listedParts text).map entryOf) :=
    parseStringList_short (hcaList text) (by decide) short
  have marked (mark : UInt8) (text : List UInt8) :
      (stripMark mark text).1 = decide (text.head? = some mark) := by
    rw [stripMark]
    split <;> simp [*]
  have list : (stripMark equals (stripMark caret text).2).2 = hcaList text := rfl
  simp only [readUserIbEnv, marked, list, parsed, Option.map_some]
  rfl

/-- The check against a list that has entries is a search for a part that names the port. -/
theorem matchIfList_parts (text name : List UInt8) (portNum : Nat)
    (some : listedParts text ≠ []) :
    matchIfList (textOf name) portNum ((listedParts text).map entryOf)
        (decide (asksExact text)) = true ↔
      ∃ part ∈ listedParts text, Names text part name portNum := by
  have listed : ((listedParts text).map entryOf).isEmpty = false := by
    rw [List.isEmpty_eq_false_iff]
    exact fun empty => some (List.map_eq_nil_iff.mp empty)
  have number : (portNum : Int) ≠ -1 := by omega
  rw [matchIfList, listed, Bool.false_or, List.any_map, List.any_eq_true]
  refine exists_congr fun part => and_congr_right fun _ => ?_
  rw [Function.comp_apply, Bool.and_eq_true, matchPort, decide_eq_true_eq, or_iff_right number]
  simp only [entryOf, matchIf_textOf, Names]
  refine and_congr ?_ ?_
  · by_cases exact : asksExact text
    · simp only [exact, decide_true, if_true, strncmpEq_whole]
    · simp only [exact, decide_false, Bool.false_eq_true, if_false, strncmpEq_prefix]
  · rw [or_comm, @eq_comm _ (portNum : Int)]

/-- For a list of names of at most 63 characters that has an entry, a port is selected
exactly when one of the first 32 entries names it, or, behind a caret, when none of them
does. A caret in front of a list turns the choice around. -/
theorem hca_selection (mergeVfs : Bool) (text : List UInt8)
    (short : ∀ part ∈ (hcaList text).splitOn comma, (nameOf part).length ≤ 63)
    (entries : namedParts (hcaList text) ≠ []) :
    ∃ env, readUserIbEnv mergeVfs (some text) = some env ∧
      (∀ (name : List UInt8) (portNum : Nat), env.accepts (textOf name) portNum = true ↔
        ¬ ((∃ part ∈ listedParts text, Names text part name portNum) ↔
          text.head? = some caret)) ∧
      (text.head? ≠ some caret → ∃ inverted,
        readUserIbEnv mergeVfs (some (caret :: text)) = some inverted ∧
          ∀ (name : List UInt8) (portNum : Nat), inverted.accepts (textOf name) portNum =
            !env.accepts (textOf name) portNum) := by
  have listed : listedParts text ≠ [] := by
    intro none
    rcases List.take_eq_nil_iff.mp none with full | empty
    · exact absurd full (by decide)
    · exact entries empty
  refine ⟨_, readUserIbEnv_eq mergeVfs text short, ?_, fun plain => ?_⟩
  · intro name portNum
    rw [← matchIfList_parts text name portNum listed]
    simp only [IbEnv.accepts]
    by_cases inverted : text.head? = some caret
    · simp [inverted]
    · simp [inverted]
  · have stripped : (stripMark caret (caret :: text)).2 = text := by simp [stripMark]
    have same : (stripMark caret text).2 = text := by simp [stripMark, plain]
    have sameList : hcaList (caret :: text) = hcaList text := by
      rw [hcaList, hcaList, stripped, same]
    have sameExact : asksExact (caret :: text) = asksExact text := by
      rw [asksExact, asksExact, stripped, same]
    refine ⟨_, readUserIbEnv_eq mergeVfs (caret :: text) (sameList ▸ short), ?_⟩
    intro name portNum
    simp [IbEnv.accepts, listedParts, sameList, sameExact, plain]

/-- A list that names one port of one device, and the ports that start with `ib`. -/
theorem hca_selection_two :
    ∃ env, readUserIbEnv true (some (ascii "^mlx5_0:1,ib")) = some env ∧
      env.accepts (textOf (ascii "mlx5_0")) (1 : Nat) = false := by
  obtain ⟨env, isEnv, accepts, _⟩ := hca_selection true (ascii "^mlx5_0:1,ib") (by decide +kernel)
    (by decide +kernel)
  refine ⟨env, isEnv, Bool.eq_false_iff.mpr fun accepted => ?_⟩
  refine (accepts _ _).mp accepted ⟨fun _ => by decide +kernel, fun _ => ?_⟩
  exact ⟨ascii "mlx5_0:1", by decide +kernel, by decide +kernel⟩

/-- A device behind 32 others. -/
def behindOthers : List UInt8 := (List.replicate 32 (ascii "a,")).flatten ++ ascii "b"

/-- The last of 33 entries selects nothing. -/
theorem hca_selection_cut :
    ¬ ∀ text : List UInt8, (∀ part ∈ (hcaList text).splitOn comma, (nameOf part).length ≤ 63) →
      namedParts (hcaList text) ≠ [] → ∃ env, readUserIbEnv true (some text) = some env ∧
        ∀ (name : List UInt8) (portNum : Nat), env.accepts (textOf name) portNum = true ↔
          ¬ ((∃ part ∈ namedParts (hcaList text), Names text part name portNum) ↔
            text.head? = some caret) := by
  intro always
  have short : ∀ part ∈ (hcaList behindOthers).splitOn comma, (nameOf part).length ≤ 63 := by
    decide +kernel
  obtain ⟨env, isEnv, accepts⟩ := always behindOthers short (by decide +kernel)
  rw [readUserIbEnv_eq true behindOthers short, Option.some.injEq] at isEnv
  subst isEnv
  have selected := (accepts (ascii "b") 1).mpr fun same =>
    absurd (same.mp ⟨ascii "b", by decide +kernel, by decide +kernel⟩) (by decide +kernel)
  exact absurd selected (by decide +kernel)

end NcclExts.Unet
