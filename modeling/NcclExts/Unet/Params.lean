import NcclExts.Foundation.LazyCells
import NcclExts.Foundation.Recording
import NcclExts.Foundation.Text

/-!
# Parameters from the environment

A parameter is a variable of the environment with a default. Its function keeps the value
in a cache that all threads share, and which holds `INT64_MIN` until the first call has
loaded the value under a mutex. One mutex serves all parameters. The environment may change
between the calls.
-/

namespace NcclExts.Unet

open NcclExts.Foundation

/-! ## Numbers -/

/-- The value of a digit or a letter; what is neither is too large for every base. -/
def digitValue (byte : UInt8) : Nat :=
  if isDigit byte then byte.toNat - 48
  else if 97 ≤ byte && byte ≤ 122 then byte.toNat - 87
  else if 65 ≤ byte && byte ≤ 90 then byte.toNat - 55
  else 36

/-- The number at the front of the digits of a base; `none` without any. -/
def scanBase (base : Nat) (text : List UInt8) : Option Nat :=
  let digits := text.takeWhile fun byte => digitValue byte < base
  if digits = [] then none
  else some (digits.foldl (fun value byte => value * base + digitValue byte) 0)

/-- A number as C writes it: behind `0x` hexadecimal, behind `0` octal, and decimal
otherwise. A `0x` without digits behind it is a zero. -/
def scanUnsigned (text : List UInt8) : Option Nat :=
  match text with
  | [] => none
  | [_] => scanDigits text
  | first :: second :: rest =>
    if first = 48 then
      if second = 120 ∨ second = 88 then some ((scanBase 16 rest).getD 0) else scanBase 8 text
    else scanDigits text

/-- `strtoll` in base 0: the number at the front of a text, behind spaces and a sign, and
zero without one. `none` is a number out of range, for which it sets `errno`. -/
def strtoll (text : List UInt8) : Option Int :=
  let value : Int :=
    match text.dropWhile isSpace with
    | [] => 0
    | byte :: rest =>
      if byte = 45 then -(((scanUnsigned rest).getD 0 : Nat) : Int)
      else if byte = 43 then ((scanUnsigned rest).getD 0 : Nat)
      else ((scanUnsigned (byte :: rest)).getD 0 : Nat)
  if -2 ^ 63 ≤ value ∧ value < 2 ^ 63 then some value else none

/-- The first digit of a number is no zero. -/
theorem decimal_front {value : Nat} (pos : 0 < value) :
    ∃ byte rest, decimal value = byte :: rest ∧ byte ≠ 48 := by
  have digits : ∃ char rest, Nat.toDigits 10 value = char :: rest ∧ char ≠ '0' := by
    induction value using Nat.strongRecOn with
    | ind value ih =>
      by_cases small : value < 10
      · rw [Nat.toDigits_of_lt_base small]
        refine ⟨value.digitChar, [], rfl, ?_⟩
        interval_cases value <;> decide
      · have large := Nat.not_lt.mp small
        obtain ⟨char, rest, front, isNot⟩ := ih (value / 10) (by omega) (by omega)
        rw [Nat.toDigits_of_base_le (by decide) large, front]
        exact ⟨char, rest ++ [(value % 10).digitChar], rfl, isNot⟩
  obtain ⟨char, rest, front, isNot⟩ := digits
  refine ⟨byteOf char, rest.map byteOf, by rw [decimal, front, List.map_cons], fun zero => ?_⟩
  have bounds := mem_toDigits (front ▸ List.mem_cons_self : char ∈ Nat.toDigits 10 value)
  have same : charOf (byteOf char) = char := charOf_byteOf (by omega)
  rw [zero] at same
  exact isNot (same.symm.trans (by decide))

/-- A number in decimal digits is read as it is: no leading zero makes it octal. -/
theorem scanUnsigned_decimal (value : Nat) : scanUnsigned (decimal value) = some value := by
  rcases Nat.eq_zero_or_pos value with rfl | pos
  · decide
  · obtain ⟨byte, rest, front, isNot⟩ := decimal_front pos
    have scanned := scanDigits_decimal value
    rw [front] at scanned ⊢
    cases rest with
    | nil => exact scanned
    | cons next rest => rw [scanUnsigned, if_neg isNot, scanned]

/-- A printed number that fits is read back. -/
theorem strtoll_signedDecimal {value : Int} (least : -2 ^ 63 ≤ value) (most : value < 2 ^ 63) :
    strtoll (signedDecimal value) = some value := by
  rw [signedDecimal]
  split
  next negative =>
    have space : isSpace 45 = false := by decide
    have same : -(value.natAbs : Int) = value := by omega
    rw [strtoll, List.dropWhile_cons_of_neg (by simp [space])]
    simp only [if_pos, scanUnsigned_decimal, Option.getD_some, same]
    exact if_pos ⟨least, most⟩
  next nonneg =>
    have same : (value.natAbs : Int) = value := by omega
    have scanned := scanUnsigned_decimal value.natAbs
    cases text : decimal value.natAbs with
    | nil => exact absurd text (decimal_ne_nil _)
    | cons byte rest =>
      have digit := isDigit_decimal (text ▸ List.mem_cons_self : byte ∈ decimal value.natAbs)
      simp only [isDigit, Bool.and_eq_true, decide_eq_true_eq, UInt8.le_iff_toNat_le] at digit
      have space : isSpace byte = false := by
        simp only [isSpace, Bool.or_eq_false_iff, decide_eq_false_iff_not, Bool.and_eq_false_iff,
          ← UInt8.toNat_inj, UInt8.le_iff_toNat_le]
        simp only [UInt8.toNat_ofNat] at digit ⊢
        omega
      have minus : byte ≠ 45 := by
        rintro rfl
        exact absurd digit.1 (by decide)
      have plus : byte ≠ 43 := by
        rintro rfl
        exact absurd digit.1 (by decide)
      rw [text] at scanned
      rw [strtoll, List.dropWhile_cons_of_neg (by simp [space])]
      simp only [if_neg minus, if_neg plus, scanned, Option.getD_some, same]
      exact if_pos ⟨least, most⟩

/-! ## Loading -/

/-- What the cache of a parameter holds before it is loaded: `INT64_MIN`. -/
def NcclParam.uninitialized : Int := -2 ^ 63

/-- A parameter: its variable, and its default, which is no `INT64_MIN`. -/
structure NcclParam where
  env : String
  deftVal : Int
  asserted : deftVal ≠ NcclParam.uninitialized
deriving DecidableEq

/-- The environment, and the caches of the parameters. -/
structure ParamWorld where
  env : String → Option (List UInt8)
  cache : NcclParam → Int

/-- What a text of the variable means: a text that is empty, or whose number is out of
range, is as good as none. -/
def NcclParam.value (param : NcclParam) (str : Option (List UInt8)) : Int :=
  match str with
  | none => param.deftVal
  | some [] => param.deftVal
  | some text => (strtoll text).getD param.deftVal

/-- The body of `ncclLoadParam`, behind its second look. What it reads of the environment is
its own until it stores the value. -/
def ncclLoadParam (world : ParamWorld) (param : NcclParam) : ParamWorld :=
  { world with cache := Function.update world.cache param (param.value (world.env param.env)) }

/-- The caches, and the variables that are set or unset. -/
def paramCells : LazyCells ParamWorld NcclParam Unit (String × Option (List UInt8)) where
  blank := fun world param => world.cache param = NcclParam.uninitialized
  fill := fun world param _ => some (ncclLoadParam world param, true)
  disturb := fun world change =>
    some { world with env := Function.update world.env change.1 change.2 }

/-- The value that a call returns, read from the cache. -/
def returnedValue (state : LazyState ParamWorld NcclParam)
    (event : LazyEvent NcclParam Unit (String × Option (List UInt8)))
    (_ : LazyState ParamWorld NcclParam) : List (NcclParam × Int) :=
  match event with
  | .finish thread =>
    match state.stage thread with
    | .returning param _ => [(param, state.shared.cache param)]
    | _ => []
  | _ => []

/-- All runs of threads that read parameters, with what they got, where every text of a
variable is one of some `texts`. -/
def paramRuns (texts : String → Option (List UInt8) → Prop) :
    System (Noted (LazyState ParamWorld NcclParam) (NcclParam × Int))
      (LazyEvent NcclParam Unit (String × Option (List UInt8))) :=
  recording
    (lazyRuns paramCells fun world =>
      (∀ name, texts name (world.env name)) ∧ world.cache = fun _ => NcclParam.uninitialized)
    returnedValue

section

variable {texts : String → Option (List UInt8) → Prop}

/-- A text that the parameter can have and that means this value. -/
def NcclParam.Means (texts : String → Option (List UInt8) → Prop) (param : NcclParam)
    (value : Int) : Prop :=
  ∃ text, texts param.env text ∧ value = param.value text

/-- Loading a parameter leaves the others alone. It is in vain when the variable says
`INT64_MIN`. -/
theorem paramCells_fills : LazyFills paramCells
    (fun change => texts change.1 change.2)
    (fun world => ∀ name, texts name (world.env name))
    (fun _ _ => False)
    (fun world param => world.cache param ≠ NcclParam.uninitialized ∧
      param.Means texts (world.cache param))
    (fun param => param.Means texts NcclParam.uninitialized) where
  partlySeen := fun nothing => nothing.elim
  fullSeen := fun isFull => decide_eq_false isFull.1
  apart := fun nothing => nothing.elim
  first := by
    intro world param _ after done valid _ made
    obtain ⟨rfl, rfl⟩ := Prod.mk.inj (Option.some.inj made)
    have loaded : (ncclLoadParam world param).cache param = param.value (world.env param.env) :=
      Function.update_self _ _ _
    have means : param.Means texts ((ncclLoadParam world param).cache param) :=
      ⟨_, valid param.env, loaded⟩
    by_cases inVain : (ncclLoadParam world param).cache param = NcclParam.uninitialized
    · exact .inl ⟨decide_eq_true inVain, inVain ▸ means⟩
    · exact .inr ⟨inVain, means⟩
  further := fun _ nothing => nothing.elim
  filled := by
    intro world param _ after done valid made
    obtain ⟨rfl, rfl⟩ := Prod.mk.inj (Option.some.inj made)
    refine ⟨valid, fun other differ => ?_⟩
    have same : (ncclLoadParam world param).cache other = world.cache other :=
      Function.update_of_ne differ _ _
    simp only [paramCells, same]
    exact ⟨trivial, id, id⟩
  disturbed := by
    intro world change after valid isAllowed changed
    obtain rfl := Option.some.inj changed
    refine ⟨fun name => ?_, fun _ => ⟨rfl, id, id⟩⟩
    by_cases here : name = change.1
    · subst here
      simpa using isAllowed
    · simpa [here] using valid name

/-- What calls have returned is what the texts mean, and what the cache holds, where it is not
`INT64_MIN`. -/
def Agreed (texts : String → Option (List UInt8) → Prop)
    (run : Noted (LazyState ParamWorld NcclParam) (NcclParam × Int)) : Prop :=
  ∀ entry ∈ run.notes, entry.1.Means texts entry.2 ∧
    (entry.2 ≠ NcclParam.uninitialized → run.state.shared.cache entry.1 = entry.2)

/-- A value that is cached stays. -/
theorem cache_kept {state after : LazyState ParamWorld NcclParam}
    {event : LazyEvent NcclParam Unit (String × Option (List UInt8))}
    (sound : LazySound paramCells (fun world => ∀ name, texts name (world.env name))
      (fun _ _ => False)
      (fun world param => world.cache param ≠ NcclParam.uninitialized ∧
        param.Means texts (world.cache param)) state)
    (isAllowed : event.Allowed fun change => texts change.1 change.2)
    (stepped : LazyStep paramCells state event after) {param : NcclParam} {value : Int}
    (cached : state.shared.cache param = value) (isValue : value ≠ NcclParam.uninitialized) :
    after.shared.cache param = value := by
  have isFull : state.shared.cache param ≠ NcclParam.uninitialized ∧
      param.Means texts (state.shared.cache param) := by
    rcases sound.settled param with blank | isFull | ⟨thread, fills⟩
    · have none : state.shared.cache param = NcclParam.uninitialized := of_decide_eq_true blank
      exact absurd (cached.symm.trans none) isValue
    · exact isFull
    · exact (sound.filling thread param fills).elim
  refine sound.keeps_while_full paramCells_fills isAllowed stepped isFull
    (fun world => world.cache param = value) ?_ ?_ cached
  · intro other _ shared done differ made
    obtain ⟨rfl, _⟩ := Prod.mk.inj (Option.some.inj made)
    exact (Function.update_of_ne (Ne.symm differ) _ _).trans cached
  · intro change shared _ changed
    obtain rfl := Option.some.inj changed
    exact cached

/-- Every run agrees. -/
theorem paramRuns_agreed {run : Noted (LazyState ParamWorld NcclParam) (NcclParam × Int)}
    (reached : (paramRuns texts).Reaches
      (fun _ event => event.Allowed fun change => texts change.1 change.2) run) :
    Agreed texts run := by
  have initially (world : ParamWorld)
      (start : (∀ name, texts name (world.env name)) ∧
        world.cache = fun _ => NcclParam.uninitialized) :
      (∀ name, texts name (world.env name)) ∧
        ∀ param, paramCells.blank world param = true :=
    ⟨start.1, fun param => decide_eq_true (congrFun start.2 param)⟩
  induction reached with
  | start first =>
    intro entry member
    rw [first.2] at member
    exact absurd member List.not_mem_nil
  | @next run after event before isAllowed stepped ih =>
    obtain ⟨next, within, rfl⟩ := Option.map_eq_some_iff.mp stepped
    have within := lazyStep_of_step within
    have earlier : (lazyRuns paramCells _).Reaches
        (fun _ event => event.Allowed fun change => texts change.1 change.2) run.state :=
      Noted.reaches before
    have sound := lazyRuns_sound paramCells_fills initially earlier
    have ready := lazyRuns_ready paramCells_fills initially earlier
    intro entry member
    rcases List.mem_append.mp member with old | new
    · refine ⟨(ih entry old).1, fun isValue => ?_⟩
      exact cache_kept sound isAllowed within ((ih entry old).2 isValue) isValue
    · cases within with
      | @finished thread param own returns =>
        have new : entry ∈ [(param, run.state.shared.cache param)] := by
          simpa [returnedValue, returns] using new
        obtain rfl := List.mem_singleton.mp new
        refine ⟨?_, fun _ => rfl⟩
        by_cases isValue : run.state.shared.cache param = NcclParam.uninitialized
        · rcases (ready thread param own (.inr returns)).1 with isFull | ⟨other, fills⟩ | inVain
          · exact absurd isValue isFull.1
          · exact (sound.filling other param fills).elim
          · exact isValue ▸ inVain
        · rcases sound.settled param with blank | isFull | ⟨other, fills⟩
          · exact absurd (of_decide_eq_true blank) isValue
          · exact isFull.2
          · exact (sound.filling other param fills).elim
      | _ => exact absurd new List.not_mem_nil

end

/-- However threads interleave and the environment changes, one thread at a time loads
parameters, every call returns what a text of its variable means, and calls that return
values other than `INT64_MIN` for one parameter return one value, which stays cached. -/
theorem params_agree (texts : String → Option (List UInt8) → Prop)
    {run : Noted (LazyState ParamWorld NcclParam) (NcclParam × Int)}
    (reached : (paramRuns texts).Reaches
      (fun _ event => event.Allowed fun change => texts change.1 change.2) run) :
    (∀ thread other, (run.state.stage thread).Inside → (run.state.stage other).Inside →
      thread = other) ∧
      ∀ entry ∈ run.notes, entry.1.Means texts entry.2 ∧
        (entry.2 ≠ NcclParam.uninitialized → run.state.shared.cache entry.1 = entry.2 ∧
          ∀ other ∈ run.notes, other.1 = entry.1 → other.2 ≠ NcclParam.uninitialized →
            other.2 = entry.2) := by
  have agreed := paramRuns_agreed reached
  refine ⟨fun thread other inside inside' => ?_, fun entry member => ?_⟩
  · have earlier : (lazyRuns paramCells _).Reaches
        (fun _ event => event.Allowed fun change => texts change.1 change.2) run.state :=
      Noted.reaches reached
    have sound := lazyRuns_sound paramCells_fills
      (fun world start => ⟨start.1, fun param => decide_eq_true (congrFun start.2 param)⟩) earlier
    exact sound.alone inside inside'
  · obtain ⟨means, cached⟩ := agreed entry member
    refine ⟨means, fun isValue => ⟨cached isValue, fun other member' same isValue' => ?_⟩⟩
    have cached' := (agreed other member').2 isValue'
    rw [same] at cached'
    exact cached'.symm.trans (cached isValue)

/-- `ncclParamIbSplitDataOnQps`. -/
def ncclParamIbSplitDataOnQps : NcclParam :=
  ⟨"NCCL_IB_SPLIT_DATA_ON_QPS", 0, by decide⟩

/-- A variable that is set to one and unset later. -/
def OneOrUnset (_ : String) (text : Option (List UInt8)) : Prop :=
  text = none ∨ text = some (ascii "0x1")

instance (name : String) (text : Option (List UInt8)) : Decidable (OneOrUnset name text) :=
  inferInstanceAs (Decidable (_ ∨ _))

/-- Two threads read one parameter; both find its cache blank, and the variable is unset
when one of them has loaded it. -/
def racingEvents : List (LazyEvent NcclParam Unit (String × Option (List UInt8))) :=
  [.call 0 ncclParamIbSplitDataOnQps, .call 1 ncclParamIbSplitDataOnQps, .acquire 1, .lookAgain 1,
    .fill 1 (), .disturb ("NCCL_IB_SPLIT_DATA_ON_QPS", none), .release 1, .acquire 0, .lookAgain 0,
    .release 0, .finish 0, .finish 1]

/-- Nothing is loaded, and every variable is set to one. -/
def unloaded : Noted (LazyState ParamWorld NcclParam) (NcclParam × Int) :=
  ⟨⟨⟨fun _ => some (ascii "0x1"), fun _ => NcclParam.uninitialized⟩, none, fun _ => .outside⟩, []⟩

/-- What the two threads leave. -/
def raced : Noted (LazyState ParamWorld NcclParam) (NcclParam × Int) :=
  ((paramRuns OneOrUnset).replay unloaded racingEvents).get (by decide +kernel)

theorem raced_reached : (paramRuns OneOrUnset).Reaches
    (fun _ event => event.Allowed fun change => OneOrUnset change.1 change.2) raced := by
  have start : (paramRuns OneOrUnset).Reaches
      (fun _ event => event.Allowed fun change => OneOrUnset change.1 change.2) unloaded :=
    .start ⟨⟨⟨fun _ => .inr rfl, rfl⟩, rfl, rfl⟩, rfl⟩
  exact start.replay racingEvents (by decide +kernel) (Option.some_get _).symm

theorem params_agree_raced :
    raced.notes = [(ncclParamIbSplitDataOnQps, 1), (ncclParamIbSplitDataOnQps, 1)] ∧
      raced.state.shared.cache ncclParamIbSplitDataOnQps = 1 := by
  have notes : raced.notes = [(ncclParamIbSplitDataOnQps, 1), (ncclParamIbSplitDataOnQps, 1)] := by
    decide +kernel
  refine ⟨notes, ?_⟩
  have member : (ncclParamIbSplitDataOnQps, 1) ∈ raced.notes := by simp [notes]
  exact (((params_agree OneOrUnset raced_reached).2 _ member).2 (by decide)).1

end NcclExts.Unet
