import NcclExts.Ucommd.Monitor

/-!
# The sampling interval of the monitor

The monitor waits on a timer whose interval comes from the command line in nanoseconds.
It splits the interval into seconds and nanoseconds for the timer, and puts the two
together again to count how many ticks make ten seconds, which is how often it looks for
processes. Two intervals break the chain: zero, which divides by zero, and anything above
ten seconds, of which none fits and every tick is a division by zero.
-/

namespace NcclExts.Ucommd

open NcclExts.Foundation

/-! ## The command line -/

/-- `Options`, as far as the timer reads it. -/
structure Options where
  bwPrint : Bool
  intervalNs : Int64
deriving DecidableEq, Repr

/-- The options before the arguments are parsed. -/
def Options.default : Options := { bwPrint := false, intervalNs := -1 }

/-- What `getopt_long` finds on the command line. -/
inductive Opt where
  | pid (optarg : Bytes)
  | showBw
  | sampleInterval (optarg : Bytes)
  | help
  | unknown
deriving DecidableEq, Repr

/-- `atoll`: no number is zero, and one out of range is the nearest `long long`. -/
def atoll (text : Bytes) : Int64 :=
  Int64.ofInt (max (-2 ^ 63) (min (2 ^ 63 - 1) ((scanInt text).getD 0)))

/-- One turn of the loop of `Options::parseArgs`; `none` is the usage. -/
def Options.parseArg (opts : Options) : Opt → Option Options
  | .pid _ => some opts
  | .showBw => some { opts with bwPrint := true }
  | .sampleInterval optarg => some { opts with intervalNs := atoll optarg }
  | .help | .unknown => none

/-- `Options::parseArgs`. -/
def parseArgs (args : List Opt) : Option Options := args.foldlM Options.parseArg .default

/-- Every interval can be given, as its decimal number. -/
theorem atoll_signedDecimal (interval : Int64) :
    atoll (signedDecimal interval.toInt) = interval := by
  have least := interval.le_toInt
  have most := interval.toInt_lt
  have kept : max (-2 ^ 63) (min (2 ^ 63 - 1) interval.toInt) = interval.toInt := by omega
  rw [atoll, scanInt_signedDecimal, Option.getD_some, kept, Int64.ofInt_toInt]

/-! ## The timer -/

/-- `it_interval` of `struct itimerspec`. -/
structure Interval where
  tvSec : Int64
  tvNsec : Int64
deriving DecidableEq, Repr

/-- The interval that `Monitor::run` gives the timer. -/
def Options.interval (opts : Options) : Interval :=
  if opts.intervalNs < 0 then
    { tvSec := if opts.bwPrint then 0 else 1
      tvNsec := if opts.bwPrint then 10 * 1000 * 1000 else 0 }
  else
    { tvSec := opts.intervalNs / 1000000000, tvNsec := opts.intervalNs % 1000000000 }

/-- Division of `long long`; `none` when it divides by zero. -/
def divide (dividend divisor : Int64) : Option Int64 :=
  if divisor = 0 then none else some (dividend / divisor)

/-- The remainder of a `size_t`; `none` when it divides by zero. -/
def modulo (dividend divisor : UInt64) : Option UInt64 :=
  if divisor = 0 then none else some (dividend % divisor)

/-- `check_pid_interval`: the ticks in ten seconds. -/
def Interval.checkPidInterval (interval : Interval) : Option Int64 :=
  divide (10 * 1000000000) (interval.tvSec * 1000000000 + interval.tvNsec)

/-- The start of a tick: the ticks so far, and whether processes are looked for. -/
def tick (checkPidInterval : Int64) (t : UInt64) : Option (UInt64 × Bool) :=
  (modulo (t + 1) checkPidInterval.toUInt64).map fun rest => (t + 1, rest = 0)

/-- The ticks of the loop of `Monitor::run`, after so many rounds. -/
def ticks (checkPidInterval : Int64) : Nat → Option UInt64
  | 0 => some 0
  | round + 1 => (ticks checkPidInterval round).bind fun t =>
      (tick checkPidInterval t).map Prod.fst

/-- An interval that a timer accepts and that lets it expire again. -/
structure Interval.Valid (interval : Interval) : Prop where
  seconds : 0 ≤ interval.tvSec
  nanoseconds : 0 ≤ interval.tvNsec ∧ interval.tvNsec ≤ 999999999
  running : ¬ (interval.tvSec = 0 ∧ interval.tvNsec = 0)

/-- The monitor runs for as long as it likes: its timer is valid, and no tick divides by
zero. -/
def Options.Ticking (opts : Options) : Prop :=
  opts.interval.Valid ∧ ∃ period, opts.interval.checkPidInterval = some period ∧ 1 ≤ period ∧
    ∀ rounds, (ticks period rounds).isSome

/-! ## Through the chain -/

/-- The parts of an interval that is given. -/
theorem Options.interval_parts {opts : Options} (given : 0 ≤ opts.intervalNs.toInt) :
    opts.interval.tvSec.toInt = opts.intervalNs.toInt / 1000000000 ∧
      opts.interval.tvNsec.toInt = opts.intervalNs.toInt % 1000000000 := by
  have most := opts.intervalNs.toInt_lt
  have unit : (1000000000 : Int64).toInt = 1000000000 := rfl
  have notBelow : ¬ opts.intervalNs < 0 := by
    rw [Int64.lt_iff_toInt_lt, show (0 : Int64).toInt = 0 from rfl]
    omega
  have quotient : opts.intervalNs.toInt.tdiv 1000000000 = opts.intervalNs.toInt / 1000000000 :=
    Int.tdiv_eq_ediv_of_nonneg given
  have rest : opts.intervalNs.toInt.tmod 1000000000 = opts.intervalNs.toInt % 1000000000 :=
    Int.tmod_eq_emod_of_nonneg given
  rw [interval, if_neg notBelow, Int64.toInt_div, Int64.toInt_mod, unit, quotient, rest,
    Int.bmod_def]
  exact ⟨by omega, rfl⟩

/-- Put together, they are the interval. -/
theorem Options.interval_joined {opts : Options} (given : 0 ≤ opts.intervalNs.toInt) :
    (opts.interval.tvSec * 1000000000 + opts.interval.tvNsec).toInt = opts.intervalNs.toInt := by
  obtain ⟨seconds, nanoseconds⟩ := Options.interval_parts given
  have most := opts.intervalNs.toInt_lt
  rw [Int64.toInt_add, Int64.toInt_mul, seconds, nanoseconds,
    show (1000000000 : Int64).toInt = 1000000000 from rfl, Int.bmod_def, Int.bmod_def]
  omega

/-- The intervals without an option. -/
theorem Options.interval_default {opts : Options} (absent : opts.intervalNs.toInt < 0) :
    opts.interval = if opts.bwPrint then ⟨0, 10000000⟩ else ⟨1, 0⟩ := by
  have below : opts.intervalNs < 0 := by
    rw [Int64.lt_iff_toInt_lt]
    exact absent
  rw [interval, if_pos below]
  cases opts.bwPrint <;> rfl

/-- A period that is not zero never divides by zero. -/
theorem ticks_isSome {period : Int64} (nonzero : period ≠ 0) (rounds : Nat) :
    (ticks period rounds).isSome := by
  have word : period.toUInt64 ≠ 0 := by
    intro zero
    rw [← Int64.toInt64_toUInt64 period, zero] at nonzero
    exact nonzero rfl
  induction rounds with
  | zero => rfl
  | succ rounds ih =>
    obtain ⟨t, isT⟩ := Option.isSome_iff_exists.mp ih
    rw [ticks, isT, Option.bind_some, tick, modulo, if_neg word]
    rfl

/-- The period is the quotient, when there is something to divide by. -/
theorem Interval.checkPidInterval_eq {interval : Interval} {period : Int64} :
    interval.checkPidInterval = some period ↔
      interval.tvSec * 1000000000 + interval.tvNsec ≠ 0 ∧
        period = 10 * 1000000000 / (interval.tvSec * 1000000000 + interval.tvNsec) := by
  rw [checkPidInterval, divide]
  split
  next zero => simp [zero]
  next nonzero => simp [nonzero, eq_comm]

/-- The monitor keeps ticking exactly with the intervals it has by itself, and with given
ones above zero and up to ten seconds. -/
theorem ticking_iff (opts : Options) :
    opts.Ticking ↔
      opts.intervalNs < 0 ∨ (0 < opts.intervalNs ∧ opts.intervalNs ≤ 10000000000) := by
  rw [Int64.lt_iff_toInt_lt, Int64.lt_iff_toInt_lt, Int64.le_iff_toInt_le,
    show (0 : Int64).toInt = 0 from rfl, show (10000000000 : Int64).toInt = 10000000000 from rfl]
  have most := opts.intervalNs.toInt_lt
  by_cases absent : opts.intervalNs.toInt < 0
  · have own := Options.interval_default absent
    refine ⟨fun _ => Or.inl absent, fun _ => ?_⟩
    cases shown : opts.bwPrint with
    | false =>
      rw [shown, if_neg Bool.false_ne_true] at own
      refine ⟨by rw [own]; exact ⟨by decide, by decide, by decide⟩, 10, ?_, by decide,
        ticks_isSome (by decide)⟩
      rw [own]
      decide
    | true =>
      rw [shown, if_pos rfl] at own
      refine ⟨by rw [own]; exact ⟨by decide, by decide, by decide⟩, 1000, ?_, by decide,
        ticks_isSome (by decide)⟩
      rw [own]
      decide
  · have given : 0 ≤ opts.intervalNs.toInt := by omega
    obtain ⟨seconds, nanoseconds⟩ := Options.interval_parts given
    have joined := Options.interval_joined given
    -- the quotient, with the interval as it was given
    have quotient : ∀ {period : Int64}, opts.interval.checkPidInterval = some period →
        opts.intervalNs.toInt ≠ 0 ∧ period.toInt = 10000000000 / opts.intervalNs.toInt := by
      intro period isPeriod
      obtain ⟨nonzero, rfl⟩ := Interval.checkPidInterval_eq.mp isPeriod
      rw [ne_eq, ← Int64.toInt_inj, joined] at nonzero
      have bound : 10000000000 / opts.intervalNs.toInt ≤ 10000000000 :=
        Int.ediv_le_self _ (by decide)
      have nonneg : 0 ≤ 10000000000 / opts.intervalNs.toInt :=
        Int.ediv_nonneg (by decide) given
      rw [Int64.toInt_div, joined, show (10 * 1000000000 : Int64).toInt = 10000000000 from rfl,
        Int.tdiv_eq_ediv_of_nonneg (by decide), Int.bmod_def]
      exact ⟨nonzero, by omega⟩
    constructor
    · rintro ⟨-, period, isPeriod, positive, -⟩
      obtain ⟨nonzero, isQuotient⟩ := quotient isPeriod
      rw [Int64.le_iff_toInt_le, show (1 : Int64).toInt = 1 from rfl, isQuotient,
        Int.le_ediv_iff_mul_le (by omega)] at positive
      exact Or.inr ⟨by omega, by omega⟩
    · rintro (below | ⟨above, small⟩)
      · exact absurd below absent
      have nonzero : opts.interval.tvSec * 1000000000 + opts.interval.tvNsec ≠ 0 := by
        rw [ne_eq, ← Int64.toInt_inj, joined]
        exact Int.ne_of_gt above
      have isPeriod := Interval.checkPidInterval_eq.mpr ⟨nonzero, rfl⟩
      have positive : (1 : Int64) ≤ 10 * 1000000000 /
          (opts.interval.tvSec * 1000000000 + opts.interval.tvNsec) := by
        rw [Int64.le_iff_toInt_le, (quotient isPeriod).2, show (1 : Int64).toInt = 1 from rfl,
          Int.le_ediv_iff_mul_le above]
        omega
      refine ⟨⟨?_, ⟨?_, ?_⟩, ?_⟩, _, isPeriod, positive, ticks_isSome ?_⟩
      · rw [Int64.le_iff_toInt_le, seconds]
        exact Int.ediv_nonneg given (by decide)
      · rw [Int64.le_iff_toInt_le, nanoseconds]
        exact Int.emod_nonneg _ (by decide)
      · rw [Int64.le_iff_toInt_le, nanoseconds, show (999999999 : Int64).toInt = 999999999 from rfl]
        omega
      · rintro ⟨noSeconds, noNanoseconds⟩
        rw [noSeconds, noNanoseconds] at nonzero
        exact nonzero (by decide)
      · rintro zero
        rw [zero] at positive
        exact absurd positive (by decide)

/-- An argument that is no number is the interval zero, and one of twenty seconds is
longer than the check's ten: with the first the count of ticks divides by zero and the
timer has no interval, with the second every tick does. -/
theorem ticking_stops :
    (parseArgs [.sampleInterval (ascii "fast")]).map (fun opts =>
      (opts.interval, opts.interval.checkPidInterval)) = some (⟨0, 0⟩, none) ∧
    (parseArgs [.sampleInterval (ascii "20000000000")]).map (fun opts =>
      (opts.interval.checkPidInterval, opts.interval.checkPidInterval.bind (ticks · 1))) =
        some (some 0, none) ∧
    ¬ ∀ args opts, parseArgs args = some opts → opts.Ticking := by
  refine ⟨by decide +kernel, by decide +kernel, fun all => ?_⟩
  obtain ⟨-, period, isPeriod, -⟩ :=
    all [.sampleInterval (ascii "fast")] ⟨false, 0⟩ (by decide +kernel)
  have none : (Options.mk false 0).interval.checkPidInterval = none := by decide
  rw [none] at isPeriod
  cases isPeriod

end NcclExts.Ucommd
