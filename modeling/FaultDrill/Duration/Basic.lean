import FaultDrill.Numeral.Layout

/-!
Lengths of time with a resolution of one nanosecond.

Owns:
- the type, whose bounds are part of every value;
- addition of seconds and nanoseconds with the ways in which it can fail;
- the short text of a length of time.

Does not own: the grammar in which people write one (`Duration.Grammar`).
-/

namespace FaultDrill

/-- The nanoseconds of one second. -/
def nanosecondsPerSecond : Nat := 1000000000

/-- Counts of seconds and of nanoseconds fit into 64 bits. -/
def wordLimit : Nat := 18446744073709551616

/-- A length of time. -/
structure Duration where
  seconds : Nat
  nanoseconds : Nat
  seconds_lt : seconds < wordLimit
  nanoseconds_lt : nanoseconds < nanosecondsPerSecond
  deriving DecidableEq, Repr

/-- Why a text is no length of time. -/
inductive DurationError where
  /-- The text holds nothing but white space. -/
  | empty
  /-- A term does not begin with a digit; the position is where the search for it began. -/
  | numberExpected (position : Nat)
  /-- A character has no place in a term. -/
  | invalidCharacter (position : Nat)
  /-- The letters after a number name no unit; no letters at all are the empty unit. -/
  | unknownUnit (unitText : String) (number : Nat)
  /-- A number leaves the 64-bit range or is no whole number of its finest unit. -/
  | outOfRange
  /-- A full second of nanoseconds carries into the largest count of seconds. -/
  | secondsOverflow
  deriving DecidableEq, Repr

namespace DurationError

/-- The text shown for an error. -/
def message : DurationError → String
  | .empty => "value was empty"
  | .numberExpected position => "expected number at " ++ Numeral.decimalText position
  | .invalidCharacter position => "invalid character at " ++ Numeral.decimalText position
  | .unknownUnit unitText number =>
    if unitText = "" then
      let number := Numeral.decimalText number
      "time unit needed, for example " ++ number ++ "sec or " ++ number ++ "ms"
    else
      "unknown time unit \"" ++ unitText ++
        "\", supported units: ns, us/µs, ms, sec, min, hours, days, weeks, months, years " ++
        "(and few variations)"
  | .outOfRange =>
    "number is too large or cannot be represented without a lack of precision " ++
      "(values below 1ns are not supported)"
  | .secondsOverflow => "overflow in Duration::new"

end DurationError

/-- A number that fits into 64 bits, as it stands. -/
def wordOf (number : Nat) : Except DurationError Nat :=
  if number < wordLimit then .ok number else .error .outOfRange

namespace Duration

/-- No time at all. -/
def zero : Duration := ⟨0, 0, by decide, by decide⟩

/-- The whole length in nanoseconds. -/
def total (duration : Duration) : Nat :=
  duration.seconds * nanosecondsPerSecond + duration.nanoseconds

/-- A length from its two counts; exactly one second of nanoseconds is carried. -/
def ofCounts (seconds nanoseconds : Nat) : Except DurationError Duration :=
  if nanos : nanoseconds < nanosecondsPerSecond then
    if secs : seconds < wordLimit then .ok ⟨seconds, nanoseconds, secs, nanos⟩
    else .error .outOfRange
  else if secs : seconds + 1 < wordLimit then .ok ⟨seconds + 1, 0, secs, by decide⟩
  else .error .secondsOverflow

/-- A length with some seconds and nanoseconds added. More than one second of nanoseconds is
carried before the sum is formed, exactly one second after it. -/
def add (duration : Duration) (seconds nanoseconds : Nat) : Except DurationError Duration := do
  let nanos ← wordOf (duration.nanoseconds + nanoseconds)
  if nanosecondsPerSecond < nanos then
    let seconds ← wordOf (seconds + nanos / nanosecondsPerSecond)
    ofCounts (← wordOf (duration.seconds + seconds)) (nanos % nanosecondsPerSecond)
  else
    ofCounts (← wordOf (duration.seconds + seconds)) nanos

/-- A whole part and a fraction counted in units of which `scale` make a whole. -/
private def fractional (whole fraction scale : Nat) : String :=
  Numeral.positional false
    (Numeral.Decimal.trimmed
      ⟨whole * Nat.pow 10 scale + fraction, -(scale : Int)⟩ scale)

/-- The text in the largest unit of seconds, milliseconds, microseconds and nanoseconds that
leaves a whole part, without trailing zeros. -/
def text (duration : Duration) : String :=
  let nanos := duration.nanoseconds
  if 0 < duration.seconds then fractional duration.seconds nanos 9 ++ "s"
  else if 1000000 ≤ nanos then fractional (nanos / 1000000) (nanos % 1000000) 6 ++ "ms"
  else if 1000 ≤ nanos then fractional (nanos / 1000) (nanos % 1000) 3 ++ "µs"
  else Numeral.decimalText nanos ++ "ns"

end Duration

example : (Duration.mk 1 500000000 (by decide) (by decide)).text = "1.5s" := by decide +kernel

end FaultDrill
