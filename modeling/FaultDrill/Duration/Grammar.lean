import FaultDrill.Duration.Basic
import FaultDrill.Text.Whitespace

/-!
How people write lengths of time: terms such as `1h 30m` or `2.5 s`, each a number and a unit.

Owns:
- the units with their spellings;
- the value of one term, with the fraction rule that every unit has a finest part of which a term
  is a whole number;
- the reader, one character at a time, as a fold whose state says where in a term it stands.

Does not own: addition and its limits (`Duration.Basic`).

White space may stand anywhere between the characters of a number, between a number and its unit
and between terms, but not inside a unit. Positions count bytes of the text in UTF-8.
-/

namespace FaultDrill

/-- The units of time. -/
inductive TimeUnit where
  | nanosecond | microsecond | millisecond | second | minute | hour | day | week | month | year
  deriving DecidableEq, Repr

namespace TimeUnit

/-- The unit that a spelling names. -/
def ofText? : String → Option TimeUnit
  | "nanos" | "nsec" | "ns" => some .nanosecond
  | "usec" | "us" | "µs" => some .microsecond
  | "millis" | "msec" | "ms" => some .millisecond
  | "seconds" | "second" | "secs" | "sec" | "s" => some .second
  | "minutes" | "minute" | "min" | "mins" | "m" => some .minute
  | "hours" | "hour" | "hr" | "hrs" | "h" => some .hour
  | "days" | "day" | "d" => some .day
  | "weeks" | "week" | "wk" | "wks" | "w" => some .week
  | "months" | "month" | "M" => some .month
  | "years" | "year" | "yr" | "yrs" | "y" => some .year
  | _ => none

/-- A unit below the second counts nanoseconds, any other counts seconds. -/
inductive Measure where
  | nanoseconds (count : Nat)
  | seconds (count : Nat)
  deriving DecidableEq, Repr

/-- How much one of the unit is. A month is 30.44 days, a year 365.25. -/
def measure : TimeUnit → Measure
  | .nanosecond => .nanoseconds 1
  | .microsecond => .nanoseconds 1000
  | .millisecond => .nanoseconds 1000000
  | .second => .seconds 1
  | .minute => .seconds 60
  | .hour => .seconds 3600
  | .day => .seconds 86400
  | .week => .seconds 604800
  | .month => .seconds 2630016
  | .year => .seconds 31557600

/-- What a fraction of the unit is counted in: nanoseconds up to the minute, seconds above. A
nanosecond has no parts. -/
def fractionMeasure? : TimeUnit → Option Measure
  | .nanosecond => none
  | .second => some (.nanoseconds 1000000000)
  | .minute => some (.nanoseconds 60000000000)
  | unit => some unit.measure

end TimeUnit

/-- The digits after a decimal point: `numerator / denominator`, the denominator a power of
ten. -/
structure DecimalFraction where
  numerator : Nat
  denominator : Nat
  deriving DecidableEq, Repr

namespace Duration

/-- A length with a whole number of some measure added. -/
def addMeasure (duration : Duration) (number : Nat) :
    TimeUnit.Measure → Except DurationError Duration
  | .nanoseconds count => do duration.add 0 (← wordOf (number * count))
  | .seconds count => do duration.add (← wordOf (number * count)) 0

/-- A length with a fraction of some measure added; the fraction must leave no remainder. -/
def addFraction (duration : Duration) (fraction : DecimalFraction) :
    TimeUnit.Measure → Except DurationError Duration
  | .nanoseconds count => do
    let product ← wordOf (fraction.numerator * count)
    if product % fraction.denominator = 0 then duration.add 0 (product / fraction.denominator)
    else .error .outOfRange
  | .seconds count => do
    let product ← wordOf (fraction.numerator * count)
    if product % fraction.denominator = 0 then duration.add (product / fraction.denominator) 0
    else .error .outOfRange

/-- A length with one written term added. -/
def addTerm (duration : Duration) (number : Nat) (fraction : Option DecimalFraction)
    (unitText : String) : Except DurationError Duration :=
  match TimeUnit.ofText? unitText with
  | none => .error (.unknownUnit unitText number)
  | some unit => do
    let whole ← duration.addMeasure number unit.measure
    match fraction with
    | none => .ok whole
    | some fraction =>
      match unit.fractionMeasure? with
      | none => .error .outOfRange
      | some measure => whole.addFraction fraction measure

/-! ## Reader -/

/-- Where in a term the reader stands. -/
inductive Position where
  /-- Before a term; `start` is where the search for its first digit began. -/
  | expecting (start : Nat)
  /-- Inside a whole number. -/
  | number (value : Nat)
  /-- After a decimal point; an unusable character is blamed on `blame`. -/
  | fraction (value : Nat) (digits : DecimalFraction) (blame : Nat)
  /-- Inside a unit, with its letters in reverse. -/
  | unit (value : Nat) (fraction : Option DecimalFraction) (letters : List Char)
  deriving DecidableEq, Repr

/-- The reader's state: the sum of the finished terms, whether there was a term yet, the place in
the current one, and the offset of the next character. -/
structure ReaderState where
  sum : Duration
  begun : Bool
  position : Position
  offset : Nat
  deriving DecidableEq, Repr

/-- The state before the first character. -/
def ReaderState.initial : ReaderState := ⟨zero, false, .expecting 0, 0⟩

/-- The letters that units are spelled with. -/
def isUnitLetter (char : Char) : Bool :=
  char.isAlpha || char == 'µ'

/-- The value of a decimal digit. -/
def digitValue (char : Char) : Nat := char.toNat - '0'.toNat

/-- A number with one more digit. -/
def appendDigit (value : Nat) (char : Char) : Except DurationError Nat :=
  wordOf (value * 10 + digitValue char)

/-- The sum after the term that ends here. -/
def finishTerm (state : ReaderState) (value : Nat) (fraction : Option DecimalFraction)
    (letters : List Char) : Except DurationError Duration :=
  state.sum.addTerm value fraction (String.ofList letters.reverse)

/-- One character. -/
def ReaderState.step (state : ReaderState) (char : Char) : Except DurationError ReaderState :=
  let next := state.offset + char.utf8Size
  match state.position with
  | .expecting start =>
    if char.isDigit then
      .ok { state with begun := true, position := .number (digitValue char), offset := next }
    else if Text.isWhitespace char then .ok { state with offset := next }
    else .error (.numberExpected start)
  | .number value =>
    if char.isDigit then do
      .ok { state with position := .number (← appendDigit value char), offset := next }
    else if Text.isWhitespace char then .ok { state with offset := next }
    else if isUnitLetter char then
      .ok { state with position := .unit value none [char], offset := next }
    else if char = '.' then
      .ok { state with position := .fraction value ⟨0, 1⟩ state.offset, offset := next }
    else .error (.invalidCharacter state.offset)
  | .fraction value digits blame =>
    if char.isDigit then do
      let denominator ← wordOf (digits.denominator * 10)
      let numerator ← appendDigit digits.numerator char
      .ok { state with position := .fraction value ⟨numerator, denominator⟩ next, offset := next }
    else if Text.isWhitespace char then
      .ok { state with position := .fraction value digits next, offset := next }
    else if isUnitLetter char ∧ digits.denominator ≠ 1 then
      .ok { state with position := .unit value (some digits) [char], offset := next }
    else .error (.invalidCharacter blame)
  | .unit value fraction letters =>
    if char.isDigit then do
      .ok { state with
        sum := ← finishTerm state value fraction letters
        position := .number (digitValue char)
        offset := next }
    else if Text.isWhitespace char then do
      .ok { state with
        sum := ← finishTerm state value fraction letters
        position := .expecting next
        offset := next }
    else if isUnitLetter char then
      .ok { state with position := .unit value fraction (char :: letters), offset := next }
    else .error (.invalidCharacter state.offset)

/-- The sum at the end of the text. -/
def ReaderState.finish (state : ReaderState) : Except DurationError Duration :=
  match state.position with
  | .expecting _ => if state.begun then .ok state.sum else .error .empty
  | .number value => finishTerm state value none []
  | .fraction value digits blame =>
    if digits.denominator = 1 then .error (.invalidCharacter blame)
    else finishTerm state value (some digits) []
  | .unit value fraction letters => finishTerm state value fraction letters

/-- The length of time that a list of characters spells. -/
def ofChars (chars : List Char) : Except DurationError Duration := do
  (← chars.foldlM ReaderState.step ReaderState.initial).finish

/-- The length of time that a text spells. -/
def ofText (text : String) : Except DurationError Duration :=
  ofChars text.toList

end Duration

end FaultDrill
