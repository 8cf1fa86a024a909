import FaultDrill.Numeral.Layout
import FaultDrill.Numeral.Literal

/-!
Probabilities, written as percentages and held as 32-bit floating-point values.

Owns:
- the grammar of a percentage: a decimal numeral, an optional word, a percent sign;
- the value of a percentage: the numeral rounded to a value, then divided by one hundred;
- the text of a probability as a percentage;
- coin flips, each decided by a 32-bit word of randomness.

Does not own: where random words come from.
-/

namespace FaultDrill

open Numeral (BinaryValue binary32)

/-- A probability; nothing keeps it between zero and one. -/
structure Probability where
  value : BinaryValue
  deriving DecidableEq, Repr

namespace Percentage

/-- The characters of a word after the numeral. -/
def isWordChar (char : Char) : Bool :=
  char.isAlphanum || char == '_'

/-- An optional decimal point with the digits directly after it, and what follows them. -/
def splitFraction : List Char → List Char × List Char
  | '.' :: rest => ('.' :: rest.takeWhile Char.isDigit, rest.dropWhile Char.isDigit)
  | rest => ([], rest)

/-- The numeral of a percentage: one or more digits, perhaps a point and more digits. A word that
may be empty and a percent sign that ends the text must follow. -/
def numeral? (chars : List Char) : Option (List Char) :=
  let whole := chars.takeWhile Char.isDigit
  let (fraction, rest) := splitFraction (chars.dropWhile Char.isDigit)
  if whole ≠ [] ∧ rest.dropWhile isWordChar = ['%'] then some (whole ++ fraction) else none

end Percentage

/-- Random words that are still to come, first to last. -/
abbrev WordSource := Nat → UInt32

/-- The next random word. -/
def WordSource.draw : StateM WordSource UInt32 := fun source =>
  (source 0, fun index => source (index + 1))

namespace Probability

/-- The quotient of a 32-bit value by one hundred. -/
def hundredth : BinaryValue → BinaryValue
  | .finite negative units => binary32.nearest negative units 100
  | value => value

/-- The product of a 32-bit value and one hundred. -/
def hundredfold : BinaryValue → BinaryValue
  | .finite negative units => binary32.nearest negative (units * 100) 1
  | value => value

/-- The probability that a text spells. -/
def ofText? (text : String) : Option Probability := do
  let numeral ← Percentage.numeral? text.toList
  let percents ← binary32.ofNumeral? numeral
  some ⟨hundredth percents⟩

/-- Probabilities are written without exponent; of two shortest forms the greater is taken, and
whole numbers have no point. -/
def layout : Numeral.RealLayout := ⟨.up, none, false⟩

/-- The number between nought and one, as text. -/
def valueText (probability : Probability) : String :=
  layout.render binary32 probability.value

/-- The percentage, as text. -/
def text (probability : Probability) : String :=
  layout.render binary32 (hundredfold probability.value) ++ "%"

/-- The number drawn from a random word, in units of `2 ^ -24`: its upper 24 bits. -/
def drawn (word : UInt32) : Nat := word.toNat / 256

/-- Whether the event happens on a random word: the drawn number is below the probability. -/
def happens (probability : Probability) (word : UInt32) : Bool :=
  match probability.value with
  | .notANumber => false
  | .infinite negative => !negative
  | .finite negative units =>
    !negative && drawn word * Nat.pow 2 (binary32.fractionBits - 24) < units

/-- One flip, on the next random word. -/
def flip (probability : Probability) : StateM WordSource Bool := do
  let word ← WordSource.draw
  return probability.happens word

/-- Some flips, one after the other. -/
def flips (probability : Probability) : Nat → StateM WordSource (List Bool)
  | 0 => return []
  | count + 1 => do
    let hit ← probability.flip
    let later ← probability.flips count
    return hit :: later

end Probability

example : Percentage.numeral? "5.5_x9%".toList = some ['5', '.', '5'] := by decide

example : Percentage.numeral? "5.5.5%".toList = none := by decide

end FaultDrill
