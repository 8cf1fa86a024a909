import FaultDrill.Document.Mismatch
import FaultDrill.Numeral.Literal
import FaultDrill.Yaml.Node

/-!
What scalars mean.

Owns:
- the meaning of a text without tag: nothing, a truth value, a number or a text;
- the meaning of a scalar with its style and tag;
- counts.
-/

namespace FaultDrill.Yaml

namespace Scalar

/-- The spellings of nothing. -/
def isNothing (text : String) : Bool :=
  text == "" || text == "~" || text == "null" || text == "Null" || text == "NULL"

/-- The truth value that a text spells. -/
def boolean? (text : String) : Option Bool :=
  if text == "true" || text == "True" || text == "TRUE" then some true
  else if text == "false" || text == "False" || text == "FALSE" then some false
  else none

/-- Whether a text consists of digits but begins with a nought too many, a sign aside. Such a text
is no number. -/
def hasSurplusNought (chars : List Char) : Bool :=
  let digits :=
    match chars with
    | '+' :: rest | '-' :: rest => rest
    | _ => chars
  1 < digits.length && digits.head? == some '0' && digits.all Char.isDigit

/-- A whole number after its sign, in the base that its beginning tells. -/
def magnitude? : List Char → Option Nat
  | '0' :: 'x' :: digits => Numeral.whole? 16 digits
  | '0' :: 'o' :: digits => Numeral.whole? 8 digits
  | '0' :: 'b' :: digits => Numeral.whole? 2 digits
  | digits => if hasSurplusNought digits then none else Numeral.whole? 10 digits

/-- The whole number that a text spells, of any size. -/
def integer? : List Char → Option Int
  | '+' :: digits => (magnitude? digits).map Int.ofNat
  | '-' :: digits => (magnitude? digits).map fun value => -Int.ofNat value
  | digits => (magnitude? digits).map Int.ofNat

/-- A whole number as what a reader finds, if it fits into 128 bits. -/
def foundInteger? (value : Int) : Option FoundValue :=
  if -(Nat.pow 2 63) ≤ value ∧ value < Nat.pow 2 64 then some (.integer value)
  else if -(Nat.pow 2 127) ≤ value ∧ value < Nat.pow 2 128 then some (.wideInteger value)
  else none

/-- The finite value of a numeral after its sign. -/
def finite? (negative : Bool) (chars : List Char) : Option Numeral.BinaryValue :=
  match Numeral.decimal? chars with
  | some (digits, exponent) =>
    match Numeral.binary64.ofDecimal negative digits exponent with
    | .finite negative units => some (.finite negative units)
    | _ => none
  | none => none

/-- Whether a text spells infinity. -/
def isInfinity (text : String) : Bool := text == ".inf" || text == ".Inf" || text == ".INF"

/-- The floating-point value that a text spells. -/
def real? (chars : List Char) : Option Numeral.BinaryValue :=
  let text := String.ofList chars
  if text == ".nan" || text == ".NaN" || text == ".NAN" then some .notANumber
  else
    match chars with
    | '+' :: rest =>
      if isInfinity (String.ofList rest) then some (.infinite false) else finite? false rest
    | '-' :: rest =>
      if isInfinity (String.ofList rest) then some (.infinite true) else finite? true rest
    | _ => if isInfinity text then some (.infinite false) else finite? false chars

/-- The meaning of a text without tag. -/
def meaning (chars : List Char) : FoundValue :=
  let text := String.ofList chars
  if isNothing text then .nothing
  else
    match boolean? text, (integer? chars).bind foundInteger? with
    | some value, _ => .boolean value
    | none, some value => value
    | none, none =>
      if hasSurplusNought chars then .text text
      else
        match real? chars with
        | some value => .real value
        | none => .text text

/-- A tag for a kind of values of YAML's own. -/
def coreTagFor (name : String) : Tag := coreTag ++ Text.Utf8.encode name.toList

/-- What a reader finds that finds a scalar, or the promise of its tag that its text breaks. -/
def found (tag : Option Tag) (style : ScalarStyle) (chars : List Char) :
    Except Mismatch FoundValue :=
  let text := String.ofList chars
  let promised (promise : String) (value : Option FoundValue) :=
    match value with
    | some value => .ok value
    | none => .error (.wrongTag text promise)
  let free : FoundValue := if style = .plain then meaning chars else .text text
  match tag with
  | none => .ok free
  | some tag =>
    if tag = coreTagFor "bool" then promised "a boolean" ((boolean? text).map .boolean)
    else if tag = coreTagFor "int" then
      promised "an integer" ((integer? chars).bind foundInteger?)
    else if tag = coreTagFor "float" then promised "a float" ((real? chars).map .real)
    else if tag = coreTagFor "null" then
      promised "null" (if text ≠ "" && isNothing text then some .nothing else none)
    else if tag.head? = some 0x21 then .ok free
    else .ok (.text text)

/-- Whether a scalar may be a count: a plain one, or a literal one that is tagged as a whole
number. -/
def mayBeCount (tag : Option Tag) : ScalarStyle → Bool
  | .plain => true
  | .literal => tag == some (coreTagFor "int")
  | .other => false

/-- The 64-bit number of a scalar that may be a count. -/
def word? (chars : List Char) : Option Int :=
  match chars with
  | '-' :: _ => none
  | _ =>
    match integer? chars with
    | some value => if value < Nat.pow 2 64 then some value else none
    | none => none

end Scalar

end FaultDrill.Yaml
