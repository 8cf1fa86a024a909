import FaultDrill.Numeral.Literal
import FaultDrill.Toml.Reader

/-!
Numbers, dates and times of TOML.

Owns: their grammar, and the values of numbers.

A moment is a date, a time of day, or both. Its parts are checked but not kept.
-/

namespace FaultDrill.Toml.Reader

/-! ## Moments -/

/-- Takes a number of exactly `count` digits. -/
def digits (count : Nat) : Reader Nat := do
  let digits := (← rest).take count
  require (digits.length = count && digits.all Char.isDigit)
  skip count
  return Numeral.decimalValue digits

/-- The days of a month. -/
def daysOf (year month : Nat) : Nat :=
  if month = 2 then
    if year % 4 = 0 ∧ (year % 100 ≠ 0 ∨ year % 400 = 0) then 29 else 28
  else if month = 4 ∨ month = 6 ∨ month = 9 ∨ month = 11 then 30
  else 31

/-- Takes a date. -/
def date : Reader Unit := do
  let year ← digits 4
  char '-'
  let month ← digits 2
  require (1 ≤ month && month ≤ 12)
  char '-'
  let day ← digits 2
  require (1 ≤ day && day ≤ daysOf year month)

/-- Takes a time of day, with a leap second at most. -/
def time : Reader Unit := do
  require ((← digits 2) ≤ 23)
  char ':'
  require ((← digits 2) ≤ 59)
  char ':'
  require ((← digits 2) ≤ 60)
  if ← tryTake ['.'] then
    let fraction ← takeWhile Char.isDigit
    require (!fraction.isEmpty)

/-- Takes a distance from universal time. -/
def offset : Reader Unit := do
  match ← one fun _ => true with
  | 'Z' | 'z' => return ()
  | '+' | '-' =>
    require ((← digits 2) ≤ 23)
    char ':'
    require ((← digits 2) ≤ 59)
  | _ => failure

/-- Takes what a reader reads, or nothing. -/
def optional (reader : Reader Unit) : Reader Unit := reader <|> return ()

/-- Takes a moment. -/
def moment : Reader Unit :=
  (do
    date
    optional do
      let _ ← one fun char => char == 'T' || char == 't' || char == ' '
      time
      optional offset) <|> time

/-! ## Numbers -/

/-- Takes one or more digits of a class, between which an underscore may stand; `steps` bounds
their number. -/
def groupedDigits (class' : Char → Bool) : Nat → Reader (List Char)
  | 0 => failure
  | steps + 1 => do
    let digit ← one class'
    let rest ← rest
    match rest with
    | next :: afterNext =>
      if class' next then return digit :: (← groupedDigits class' steps)
      else if next = '_' ∧ afterNext.head?.any class' then
        skip 1
        return digit :: (← groupedDigits class' steps)
      else return [digit]
    | [] => return [digit]

/-- Takes digits up to the end of their run. -/
def allDigits (class' : Char → Bool) : Reader (List Char) := do
  groupedDigits class' (← rest).length

/-- Takes a sign: whether it is a minus. -/
def sign : Reader Bool := do
  if ← tryTake ['-'] then return true
  else
    let _ ← tryTake ['+']
    return false

/-- Takes decimal digits; a nought stands alone. -/
def wholeDigits : Reader (List Char) := do
  if ← tryTake ['0'] then return ['0'] else allDigits Char.isDigit

/-- Takes an exponent. -/
def exponent : Reader Int := do
  let _ ← one fun char => char == 'e' || char == 'E'
  let negative ← sign
  let value := Numeral.decimalValue (← allDigits Char.isDigit)
  return if negative then -value else value

/-- The value of a numeral; one that is too large is refused unless it is negative. -/
def realOf (negative : Bool) (digits : List Char) (exponent : Int) :
    Reader Numeral.BinaryValue := do
  let value := Numeral.binary64.ofDecimal negative (Numeral.decimalValue digits) exponent
  require (value != .infinite false)
  return value

/-- Takes the name of infinity or of no number, after a sign. -/
def special (negative : Bool) : Reader Numeral.BinaryValue := do
  if ← tryTake ['i', 'n', 'f'] then return .infinite negative
  else if ← tryTake ['n', 'a', 'n'] then return .notANumber
  else failure

/-- Takes a floating-point number: with a fraction, an exponent or both, or a special name. -/
def real : Reader Numeral.BinaryValue := do
  let negative ← sign
  (do
    let whole ← wholeDigits
    if ← tryTake ['.'] then
      let fraction ← allDigits Char.isDigit
      let exponent ← exponent <|> return 0
      realOf negative (whole ++ fraction) (exponent - fraction.length)
    else realOf negative whole (← exponent)) <|> special negative

/-- The bounds of whole numbers. -/
def integerInRange (value : Int) : Reader Int := do
  require (-(Nat.pow 2 63) ≤ value && value < Nat.pow 2 63)
  return value

/-- Whether a character is a digit of a base. -/
def isDigitOf (base : Nat) (char : Char) : Bool :=
  (Numeral.digit? char).any (· < base)

/-- Takes the digits of a base other than ten. -/
def basedInteger (base : Nat) : Reader Int := do
  let digits ← allDigits (isDigitOf base)
  let value ← Numeral.whole? base digits
  integerInRange value

/-- Takes a whole number. -/
def integer : Reader Int := do
  if ← tryTake ['0', 'x'] then basedInteger 16
  else if ← tryTake ['0', 'o'] then basedInteger 8
  else if ← tryTake ['0', 'b'] then basedInteger 2
  else
    let negative ← sign
    let value := Numeral.decimalValue (← wholeDigits)
    integerInRange (if negative then -value else value)

end FaultDrill.Toml.Reader
