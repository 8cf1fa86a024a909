import FaultDrill.Numeral.BinaryFormat

/-!
Numbers that people write in decimal, with a point and an exponent.

Owns: the digits of a whole number in some base, and the reading of a numeral as digits and a
power of ten, or as the value of a format that is nearest to it.

Does not own: which numerals a format admits, and signs.
-/

namespace FaultDrill.Numeral

/-- The value of a digit, letters going on after nine. -/
def digit? (char : Char) : Option Nat :=
  if '0' ≤ char ∧ char ≤ '9' then some (char.toNat - '0'.toNat)
  else if 'a' ≤ char ∧ char ≤ 'z' then some (char.toNat - 'a'.toNat + 10)
  else if 'A' ≤ char ∧ char ≤ 'Z' then some (char.toNat - 'A'.toNat + 10)
  else none

/-- The number that digits of a base spell after a number. -/
def wholeFrom? (base : Nat) : Nat → List Char → Option Nat
  | value, [] => some value
  | value, char :: rest =>
    match digit? char with
    | some digit => if digit < base then wholeFrom? base (value * base + digit) rest else none
    | none => none

/-- The number that one or more digits of a base spell. -/
def whole? (base : Nat) (digits : List Char) : Option Nat :=
  if digits.isEmpty then none else wholeFrom? base 0 digits

/-- The number that decimal digits spell, nought for none. -/
def decimalValue (digits : List Char) : Nat :=
  digits.foldl (fun value digit => value * 10 + (digit.toNat - '0'.toNat)) 0

/-- A whole number with a sign or without. -/
def signed? (chars : List Char) : Option Int :=
  match chars with
  | '+' :: rest => (whole? 10 rest).map Int.ofNat
  | '-' :: rest => (whole? 10 rest).map fun value => -Int.ofNat value
  | _ => (whole? 10 chars).map Int.ofNat

/-- The exponent that ends a numeral, nought if there is none. -/
def exponent? : List Char → Option Int
  | [] => some 0
  | mark :: rest => if mark = 'e' ∨ mark = 'E' then signed? rest else none

/-- The digits and the power of ten that a numeral stands for. It has a digit before or after its
point, and needs neither the point nor an exponent. -/
def decimal? (chars : List Char) : Option (Nat × Int) :=
  let whole := chars.takeWhile Char.isDigit
  let rest := chars.dropWhile Char.isDigit
  let (fraction, rest) :=
    match rest with
    | '.' :: rest => (rest.takeWhile Char.isDigit, rest.dropWhile Char.isDigit)
    | _ => ([], rest)
  let digits := whole ++ fraction
  if digits.isEmpty then none
  else (exponent? rest).map fun exponent => (decimalValue digits, exponent - fraction.length)

/-- The value nearest to the number that a numeral stands for. -/
def BinaryFormat.ofNumeral? (format : BinaryFormat) (chars : List Char) : Option BinaryValue :=
  (decimal? chars).map fun (significand, exponent) =>
    format.ofDecimal false significand exponent

example : decimal? "1.50e-3".toList = some (150, -5) := by decide

example : decimal? ".".toList = none := by decide

end FaultDrill.Numeral
