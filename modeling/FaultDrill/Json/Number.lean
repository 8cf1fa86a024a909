import FaultDrill.Json.Reader

/-!
Numbers of JSON.

Owns:
- the value of a number: a whole number of 64 bits where one fits, a 64-bit floating-point value
  otherwise;
- reading a number for its value, and passing over one without a value.

A floating-point value is computed from the first digits that fit into 64 bits and a power of ten,
each rounded to a value, with one multiplication or division; digits after those count only for
their place.
-/

namespace FaultDrill.Json

open Numeral (BinaryValue binary64)

/-- The value of a number. -/
inductive Number where
  | integer (value : Int)
  | real (value : BinaryValue)
  deriving DecidableEq, Repr

/-- What a reader found when it found a number. -/
def Number.found : Number → FoundValue
  | .integer value => .integer value
  | .real value => .real value

namespace Number

/-- Whether a byte is a decimal digit. -/
def isDigit (byte : UInt8) : Bool := 0x30 ≤ byte && byte ≤ 0x39

/-- The value of a decimal digit. -/
def digitValue (byte : UInt8) : Nat := byte.toNat - 0x30

/-- The largest whole number of 64 bits, plus one. -/
def wordLimit : Nat := 18446744073709551616

/-- The units of a finite value. -/
def unitsOf : BinaryValue → Nat
  | .finite _ units => units
  | _ => 0

/-- The 64-bit value of a power of ten up to `10 ^ 308`. -/
def powerUnits (exponent : Nat) : Nat :=
  unitsOf (binary64.ofDecimal false 1 exponent)

/-- Divides by powers of ten until the exponent is within reach; `steps` bounds the divisions. -/
def lowerScale : Nat → Nat → Nat → Nat × Nat
  | 0, units, exponent => (units, exponent)
  | steps + 1, units, exponent =>
    if exponent ≤ 308 ∨ units = 0 then (units, exponent)
    else
      lowerScale steps
        (binary64.roundUnits (units * Nat.pow 2 binary64.fractionBits) (powerUnits 308))
        (exponent - 308)

/-- The floating-point value of `significand * 10 ^ exponent`, if it is finite. -/
def realOf? (negative : Bool) (significand : Nat) (exponent : Int) : Option BinaryValue :=
  let units := binary64.roundUnits (significand * Nat.pow 2 binary64.fractionBits) 1
  if 0 ≤ exponent then
    if 308 < exponent then if units = 0 then some (.finite negative 0) else none
    else
      match binary64.nearest negative (units * powerUnits exponent.toNat)
        (Nat.pow 2 binary64.fractionBits) with
      | .finite negative units => some (.finite negative units)
      | _ => none
  else
    let (units, exponent) := lowerScale 4 units (-exponent).toNat
    if units = 0 then some (.finite negative 0)
    else
      some (binary64.nearest negative (units * Nat.pow 2 binary64.fractionBits)
        (powerUnits exponent))

/-- A whole number with as many of the digits as fit into 64 bits, and how many did not. -/
def accumulate : Nat → List UInt8 → Nat × Nat
  | value, [] => (value, 0)
  | value, digit :: digits =>
    if value * 10 + digitValue digit < wordLimit then
      accumulate (value * 10 + digitValue digit) digits
    else (value, digits.length + 1)

/-- The whole number of some digits, without limit. -/
def digitsValue (digits : List UInt8) : Nat :=
  digits.foldl (fun value digit => value * 10 + digitValue digit) 0

/-- The value of a whole number. Minus nought and what does not fit are floating-point values. -/
def ofSignificand (positive : Bool) (significand : Nat) : Number :=
  if positive then .integer significand
  else if significand ≠ 0 ∧ significand ≤ 9223372036854775808 then .integer (-significand)
  else
    .real (binary64.nearest true (significand * Nat.pow 2 binary64.fractionBits) 1)

end Number

namespace Reader

/-- A floating-point value at the present place. -/
def real (positive : Bool) (significand : Nat) (exponent : Int) : Reader Number :=
  match Number.realOf? (!positive) significand exponent with
  | some value => return .real value
  | none => fail .numberOutOfRange

/-- The largest exponent that is taken at its value. -/
def exponentLimit : Nat := 2147483648

/-- Adds an exponent to another, both within 32 bits. -/
def saturate (exponent : Int) : Int :=
  if exponent < -2147483648 then -2147483648
  else if 2147483647 < exponent then 2147483647
  else exponent

/-- Reads digits of an exponent as long as its value stays within 32 bits: the value, or the
digits that no longer fit. -/
def exponentDigits : Nat → Nat → Reader (Option Nat)
  | 0, value => return some value
  | steps + 1, value => do
    match ← peek with
    | some byte =>
      if Number.isDigit byte then
        drop
        if value * 10 + Number.digitValue byte < exponentLimit then
          exponentDigits steps (value * 10 + Number.digitValue byte)
        else return none
      else return some value
    | none => return some value

/-- Reads an exponent, from its mark on, and makes the number. -/
def exponentPart (positive : Bool) (significand : Nat) (start : Int) : Reader Number := do
  drop
  let positiveExponent ←
    match ← peek with
    | some 0x2B => do drop; pure true
    | some 0x2D => do drop; pure false
    | _ => pure true
  match ← next with
  | none => fail .endOfValue
  | some first =>
    if Number.isDigit first then
      let cursor ← get
      match ← exponentDigits cursor.rest.length (Number.digitValue first) with
      | some exponent =>
        real positive significand
          (saturate (if positiveExponent then start + exponent else start - exponent))
      | none =>
        if significand ≠ 0 ∧ positiveExponent then fail .numberOutOfRange
        else
          let _ ← takeWhile Number.isDigit
          return .real (.finite (!positive) 0)
    else fail .invalidNumber

/-- Ends a number that has a fraction or too many digits: with an exponent, or here. -/
def numberEnd (positive : Bool) (significand : Nat) (exponent : Int) : Reader Number := do
  match ← peek with
  | some 0x65 | some 0x45 => exponentPart positive significand exponent
  | _ => real positive significand exponent

/-- Reads a fraction, from its point on, and makes the number. -/
def fractionPart (positive : Bool) (significand : Nat) (start : Int) : Reader Number := do
  drop
  let digits ← takeWhile Number.isDigit
  if digits = [] then
    match ← peek with
    | some _ => fail .invalidNumber
    | none => fail .endOfValue
  else
    let (significand, omitted) := Number.accumulate significand digits
    numberEnd positive significand (start - (digits.length - omitted : Nat))

/-- Reads a number after its sign. -/
def number (positive : Bool) : Reader Number := do
  match ← next with
  | none => fail .endOfValue
  | some first =>
    if first = 0x30 then
      if ← nextIs Number.isDigit then fail .invalidNumber else numberTail 0 0
    else if Number.isDigit first then
      let digits ← takeWhile Number.isDigit
      let (significand, omitted) := Number.accumulate (Number.digitValue first) digits
      numberTail significand omitted
    else fail .invalidNumber
where
  /-- What may follow the digits before the point, `omitted` of which did not fit. -/
  numberTail (significand omitted : Nat) : Reader Number := do
    match ← peek with
    | some 0x2E => fractionPart positive significand omitted
    | some 0x65 | some 0x45 => exponentPart positive significand omitted
    | _ =>
      if omitted = 0 then return Number.ofSignificand positive significand
      else real positive significand omitted

/-- Passes over an exponent, from its mark on. -/
def skipExponent : Reader Unit := do
  drop
  if ← nextIs (fun byte => byte == 0x2B || byte == 0x2D) then drop
  skipDigits
where
  /-- Passes over digits, of which there must be one. -/
  skipDigits : Reader Unit := do
    match ← next with
    | some byte =>
      if Number.isDigit byte then
        let _ ← takeWhile Number.isDigit
      else fail .invalidNumber
    | none => fail .invalidNumber

/-- Whether a byte begins an exponent. -/
def isExponentMark (byte : UInt8) : Bool := byte == 0x65 || byte == 0x45

/-- Passes over a number after its sign. -/
def skipNumber : Reader Unit := do
  match ← next with
  | some first =>
    if first = 0x30 then
      if ← nextIs Number.isDigit then fail .invalidNumber else numberTail
    else if Number.isDigit first then
      let _ ← takeWhile Number.isDigit
      numberTail
    else fail .invalidNumber
  | none => fail .invalidNumber
where
  /-- What may follow the digits before the point. -/
  numberTail : Reader Unit := do
    match ← peek with
    | some 0x2E =>
      drop
      let digits ← takeWhile Number.isDigit
      if digits = [] then fail .invalidNumber
      else if ← nextIs isExponentMark then skipExponent
    | some 0x65 | some 0x45 => skipExponent
    | _ => return ()

end Reader

end FaultDrill.Json
