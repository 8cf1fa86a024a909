import FaultDrill.Numeral.BinaryFormat

/-!
Shortest decimals: the fewest digits that read back as a given floating-point value, and of those
the ones nearest to it.

Owns:
- the interval of reals that round to a value, in quarter units;
- the search over ever finer decimal grids.

Does not own: the text of a decimal (`Numeral.Layout`).

If a point of a decimal grid lies in the interval around a value, so does one of the value's two
neighbours on that grid; hence looking at the two neighbours finds the first grid that has a hit.
-/

namespace FaultDrill.Numeral

/-- The number `digits * 10 ^ exponent`. -/
structure Decimal where
  digits : Nat
  exponent : Int
  deriving DecidableEq, Repr

/-- Which neighbour is taken when both are equally near. -/
inductive TieRule where
  | up
  | even
  deriving DecidableEq, Repr

/-- The numbers that round to one value, between two bounds in quarter units. -/
structure RoundingInterval where
  lower : Nat
  upper : Nat
  closed : Bool
  deriving DecidableEq, Repr

namespace RoundingInterval

/-- Half a step to both sides, a quarter of one below a power of two; the bounds belong to the
interval iff the significand is even. -/
def around (format : BinaryFormat) (units : Nat) : RoundingInterval :=
  let spacing := Nat.pow 2 (format.spacingBits units)
  let below := if spacing ≠ 1 ∧ units = Nat.pow 2 (format.precision - 1) * spacing then spacing
    else 2 * spacing
  { lower := 4 * units - below
    upper := 4 * units + 2 * spacing
    closed := units / spacing % 2 == 0 }

/-- Whether `numerator / denominator` quarter units lie in the interval. -/
def contains (interval : RoundingInterval) (numerator denominator : Nat) : Bool :=
  if interval.closed then
    interval.lower * denominator ≤ numerator && numerator ≤ interval.upper * denominator
  else
    interval.lower * denominator < numerator && numerator < interval.upper * denominator

end RoundingInterval

/-- How many decimal places the ratio must be moved left of the point to reach one. -/
def leadingPlaces (numerator denominator : Nat) : Nat → Nat
  | 0 => 0
  | bound + 1 =>
    if denominator ≤ numerator then 0
    else leadingPlaces (numerator * 10) denominator bound + 1

/-- The least exponent `e` with the value below `10 ^ e`. -/
def decimalOrder (format : BinaryFormat) (units : Nat) : Int :=
  if Nat.pow 2 format.fractionBits ≤ units then
    (Nat.toDigits 10 (units / Nat.pow 2 format.fractionBits)).length
  else 1 - (leadingPlaces units (Nat.pow 2 format.fractionBits) format.fractionBits : Int)

/-- The better of the two neighbours of a value on the grid `10 ^ exponent`, if one of them reads
back. -/
def gridPoint? (format : BinaryFormat) (tie : TieRule) (units : Nat) (exponent : Int) :
    Option Nat :=
  let interval := RoundingInterval.around format units
  let numerator := units * Nat.pow 10 (-exponent).toNat
  let denominator := Nat.pow 2 format.fractionBits * Nat.pow 10 exponent.toNat
  let floor := numerator / denominator
  let reads (point : Nat) : Bool :=
    interval.contains (4 * Nat.pow 2 format.fractionBits * point * Nat.pow 10 exponent.toNat)
      (Nat.pow 10 (-exponent).toNat)
  let doubled := 2 * (numerator % denominator)
  match reads floor, reads (floor + 1) with
  | false, false => none
  | true, false => some floor
  | false, true => some (floor + 1)
  | true, true =>
    if doubled < denominator then some floor
    else if denominator < doubled then some (floor + 1)
    else match tie with
      | .up => some (floor + 1)
      | .even => some (floor + floor % 2)

/-- A decimal without trailing zeros in its digits; `bound` limits how many are taken off. -/
def Decimal.trimmed (decimal : Decimal) : Nat → Decimal
  | 0 => decimal
  | bound + 1 =>
    if decimal.digits ≠ 0 ∧ decimal.digits % 10 = 0 then
      Decimal.trimmed ⟨decimal.digits / 10, decimal.exponent + 1⟩ bound
    else decimal

/-- Searches grids of `place` digits and more. -/
def shortestFrom (format : BinaryFormat) (tie : TieRule) (units : Nat) (order : Int)
    (place : Nat) : Nat → Decimal
  | 0 => ⟨0, 0⟩
  | bound + 1 =>
    match gridPoint? format tie units (order - place) with
    | some digits => Decimal.trimmed ⟨digits, order - place⟩ (place + 1)
    | none => shortestFrom format tie units order (place + 1) bound

/-- The shortest decimal of a count of units; zero is `0 * 10 ^ 0`. -/
def shortest (format : BinaryFormat) (tie : TieRule) (units : Nat) : Decimal :=
  if units = 0 then ⟨0, 0⟩
  else shortestFrom format tie units (decimalOrder format units) 1 format.precision

example : shortest binary32 .up 1 = ⟨1, -45⟩ := by decide +kernel

example : shortest binary32 .up (0xcccccd <<< 121) = ⟨5, -2⟩ := by decide +kernel

end FaultDrill.Numeral
