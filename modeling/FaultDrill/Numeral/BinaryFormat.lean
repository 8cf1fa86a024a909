/-!
Binary floating-point formats in exact integer arithmetic.

Owns:
- a format as its precision and its grid, with the two interchange formats of 32 and 64 bits;
- a value as a sign and a whole number of grid units, or an infinity, or no number;
- rounding of a ratio to the nearest value, ties to even, with overflow to infinity;
- the encoding of values as bit patterns.

Does not own: how a value is written in decimal (`Numeral.Shortest`, `Numeral.Layout`).

Every finite value of a format is a whole number of units, so comparison, rounding and every
statement about them stay in the natural numbers.
-/

namespace FaultDrill.Numeral

/-- A format holds `precision` significant bits. Its finite values are multiples of the unit
`2 ^ (-fractionBits)` and lie below `2 ^ ceilingBits` units. -/
structure BinaryFormat where
  precision : Nat
  fractionBits : Nat
  ceilingBits : Nat
  deriving DecidableEq, Repr

/-- The format of 32 bits. -/
def binary32 : BinaryFormat := ⟨24, 149, 277⟩

/-- The format of 64 bits. -/
def binary64 : BinaryFormat := ⟨53, 1074, 2098⟩

/-- A floating-point value; `units` counts units of the format. -/
inductive BinaryValue where
  | notANumber
  | infinite (negative : Bool)
  | finite (negative : Bool) (units : Nat)
  deriving DecidableEq, Repr

/-- The whole number nearest to a ratio; a tie goes to the even neighbour. -/
def roundHalfEven (numerator denominator : Nat) : Nat :=
  let quotient := numerator / denominator
  let doubled := 2 * (numerator % denominator)
  if doubled < denominator then quotient
  else if denominator < doubled then quotient + 1
  else quotient + quotient % 2

namespace BinaryFormat

/-- The number of low bits that a value of about `units` units cannot hold. -/
def spacingBits (format : BinaryFormat) (units : Nat) : Nat :=
  (Nat.log2 units + 1) - format.precision

/-- The nearest value, in units, to a ratio given in units; the range has no upper end here. -/
def roundUnits (format : BinaryFormat) (numerator denominator : Nat) : Nat :=
  let spacing := Nat.pow 2 (format.spacingBits (numerator / denominator))
  roundHalfEven numerator (denominator * spacing) * spacing

/-- The value of a count of units; a count that reaches the ceiling is infinite. -/
def ofUnits (format : BinaryFormat) (negative : Bool) (units : Nat) : BinaryValue :=
  if units < Nat.pow 2 format.ceilingBits then .finite negative units else .infinite negative

/-- The value nearest to a ratio given in units. -/
def nearest (format : BinaryFormat) (negative : Bool) (numerator denominator : Nat) :
    BinaryValue :=
  format.ofUnits negative (format.roundUnits numerator denominator)

/-- The value nearest to `significand * 10 ^ exponent`. A number far above the ceiling or far
below half a unit is answered without building its power of ten. -/
def ofDecimal (format : BinaryFormat) (negative : Bool) (significand : Nat) (exponent : Int) :
    BinaryValue :=
  let digitCount : Int := (Nat.toDigits 10 significand).length
  if significand = 0 then .finite negative 0
  else if (format.ceilingBits : Int) - format.fractionBits ≤ digitCount - 1 + exponent then
    .infinite negative
  else if digitCount + exponent ≤ -((format.fractionBits : Int) + 1) then .finite negative 0
  else
    format.nearest negative
      (significand * Nat.pow 10 exponent.toNat * Nat.pow 2 format.fractionBits)
      (Nat.pow 10 (-exponent).toNat)

/-- The bits of a magnitude, the sign aside. A count at the ceiling gives the infinite pattern. -/
def magnitudeBits (format : BinaryFormat) (units : Nat) : Nat :=
  let spacing := format.spacingBits units
  spacing * Nat.pow 2 (format.precision - 1) + units / Nat.pow 2 spacing

/-- The number of bits below the sign. -/
def signPosition (format : BinaryFormat) : Nat :=
  Nat.log2 (format.magnitudeBits (Nat.pow 2 format.ceilingBits)) + 1

/-- The bit pattern of a value; no number has the pattern of the quiet one without payload. -/
def toBits (format : BinaryFormat) : BinaryValue → Nat
  | .notANumber =>
    format.magnitudeBits (Nat.pow 2 format.ceilingBits) + Nat.pow 2 (format.precision - 2)
  | .infinite negative =>
    (if negative then Nat.pow 2 format.signPosition else 0) +
      format.magnitudeBits (Nat.pow 2 format.ceilingBits)
  | .finite negative units =>
    (if negative then Nat.pow 2 format.signPosition else 0) + format.magnitudeBits units

/-- The value of a bit pattern. -/
def ofBits (format : BinaryFormat) (bits : Nat) : BinaryValue :=
  let negative := bits.testBit format.signPosition
  let magnitude := bits % Nat.pow 2 format.signPosition
  let infinitePattern := format.magnitudeBits (Nat.pow 2 format.ceilingBits)
  let hidden := Nat.pow 2 (format.precision - 1)
  if infinitePattern < magnitude then .notANumber
  else if magnitude = infinitePattern then .infinite negative
  else if magnitude < hidden then .finite negative magnitude
  else .finite negative ((hidden + magnitude % hidden) * Nat.pow 2 (magnitude / hidden - 1))

end BinaryFormat

example : binary32.ofBits 0x3d4ccccd = .finite false (0xcccccd <<< 121) := by decide +kernel

example : binary32.toBits (binary32.ofDecimal false 5 (-2)) = 0x3d4ccccd := by decide +kernel

example : binary64.toBits (.infinite true) = 0xfff0000000000000 := by decide +kernel

end FaultDrill.Numeral
