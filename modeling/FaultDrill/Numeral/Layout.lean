import FaultDrill.Numeral.Shortest

/-!
Texts of floating-point values.

Owns: the choices that tell one printed form from another, as one record, and the text of a value
under such a record.
-/

namespace FaultDrill.Numeral

/-- How floating-point values are written. A value whose first digit stands at a power of ten
between the two bounds is written positionally, any other with an exponent; without bounds all
are positional. `markWhole` gives whole values a final `.0`. -/
structure RealLayout where
  tie : TieRule
  positionalBounds : Option (Int × Int)
  markWhole : Bool
  deriving DecidableEq, Repr

private def zeros (count : Nat) : String :=
  String.ofList (List.replicate count '0')

/-- The digits of a number in base ten. -/
def decimalText (number : Nat) : String :=
  String.ofList (Nat.toDigits 10 number)

/-- A decimal without exponent. -/
def positional (markWhole : Bool) (decimal : Decimal) : String :=
  let digits := Nat.toDigits 10 decimal.digits
  if 0 ≤ decimal.exponent then
    String.ofList digits ++ zeros decimal.exponent.toNat ++ (if markWhole then ".0" else "")
  else
    let places := (-decimal.exponent).toNat
    if digits.length ≤ places then
      "0." ++ zeros (places - digits.length) ++ String.ofList digits
    else
      String.ofList (digits.take (digits.length - places)) ++ "." ++
        String.ofList (digits.drop (digits.length - places))

/-- A decimal with its point after the first digit and a signed exponent. -/
def scientific (decimal : Decimal) : String :=
  let digits := Nat.toDigits 10 decimal.digits
  let exponent := decimal.exponent + (digits.length - 1 : Nat)
  String.ofList (digits.take 1) ++
    (if digits.length ≤ 1 then "" else "." ++ String.ofList (digits.drop 1)) ++
    (if 0 ≤ exponent then "e+" else "e-") ++ decimalText exponent.natAbs

namespace RealLayout

/-- The text of a non-negative decimal. -/
def magnitude (layout : RealLayout) (decimal : Decimal) : String :=
  let first := decimal.exponent + ((Nat.toDigits 10 decimal.digits).length - 1 : Nat)
  match layout.positionalBounds with
  | none => positional layout.markWhole decimal
  | some (low, high) =>
    if low ≤ first ∧ first ≤ high then positional layout.markWhole decimal
    else scientific decimal

/-- The text of a value. -/
def render (layout : RealLayout) (format : BinaryFormat) : BinaryValue → String
  | .notANumber => "NaN"
  | .infinite negative => if negative then "-inf" else "inf"
  | .finite negative units =>
    (if negative then "-" else "") ++ layout.magnitude (shortest format layout.tie units)

end RealLayout

example :
    (RealLayout.mk .up none false).render binary32 (.finite false (0x6f9db2 <<< 124)) ≠ "" := by
  decide +kernel

end FaultDrill.Numeral
