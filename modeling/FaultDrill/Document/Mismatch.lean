import FaultDrill.Numeral.Layout
import FaultDrill.Text.Quoted

/-!
Values of the wrong kind: what a reader of documents found where the document needs something
else.

Owns:
- the kinds of values found and expected, and the disagreements between them;
- their texts, which differ between formats only in the name of the missing value and in the
  layout of floating-point numbers.

Does not own: where in a text the disagreement stands; each format says that in its own way.
-/

namespace FaultDrill

/-- A value that a reader found. -/
inductive FoundValue where
  | nothing
  | boolean (value : Bool)
  | integer (value : Int)
  /-- An integer beyond 64 bits. -/
  | wideInteger (value : Int)
  | real (value : Numeral.BinaryValue)
  | text (value : String)
  | sequence
  | mapping
  deriving DecidableEq, Repr

/-- What the document needs at a place. -/
inductive ExpectedValue where
  | sequence
  | text
  | count
  | fieldName
  | record (typeName : String)
  deriving DecidableEq, Repr

/-- Why a well-formed text is no document. -/
inductive Mismatch where
  /-- The value has another kind. -/
  | wrongKind (found : FoundValue) (expected : ExpectedValue)
  /-- The value has the right kind but is out of range. -/
  | outOfRange (found : FoundValue) (expected : ExpectedValue)
  /-- A tag promises a kind that the text does not have. -/
  | wrongTag (text : String) (promised : String)
  /-- A record has one of its fields twice. -/
  | duplicateField (name : String)
  deriving DecidableEq, Repr

/-- What differs between formats in the texts of mismatches. -/
structure MismatchStyle where
  nothing : String
  real : Numeral.RealLayout

/-- The text for an expected value. -/
def ExpectedValue.describe : ExpectedValue → String
  | .sequence => "a sequence"
  | .text => "a string"
  | .count => "u32"
  | .fieldName => "field identifier"
  | .record typeName => "struct " ++ typeName

/-- A whole number in base ten. -/
def integerText (value : Int) : String :=
  (if value < 0 then "-" else "") ++ Numeral.decimalText value.natAbs

/-- The text for a found value. -/
def FoundValue.describe (style : MismatchStyle) : FoundValue → String
  | .nothing => style.nothing
  | .boolean value => "boolean `" ++ (if value then "true" else "false") ++ "`"
  | .integer value => "integer `" ++ integerText value ++ "`"
  | .wideInteger value =>
    "integer `" ++ integerText value ++ "` as " ++ (if value < 0 then "i128" else "u128")
  | .real value =>
    "floating point `" ++ style.real.render Numeral.binary64 value ++ "`"
  | .text value => "string " ++ Text.quoted value
  | .sequence => "sequence"
  | .mapping => "map"

/-- The text for a mismatch. -/
def Mismatch.describe (style : MismatchStyle) : Mismatch → String
  | .wrongKind found expected =>
    "invalid type: " ++ found.describe style ++ ", expected " ++ expected.describe
  | .outOfRange found expected =>
    "invalid value: " ++ found.describe style ++ ", expected " ++ expected.describe
  | .wrongTag text promised =>
    "invalid value: string " ++ Text.quoted text ++ ", expected " ++ promised
  | .duplicateField name => "duplicate field `" ++ name ++ "`"

/-- A whole number that fits into 32 bits. -/
def countOf? (value : Int) : Option UInt32 :=
  if 0 ≤ value ∧ value < 4294967296 then some (UInt32.ofNat value.toNat) else none

end FaultDrill
