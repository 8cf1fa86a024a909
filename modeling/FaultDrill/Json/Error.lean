import FaultDrill.Document.Mismatch

/-!
What can be wrong with a JSON document, and where.

Owns: the causes, their texts, and positions counted in bytes.
-/

namespace FaultDrill.Json

/-- A place in the bytes of a document: its line, from one, and the number of bytes on that line
up to and with the byte meant. -/
structure Position where
  line : Nat := 1
  column : Nat := 0
  deriving DecidableEq, Repr

/-- The place of the byte after a place. -/
def Position.after (position : Position) (byte : UInt8) : Position :=
  if byte = 0x0A then ⟨position.line + 1, 0⟩ else { position with column := position.column + 1 }

/-- Causes of failure. -/
inductive Cause where
  | endOfValue
  | endOfList
  | endOfObject
  | endOfText
  | expectedColon
  | expectedListCommaOrEnd
  | expectedObjectCommaOrEnd
  | expectedIdentifier
  | expectedValue
  | invalidEscape
  | invalidNumber
  | numberOutOfRange
  | invalidCodePoint
  | controlCharacter
  | keyMustBeText
  | loneSurrogate
  | unexpectedEndOfEscape
  | trailingComma
  | trailingCharacters
  /-- The source of the bytes failed. -/
  | source (text : String)
  | mismatch (fault : Mismatch)
  deriving DecidableEq, Repr

/-- JSON calls the missing value null, and writes very large and very small numbers with an
exponent. -/
def mismatchStyle : MismatchStyle := ⟨"null", ⟨.even, some (-5, 15), true⟩⟩

/-- The text for a cause. -/
def Cause.describe : Cause → String
  | .endOfValue => "EOF while parsing a value"
  | .endOfList => "EOF while parsing a list"
  | .endOfObject => "EOF while parsing an object"
  | .endOfText => "EOF while parsing a string"
  | .expectedColon => "expected `:`"
  | .expectedListCommaOrEnd => "expected `,` or `]`"
  | .expectedObjectCommaOrEnd => "expected `,` or `\x7d`"
  | .expectedIdentifier => "expected ident"
  | .expectedValue => "expected value"
  | .invalidEscape => "invalid escape"
  | .invalidNumber => "invalid number"
  | .numberOutOfRange => "number out of range"
  | .invalidCodePoint => "invalid unicode code point"
  | .controlCharacter => "control character (\\u0000-\\u001F) found while parsing a string"
  | .keyMustBeText => "key must be a string"
  | .loneSurrogate => "lone leading surrogate in hex escape"
  | .unexpectedEndOfEscape => "unexpected end of hex escape"
  | .trailingComma => "trailing comma"
  | .trailingCharacters => "trailing characters"
  | .source text => text
  | .mismatch fault => fault.describe mismatchStyle

/-- A failure. Some failures do not know their place until a reader around them adds it. -/
structure Error where
  cause : Cause
  position : Option Position
  deriving DecidableEq, Repr

/-- The text for a failure. -/
def Error.describe (error : Error) : String :=
  match error.position with
  | none => error.cause.describe
  | some position =>
    error.cause.describe ++ " at line " ++ Numeral.decimalText position.line ++ " column " ++
      Numeral.decimalText position.column

end FaultDrill.Json
