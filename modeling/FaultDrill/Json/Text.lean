import FaultDrill.Json.Reader
import FaultDrill.Text.Utf8

/-!
Texts of JSON, between double quotes.

Owns:
- reading a text after its opening quote, with all escapes;
- passing over a text without looking at its encoding;
- writing a text.

Does not own: what a text means where it stands.
-/

namespace FaultDrill.Json

/-- The value of a hexadecimal digit. -/
def hexValue? (byte : UInt8) : Option Nat :=
  if 0x30 ≤ byte ∧ byte ≤ 0x39 then some (byte.toNat - 0x30)
  else if 0x41 ≤ byte ∧ byte ≤ 0x46 then some (byte.toNat - 0x41 + 10)
  else if 0x61 ≤ byte ∧ byte ≤ 0x66 then some (byte.toNat - 0x61 + 10)
  else none

/-- The byte that a one-letter escape stands for. -/
def escapedByte? : UInt8 → Option UInt8
  | 0x22 => some 0x22
  | 0x5C => some 0x5C
  | 0x2F => some 0x2F
  | 0x62 => some 0x08
  | 0x66 => some 0x0C
  | 0x6E => some 0x0A
  | 0x72 => some 0x0D
  | 0x74 => some 0x09
  | _ => none

namespace Reader

/-- Takes a byte inside a text. -/
def nextInText : Reader UInt8 := do
  match ← next with
  | some byte => return byte
  | none => fail .endOfText

/-- Looks at a byte inside a text. -/
def peekInText : Reader UInt8 := do
  match ← peek with
  | some byte => return byte
  | none => fail .endOfText

/-- Reads four hexadecimal digits. -/
def fourHexDigits : Reader Nat := do
  let a ← nextInText
  let b ← nextInText
  let c ← nextInText
  let d ← nextInText
  match hexValue? a, hexValue? b, hexValue? c, hexValue? d with
  | some a, some b, some c, some d => return ((a * 16 + b) * 16 + c) * 16 + d
  | _, _, _, _ => fail .invalidEscape

/-- Takes one expected byte between the two halves of a surrogate pair. -/
def pairByte (expected : UInt8) : Reader Unit := do
  let byte ← peekInText
  drop
  if byte ≠ expected then fail .unexpectedEndOfEscape

/-- Reads a code point escape after its letter; a leading surrogate needs a second escape. -/
def codePointEscape : Reader (List UInt8) := do
  let first ← fourHexDigits
  if 0xDC00 ≤ first ∧ first ≤ 0xDFFF then fail .loneSurrogate
  else if first < 0xD800 ∨ 0xDBFF < first then
    return String.utf8EncodeChar (Char.ofNat first)
  else
    pairByte 0x5C
    pairByte 0x75
    let second ← fourHexDigits
    if 0xDC00 ≤ second ∧ second ≤ 0xDFFF then
      return String.utf8EncodeChar
        (Char.ofNat ((first - 0xD800) * 1024 + (second - 0xDC00) + 0x10000))
    else fail .loneSurrogate

/-- Reads an escape after its backslash. -/
def escape : Reader (List UInt8) := do
  let byte ← nextInText
  if byte = 0x75 then codePointEscape
  else
    match escapedByte? byte with
    | some byte => return [byte]
    | none => fail .invalidEscape

/-- Reads the bytes of a text up to its closing quote; `steps` bounds their number. -/
def textBytes : Nat → List UInt8 → Reader (List UInt8)
  | 0, _ => fail .endOfText
  | steps + 1, reversed => do
    let byte ← nextInText
    if byte = 0x22 then return reversed.reverse
    else if byte = 0x5C then
      let bytes ← escape
      textBytes steps (bytes.reverse ++ reversed)
    else if byte < 0x20 then fail .controlCharacter
    else textBytes steps (byte :: reversed)

/-- Reads a text after its opening quote. Bytes that are no characters are reported at the place
of the first of them. -/
def textTail : Reader String := do
  let start ← get
  let bytes ← textBytes (start.rest.length + 1) []
  match Text.Utf8.text? bytes with
  | some text => return text
  | none =>
    let readable := Text.Utf8.wellFormedLength start.rest.length start.rest
    failAt .invalidCodePoint
      { start.taken with column := start.taken.column + readable + 1 }

/-- Passes over an escape after its backslash. -/
def skipEscape : Reader Unit := do
  let byte ← nextInText
  if byte = 0x75 then
    let _ ← fourHexDigits
  else if escapedByte? byte = none then fail .invalidEscape

/-- Passes over the bytes of a text up to its closing quote; `steps` bounds their number. -/
def skipTextBytes : Nat → Reader Unit
  | 0 => fail .endOfText
  | steps + 1 => do
    let byte ← nextInText
    if byte = 0x22 then return ()
    else if byte = 0x5C then
      skipEscape
      skipTextBytes steps
    else if byte < 0x20 then fail .controlCharacter
    else skipTextBytes steps

/-- Passes over a text after its opening quote. -/
def skipTextTail : Reader Unit := do
  let start ← get
  skipTextBytes (start.rest.length + 1)

end Reader

/-! ## Writing -/

/-- A hexadecimal digit in lower case. -/
def hexDigit (value : Nat) : Char :=
  if value < 10 then Char.ofNat (0x30 + value) else Char.ofNat (0x61 + value - 10)

/-- One character inside a text: quotes, backslashes and control characters are escaped. -/
def textChar (char : Char) : List Char :=
  match char with
  | '"' => ['\\', '"']
  | '\\' => ['\\', '\\']
  | '\x08' => ['\\', 'b']
  | '\x0C' => ['\\', 'f']
  | '\n' => ['\\', 'n']
  | '\r' => ['\\', 'r']
  | '\t' => ['\\', 't']
  | _ =>
    if char.toNat < 0x20 then
      ['\\', 'u', '0', '0', hexDigit (char.toNat / 16), hexDigit (char.toNat % 16)]
    else [char]

/-- A text between quotes. -/
def textLiteral (text : String) : String :=
  "\"" ++ String.ofList (text.toList.flatMap textChar) ++ "\""

end FaultDrill.Json
