import FaultDrill.Yaml.Token.Folding

/-!
Scalars in quotes.

Owns: the escapes, and the text of a scalar in single or double quotes.
-/

namespace FaultDrill.Yaml

/-- The value of a hexadecimal digit. -/
def hexDigit? (char : Char) : Option Nat :=
  if '0' ≤ char ∧ char ≤ '9' then some (char.toNat - '0'.toNat)
  else if 'A' ≤ char ∧ char ≤ 'F' then some (char.toNat - 'A'.toNat + 10)
  else if 'a' ≤ char ∧ char ≤ 'f' then some (char.toNat - 'a'.toNat + 10)
  else none

/-- The character that a one-letter escape stands for. -/
def escapedChar? : Char → Option Char
  | '0' => some '\x00'
  | 'a' => some '\x07'
  | 'b' => some '\x08'
  | 't' | '\t' => some '\t'
  | 'n' => some '\n'
  | 'v' => some '\x0B'
  | 'f' => some '\x0C'
  | 'r' => some '\r'
  | 'e' => some '\x1B'
  | ' ' => some ' '
  | '"' => some '"'
  | '/' => some '/'
  | '\\' => some '\\'
  | 'N' => some '\u0085'
  | '_' => some '\u00A0'
  | 'L' => some '\u2028'
  | 'P' => some '\u2029'
  | _ => none

/-- The number of digits after the letter of a numeric escape. -/
def escapeDigits? : Char → Option Nat
  | 'x' => some 2
  | 'u' => some 4
  | 'U' => some 8
  | _ => none

/-- The number that exactly `count` hexadecimal digits at the start of a text spell. -/
def hexNumber? : Nat → Nat → List Char → Option Nat
  | 0, value, _ => some value
  | _ + 1, _, [] => none
  | count + 1, value, char :: rest =>
    (hexDigit? char).bind fun digit => hexNumber? count (value * 16 + digit) rest

/-- The character of a code point; surrogates and numbers past the last code point are none. -/
def charOf? (codePoint : Nat) : Option Char :=
  if codePoint < 0xD800 ∨ (0xDFFF < codePoint ∧ codePoint < 0x110000) then
    some (Char.ofNat codePoint)
  else none

namespace Scan

/-- Takes an escape after its backslash. -/
def escape (letter : Char) (afterLetter : List Char) : Scan Char := do
  match escapeDigits? letter with
  | some count =>
    let codePoint ← hexNumber? count 0 afterLetter
    let char ← charOf? codePoint
    skip (1 + count)
    return char
  | none =>
    let char ← escapedChar? letter
    skip 1
    return char

/-- Takes the text of a scalar in single quotes after the opening one; `steps` bounds its
length. -/
def singleQuoted : Nat → Scan (List Char)
  | 0 => failure
  | steps + 1 => do
    require (!(← get).atDocumentMarker)
    match ← rest with
    | [] => failure
    | '\'' :: '\'' :: _ =>
      skip 2
      return '\'' :: (← singleQuoted steps)
    | '\'' :: _ =>
      skip 1
      return []
    | char :: _ =>
      if isGap char then
        let gap ← gap
        return gapText gap ++ (← singleQuoted steps)
      else
        skip 1
        return char :: (← singleQuoted steps)

/-- Takes the text of a scalar in double quotes after the opening one; `steps` bounds its
length. An escaped line break and the blanks after it stand for nothing. -/
def doubleQuoted : Nat → Scan (List Char)
  | 0 => failure
  | steps + 1 => do
    require (!(← get).atDocumentMarker)
    match ← rest with
    | [] => failure
    | '"' :: _ =>
      skip 1
      return []
    | '\\' :: letter :: afterLetter =>
      skip 1
      if isBreak letter then
        modify Cursor.skipBreak
        let gap ← gap
        return lineBreaks gap ++ (← doubleQuoted steps)
      else
        let char ← escape letter afterLetter
        return char :: (← doubleQuoted steps)
    | char :: _ =>
      if char = '\\' then failure
      else if isGap char then
        let gap ← gap
        return gapText gap ++ (← doubleQuoted steps)
      else
        skip 1
        return char :: (← doubleQuoted steps)

/-- Takes a scalar in quotes. -/
def quoted (single : Bool) : Scan (List Char) := do
  skip 1
  let bound := (← rest).length + 1
  if single then singleQuoted bound else doubleQuoted bound

end Scan

end FaultDrill.Yaml
