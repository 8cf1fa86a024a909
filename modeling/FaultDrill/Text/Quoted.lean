import FaultDrill.Text.CharacterClass

/-!
Texts quoted inside messages: between double quotes, with every character that a reader could not
see or could misread written as an escape.

Owns: the escape of one character and the quoted form of a text.
-/

namespace FaultDrill.Text

/-- The hexadecimal digits of a number, most significant first and without leading zeros. -/
def lowerHex (number : Nat) : String :=
  String.ofList (Nat.toDigits 16 number)

/-- `\u` and the code point in braces. -/
def codePointEscape (char : Char) : String :=
  "\\u\x7b" ++ lowerHex char.toNat ++ "\x7d"

/-- One character inside double quotes: the usual short escapes, a code point escape for what is
invisible or combines with its neighbour, and the character itself otherwise. -/
def quotedChar (char : Char) : String :=
  match char with
  | '\x00' => "\\0"
  | '\t' => "\\t"
  | '\r' => "\\r"
  | '\n' => "\\n"
  | '"' => "\\\""
  | '\\' => "\\\\"
  | _ =>
    if isCombining char || isInvisible char then codePointEscape char else char.toString

/-- A text in double quotes as messages show it. -/
def quoted (text : String) : String :=
  "\"" ++ String.join (text.toList.map quotedChar) ++ "\""

end FaultDrill.Text
