import FaultDrill.Document.Mismatch
import FaultDrill.Toml.Tree

/-!
What can be wrong with a TOML document.

Owns: the failures, and their texts, which show the line at fault and mark the value in it.
-/

namespace FaultDrill.Toml

/-- Why bytes are no document. -/
inductive Error where
  /-- The source of the bytes failed. -/
  | source (text : String)
  /-- The bytes are no text. -/
  | encoding
  /-- The text is no TOML. -/
  | malformed
  /-- A value is not what the document needs. -/
  | mismatch (text : List Char) (span : Span) (fault : Mismatch)
  deriving DecidableEq, Repr

/-- Floating-point numbers are written without an exponent. -/
def mismatchStyle : MismatchStyle := ⟨"unit value", ⟨.up, none, true⟩⟩

/-- Some blanks. -/
def blankText (count : Nat) : String := String.ofList (List.replicate count ' ')

/-- The number of bytes of some characters. -/
def byteLength (chars : List Char) : Nat := (String.ofList chars).utf8ByteSize

/-- The characters before a place on its line. -/
def lineBefore (text : List Char) (position : Nat) : List Char :=
  ((text.take position).reverse.takeWhile (· != '\n')).reverse

/-- The text for a place: the line, its number, and marks under a part of it. There is a mark for
every byte of the part that is on the line, and at least one. -/
def excerpt (text : List Char) (span : Span) : String :=
  let before := lineBefore text span.start
  let line := before ++ (text.drop span.start).takeWhile (· != '\n')
  let number := Numeral.decimalText ((text.take span.start).count '\n' + 1)
  let column := before.length
  let bytes := byteLength ((text.drop span.start).take (span.stop - span.start))
  let marks := max 1 (min bytes (byteLength line - column))
  let margin := blankText (number.length + 1) ++ "|"
  "TOML parse error at line " ++ number ++ ", column " ++ Numeral.decimalText (column + 1) ++
    "\n" ++ margin ++ "\n" ++ number ++ " | " ++ String.ofList line ++ "\n" ++ margin ++
    blankText (column + 1) ++ String.ofList (List.replicate marks '^') ++ "\n"

/-- The text for a failure. -/
def Error.describe : Error → String
  | .source text => text
  | .encoding => "stream did not contain valid UTF-8"
  | .malformed => "malformed"
  | .mismatch text span fault => excerpt text span ++ fault.describe mismatchStyle ++ "\n"

end FaultDrill.Toml
