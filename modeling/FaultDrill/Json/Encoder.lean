import FaultDrill.Document.Shape
import FaultDrill.Json.Text
import FaultDrill.Numeral.Layout

/-!
Documents as JSON: one value a line, four blanks for every level, empty lists in one piece.

Owns: the pieces in which a document is written, one after the other.
-/

namespace FaultDrill.Json

/-- A value at some level of nesting, as the pieces that are written. -/
abbrev Pieces := Nat → List String

/-- The end of a line and the blanks of the next one. -/
def lineBreak (level : Nat) : List String :=
  "\n" :: List.replicate level "    "

/-- Elements on lines of their own, between two brackets. -/
def bracketed (opening closing : String) (level : Nat) : List (List String) → List String
  | [] => [opening, closing]
  | first :: rest =>
    opening :: lineBreak (level + 1) ++ first ++
      rest.flatMap (fun element => "," :: lineBreak (level + 1) ++ element) ++
      lineBreak level ++ [closing]

/-- The parts of a document in JSON. -/
def writing : Writing Pieces where
  text text _ := [textLiteral text]
  count count _ := [Numeral.decimalText count.toNat]
  list items level := bracketed "[" "]" level (items.map (· (level + 1)))
  record fields level :=
    bracketed "\x7b" "\x7d" level
      (fields.map fun (name, value) => textLiteral name :: ": " :: value (level + 1))

/-- The pieces of a document, without the final end of line. -/
def encode (document : Document) : List String :=
  writing.document document 0

end FaultDrill.Json
