import FaultDrill.Document.Shape
import FaultDrill.Yaml.Scalar

/-!
Documents from YAML.

Owns:
- paths to values, and the failures of reading with their texts;
- the reading of texts, counts, lists and records from a tree, with a limit on how often aliases
  are followed;
- the reading of a whole document from bytes.

A list or a record may be left out: an empty plain scalar stands for an empty one.
-/

namespace FaultDrill.Yaml

/-- A step from a value to a part of it. -/
inductive PathStep where
  | field (name : List Char)
  | item (index : Nat)
  /-- The value of a key that is no scalar. -/
  | unnamed
  deriving DecidableEq, Repr

/-- The steps from the whole document to a value, the last one first. -/
abbrev Path := List PathStep

/-- The text for a path, empty for the whole document. -/
def Path.text : Path → String
  | [] => ""
  | .field name :: [] => String.ofList name
  | .field name :: outer => Path.text outer ++ "." ++ String.ofList name
  | .item index :: outer => Path.text outer ++ "[" ++ Numeral.decimalText index ++ "]"
  | .unnamed :: [] => "?"
  | .unnamed :: outer => Path.text outer ++ ".?"

/-- Why bytes are no document. -/
inductive Error where
  /-- The source of the bytes failed. -/
  | source (text : String)
  /-- The bytes are no YAML, or hold several documents. -/
  | malformed
  /-- A value is not what the document needs. -/
  | mismatch (path : Path) (mark : Mark) (fault : Mismatch)
  /-- Aliases are followed too often. -/
  | repetition
  deriving DecidableEq, Repr

/-- YAML calls the missing value a unit value, and writes floating-point numbers without an
exponent. -/
def mismatchStyle : MismatchStyle := ⟨"unit value", ⟨.up, none, true⟩⟩

/-- The text for a place. The first place of a text is left out. -/
def Mark.text (mark : Mark) : String :=
  if mark.line = 0 ∧ mark.column = 0 then ""
  else
    " at line " ++ Numeral.decimalText (mark.line + 1) ++ " column " ++
      Numeral.decimalText (mark.column + 1)

/-- The text for a failure. -/
def Error.describe : Error → String
  | .source text => text
  | .malformed => "malformed"
  | .mismatch path mark fault =>
    (if path.isEmpty then "" else path.text ++ ": ") ++ fault.describe mismatchStyle ++ mark.text
  | .repetition => "repetition limit exceeded"

/-- Where a reader stands: at a node, with the path to it, the anchored nodes of the document from
the last to the first, and the number of times that aliases may be followed. -/
structure Place where
  node : Node
  path : Path := []
  anchored : List (Nat × Node)
  limit : Nat

/-- A reading process; its state counts the aliases that were followed. -/
abbrev Reader := ReaderT Place (StateT Nat (Except Error))

namespace Reader

/-- Fails at the present node. -/
def fail {Value : Type} (fault : Mismatch) : Reader Value := do
  let place ← read
  throw (.mismatch place.path place.node.mark fault)

/-- Fails at a value of the wrong kind. -/
def wrongKind {Value : Type} (expected : ExpectedValue) : Reader Value := do
  match (← read).node with
  | .sequence .. => fail (.wrongKind .sequence expected)
  | .mapping .. => fail (.wrongKind .mapping expected)
  | .alias .. => fail (.wrongKind .nothing expected)
  | .scalar _ _ tag style text =>
    match Scalar.found tag style text with
    | .ok found => fail (.wrongKind found expected)
    | .error fault => fail fault

/-- Follows an alias to the node that it stands for. -/
def resolved {Value : Type} (reader : Reader Value) : Reader Value := do
  let place ← read
  match place.node with
  | .alias _ target =>
    modify (· + 1)
    if place.limit < (← get) then throw .repetition
    match place.anchored.lookup target with
    | some node => withReader ({ · with node }) reader
    | none => throw .malformed
  | _ => reader

/-- Reads a part of the present value. -/
def within {Value : Type} (step : PathStep) (node : Node) (reader : Reader Value) :
    Reader Value :=
  withReader (fun place => { place with node, path := step :: place.path }) reader

/-- Reads any scalar as a text. -/
def scalar (expected : ExpectedValue) : Reader (List Char) := resolved do
  match (← read).node with
  | .scalar _ _ _ _ text => return text
  | _ => wrongKind expected

/-- Reads a text. -/
def text : Reader String := do
  return String.ofList (← scalar .text)

/-- Reads a count. -/
def count : Reader UInt32 := resolved do
  match (← read).node with
  | .scalar _ _ tag style text =>
    match (if Scalar.mayBeCount tag style then Scalar.word? text else none) with
    | some value =>
      match countOf? value with
      | some count => return count
      | none => fail (.outOfRange (.integer value) .count)
    | none => wrongKind .count
  | _ => wrongKind .count

/-- Reads some items from a given number on. -/
def items {Item : Type} (item : Reader Item) : Nat → List Node → Reader (List Item)
  | _, [] => return []
  | index, node :: nodes => do
    let value ← within (.item index) node item
    return value :: (← items item (index + 1) nodes)

/-- Whether a node was left out. -/
def isMissing : Node → Bool
  | .scalar _ _ _ .plain [] => true
  | _ => false

/-- Reads a list. -/
def list {Item : Type} (item : Reader Item) : Reader (List Item) := resolved do
  match (← read).node with
  | .sequence _ _ nodes => items item 0 nodes
  | node => if isMissing node then return [] else wrongKind .sequence

/-- The step to the value of a key. -/
def stepOf : Node → PathStep
  | .scalar _ _ _ _ text => .field text
  | _ => .unnamed

/-- Reads the entries of a mapping into a record; `seen` holds the names of the fields read so
far. -/
def entries {Record : Type} (fields : List (ReadingField Reader Record)) :
    List (Node × Node) → List String → Record → Reader Record
  | [], _, record => return record
  | (key, value) :: rest, seen, record => do
    let name ← withReader ({ · with node := key }) (scalar .fieldName)
    match fields.find? (·.name == String.ofList name) with
    | none => entries fields rest seen record
    | some field =>
      if seen.contains field.name then fail (.duplicateField field.name)
      else
        let set ← within (stepOf key) value field.read
        entries fields rest (field.name :: seen) (set record)

/-- Reads a record. -/
def record {Record : Type}
    (typeName : String)
    (blank : Record)
    (fields : List (ReadingField Reader Record)) :
    Reader Record := resolved do
  match (← read).node with
  | .mapping _ _ nodes => entries fields nodes [] blank
  | node => if isMissing node then return blank else wrongKind (.record typeName)

/-- The parts of a document in YAML. -/
def reading : Reading Reader := ⟨text, count, list, record⟩

end Reader

/-- How many times the size of a tree its aliases may be followed. -/
def repetitionFactor : Nat := 100

/-- The document that a tree holds. -/
def documentOf (node : Node) : Except Error Document :=
  let place : Place := {
    node
    anchored := node.anchored.reverse
    limit := repetitionFactor * node.size }
  (Reader.reading.document place 0).map (·.1)

/-- The document in some bytes, after which the source ends or fails. -/
def decode (bytes : List UInt8) (failure : Option String) : Except Error Document :=
  match failure with
  | some text => .error (.source text)
  | none =>
    match (Text.Utf8.decode? bytes).bind Node.ofText? with
    | none => .error .malformed
    | some none => .ok {}
    | some (some node) => documentOf node

end FaultDrill.Yaml
