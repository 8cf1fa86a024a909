import FaultDrill.Document.Shape
import FaultDrill.Text.Utf8
import FaultDrill.Toml.Error
import FaultDrill.Toml.Outline

/-!
Documents from TOML.

Owns: the reading of texts, counts, lists and records from a tree, and of a whole document from
bytes.

A record may also be written as a list of its values in the order of its fields.
-/

namespace FaultDrill.Toml

/-- Where a value is at fault, and how. -/
structure Fault where
  span : Span
  mismatch : Mismatch
  deriving DecidableEq, Repr

/-- An item, and the place to name if it is at fault: its own, or that of its key. -/
structure Place where
  item : Item
  span : Span

/-- A reading process. -/
abbrev TreeReader := ReaderT Place (Except Fault)

namespace TreeReader

/-- Fails at the present item. -/
def fail {Value : Type} (mismatch : Mismatch) : TreeReader Value := do
  throw ⟨(← read).span, mismatch⟩

/-- What a reader finds. A moment counts as a mapping. -/
def found : Item → FoundValue
  | .text _ value => .text (String.ofList value)
  | .integer _ value => .integer value
  | .real _ value => .real value
  | .boolean _ value => .boolean value
  | .moment _ | .table .. => .mapping
  | .array .. | .tables .. => .sequence

/-- Fails at an item of the wrong kind. -/
def wrongKind {Value : Type} (expected : ExpectedValue) : TreeReader Value := do
  fail (.wrongKind (found (← read).item) expected)

/-- Reads a part of the present item. -/
def within {Value : Type} (item : Item) (reader : TreeReader Value) : TreeReader Value :=
  withReader (fun place => ⟨item, item.span.getD place.span⟩) reader

/-- Reads the value of a key. -/
def under {Value : Type} (key : Key) (item : Item) (reader : TreeReader Value) :
    TreeReader Value :=
  withReader (fun _ => ⟨item, item.span.getD key.span⟩) reader

/-- The items of an array, or the tables of several, if the item is one of these. -/
def elements? : Item → Option (List Item)
  | .array _ items => some items
  | .tables _ elements =>
    some (elements.reverse.map fun (span, role, entries) => .table span role entries)
  | _ => none

/-- Reads a text. -/
def text : TreeReader String := do
  match (← read).item with
  | .text _ value => return String.ofList value
  | _ => wrongKind .text

/-- Reads a count. -/
def count : TreeReader UInt32 := do
  match (← read).item with
  | .integer _ value =>
    match countOf? value with
    | some count => return count
    | none => fail (.outOfRange (.integer value) .count)
  | _ => wrongKind .count

/-- Reads a list. -/
def list {Item : Type} (item : TreeReader Item) : TreeReader (List Item) := do
  match elements? (← read).item with
  | some elements => elements.mapM fun element => within element item
  | none => wrongKind .sequence

/-- Reads the fields of a record one after the other, as many as there are values. -/
def positional {Record : Type} :
    List (ReadingField TreeReader Record) → List Item → Record → TreeReader Record
  | field :: fields, element :: elements, record => do
    let set ← within element field.read
    positional fields elements (set record)
  | _, _, record => return record

/-- Reads the entries of a table into a record. -/
def entries {Record : Type} (fields : List (ReadingField TreeReader Record)) :
    List (Key × Item) → Record → TreeReader Record
  | [], record => return record
  | (key, item) :: rest, record => do
    match fields.find? (·.name == String.ofList key.name) with
    | none => entries fields rest record
    | some field =>
      let set ← under key item field.read
      entries fields rest (set record)

/-- Reads a record. -/
def record {Record : Type}
    (typeName : String)
    (blank : Record)
    (fields : List (ReadingField TreeReader Record)) :
    TreeReader Record := do
  let item := (← read).item
  match item, elements? item with
  | .table _ _ members, _ => entries fields members blank
  | .moment _, _ => return blank
  | _, some elements => positional fields elements blank
  | _, none => wrongKind (.record typeName)

/-- The parts of a document in TOML. -/
def reading : Reading TreeReader := ⟨text, count, list, record⟩

end TreeReader

/-- The document of a text. -/
def documentOf (text : List Char) : Except Error Document :=
  match Table.ofText? text with
  | none => .error .malformed
  | some table =>
    match TreeReader.reading.document ⟨table.toItem, ⟨0, 0⟩⟩ with
    | .ok document => .ok document
    | .error fault => .error (.mismatch text fault.span fault.mismatch)

/-- The document in some bytes, after which the source ends or fails. -/
def decode (bytes : List UInt8) (failure : Option String) : Except Error Document :=
  match failure with
  | some text => .error (.source text)
  | none =>
    match Text.Utf8.decode? bytes with
    | none => .error .encoding
    | some text => documentOf text

end FaultDrill.Toml
