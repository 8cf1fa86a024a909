import FaultDrill.Document.Shape
import FaultDrill.Json.Number
import FaultDrill.Json.Text

/-!
Documents from JSON.

Owns:
- passing over a value that the document does not need;
- the reading of texts, counts, lists and records, which meets faults in the order of the text;
- the reading of a whole document.

A record may also be written as a list of its values in the order of its fields.
-/

namespace FaultDrill.Json

namespace Reader

/-- Takes the rest of a fixed word. -/
def word : List UInt8 → Reader Unit
  | [] => return ()
  | expected :: rest => do
    match ← next with
    | none => fail .endOfValue
    | some byte => if byte = expected then word rest else fail .expectedIdentifier

/-- The bytes of `null`, `true` and `false` after their first. -/
def restOfNull : List UInt8 := [0x75, 0x6C, 0x6C]

@[inherit_doc restOfNull]
def restOfTrue : List UInt8 := [0x72, 0x75, 0x65]

@[inherit_doc restOfNull]
def restOfFalse : List UInt8 := [0x61, 0x6C, 0x73, 0x65]

/-! ## Values that are passed over -/

/-- Goes on after a comma and stops after a closing bracket; the causes are those of a source that
ends there and of anything else. -/
def separated (closing : UInt8) (ended unexpected : Cause) (onward : Reader Unit) :
    Reader Unit := do
  match ← peekToken with
  | none => fail ended
  | some byte =>
    if byte = 0x2C then do drop; onward
    else if byte = closing then drop
    else fail unexpected

mutual

/-- Passes over a value; `steps` bounds its size. -/
def skipValue : Nat → Reader Unit
  | 0 => fail .endOfValue
  | steps + 1 => do
    match ← peekToken with
    | none => fail .endOfValue
    | some 0x6E => do drop; word restOfNull
    | some 0x74 => do drop; word restOfTrue
    | some 0x66 => do drop; word restOfFalse
    | some 0x2D => do drop; skipNumber
    | some 0x22 => do drop; skipTextTail
    | some 0x5B => do
      drop
      match ← peekToken with
      | none => fail .endOfList
      | some 0x5D => drop
      | some _ => skipItems steps
    | some 0x7B => do
      drop
      match ← peekToken with
      | none => fail .endOfObject
      | some 0x7D => drop
      | some _ => skipMembers steps
    | some byte => if Number.isDigit byte then skipNumber else fail .expectedValue

/-- Passes over the items of a list from one item on. -/
def skipItems : Nat → Reader Unit
  | 0 => fail .endOfList
  | steps + 1 => do
    skipValue steps
    separated 0x5D .endOfList .expectedListCommaOrEnd (skipItems steps)

/-- Passes over the members of an object from one member on. -/
def skipMembers : Nat → Reader Unit
  | 0 => fail .endOfObject
  | steps + 1 => do
    match ← peekToken with
    | none => fail .endOfObject
    | some 0x22 => do
      drop
      skipTextTail
      match ← peekToken with
      | none => fail .endOfObject
      | some 0x3A => do
        drop
        skipValue steps
        separated 0x7D .endOfObject .expectedObjectCommaOrEnd (skipMembers steps)
      | some _ => fail .expectedColon
    | some _ => fail .keyMustBeText

end

/-- Passes over a value. -/
def skip : Reader Unit := do
  let cursor ← get
  skipValue (2 * cursor.rest.length + 2)

/-! ## Values of the wrong kind -/

/-- Fails with a value of the wrong kind. -/
def wrongKind {Value : Type} (expected : ExpectedValue) (found : FoundValue) : Reader Value :=
  failUnplaced (.mismatch (.wrongKind found expected))

/-- Reads as much of a value as is needed to say what it is, and fails. -/
def mismatch {Value : Type} (expected : ExpectedValue) : Reader Value := placed do
  match ← peek with
  | some 0x6E => do drop; word restOfNull; wrongKind expected .nothing
  | some 0x74 => do drop; word restOfTrue; wrongKind expected (.boolean true)
  | some 0x66 => do drop; word restOfFalse; wrongKind expected (.boolean false)
  | some 0x2D => do drop; wrongKind expected (← number false).found
  | some 0x22 => do drop; wrongKind expected (.text (← textTail))
  | some 0x5B => wrongKind expected .sequence
  | some 0x7B => wrongKind expected .mapping
  | some byte =>
    if Number.isDigit byte then wrongKind expected (← number true).found
    else fail .expectedValue
  | none => fail .expectedValue

/-! ## Values that the document needs -/

/-- Looks at the first byte of a value. -/
def valueStart : Reader UInt8 := do
  match ← peekToken with
  | some byte => return byte
  | none => fail .endOfValue

/-- Reads a text. -/
def text : Reader String := do
  match ← valueStart with
  | 0x22 => do drop; textTail
  | _ => placed (mismatch .text)

/-- A number as a count. -/
def countOfNumber : Number → Reader UInt32
  | .integer value =>
    match countOf? value with
    | some count => return count
    | none => failUnplaced (.mismatch (.outOfRange (.integer value) .count))
  | .real value => wrongKind .count (.real value)

/-- Reads a count. -/
def count : Reader UInt32 := do
  match ← valueStart with
  | 0x2D => do
    drop
    let value ← number false
    placed (countOfNumber value)
  | byte =>
    if Number.isDigit byte then do
      let value ← number true
      placed (countOfNumber value)
    else placed (mismatch .count)

/-- Whether a list has another item; `first` tells that none was read yet. -/
def hasItem (first : Bool) : Reader Bool := do
  match ← peekToken with
  | none => fail .endOfList
  | some 0x5D => return false
  | some byte =>
    if first then return true
    else if byte = 0x2C then
      drop
      match ← peekToken with
      | some 0x5D => fail .trailingComma
      | some _ => return true
      | none => fail .endOfValue
    else fail .expectedListCommaOrEnd

/-- Whether an object has another member; `first` tells that none was read yet. -/
def hasMember (first : Bool) : Reader Bool := do
  match ← peekToken with
  | none => fail .endOfObject
  | some 0x7D => return false
  | some byte =>
    if first then if byte = 0x22 then return true else fail .keyMustBeText
    else if byte = 0x2C then
      drop
      match ← peekToken with
      | some 0x22 => return true
      | some 0x7D => fail .trailingComma
      | some _ => fail .keyMustBeText
      | none => fail .endOfValue
    else fail .expectedObjectCommaOrEnd

/-- Fails at a comma that no item may follow. -/
def surplusComma : Reader Unit := fun cursor =>
  match (do drop; peekToken : Reader (Option UInt8)) cursor with
  | .ok (some 0x5D) cursor => fail .trailingComma cursor
  | .ok _ cursor | .error _ cursor => fail .trailingCharacters cursor

/-- Takes the end of a list. -/
def listEnd : Reader Unit := do
  match ← peekToken with
  | some 0x5D => drop
  | some 0x2C => surplusComma
  | some _ => fail .trailingCharacters
  | none => fail .endOfList

/-- Takes the end of an object. -/
def objectEnd : Reader Unit := do
  match ← peekToken with
  | some 0x7D => drop
  | some 0x2C => fail .trailingComma
  | some _ => fail .trailingCharacters
  | none => fail .endOfObject

/-- Reads a value and its end. The end is looked for also after a failure, which then keeps its
cause but may get a later place. -/
def thenEnd {Value : Type} (value : Reader Value) (ending : Reader Unit) : Reader Value :=
  fun cursor =>
    match value cursor with
    | .ok value cursor =>
      match ending cursor with
      | .ok () cursor => .ok value cursor
      | .error error cursor => .error error cursor
    | .error error cursor =>
      match ending cursor with
      | .ok () cursor | .error _ cursor => .error error cursor

/-- Reads the items of a list; `steps` bounds their number. -/
def items {Item : Type} (item : Reader Item) : Nat → Bool → Reader (List Item)
  | 0, _ => return []
  | steps + 1, first => do
    if ← hasItem first then
      let value ← item
      let values ← items item steps false
      return value :: values
    else return []

/-- Reads a list. -/
def list {Item : Type} (item : Reader Item) : Reader (List Item) := do
  match ← valueStart with
  | 0x5B => placed do
    drop
    let cursor ← get
    thenEnd (items item (cursor.rest.length + 1) true) listEnd
  | _ => placed (mismatch .sequence)

/-- Reads the values of a record from a list, as many as there are. -/
def positional {Record : Type} :
    List (ReadingField Reader Record) → Bool → Record → Reader Record
  | [], _, record => return record
  | field :: fields, first, record => do
    if ← hasItem first then
      let set ← field.read
      positional fields false (set record)
    else positional fields first record

/-- Takes the colon after a name. -/
def colon : Reader Unit := do
  match ← peekToken with
  | some 0x3A => drop
  | some _ => fail .expectedColon
  | none => fail .endOfObject

/-- Reads the members of an object into a record; `seen` holds the names of the fields read so
far and `steps` bounds the number of members. -/
def members {Record : Type} (fields : List (ReadingField Reader Record)) :
    Nat → Bool → List String → Record → Reader Record
  | 0, _, _, record => return record
  | steps + 1, first, seen, record => do
    if ← hasMember first then
      drop
      let name ← textTail
      match fields.find? (·.name == name) with
      | none =>
        colon
        skip
        members fields steps false seen record
      | some field =>
        if seen.contains name then failUnplaced (.mismatch (.duplicateField name))
        else
          colon
          let set ← field.read
          members fields steps false (name :: seen) (set record)
    else return record

/-- Reads a record. -/
def record {Record : Type}
    (typeName : String)
    (blank : Record)
    (fields : List (ReadingField Reader Record)) :
    Reader Record := do
  match ← valueStart with
  | 0x5B => placed do
    drop
    thenEnd (positional fields true blank) listEnd
  | 0x7B => placed do
    drop
    let cursor ← get
    thenEnd (members fields (cursor.rest.length + 1) true [] blank) objectEnd
  | _ => placed (mismatch (.record typeName))

/-- Takes white space up to the end of the source. -/
def sourceEnd : Reader Unit := do
  match ← peekToken with
  | none => return ()
  | some _ => fail .trailingCharacters

/-- The parts of a document in JSON. -/
def reading : Reading Reader := ⟨text, count, list, record⟩

/-- Reads a document that fills the source. -/
def document : Reader Document := do
  let document ← reading.document
  sourceEnd
  return document

end Reader

/-- The document in some bytes, after which the source ends or fails. -/
def decode (bytes : List UInt8) (failure : Option String) : Except Error Document :=
  match Reader.document { rest := bytes, failure } with
  | .ok document _ => .ok document
  | .error error _ => .error error

end FaultDrill.Json
