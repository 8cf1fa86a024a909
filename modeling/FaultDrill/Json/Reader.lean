import FaultDrill.Json.Error

/-!
Reading the bytes of a JSON document one after the other.

Owns:
- the cursor: what is left to read, the place of the last byte read, whether the next byte has
  been looked at, and how the source of the bytes ends;
- looking at, taking and passing over bytes;
- failures at the present place, and failures that get their place later.

Does not own: any part of the grammar.

A byte counts as seen once it has been looked at, so a failure names the place of the byte that
made it evident.
-/

namespace FaultDrill.Json

/-- A place in the bytes of a document. After the last byte the source either ends or, with
`failure`, breaks off. -/
structure Cursor where
  rest : List UInt8
  taken : Position := {}
  looked : Bool := false
  failure : Option String := none
  deriving DecidableEq, Repr

/-- The place of the last byte that was looked at. -/
def Cursor.seen (cursor : Cursor) : Position :=
  match cursor.looked, cursor.rest with
  | true, byte :: _ => cursor.taken.after byte
  | _, _ => cursor.taken

/-- A reading process: it moves the cursor and may fail, and a failure leaves the cursor where it
was noticed. -/
abbrev Reader := EStateM Error Cursor

namespace Reader

/-- Fails at the last byte seen. -/
def fail {Value : Type} (cause : Cause) : Reader Value := fun cursor =>
  .error ⟨cause, some cursor.seen⟩ cursor

/-- Fails at some other place. -/
def failAt {Value : Type} (cause : Cause) (position : Position) : Reader Value := fun cursor =>
  .error ⟨cause, some position⟩ cursor

/-- Fails without a place. -/
def failUnplaced {Value : Type} (cause : Cause) : Reader Value := fun cursor =>
  .error ⟨cause, none⟩ cursor

/-- A failure without a place gets the place of the last byte seen. -/
def placed {Value : Type} (reader : Reader Value) : Reader Value := fun cursor =>
  match reader cursor with
  | .ok value cursor => .ok value cursor
  | .error error cursor =>
    .error { error with position := error.position <|> some cursor.seen } cursor

/-- Looks at the next byte. -/
def peek : Reader (Option UInt8) := fun cursor =>
  match cursor.rest with
  | byte :: _ => .ok (some byte) { cursor with looked := true }
  | [] =>
    match cursor.failure with
    | none => .ok none cursor
    | some text => .error ⟨.source text, none⟩ cursor

/-- Takes the next byte; at the end nothing happens. -/
def drop : Reader Unit := fun cursor =>
  match cursor.rest with
  | byte :: rest =>
    .ok () { cursor with rest, taken := cursor.taken.after byte, looked := false }
  | [] => .ok () cursor

/-- Looks at the next byte and takes it. -/
def next : Reader (Option UInt8) := do
  let byte ← peek
  drop
  return byte

/-- Whether the next byte exists and is in a class. -/
def nextIs (class' : UInt8 → Bool) : Reader Bool := do
  match ← peek with
  | some byte => return class' byte
  | none => return false

/-- Takes the longest run of bytes in a class and looks at the byte after it. -/
def takeWhile (class' : UInt8 → Bool) : Reader (List UInt8) := do
  let cursor ← get
  let run := cursor.rest.takeWhile class'
  set { cursor with
    rest := cursor.rest.dropWhile class'
    taken := run.foldl Position.after cursor.taken
    looked := cursor.looked && run.isEmpty }
  let _ ← peek
  return run

/-- White space of JSON. -/
def isBlank (byte : UInt8) : Bool :=
  byte == 0x20 || byte == 0x0A || byte == 0x09 || byte == 0x0D

/-- Passes over white space and looks at the byte after it. -/
def peekToken : Reader (Option UInt8) := do
  let _ ← takeWhile isBlank
  peek

end Reader

end FaultDrill.Json
