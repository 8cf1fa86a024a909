import FaultDrill.Toml.Value

/-!
The tree of a whole TOML text.

Owns:
- headers and entries, line by line;
- the tree so far, with the table that is being filled and the place where it belongs.

A table that only the headers of its parts implied may get a header of its own later; it then
moves behind the tables that were added in between.
-/

namespace FaultDrill.Toml

/-- The tree so far. `path` leads to the table that is being filled and is none for the whole
document; `repeated` tells that the table is one of several. -/
structure Outline where
  root : Table := {}
  current : Table := {}
  path : Option (List Key × Key) := none
  repeated : Bool := false
  deriving Repr

namespace Outline

/-- Where some tables are written, the last one first. -/
def spanOf (elements : List (Option Span × TableRole × List (Key × Item))) : Option Span :=
  match elements.getLast?, elements.head? with
  | some (some first, _), some (some last, _) => some ⟨first.start, last.stop⟩
  | _, _ => none

/-- Puts the table that was being filled into its place. -/
def closeTable (outline : Outline) : Option Table :=
  match outline.path with
  | none => some outline.current
  | some (path, key) =>
    (Table.within .implied (place key) path outline.root).map (·.2)
where
  /-- Puts the table into the table around it. -/
  place (key : Key) (parent : Table) : Option (Unit × Table) :=
    let table := outline.current
    match outline.repeated, parent.get? key.name with
    | false, none => some ((), parent.push key table.toItem)
    | true, none =>
      let elements := [(table.span, table.role, table.entries)]
      some ((), parent.push key (.tables (spanOf elements) elements))
    | true, some (.tables _ elements) =>
      let elements := (table.span, table.role, table.entries) :: elements
      some ((), parent.replace key.name (.tables (spanOf elements) elements))
    | _, _ => none

/-- Begins a table: a new one, or one that was only implied so far. -/
def openTable (root : Table) (path : List Key) (key : Key) (span : Span) : Option Outline := do
  let (entries, root) ← Table.within .implied take path root
  return { root, current := { span, entries }, path := (path, key) }
where
  /-- Takes the entries of an implied table away from the table around it. -/
  take (parent : Table) : Option (List (Key × Item) × Table) :=
    match parent.get? key.name with
    | none => some ([], parent)
    | some (.table _ .implied entries) => some (entries, parent.erase key.name)
    | some _ => none

/-- Begins one of several tables. -/
def openElement (root : Table) (path : List Key) (key : Key) (span : Span) : Option Outline := do
  let ((), root) ← Table.within .implied check path root
  return { root, current := { span }, path := (path, key), repeated := true }
where
  /-- Whether the name is free or stands for several tables. -/
  check (parent : Table) : Option (Unit × Table) :=
    match parent.get? key.name with
    | none => some ((), parent.push key (.tables none []))
    | some (.tables ..) => some ((), parent)
    | some _ => none

/-- Adds an entry to the table that is being filled, which then reaches up to it. -/
def define (outline : Outline) (path : List Key) (key : Key) (item : Item) : Option Outline := do
  let table ← outline.current.insert path key item
  let span :=
    match table.span, item.span with
    | some span, some itemSpan => some { span with stop := itemSpan.stop }
    | span, _ => span
  return { outline with current := { table with span } }

end Outline

namespace Reader

/-- Takes the key of a header and what closes it. -/
def headerKey (closing : List Char) : Reader (List Key × Key) := do
  let key ← key
  word closing
  return key

/-- Takes a line of the text: a comment, a header or an entry. -/
def line (outline : Outline) : Reader Outline := do
  match ← rest with
  | '#' :: _ | '\n' :: _ | '\r' :: _ =>
    lineEnd
    return outline
  | '[' :: '[' :: _ =>
    let ((path, key), span) ← withSpan do
      skip 2
      headerKey [']', ']']
    lineEnd
    Outline.openElement (← outline.closeTable) path key span
  | '[' :: _ =>
    let ((path, key), span) ← withSpan do
      skip 1
      headerKey [']']
    lineEnd
    Outline.openTable (← outline.closeTable) path key span
  | _ =>
    let (path, key) ← key
    char '='
    blanks
    let item ← item
    lineEnd
    outline.define path key item

/-- Takes all lines; `steps` bounds their number. -/
def lines : Nat → Outline → Reader Table
  | 0, _ => failure
  | steps + 1, outline => do
    blanks
    if (← rest).isEmpty then outline.closeTable
    else lines steps (← line outline)

end Reader

/-- The mark that may stand before a text. -/
def byteOrderMark : Char := '\uFEFF'

/-- The tree of a text, if the text is well formed. -/
def Table.ofText? (text : List Char) : Option Table :=
  let reader : Reader Table := do
    let _ ← Reader.tryTake [byteOrderMark]
    Reader.lines ((← Reader.rest).length + 1) {}
  (reader { rest := text }).map (·.1)

end FaultDrill.Toml
