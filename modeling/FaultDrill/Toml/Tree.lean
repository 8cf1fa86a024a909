import FaultDrill.Numeral.BinaryFormat

/-!
The tree of a TOML document.

Owns:
- items and tables, with the parts of the text where they are written;
- how a table may be extended: by a header, by dotted keys, or not at all;
- adding to a table along a path of keys.

Tables keep their keys in the order in which they were added.
-/

namespace FaultDrill.Toml

/-- A part of a text, from one number of characters up to another. -/
structure Span where
  start : Nat
  stop : Nat
  deriving DecidableEq, Repr, Inhabited

/-- A key and where it is written. -/
structure Key where
  name : List Char
  span : Span
  deriving DecidableEq, Repr, Inhabited

/-- How a table came about. -/
inductive TableRole where
  /-- By a header of its own, or as the whole document. -/
  | header
  /-- By the header of a table inside it. -/
  | implied
  /-- By dotted keys. -/
  | dotted
  /-- As a value in braces. -/
  | inline
  deriving DecidableEq, Repr

/-- Whether dotted keys may go through a table. -/
def TableRole.isOpen : TableRole → Bool
  | .implied | .dotted => true
  | .header | .inline => false

/-- An item. Tables that are only implied have no place of their own. -/
inductive Item where
  | text (span : Span) (value : List Char)
  | integer (span : Span) (value : Int)
  | real (span : Span) (value : Numeral.BinaryValue)
  | boolean (span : Span) (value : Bool)
  | moment (span : Span)
  | array (span : Span) (items : List Item)
  | table (span : Option Span) (role : TableRole) (entries : List (Key × Item))
  /-- The tables of headers in double brackets, the last one first. -/
  | tables (span : Option Span)
      (elements : List (Option Span × TableRole × List (Key × Item)))
  deriving Repr, Inhabited

/-- Where an item is written. -/
def Item.span : Item → Option Span
  | .text span _ | .integer span _ | .real span _ | .boolean span _ | .moment span
  | .array span _ => some span
  | .table span .. | .tables span _ => span

/-- A table. -/
structure Table where
  span : Option Span := none
  role : TableRole := .header
  entries : List (Key × Item) := []
  deriving Repr, Inhabited

namespace Table

/-- A table as an item. -/
def toItem (table : Table) : Item := .table table.span table.role table.entries

/-- The item of a name. -/
def get? (table : Table) (name : List Char) : Option Item :=
  (table.entries.find? (·.1.name == name)).map (·.2)

/-- Adds an item after all others. -/
def push (table : Table) (key : Key) (item : Item) : Table :=
  { table with entries := table.entries ++ [(key, item)] }

/-- Puts an item in the place of the one of the same name. -/
def replace (table : Table) (name : List Char) (item : Item) : Table :=
  { table with
    entries := table.entries.map fun (key, old) => (key, if key.name == name then item else old) }

/-- Takes the item of a name away. -/
def erase (table : Table) (name : List Char) : Table :=
  { table with entries := table.entries.filter (·.1.name != name) }

/-- Changes the table at the end of a path; `none` means that the path is refused. Tables that are
missing on the way are made, with the given role. Of several tables of one header the last is
meant. Dotted keys do not go through a table with a header of its own. -/
def within {Result : Type}
    (role : TableRole)
    (change : Table → Option (Result × Table)) :
    List Key → Table → Option (Result × Table)
  | [], table => change table
  | key :: path, table =>
    match table.get? key.name with
    | none => do
      let (result, child) ← within role change path { role }
      return (result, table.push key child.toItem)
    | some (.table span childRole entries) =>
      if childRole = .inline ∨ (role = .dotted ∧ !childRole.isOpen) then none
      else do
        let (result, child) ← within role change path ⟨span, childRole, entries⟩
        return (result, table.replace key.name child.toItem)
    | some (.tables span ((childSpan, childRole, entries) :: earlier)) => do
      let (result, child) ← within role change path ⟨childSpan, childRole, entries⟩
      return (result, table.replace key.name
        (.tables span ((child.span, child.role, child.entries) :: earlier)))
    | some _ => none

/-- Adds an item under a new key. Only dotted keys add to a table that dotted keys made. -/
def define (dottedPath : Bool) (key : Key) (item : Item) (table : Table) :
    Option (Unit × Table) :=
  if (table.role == .dotted) != dottedPath then none
  else if (table.get? key.name).isSome then none
  else some ((), table.push key item)

/-- Adds an item under a dotted key. -/
def insert (table : Table) (path : List Key) (key : Key) (item : Item) : Option Table :=
  (within .dotted (define (!path.isEmpty) key item) path table).map (·.2)

end Table

end FaultDrill.Toml
