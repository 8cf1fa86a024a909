import FaultDrill.Toml.Number
import FaultDrill.Toml.Text

/-!
Values of TOML.

Owns: the grammar of values, with arrays and tables inside a value down to a depth.
-/

namespace FaultDrill.Toml.Reader

/-- Takes a fixed word. -/
def word (chars : List Char) : Reader Unit := do
  require (← tryTake chars)

/-- Takes a number or a moment. -/
def numberItem : Reader Item :=
  (do let ((), span) ← withSpan moment; return .moment span) <|>
  (do let (value, span) ← withSpan real; return .real span value) <|>
  (do let (value, span) ← withSpan integer; return .integer span value)

mutual

/-- Takes a value; `depth` is the number of brackets that may be open inside it and `steps` bounds
its size. -/
def value (depth : Nat) : Nat → Reader Item
  | 0 => failure
  | steps + 1 => do
    match ← rest with
    | '"' :: _ =>
      let (text, span) ← withSpan (text '"')
      return .text span text
    | '\'' :: _ =>
      let (text, span) ← withSpan (text '\'')
      return .text span text
    | '[' :: _ =>
      require (0 < depth)
      let (items, span) ← withSpan do
        skip 1
        arrayItems (depth - 1) steps
      return .array span items
    | '{' :: _ =>
      require (0 < depth)
      let (table, span) ← withSpan do
        skip 1
        blanks
        if ← tryTake ['}'] then return { role := .inline }
        else tableEntries (depth - 1) steps { role := .inline }
      return { table with span := some span }.toItem
    | 't' :: _ =>
      let ((), span) ← withSpan (word ['t', 'r', 'u', 'e'])
      return .boolean span true
    | 'f' :: _ =>
      let ((), span) ← withSpan (word ['f', 'a', 'l', 's', 'e'])
      return .boolean span false
    | 'i' :: _ | 'n' :: _ =>
      let (value, span) ← withSpan (special false)
      return .real span value
    | char :: _ =>
      require (char == '+' || char == '-' || char.isDigit)
      numberItem
    | [] => failure

/-- Takes the items of an array and its end; a comma may follow the last item. -/
def arrayItems (depth : Nat) : Nat → Reader (List Item)
  | 0 => failure
  | steps + 1 => do
    allSpaces
    if ← tryTake [']'] then return []
    else
      let item ← value depth steps
      allSpaces
      if ← tryTake [','] then return item :: (← arrayItems depth steps)
      else
        char ']'
        return [item]

/-- Takes the entries of a table in braces and its end, all on one line. -/
def tableEntries (depth : Nat) : Nat → Table → Reader Table
  | 0, _ => failure
  | steps + 1, table => do
    let (path, key) ← key
    char '='
    blanks
    let item ← value depth steps
    blanks
    let table ← table.insert path key item
    if ← tryTake [','] then tableEntries depth steps table
    else
      char '}'
      return table

end

/-- How many brackets may not be open at once. -/
def depthLimit : Nat := 80

/-- Takes the value of an entry. -/
def item : Reader Item := do
  value (depthLimit - 1) (2 * (← rest).length + 2)

end FaultDrill.Toml.Reader
