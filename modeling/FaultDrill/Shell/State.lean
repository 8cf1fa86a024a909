import FaultDrill.FileTree.Operations
import FaultDrill.Runtime
import FaultDrill.Shell.Syntax
import FaultDrill.Text.Utf8

/-!
The state of a running script.

Owns:
- variables, arguments, files, and where output goes;
- the values of parameters, patterns, and words with their parameters replaced;
- printing.
-/

namespace FaultDrill.Shell

/-- Where a descriptor leads. -/
inductive Sink where
  | output
  | errors
  | file (location : Location)
  | nowhere
  deriving DecidableEq, Repr

/-- How a script goes on. -/
inductive Flow where
  | running
  | exited
  | killed
  deriving DecidableEq, Repr

/-- The state of a running script. -/
structure State where
  tree : FileTree
  /-- The name by which the script was called. -/
  name : String
  arguments : List String
  /-- The variables with their values. -/
  values : List (String × String)
  status : Nat := 0
  flow : Flow := .running
  /-- Whether a failure ends the script. -/
  exitsOnFailure : Bool := false
  /-- What is left of the standard input. -/
  input : List Char := []
  standardOutput : Sink := .output
  standardErrors : Sink := .errors
  output : String := ""
  errors : String := ""
  /-- What had been done each time the script paused, the last time first. -/
  pauses : List Effect := []
  deriving DecidableEq, Repr

namespace State

/-! ## Printing -/

/-- Prints where a descriptor leads. -/
def printTo (state : State) (text : String) : Sink → State
  | .output => { state with output := state.output ++ text }
  | .errors => { state with errors := state.errors ++ text }
  | .nowhere => state
  | .file location =>
    match state.tree.get? location with
    | some (.file contents executable) =>
      let contents := contents ++ Text.Utf8.encode text.toList
      { state with tree := state.tree.put location (.file contents executable) }
    | _ => state

/-- Prints to the standard output. -/
def print (state : State) (text : String) : State := state.printTo text state.standardOutput

/-- Prints to the standard error output. -/
def complain (state : State) (text : String) : State := state.printTo text state.standardErrors

/-- Sets the status of the last command. -/
def withStatus (state : State) (status : Nat) : State := { state with status }

/-- What has been done so far. -/
def effect (state : State) : Effect := ⟨state.tree, state.output, state.errors⟩

/-- Notes that the script pauses. -/
def pause (state : State) : State := { state with pauses := state.effect :: state.pauses }

/-! ## Parameters -/

/-- The number by which the shell knows itself. -/
def processNumber : String := "4242"

/-- Sets a variable. -/
def set (state : State) (name value : String) : State :=
  { state with values := (name, value) :: state.values.filter (·.1 != name) }

/-- The value of a parameter, if it is set. -/
def value? (state : State) (name : String) : Option String :=
  match name with
  | "#" => some (toString state.arguments.length)
  | "*" | "@" => some (String.intercalate " " state.arguments)
  | "$" => some processNumber
  | "?" => some (toString state.status)
  | "!" => none
  | "0" => some state.name
  | _ =>
    match name.toNat? with
    | some number => state.arguments[number - 1]?
    | none => state.values.lookup name

/-- Whether a pattern matches a text: a question mark stands for any character, a star for any
text, and a character after a backslash for itself. -/
def matchesPattern : List Char → List Char → Bool
  | [], text => text.isEmpty
  | '*' :: pattern, text =>
    (List.range (text.length + 1)).any fun count => matchesPattern pattern (text.drop count)
  | '?' :: pattern, text =>
    match text with
    | _ :: text => matchesPattern pattern text
    | [] => false
  | '\\' :: char :: pattern, text =>
    match text with
    | first :: text => first == char && matchesPattern pattern text
    | [] => false
  | char :: pattern, text =>
    match text with
    | first :: text => first == char && matchesPattern pattern text
    | [] => false

/-- The pattern that matches a text alone. -/
def exactly (text : List Char) : List Char :=
  text.flatMap fun char => if ['*', '?', '\\'].contains char then ['\\', char] else [char]

/-- Whether a pattern matches more than one text. -/
def isOpenPattern : List Char → Bool
  | [] => false
  | '\\' :: _ :: pattern => isOpenPattern pattern
  | char :: pattern => char == '*' || char == '?' || isOpenPattern pattern

/-- The text that a pattern is written for. -/
def literalText : List Char → List Char
  | [] => []
  | '\\' :: char :: pattern => char :: literalText pattern
  | char :: pattern => char :: literalText pattern

/-- A text without the end or the beginning that matches a pattern. Lengths are tried in the given
order. -/
def cut (lengths : List Nat) (part rest : Nat → List Char) (pattern : List Char) :
    Option (List Char) :=
  (lengths.find? fun length => matchesPattern pattern (part length)).map rest

/-- The value of a parameter in some form. -/
def formed (value : Option String) : Form → String
  | .plain => value.getD ""
  | .length => toString (value.getD "").length
  | .fallback text orEmpty =>
    match value with
    | none => String.ofList text
    | some value => if value = "" ∧ orEmpty then String.ofList text else value
  | .withoutEnd pattern longest =>
    let text := (value.getD "").toList
    let lengths := List.range (text.length + 1)
    let cutText := cut (if longest then lengths.reverse else lengths)
      (fun length => text.drop (text.length - length))
      (fun length => text.take (text.length - length)) pattern
    String.ofList (cutText.getD text)
  | .withoutBeginning pattern longest =>
    let text := (value.getD "").toList
    let lengths := List.range (text.length + 1)
    let cutText := cut (if longest then lengths.reverse else lengths) text.take text.drop pattern
    String.ofList (cutText.getD text)

/-! ## Paths that match -/

/-- The names in a directory that match a pattern, in order. Names that start with a dot have to be
asked for. -/
def matchingNames (tree : FileTree) (directory : Path) (pattern : List Char) : List String :=
  match tree.find .target directory with
  | .ok (location, .directory) =>
    let names := (tree.below location).filterMap fun
      | ([name], _) => some name
      | _ => none
    let hidden := pattern.head? == some '.'
    ((if hidden then ["..", "."] else []) ++ names).mergeSort.filter fun name =>
      (hidden || !name.startsWith ".") && matchesPattern pattern name.toList
  | _ => []

/-- The paths below a directory that match the parts of a pattern; the path of the directory ends
with its separator, or is empty. -/
def matchingBelow (tree : FileTree) (directory : String) : List (List Char) → List String
  | [] => []
  | [name] =>
    if isOpenPattern name then
      (matchingNames tree ⟨if directory = "" then "." else directory⟩ name).map (directory ++ ·)
    else
      let path := directory ++ String.ofList (literalText name)
      if (tree.find .itself ⟨path⟩).isOk then [path] else []
  | name :: rest =>
    if isOpenPattern name then
      (matchingNames tree ⟨if directory = "" then "." else directory⟩ name).flatMap
        fun found => matchingBelow tree (directory ++ found ++ "/") rest
    else matchingBelow tree (directory ++ String.ofList (literalText name) ++ "/") rest

/-- The paths that match a pattern, or the text of the pattern if there are none. -/
def pathsOf (state : State) (pattern : List Char) : List String :=
  let paths :=
    if isOpenPattern pattern then matchingBelow state.tree "" (Path.split pattern) else []
  if paths.isEmpty then [String.ofList (literalText pattern)] else paths

/-! ## Words -/

/-- Fields in the making, as patterns: those that are complete, the last first, and the present
one, if it has begun. -/
structure Fields where
  complete : List (List Char) := []
  present : Option (List Char) := none

/-- Adds a pattern to the present field. -/
def Fields.extend (fields : Fields) (pattern : List Char) : Fields :=
  { fields with present := some (fields.present.getD [] ++ pattern) }

/-- Ends the present field. -/
def Fields.finish (fields : Fields) : Fields :=
  match fields.present with
  | some pattern => ⟨pattern :: fields.complete, none⟩
  | none => fields

/-- Adds a text that is parted at blanks. -/
def Fields.split (fields : Fields) : List Char → Fields
  | [] => fields
  | char :: rest =>
    if char = ' ' ∨ char = '\t' ∨ char = '\n' then fields.finish.split rest
    else (fields.extend (if char = '\\' then exactly [char] else [char])).split rest

/-- Adds texts that are fields of their own, except that the first goes on with the present one
and the last may be gone on with. -/
def Fields.splice (fields : Fields) : List String → Fields
  | [] => fields
  | [last] => fields.extend (exactly last.toList)
  | first :: rest => (fields.extend (exactly first.toList)).finish.splice rest

/-- Adds a piece of a word. -/
def addPiece (state : State) (fields : Fields) : Piece → Fields
  | .text text quoted => fields.extend (if quoted then exactly text else text)
  | .parameter "@" .plain true => fields.splice state.arguments
  | .parameter name form true => fields.extend (exactly (formed (state.value? name) form).toList)
  | .parameter name form false => fields.split (formed (state.value? name) form).toList

/-- The fields that a word becomes. -/
def fieldsOf (state : State) (word : Word) : List String :=
  (word.foldl state.addPiece {}).finish.complete.reverse.flatMap state.pathsOf

/-- The text that a word becomes where it is not parted. -/
def textOf (state : State) (word : Word) : String :=
  String.join (word.map fun
    | .text text _ => String.ofList text
    | .parameter name form _ => formed (state.value? name) form)

/-- The pattern that a word becomes where it is not parted. -/
def patternOf (state : State) (word : Word) : List Char :=
  word.flatMap fun
    | .text text quoted => if quoted then exactly text else text
    | .parameter name form quoted =>
      let value := (formed (state.value? name) form).toList
      if quoted then exactly value else value

end State

end FaultDrill.Shell
