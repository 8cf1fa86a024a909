import FaultDrill.Shell.State

/-!
Conditions that scripts test: texts, whole numbers, and what a path leads to.

A test that makes no sense has a status of its own.
-/

namespace FaultDrill.Shell.State

/-- The comparison of two whole numbers by name. -/
def comparison? : String → Option (Int → Int → Bool)
  | "-eq" => some fun left right => left == right
  | "-ne" => some fun left right => left != right
  | "-lt" => some fun left right => left < right
  | "-le" => some fun left right => left ≤ right
  | "-gt" => some fun left right => left > right
  | "-ge" => some fun left right => left ≥ right
  | _ => none

/-- Whether the entry that a path leads to has a property. -/
def hasEntry (state : State) (path : String) (property : Entry → Bool) : Bool :=
  match state.tree.stat ⟨path⟩ with
  | .ok entry => property entry
  | .error _ => false

/-- Whether a path ends at a link. -/
def isLink (state : State) (path : String) : Bool :=
  match state.tree.find .itself ⟨path⟩ with
  | .ok (_, .link _) => true
  | _ => false

/-- The outcome of a test, if the test makes sense. -/
def test? (state : State) : List String → Option Bool
  | [] => some false
  | [text] => some (text != "")
  | "!" :: rest => (test? state rest).map (!·)
  | ["-n", text] => some (text != "")
  | ["-z", text] => some (text == "")
  | ["-e", path] => some (state.tree.exists? ⟨path⟩)
  | ["-d", path] => some (state.tree.isDirectory ⟨path⟩)
  | ["-f", path] => some (state.hasEntry path fun
    | .file .. => true
    | _ => false)
  | ["-s", path] => some (state.hasEntry path fun
    | .file contents _ => !contents.isEmpty
    | _ => true)
  | ["-x", path] => some (state.hasEntry path fun
    | .file _ executable => executable
    | _ => true)
  | ["-r", path] => some (state.tree.exists? ⟨path⟩)
  | ["-w", path] => some (state.tree.exists? ⟨path⟩)
  | ["-L", path] => some (state.isLink path)
  | ["-h", path] => some (state.isLink path)
  | [left, "=", right] => some (left == right)
  | [left, "==", right] => some (left == right)
  | [left, "!=", right] => some (left != right)
  | [left, operator, right] => do
    let compare ← comparison? operator
    some (compare (← left.toInt?) (← right.toInt?))
  | _ => none

/-- The parts of some arguments between those that are a given word. -/
def partedAt (word : String) : List String → List (List String)
  | [] => [[]]
  | argument :: rest =>
    match partedAt word rest with
    | first :: others =>
      if argument = word then [] :: first :: others else (argument :: first) :: others
    | [] => [[argument]]

/-- The outcome of tests joined by `-o` and `-a`, the latter binding closer. -/
def tests? (state : State) (arguments : List String) : Option Bool :=
  if arguments.length ≤ 3 then state.test? arguments
  else do
    let alternatives ← (partedAt "-o" arguments).mapM fun part =>
      (partedAt "-a" part).mapM state.test?
    some (alternatives.any (·.all id))

/-- Carries out a test. -/
def test (state : State) (arguments : List String) : State :=
  state.withStatus <|
    match state.tests? arguments with
    | some true => 0
    | some false => 1
    | none => 2

end FaultDrill.Shell.State
