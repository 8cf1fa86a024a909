import FaultDrill.Environment
import FaultDrill.Shell.Run

/-!
Starting programs.

Owns:
- the search for a program, and what a file has to be to be started;
- the programs that every host has;
- the container runtime that is a program on the host, called with arguments.

A program is started in the directory of the call. Its name is looked for in the directories of the
search path unless it holds a separator.
-/

namespace FaultDrill.Shell

/-- A program that can be started, with the arguments that go before those of the call. -/
inductive Program where
  | utility (name : String) (arguments : List String)
  /-- A script for the shell, called by some name. -/
  | script (name : String) (contents : List UInt8)
  /-- The shell itself, which takes the path of a script as its first argument. -/
  | shell
  deriving DecidableEq, Repr

namespace Program

/-- The names of the shell. -/
def shellNames : List String := ["sh", "dash", "bash"]

/-- The directories of the programs that every host has. -/
def systemDirectories : List (List Char) := ["/bin/".toList, "/usr/bin/".toList]

/-- The program that every host has at a path. -/
def system? (path : String) : Option Program := do
  let directory ← systemDirectories.find? fun directory => directory.isPrefixOf path.toList
  let name := String.ofList (path.toList.drop directory.length)
  if shellNames.contains name then some .shell
  else if (State.utilities.lookup name).isSome then some (.utility name [])
  else none

/-- The interpreter and its argument in the first line of a script. -/
def interpreter? (contents : List UInt8) : Option (String × Option String) :=
  match contents with
  | 0x23 :: 0x21 :: rest =>
    let line := (Text.Utf8.replacedText (rest.takeWhile (· != 0x0A))).toList
    let trimmed := line.dropWhile Token.isBlank
    let path := trimmed.takeWhile (!Token.isBlank ·)
    let argument := (trimmed.drop path.length).dropWhile Token.isBlank
    let argument := (argument.reverse.dropWhile Token.isBlank).reverse
    some (String.ofList path, if argument.isEmpty then none else some (String.ofList argument))
  | _ => none

/-- The program that a script is, for its interpreter. -/
def ofScript (path : String) (contents : List UInt8) : Except FileError Program :=
  match interpreter? contents with
  | none => .error .notAProgram
  | some (interpreter, argument) =>
    let called := if interpreter = "/usr/bin/env" then "/usr/bin/" ++ argument.getD ""
      else interpreter
    match system? called with
    | some .shell => .ok (.script path contents)
    | some (.utility name _) => .ok (.utility name (argument.toList ++ [path]))
    | some (.script ..) | none => .error .notFound

/-- The program at a path. -/
def at? (tree : FileTree) (path : String) : Except FileError Program :=
  match tree.stat ⟨path⟩ with
  | .ok (.file contents true) => ofScript path contents
  | .ok _ => .error .denied
  | .error .notFound =>
    match system? path with
    | some program => .ok program
    | none => .error .notFound
  | .error error => .error error

/-- The directories in a search path; an empty one is the present one. -/
def searchDirectories (searchPath : String) : List String := searchPath.splitOn ":"

/-- The first program of a name in some directories. Directories without it are passed over, and
so are files that may not be started, which are remembered. -/
def search (tree : FileTree) (name : String) (denied : Bool) :
    List String → Except FileError Program
  | [] => .error (if denied then .denied else .notFound)
  | directory :: rest =>
    match at? tree (if directory = "" then name else directory ++ "/" ++ name) with
    | .ok program => .ok program
    | .error .denied => search tree name true rest
    | .error .notFound | .error .notDirectory => search tree name denied rest
    | .error error => .error error

/-- The program of a name. -/
def find (tree : FileTree) (searchPath name : String) : Except FileError Program :=
  if name = "" then .error .notFound
  else if name.contains '/' then at? tree name
  else if FileTree.nameLimit < name.utf8ByteSize then .error .nameTooLong
  else search tree name false (searchDirectories searchPath)

/-- The state in which a program starts. -/
def start
    (tree : FileTree)
    (environment : Environment)
    (name : String)
    (arguments : List String) :
    State where
  tree
  name
  arguments
  values :=
    ("PWD", "/" ++ String.intercalate "/" tree.base) ::
      environment.map fun (name, value) => (name, Text.Utf8.replacedText value)

/-- Runs a script. -/
def runScript (state : State) (contents : List UInt8) : State :=
  (Command.ofText (Text.Utf8.replacedText contents).toList).run false state

/-- Runs a program with some arguments. -/
def run
    (program : Program)
    (tree : FileTree)
    (environment : Environment)
    (arguments : List String) :
    State :=
  match program with
  | .script name contents => runScript (start tree environment name arguments) contents
  | .utility name first =>
    (start tree environment name []).call 0 name (first ++ arguments)
  | .shell =>
    match arguments with
    | path :: rest =>
      let state := start tree environment path rest
      match tree.read ⟨path⟩ with
      | .ok contents => runScript state contents
      | .error _ => state.fault ("sh: 0: cannot open " ++ path ++ ": No such file") 2
    | [] => start tree environment "sh" []

end Program

/-! ## The runtime that is a program -/

/-- How programs are called: their environment, the directories in which they are looked for, and
when an interrupt arrives, as seen from the files. -/
structure Launching where
  environment : Environment
  searchPath : String
  interrupts : FileTree → Bool := fun _ => false

namespace Launching

/-- What a call has done, seen from the directory of the caller. -/
def seenFrom (caller : FileTree) (effect : Effect) : Effect :=
  { effect with tree := { effect.tree with base := caller.base } }

/-- Starts a program in the directory of a call and runs it. -/
def launch (launching : Launching) (program : String) (call : Call) (tree : FileTree) :
    Except FileError State := do
  if (program :: call.directory.text :: call.arguments).any (·.contains '\x00') then
    throw .nulArgument
  match ← tree.find .target call.directory with
  | (location, .directory) =>
    let inside := { tree with base := location }
    let found ← Program.find inside launching.searchPath program
    return found.run inside launching.environment call.arguments
  | _ => throw .notDirectory

/-- The runtime that is a program of some name. -/
def runtime (launching : Launching) (program : String) : Runtime := fun _ call tree =>
  let command := call.commandLine program
  match launching.launch program call tree with
  | .error cause => ⟨.error (.notStarted command cause), ⟨tree, "", ""⟩, none⟩
  | .ok state =>
    let result :=
      if state.flow = .killed then .error (.failed command none)
      else if state.status = 0 then .ok ()
      else .error (.failed command (some state.status))
    { result
      effect := seenFrom tree state.effect
      interruption :=
        (state.pauses.reverse.find? fun effect => launching.interrupts effect.tree).map
          (seenFrom tree) }

end Launching

end FaultDrill.Shell
