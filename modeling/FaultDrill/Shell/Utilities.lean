import FaultDrill.Shell.Condition
import FaultDrill.Shell.Filing
import FaultDrill.Shell.Token

/-!
All that a simple command can call.

Owns: what the shell does itself, and the names of everything that can be called.

Every utility sets the status: zero for success.
-/

namespace FaultDrill.Shell.State

/-- Signals that do not end a program, by number and name. -/
def harmlessSignals : List String :=
  ["0", "17", "18", "23", "28", "CHLD", "CONT", "URG", "WINCH"]

/-- Sends a signal to the shell itself. -/
def kill (state : State) (arguments : List String) : State :=
  let (signal, targets) :=
    match arguments with
    | "-s" :: signal :: rest => (signal, rest)
    | first :: rest =>
      if first.startsWith "-" then (String.ofList first.toList.tail, rest) else ("TERM", arguments)
    | [] => ("TERM", [])
  if targets.contains processNumber then
    if harmlessSignals.contains signal then state.withStatus 0 else { state with flow := .killed }
  else state.withStatus 1

/-- Changes the working directory. -/
def cd (state : State) (arguments : List String) : State :=
  let path := arguments.head?.getD ((state.value? "HOME").getD "")
  match state.tree.find .target ⟨path⟩ with
  | .ok (location, .directory) =>
    let state := { state with tree := { state.tree with base := location } }
    (state.set "PWD" ("/" ++ String.intercalate "/" location)).withStatus 0
  | _ => state.fault (state.name ++ ": cd: can't cd to " ++ path) 2

/-- Ends the script. -/
def exit (state : State) (arguments : List String) : State :=
  let state := { state with flow := .exited }
  match arguments with
  | [] => state
  | argument :: _ =>
    match argument.toNat? with
    | some status => state.withStatus (status % 256)
    | none => state.fault (state.name ++ ": exit: Illegal number: " ++ argument) 2

/-- Sets options of the shell, and its arguments after two dashes or the first that is no option. -/
def setOptions (state : State) : List String → State
  | [] => state.withStatus 0
  | "--" :: arguments => { state with arguments, status := 0 }
  | "+e" :: rest => setOptions { state with exitsOnFailure := false } rest
  | argument :: rest =>
    if argument.startsWith "-" then
      let exits := argument.toList.contains 'e'
      setOptions { state with exitsOnFailure := state.exitsOnFailure || exits } rest
    else if argument.startsWith "+" then setOptions state rest
    else { state with arguments := argument :: rest, status := 0 }

/-- Gives the words of a line to variables, the last of which takes all that is left. -/
def assignWords (state : State) : List String → List Char → State
  | [], _ => state
  | [name], line =>
    let trimmed := (line.reverse.dropWhile Token.isBlank).reverse
    state.set name (String.ofList (trimmed.dropWhile Token.isBlank))
  | name :: names, line =>
    let line := line.dropWhile Token.isBlank
    let word := line.takeWhile (!Token.isBlank ·)
    assignWords (state.set name (String.ofList word)) names (line.drop word.length)

/-- Reads a line of the standard input into variables. -/
def read (state : State) (arguments : List String) : State :=
  let names := arguments.filter (· != "-r")
  let line := state.input.takeWhile (· != '\n')
  let rest := state.input.drop line.length
  (assignWords { state with input := rest.tail } names line).withStatus
    (if rest.isEmpty then 1 else 0)

/-- Drops the first arguments. -/
def shift (state : State) (arguments : List String) : State :=
  let count := (arguments.head?.bind String.toNat?).getD 1
  if state.arguments.length < count then
    { state.fault (state.name ++ ": shift: can't shift that many") 2 with flow := .exited }
  else { state with arguments := state.arguments.drop count, status := 0 }

/-- What the shell does itself. -/
def builtins : List (String × (State → List String → State)) := [
  (":", fun state _ => state.withStatus 0),
  ("cd", cd),
  ("exit", exit),
  ("export", fun state arguments =>
    (arguments.foldl
      (fun state argument =>
        match argument.splitOn "=" with
        | name :: first :: rest => state.set name (String.intercalate "=" (first :: rest))
        | _ => state)
      state).withStatus 0),
  ("kill", kill),
  ("read", read),
  ("set", setOptions),
  ("shift", shift),
  ("trap", fun state _ => state.withStatus 0),
  ("umask", fun state _ => state.withStatus 0),
  ("unset", fun state arguments =>
    { state with values := state.values.filter (!arguments.contains ·.1), status := 0 })]

/-- What is a program of its own. -/
def utilities : List (String × (State → List String → State)) := [
  ("true", fun state _ => state.withStatus 0),
  ("false", fun state _ => state.withStatus 1),
  ("echo", echo),
  ("printf", printf),
  ("pwd", fun state _ =>
    (state.print ("/" ++ String.intercalate "/" state.tree.base ++ "\n")).withStatus 0),
  ("test", test),
  ("[", fun state arguments =>
    if arguments.getLast? = some "]" then state.test arguments.dropLast
    else state.fault (state.name ++ ": [: missing ]") 2),
  ("cat", cat),
  ("touch", touch),
  ("rm", rm),
  ("mkdir", mkdir),
  ("rmdir", rmdir),
  ("cp", cp),
  ("mv", mv),
  ("ln", ln),
  ("chmod", chmod),
  ("ls", ls),
  ("sleep", fun state _ => state.pause.withStatus 0)]

end FaultDrill.Shell.State
