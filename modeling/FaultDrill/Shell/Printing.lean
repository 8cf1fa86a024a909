import FaultDrill.Shell.State

/-!
Utilities that print.

Owns: escapes of printed texts, formats, and what a utility says when it fails.
-/

namespace FaultDrill.Shell.State

/-- The text that `echo` prints for a text with escapes, and whether it goes on after it. -/
def echoed : List Char → List Char × Bool
  | [] => ([], true)
  | '\\' :: 'c' :: _ => ([], false)
  | '\\' :: 'a' :: rest => add '\x07' (echoed rest)
  | '\\' :: 'b' :: rest => add '\x08' (echoed rest)
  | '\\' :: 'f' :: rest => add '\x0c' (echoed rest)
  | '\\' :: 'v' :: rest => add '\x0b' (echoed rest)
  | '\\' :: 'n' :: rest => add '\n' (echoed rest)
  | '\\' :: 't' :: rest => add '\t' (echoed rest)
  | '\\' :: 'r' :: rest => add '\r' (echoed rest)
  | '\\' :: '\\' :: rest => add '\\' (echoed rest)
  | char :: rest => add char (echoed rest)
where
  /-- Adds a character in front. -/
  add (char : Char) (result : List Char × Bool) : List Char × Bool :=
    (char :: result.1, result.2)

/-- Prints its arguments with blanks between them. -/
def echo (state : State) (arguments : List String) : State :=
  let (arguments, newline) :=
    match arguments with
    | "-n" :: rest => (rest, "")
    | _ => (arguments, "\n")
  let (text, complete) := echoed (String.intercalate " " arguments).toList
  (state.print (String.ofList text ++ (if complete then newline else ""))).withStatus 0

/-- The text that `printf` prints for a format with arguments, and the arguments that are left. A
missing argument is empty, or zero. -/
def formatted : List Char → List String → List Char × List String
  | [], arguments => ([], arguments)
  | '\\' :: 'n' :: rest, arguments => add ['\n'] (formatted rest arguments)
  | '\\' :: 't' :: rest, arguments => add ['\t'] (formatted rest arguments)
  | '\\' :: 'r' :: rest, arguments => add ['\r'] (formatted rest arguments)
  | '\\' :: '\\' :: rest, arguments => add ['\\'] (formatted rest arguments)
  | '%' :: '%' :: rest, arguments => add ['%'] (formatted rest arguments)
  | '%' :: 's' :: rest, arguments =>
    add (arguments.headD "").toList (formatted rest arguments.tail)
  | '%' :: 'd' :: rest, arguments =>
    add (toString ((arguments.headD "0").toInt?.getD 0)).toList (formatted rest arguments.tail)
  | char :: rest, arguments => add [char] (formatted rest arguments)
where
  /-- Adds characters in front. -/
  add (chars : List Char) (result : List Char × List String) : List Char × List String :=
    (chars ++ result.1, result.2)

/-- The text that a format gives for some arguments, used again as long as it takes some of those
that are left; `steps` bounds the number of uses. -/
def repeatedly (format : List Char) : (steps : Nat) → List String → List Char
  | 0, _ => []
  | steps + 1, arguments =>
    let (text, left) := formatted format arguments
    if left.isEmpty || left.length = arguments.length then text
    else text ++ repeatedly format steps left

/-- Prints its arguments as a format says. -/
def printf (state : State) : List String → State
  | [] => state.withStatus 2
  | format :: arguments =>
    (state.print (String.ofList (repeatedly format.toList (arguments.length + 1) arguments))
      ).withStatus 0

/-- Says that a utility fails, and why. -/
def fault (state : State) (text : String) (status : Nat := 1) : State :=
  (state.complain (text ++ "\n")).withStatus status

/-- Does something for each argument; one failure is a failure of all. -/
def forEach
    (state : State)
    (arguments : List String)
    (action : State → String → State) :
    State :=
  arguments.foldl
    (fun state argument =>
      let after := action (state.withStatus 0) argument
      after.withStatus (max state.status after.status))
    (state.withStatus 0)

end FaultDrill.Shell.State
