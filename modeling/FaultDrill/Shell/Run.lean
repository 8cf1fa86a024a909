import FaultDrill.Shell.Parser
import FaultDrill.Shell.Utilities

/-!
Running of scripts.

Owns: redirections, simple commands, and all that joins commands.

A script ends with its last command, when it says so, or by a signal; nothing is done after that.
-/

namespace FaultDrill.Shell

namespace State

/-! ## Redirections -/

/-- Where a file for output leads. -/
def openOutput (state : State) (path : String) (append : Bool) : Except FileError (Sink × State) :=
  if path = "/dev/null" then .ok (.nowhere, state)
  else do
    let kept :=
      if append then
        match state.tree.stat ⟨path⟩ with
        | .ok (.file contents _) => contents
        | _ => []
      else []
    let tree ← state.tree.write ⟨path⟩ kept
    let (location, _) ← tree.find .target ⟨path⟩
    .ok (.file location, { state with tree })

/-- Lets a descriptor lead somewhere. -/
def redirectTo (state : State) (descriptor : Nat) (sink : Sink) : State :=
  match descriptor with
  | 1 => { state with standardOutput := sink }
  | 2 => { state with standardErrors := sink }
  | _ => state

/-- Where a descriptor leads. -/
def sinkOf (state : State) (descriptor : String) : Sink :=
  match descriptor with
  | "1" => state.standardOutput
  | "2" => state.standardErrors
  | _ => .nowhere

/-- Carries out redirections up to the first that fails; says whether all went well. -/
def redirect (state : State) (line : Nat) : List Redirection → Bool × State
  | [] => (true, state)
  | redirection :: rest =>
    let target := state.textOf redirection.target
    let refuse (verb : String) (error : FileError) :=
      let reason := if error = .notFound then
          (if verb = "create" then "Directory nonexistent" else "No such file")
        else error.reason
      (false, state.fault
        (state.name ++ ": " ++ toString line ++ ": cannot " ++ verb ++ " " ++ target ++ ": " ++
          reason) 2)
    match redirection.kind with
    | .duplicate =>
      redirect (state.redirectTo redirection.descriptor (state.sinkOf target)) line rest
    | .input =>
      if target = "/dev/null" then redirect { state with input := [] } line rest
      else
        match state.tree.openSource ⟨target⟩ with
        | .ok source =>
          let input := (Text.Utf8.replacedText source.bytes).toList
          redirect { state with input } line rest
        | .error error => refuse "open" error
    | .output | .append =>
      match state.openOutput target (redirection.kind == .append) with
      | .ok (sink, state) =>
        redirect (state.redirectTo redirection.descriptor sink) line rest
      | .error error => refuse "create" error

/-- Does something with redirections that hold only meanwhile. -/
def redirected
    (state : State)
    (line : Nat)
    (redirections : List Redirection)
    (action : State → State) :
    State :=
  let (opened, inside) := state.redirect line redirections
  let after := if opened then action inside else inside
  { after with
    input := if redirections.any (·.kind == .input) then state.input else after.input
    standardOutput := state.standardOutput
    standardErrors := state.standardErrors }

/-! ## Simple commands -/

/-- Calls a builtin or a utility. -/
def call (state : State) (line : Nat) (name : String) (arguments : List String) : State :=
  match (builtins.lookup name).or (utilities.lookup name) with
  | some utility => utility state arguments
  | none =>
    state.fault (state.name ++ ": " ++ toString line ++ ": " ++ name ++ ": not found") 127

/-- Carries out the words of a simple command. -/
def invoke (state : State) (line : Nat) : List String → State
  | [] => state.withStatus 0
  | "exec" :: name :: arguments =>
    let after := state.call line name arguments
    if after.flow = .running then { after with flow := .exited } else after
  | name :: arguments => state.call line name arguments

/-- Sets variables. -/
def assign (state : State) (assignments : List (String × Word)) : State :=
  assignments.foldl (fun state (name, value) => state.set name (state.textOf value)) state

/-- Carries out a simple command. Variables that are set before a command hold only for it.
Redirections of `exec` alone hold from then on. -/
def simple
    (state : State)
    (line : Nat)
    (assignments : List (String × Word))
    (words : List Word)
    (redirections : List Redirection) :
    State :=
  let fields := words.flatMap state.fieldsOf
  if fields = ["exec"] then
    match state.redirect line redirections with
    | (true, after) => after.withStatus 0
    | (false, after) => { after with flow := .exited }
  else state.redirected line redirections fun inside =>
    let assigned := inside.assign assignments
    if fields.isEmpty || assignments.isEmpty then assigned.invoke line fields
    else { assigned.invoke line fields with values := inside.values }

/-- Ends the script after a failure that matters. -/
def checked (guarded : Bool) (state : State) : State :=
  if state.exitsOnFailure && !guarded && state.status != 0 && state.flow == .running then
    { state with flow := .exited }
  else state

end State

/-! ## Commands -/

/-- Carries out a command unless the script has ended; a failure of a guarded command never ends
the script. -/
def Command.run : (command : Command) → (guarded : Bool) → State → State
  | .nothing, _, state => state
  | .simple line assignments words redirections, guarded, state =>
    if state.flow = .running then
      (state.simple line assignments words redirections).checked guarded
    else state
  | .sequence first second, guarded, state => second.run guarded (first.run guarded state)
  | .both first second, guarded, state =>
    let state := first.run true state
    if state.status = 0 then second.run guarded state else state
  | .either first second, guarded, state =>
    let state := first.run true state
    if state.status = 0 then state else second.run guarded state
  | .negated command, _, state =>
    let state := command.run true state
    if state.flow = .running then state.withStatus (if state.status = 0 then 1 else 0) else state
  | .conditional condition affirmative negative, guarded, state =>
    let state := condition.run true state
    if state.flow ≠ .running then state
    else if state.status = 0 then affirmative.run guarded (state.withStatus 0)
    else negative.run guarded (state.withStatus 0)
  | .choice subject patterns body otherwise, guarded, state =>
    if state.flow ≠ .running then state
    else
      let text := (state.textOf subject).toList
      if patterns.any fun pattern => State.matchesPattern (state.patternOf pattern) text then
        body.run guarded (state.withStatus 0)
      else otherwise.run guarded (state.withStatus 0)
  | .loop variableName items body, guarded, state =>
    if state.flow ≠ .running then state
    else
      (items.flatMap state.fieldsOf).foldl
        (fun state item =>
          if state.flow = .running then body.run guarded (state.set variableName item)
          else state)
        (state.withStatus 0)
  | .group line body redirections, guarded, state =>
    if state.flow ≠ .running then state
    else state.redirected line redirections fun state => body.run guarded state
  | .subshell body, guarded, state =>
    if state.flow ≠ .running then state
    else
      let after := body.run guarded state
      let flow := if after.flow = .killed then Flow.killed else .running
      State.checked guarded
        { after with
          flow
          tree := { after.tree with base := state.tree.base }
          values := state.values
          arguments := state.arguments
          exitsOnFailure := state.exitsOnFailure }
  | .malformed line, _, state =>
    if state.flow ≠ .running then state
    else
      { state.fault (state.name ++ ": " ++ toString line ++ ": Syntax error") 2 with
        flow := .exited }

end FaultDrill.Shell
