import FaultDrill.Plan
import FaultDrill.Runtime

/-!
The host on which runs take place.

Owns:
- the state of a host: its files, what has happened on it, the warnings given, and what was printed;
- making a call, and waiting for an interrupt.
-/

namespace FaultDrill

/-- Something worth saying that stops nothing. -/
inductive Warning where
  | collision (names : Collision)
  | imageNotRemoved (error : RuntimeError) (tag : String)
  | workspaceNotRemoved (error : FileError) (workspace : Path)
  deriving DecidableEq, Repr

namespace Warning

/-- The text of a warning. -/
def message : Warning → String
  | .collision _ => "Names collide after sanitization; the later one overwrites the earlier"
  | .imageNotRemoved .. => "Failed to remove journey base image"
  | .workspaceNotRemoved .. => "Failed to remove workspace"

/-- The particulars of a warning. -/
def fields : Warning → List (String × String)
  | .collision names => [
      ("kind", names.kind.word),
      ("first", names.first),
      ("second", names.second),
      ("sanitized", names.sanitized)]
  | .imageNotRemoved error tag => [("error", error.message), ("tag", tag)]
  | .workspaceNotRemoved error workspace =>
    [("error", error.message), ("workspace", workspace.text)]

end Warning

/-- How a call ends that an interrupt may break off. -/
inductive Ending where
  | succeeded
  | failed (error : RuntimeError)
  | interrupted
  deriving DecidableEq, Repr

/-- The end of a call that nothing breaks off. -/
def Ending.ofResult : Except RuntimeError Unit → Ending
  | .ok () => .succeeded
  | .error error => .failed error

/-- What happens on a host. -/
inductive Event where
  | called (call : Call) (ending : Ending)
  | interrupted
  deriving DecidableEq, Repr

/-- The call that an event is. -/
def Event.call? : Event → Option Call
  | .called call _ => some call
  | .interrupted => none

/-- The state of a host. -/
structure Host where
  tree : FileTree
  /-- What has happened, first to last. -/
  history : List Event := []
  /-- The warnings given, first to last. -/
  warnings : List Warning := []
  output : String := ""
  errors : String := ""
  deriving DecidableEq, Repr

namespace Host

/-- The calls made, first to last. -/
def calls (host : Host) : List Call := host.history.filterMap Event.call?

/-- Gives some warnings. -/
def warn (host : Host) (warnings : List Warning) : Host :=
  { host with warnings := host.warnings ++ warnings }

/-- Prints to the output. -/
def print (host : Host) (text : String) : Host :=
  { host with output := host.output ++ text }

/-- Prints to the error output. -/
def printError (host : Host) (text : String) : Host :=
  { host with errors := host.errors ++ text }

/-- What has happened once a call has ended and done something. -/
def undergo (host : Host) (call : Call) (ending : Ending) (effect : Effect) : Host where
  tree := effect.tree
  history := host.history ++ [.called call ending]
  warnings := host.warnings
  output := host.output ++ effect.output
  errors := host.errors ++ effect.errors

/-- Waits until an interrupt arrives. -/
def awaitInterrupt (host : Host) : Host :=
  { host with history := host.history ++ [.interrupted] }

/-- Makes a call and waits for its end, whatever arrives meanwhile. -/
def perform (host : Host) (runtime : Runtime) (call : Call) :
    Except RuntimeError Unit × Host :=
  let reply := runtime host.calls call host.tree
  (reply.result, host.undergo call (.ofResult reply.result) reply.effect)

/-- Makes a call that is broken off if an interrupt arrives. -/
def attempt (host : Host) (runtime : Runtime) (call : Call) : Ending × Host :=
  let reply := runtime host.calls call host.tree
  match reply.interruption with
  | some effect => (.interrupted, (host.undergo call .interrupted effect).awaitInterrupt)
  | none =>
    let ending := Ending.ofResult reply.result
    (ending, host.undergo call ending reply.effect)

end Host

end FaultDrill
