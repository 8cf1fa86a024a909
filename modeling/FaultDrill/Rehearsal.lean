import FaultDrill.FileTree.Operations
import FaultDrill.Runtime

/-!
Rehearsed runtimes: the outcome of every kind of call is settled beforehand.

Owns: kinds of calls, the outcomes settled for them, and the runtime that keeps to these outcomes.

No program is started; one kind of call may take the workspace away before it ends.
-/

namespace FaultDrill

/-- The kinds of calls. -/
inductive CallKind where
  | build | up | down | remove
  deriving DecidableEq, Repr

namespace Call

/-- The kind of a call. -/
def kind : Call → CallKind
  | .buildImage .. => .build
  | .composeUp _ => .up
  | .composeDown _ => .down
  | .removeImage .. => .remove

/-- A call in a few words. -/
def text : Call → String
  | .buildImage tag context => "build " ++ tag ++ " " ++ context.text
  | .composeUp directory => "up " ++ directory.text
  | .composeDown directory => "down " ++ directory.text
  | .removeImage tag directory => "rmi " ++ tag ++ " " ++ directory.text

end Call

/-- How a call is to fail. -/
inductive Mishap where
  | notStarted (cause : FileError)
  | failed (code : Option Int)
  deriving DecidableEq, Repr

/-- The outcomes that are settled. A call without a mishap succeeds. -/
structure Rehearsal where
  mishap : CallKind → Option Mishap
  /-- The calls that first take away the directory at a path. -/
  removal : CallKind → Option Path := fun _ => none

namespace Rehearsal

/-- The outcome of a call. -/
def result (rehearsal : Rehearsal) (call : Call) : Except RuntimeError Unit :=
  match rehearsal.mishap call.kind with
  | none => .ok ()
  | some (.notStarted cause) => .error (.notStarted call.text cause)
  | some (.failed code) => .error (.failed call.text code)

/-- The runtime that keeps to the settled outcomes. -/
def runtime (rehearsal : Rehearsal) : Runtime := fun _ call tree =>
  let tree :=
    match rehearsal.removal call.kind with
    | some path => (tree.removeAll path).2
    | none => tree
  { result := rehearsal.result call
    effect := { tree } }

end Rehearsal

end FaultDrill
