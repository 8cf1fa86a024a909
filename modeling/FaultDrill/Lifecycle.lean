import FaultDrill.ComposeError
import FaultDrill.FileTree.Operations
import FaultDrill.Host
import FaultDrill.Workspace

/-!
Starting and stopping topologies.

Owns:
- the start of a topology: its base image is built, then everything is started;
- the stop: everything is stopped and removed, and the workspace with it.

Nothing is started when the image could not be built. A stop goes on after a failure as far as it
can; a workspace that is not there needs none.
-/

namespace FaultDrill

/-- How the start of a topology ends. -/
inductive Startup where
  | completed
  | interrupted
  | failed (error : ComposeError)
  deriving DecidableEq, Repr

namespace Workspace

/-! ## Calls -/

/-- The call that builds the base image. -/
def buildCall (workspace : Workspace) : Call :=
  .buildImage workspace.baseImage workspace.baseContext

/-- The call that starts the topology. -/
def upCall (workspace : Workspace) : Call := .composeUp workspace.path

/-- The call that stops the topology. -/
def downCall (workspace : Workspace) : Call := .composeDown workspace.path

/-- The call that removes the base image. -/
def removeImageCall (workspace : Workspace) : Call :=
  .removeImage workspace.baseImage workspace.path

/-! ## Start -/

/-- Starts the topology of a workspace. -/
def up (workspace : Workspace) (runtime : Runtime) (host : Host) : Startup × Host :=
  match host.attempt runtime workspace.buildCall with
  | (.interrupted, host) => (.interrupted, host)
  | (.failed cause, host) => (.failed (.baseImage cause), host)
  | (.succeeded, host) =>
    match host.attempt runtime workspace.upCall with
    | (.interrupted, host) => (.interrupted, host)
    | (.failed cause, host) => (.failed (.up cause), host)
    | (.succeeded, host) => (.completed, host)

/-! ## Stop -/

/-- Removes the base image; a failure is worth a warning. -/
def removeBaseImage (workspace : Workspace) (runtime : Runtime) (host : Host) : Host :=
  match host.perform runtime workspace.removeImageCall with
  | (.ok (), host) => host
  | (.error error, host) => host.warn [.imageNotRemoved error workspace.baseImage]

/-- Removes the directory of a workspace. -/
def removeDirectory (workspace : Workspace) (host : Host) : Except FileError Unit × Host :=
  let (result, tree) := host.tree.removeAll workspace.path
  (result, { host with tree })

/-- Whether a path is known to lead nowhere. -/
def isAbsent (tree : FileTree) (path : Path) : Bool :=
  match tree.stat path with
  | .error .notFound => true
  | _ => false

/-- Stops the topology of a workspace and removes the workspace. -/
def down (workspace : Workspace) (runtime : Runtime) (host : Host) :
    Except ComposeError Unit × Host :=
  if isAbsent host.tree workspace.path then (.ok (), host)
  else
    let (stopped, host) := host.perform runtime workspace.downCall
    let host := workspace.removeBaseImage runtime host
    let (removed, host) := workspace.removeDirectory host
    match stopped, removed with
    | .error cause, .ok () => (.error (.down cause), host)
    | .error cause, .error error =>
      (.error (.down cause), host.warn [.workspaceNotRemoved error workspace.path])
    | .ok (), .ok () => (.ok (), host)
    | .ok (), .error cause => (.error (.removal workspace.path cause), host)

end Workspace

end FaultDrill
