import FaultDrill.Naming
import FaultDrill.Path

/-!
Workspaces: where the files of a run lie.

Owns: a workspace, and the places in it that plans, runs and manifests agree upon.

Does not own: whether anything exists at these places.
-/

namespace FaultDrill

/-- The directory of a run. -/
structure Workspace where
  path : Path
  runId : RunId
  deriving DecidableEq, Repr

namespace Workspace

/-- The workspace of a run under a directory of workspaces. -/
def under (root : Path) (run : RunId) : Workspace :=
  ⟨root.joinName (Naming.workspaceDirectory run), run⟩

/-- The network of the run. -/
def network (workspace : Workspace) : String := Naming.network workspace.runId

/-- The image on which the images of the run's journeys are built. -/
def baseImage (workspace : Workspace) : String := Naming.baseImage workspace.runId

/-- The path of the manifest. -/
def manifest (workspace : Workspace) : Path :=
  workspace.path.joinName Naming.manifestFile

/-- The build context of the base image. -/
def baseContext (workspace : Workspace) : Path :=
  (workspace.path.joinName Naming.journeysDirectory).joinName Naming.baseDirectory

/-- The build context of a journey. -/
def journeyContext (workspace : Workspace) (journey : String) : Path :=
  (workspace.path.joinName Naming.journeysDirectory).joinName (Naming.sanitize journey)

end Workspace

end FaultDrill
