import FaultDrill.ComposeError
import FaultDrill.FileTree.Operations
import FaultDrill.Host
import FaultDrill.Text.Utf8
import FaultDrill.Workspace

/-!
Making workspaces.

Owns:
- writing of planned files, each with the directories above it;
- compilation of a scenario into the workspace of a new run.

A workspace is new: compilation fails if anything stands in its place. Files written before a
failure stay.
-/

namespace FaultDrill

namespace Artifact

/-- Makes the directory of a file. -/
def makeParent (tree : FileTree) (path : Path) : Except ComposeError Unit × FileTree :=
  match path.parent? with
  | none => (.ok (), tree)
  | some parent =>
    match tree.makeDirectories parent with
    | (.ok (), tree) => (.ok (), tree)
    | (.error cause, tree) => (.error (.directory parent cause), tree)

/-- Writes the contents of a file and makes it executable if it is to be. -/
def writeContents (artifact : Artifact) (tree : FileTree) (path : Path) :
    Except ComposeError Unit × FileTree :=
  match tree.write path (Text.Utf8.encode artifact.contents.toList) with
  | .error cause => (.error (.file path cause), tree)
  | .ok tree =>
    if artifact.executable then
      match tree.makeExecutable path with
      | .error cause => (.error (.file path cause), tree)
      | .ok tree => (.ok (), tree)
    else (.ok (), tree)

/-- Writes a file of a workspace. -/
def write (artifact : Artifact) (tree : FileTree) (root : Path) :
    Except ComposeError Unit × FileTree :=
  let path := root.join artifact.path
  match makeParent tree path with
  | (.error error, tree) => (.error error, tree)
  | (.ok (), tree) => artifact.writeContents tree path

theorem write_ok_iff {artifact : Artifact} {tree after : FileTree} {root : Path} :
    artifact.write tree root = (.ok (), after) ↔
      ∃ between, makeParent tree (root.join artifact.path) = (.ok (), between) ∧
        artifact.writeContents between (root.join artifact.path) = (.ok (), after) := by
  unfold write
  dsimp only
  rcases makeParent tree (root.join artifact.path) with ⟨result, between⟩
  cases result with
  | error error => simp
  | ok done => simp

/-- Writes files up to the first that cannot be written. -/
def writeAll (tree : FileTree) (root : Path) :
    List Artifact → Except ComposeError Unit × FileTree
  | [] => (.ok (), tree)
  | artifact :: artifacts =>
    match artifact.write tree root with
    | (.ok (), tree) => writeAll tree root artifacts
    | (.error error, tree) => (.error error, tree)

theorem writeAll_cons_ok_iff {tree after : FileTree} {root : Path} {artifact : Artifact}
    {artifacts : List Artifact} :
    writeAll tree root (artifact :: artifacts) = (.ok (), after) ↔
      ∃ between, artifact.write tree root = (.ok (), between) ∧
        writeAll between root artifacts = (.ok (), after) := by
  conv => lhs; unfold writeAll
  rcases artifact.write tree root with ⟨result, between⟩
  cases result with
  | error error => simp
  | ok done => simp

end Artifact

namespace Scenario

/-- Makes the workspace of a run under a directory of workspaces. -/
def compileTree (scenario : Scenario) (tree : FileTree) (root : Path) (run : RunId) :
    Except ComposeError Workspace × FileTree :=
  let workspace := Workspace.under root run
  match tree.makeDirectory workspace.path with
  | .error cause => (.error (.directory workspace.path cause), tree)
  | .ok tree =>
    match Artifact.writeAll tree workspace.path (scenario.artifacts run) with
    | (.ok (), tree) => (.ok workspace, tree)
    | (.error error, tree) => (.error error, tree)

/-- Makes the workspace of a run on a host, which warns of collisions first. -/
def compile (scenario : Scenario) (host : Host) (root : Path) (run : RunId) :
    Except ComposeError Workspace × Host :=
  let host := host.warn (scenario.collisions.map .collision)
  let (result, tree) := scenario.compileTree host.tree root run
  (result, { host with tree })

end Scenario

end FaultDrill
