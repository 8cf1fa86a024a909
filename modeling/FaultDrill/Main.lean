import FaultDrill.CommandLine.Run
import FaultDrill.Shell.Launch

/-!
The program.

Owns: taking in the variables and files that a run can look at, and carrying what the run has
changed and printed out to the host.

Does not own: what a run does (`CommandLine.run`). The container runtime is a script that the
library's own shell reads; a program of any other kind is not started. An interrupt is taken to
arrive as soon as one is awaited.
-/

namespace FaultDrill.Main

/-- The variables that a run can look at. -/
def variableNames : List String := [
  "CHAOSFLOW_CONFIG_PATH", "CHAOSFLOW_DOCKER", "CHAOSFLOW_WORKSPACE_ROOT", "XDG_CONFIG_HOME",
  "HOME", "TMPDIR", "PATH", "PWD", "NO_COLOR", "CLICOLOR", "CLICOLOR_FORCE"]

/-- The document file that a request names. -/
def namedFile? : CommandLine.Request → Option Path
  | .show file | .up file | .create file => file
  | .help | .version => none

/-- The paths of documents and directories that a run can look at. -/
def places (environment : Environment) (arguments : List String) (directory : Path) :
    List Path :=
  let named :=
    match CommandLine.Request.ofArguments arguments with
    | .ok request => (namedFile? request).toList
    | .error _ => []
  named ++ (Discovery.namedPath? environment).toList ++
    Discovery.localPlaces environment directory ++
    [CommandLine.defaultFile, (Settings.ofEnvironment environment).workspacePath]

/-- The paths at which the container runtime can be. -/
def programs (environment : Environment) (searchPath : String) : List Path :=
  let program : Path := ⟨(Settings.ofEnvironment environment).program⟩
  if program.text.contains '/' then [program]
  else (Shell.Program.searchDirectories searchPath).map (Path.join ⟨·⟩ program)

/-- A location and those that lead to it, the root apart, shortest first. -/
def lineage (location : Location) : List Location :=
  (List.range location.length).map fun size => location.take (size + 1)

/-- The path of a location. -/
def pathText (location : Location) : String := "/" ++ String.intercalate "/" location

/-- What can be opened at a location. What can be opened but not read is a directory. Of a program
that is no script only the first two bytes are taken in. -/
def entryAt (location : Location) (isProgram : Bool) : IO (Option Entry) := do
  match ← (IO.FS.Handle.mk (pathText location) .read).toBaseIO with
  | .error _ => return none
  | .ok handle =>
    match ← (handle.read 2).toBaseIO with
    | .error _ => return some .directory
    | .ok start =>
      if isProgram && start.toList != [0x23, 0x21] then return some (.file start.toList true)
      let rest ← handle.readBinToEnd
      return some (.file (start.toList ++ rest.toList) isProgram)

/-- Takes in what stands on the way to a path. -/
def take (isProgram : Bool) (tree : FileTree) (path : Path) : IO FileTree := do
  let location :=
    (if path.isAbsolute then [] else tree.base) ++ path.components
  (lineage location).foldlM
    (fun tree place => do
      if (tree.get? place).isSome then return tree
      match ← entryAt place isProgram with
      | some entry => return tree.put place entry
      | none => return tree)
    tree

/-- Makes an entry on the host. -/
def release (location : Location) : Entry → IO Unit
  | .directory => IO.FS.createDirAll (pathText location)
  | .file contents executable => do
    IO.FS.writeBinFile (pathText location) (ByteArray.mk contents.toArray)
    if executable then
      let all : IO.AccessRight := { read := true, write := true, execution := true }
      let some : IO.AccessRight := { read := true, execution := true }
      IO.setAccessRights (pathText location) { user := all, group := some, other := some }
  | .link _ | .socket => return

/-- Carries changes of files out to the host. What was taken away had been taken in, and is a file
or a directory that is empty by the time its turn comes. -/
def carry (before after : FileTree) : IO Unit := do
  for (location, entry) in before.entries.reverse do
    if (after.get? location).isNone then
      match entry with
      | .directory => IO.FS.removeDir (pathText location)
      | _ => IO.FS.removeFile (pathText location)
  for (location, entry) in after.entries do
    if before.get? location != some entry then release location entry

/-- Runs the program on what the host holds. -/
def run (arguments : List String) : IO Nat := do
  let environment ← variableNames.filterMapM fun name => do
    return (← IO.getEnv name).map fun value => (name, Text.Utf8.encode value.toList)
  let directory : Path := ⟨(Environment.text? environment "PWD").getD "/"⟩
  let searchPath := (Environment.text? environment "PATH").getD ""
  let empty : FileTree := { base := directory.components }
  let tree ← (directory :: places environment arguments directory).foldlM (take false) empty
  let tree ← (programs environment searchPath).foldlM (take true) tree
  let launching : Shell.Launching := { environment, searchPath }
  let surroundings : CommandLine.Surroundings := {
    environment
    runtime := launching.runtime
    runId := UInt32.ofNat (← IO.rand 0 (UInt32.size - 1)) }
  let (code, host) := CommandLine.run surroundings arguments { tree }
  carry tree host.tree
  IO.print host.output
  IO.eprint host.errors
  return code

end FaultDrill.Main

/-- Runs the program on its arguments; the exit code says whether it succeeded. -/
def main (arguments : List String) : IO UInt32 := do
  return UInt32.ofNat (← FaultDrill.Main.run arguments)
