import FaultDrill.Environment

/-!
Settings about the container runtime and the place of workspaces.

Owns: both settings, as variables give them, and what they are without.
-/

namespace FaultDrill

/-- The settings. -/
structure Settings where
  /-- The program that is the container runtime. -/
  program : String
  /-- The bytes of the path under which workspaces are made. -/
  workspaceRoot : List UInt8
  deriving DecidableEq, Repr

namespace Settings

/-- The bytes of the directory for temporary files. -/
def temporaryDirectory (environment : Environment) : List UInt8 :=
  (environment.bytes? "TMPDIR").getD (Text.Utf8.encode "/tmp".toList)

/-- The settings that variables give. An empty variable gives none. -/
def ofEnvironment (environment : Environment) : Settings where
  program := ((environment.text? "CHAOSFLOW_DOCKER").filter (· != "")).getD "docker"
  workspaceRoot :=
    ((environment.bytes? "CHAOSFLOW_WORKSPACE_ROOT").filter (· != [])).getD
      (temporaryDirectory environment)

/-- The path under which workspaces are made. -/
def workspacePath (settings : Settings) : Path := Environment.pathOf settings.workspaceRoot

end Settings

end FaultDrill
