import FaultDrill.FileTree.Error
import FaultDrill.FileTree.Basic

/-!
The container runtime, which is asked to build images and to start and stop topologies.

Owns:
- the four calls, with their arguments on a command line;
- how a call ends, and the failures of calls with their texts;
- runtimes: what each call does to files and to the terminal, and whether an interrupt arrives
  before it ends.

Does not own: when calls are made (`Lifecycle`).
-/

namespace FaultDrill

/-! ## Calls -/

/-- What a container runtime can be asked for. -/
inductive Call where
  | buildImage (tag : String) (context : Path)
  | composeUp (directory : Path)
  | composeDown (directory : Path)
  | removeImage (tag : String) (directory : Path)
  deriving DecidableEq, Repr

namespace Call

/-- The directory in which a call is made. -/
def directory : Call → Path
  | .buildImage _ context => context
  | .composeUp directory | .composeDown directory | .removeImage _ directory => directory

/-- The arguments of a call on a command line. -/
def arguments : Call → List String
  | .buildImage tag _ => ["build", "-t", tag, "."]
  | .composeUp _ => ["compose", "up", "-d", "--build"]
  | .composeDown _ => ["compose", "down", "--volumes", "--rmi", "all"]
  | .removeImage tag _ => ["image", "rm", "-f", tag]

/-- A call as a command line. -/
def commandLine (program : String) (call : Call) : String :=
  program ++ " " ++ String.intercalate " " call.arguments

end Call

/-! ## Ends of calls -/

/-- Why a call failed. -/
inductive RuntimeError where
  /-- The runtime could not be started. -/
  | notStarted (command : String) (cause : FileError)
  /-- The runtime ended with a code, or by a signal. -/
  | failed (command : String) (code : Option Int)
  deriving DecidableEq, Repr

namespace RuntimeError

/-- The text for an exit code. -/
def codeText (code : Int) : String :=
  (if code < 0 then "-" else "") ++ Numeral.decimalText code.natAbs

/-- The text shown for an error. -/
def message : RuntimeError → String
  | .notStarted command _ =>
    "\x60" ++ command ++ "\x60 を起動できません\n\nヒント:\n" ++
      "  • docker がインストールされているか確認してください\n" ++
      "  • CHAOSFLOW_DOCKER で実行ファイルを指定できます"
  | .failed command code =>
    "\x60" ++ command ++ "\x60 が失敗しました（" ++
      (match code with
        | some code => "終了コード " ++ codeText code
        | none => "シグナルで終了") ++ "）"

/-- The texts of what lies beneath an error, outermost first. -/
def causes : RuntimeError → List String
  | .notStarted _ cause => [cause.message]
  | .failed .. => []

end RuntimeError

/-! ## Runtimes -/

/-- What a call has done up to some moment: the files as they then are, and what it has printed. -/
structure Effect where
  tree : FileTree
  output : String := ""
  errors : String := ""
  deriving DecidableEq, Repr

/-- How a call ends. -/
structure Reply where
  result : Except RuntimeError Unit
  effect : Effect
  /-- What the call has done when an interrupt arrives, if one does before the call ends. -/
  interruption : Option Effect := none

/-- A container runtime: the reply to a call, after some earlier calls, first to last. -/
abbrev Runtime := (earlier : List Call) → Call → FileTree → Reply

end FaultDrill
