import FaultDrill.FileTree.Operations
import FaultDrill.Format
import FaultDrill.Scenario

/-!
Document files.

Owns:
- loading a scenario from a file;
- creating a file with the sample document;
- the failures of both with their texts.

Loading looks for the file before it opens it, and chooses the format after that. Creating chooses
the format first and writes over whatever the file held.
-/

namespace FaultDrill

/-- Why a document file could not be loaded or created. -/
inductive DocumentFileError where
  | missing (path : Path) (cause : FileError)
  | unopened (path : Path) (cause : FileError)
  | unsupportedFormat (path : Path)
  | undecodable (cause : DecodeError)
  | stage (cause : StageError)
  | unwritten (path : Path) (cause : EncodeError)
  deriving DecidableEq, Repr

namespace DocumentFileError

/-- The text shown for an error. -/
def message : DocumentFileError → String
  | .missing path _ => "ファイルが見つかりません: " ++ path.text
  | .unopened path _ => "ファイルを開けません: " ++ path.text
  | .unsupportedFormat path =>
    "サポートされていないファイル形式です: " ++ path.text ++
      "\nヒント: .json / .yaml / .yml / .toml を使用してください"
  | .undecodable cause => cause.message
  | .stage cause => cause.message
  | .unwritten path _ => "設定ファイルを書き出せません: " ++ path.text

/-- The texts of what lies beneath an error, outermost first. -/
def causes : DocumentFileError → List String
  | .missing _ cause | .unopened _ cause => [cause.message]
  | .unsupportedFormat _ | .undecodable _ => []
  | .stage cause => cause.causes
  | .unwritten _ cause => cause.message :: cause.causes

end DocumentFileError

namespace DocumentFile

/-- The format of a document file. -/
def format (path : Path) : Except DocumentFileError Format :=
  match Format.ofPath? path with
  | some format => .ok format
  | none => .error (.unsupportedFormat path)

/-- Loads the scenario in a file. -/
def load (tree : FileTree) (path : Path) : Except DocumentFileError Scenario := do
  let _ ← (tree.stat path).mapError (.missing path)
  let source ← (tree.openSource path).mapError (.unopened path)
  let format ← format path
  let document ←
    (format.decode source.bytes (source.failure.map FileError.message)).mapError .undecodable
  (Scenario.ofDocument document).mapError .stage

/-- Creates a file with the sample document. -/
def create (tree : FileTree) (path : Path) : Except DocumentFileError FileTree := do
  let format ← format path
  (tree.write path (format.bytes Document.sample)).mapError fun cause =>
    .unwritten path (.destination cause.message)

end DocumentFile

end FaultDrill
