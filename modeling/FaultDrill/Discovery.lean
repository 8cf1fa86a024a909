import FaultDrill.Environment
import FaultDrill.FileTree.Operations

/-!
Which document file is used when none is named.

Owns: the places that are looked at, in their order, and the failures of looking with their texts.

A path given by the user is used as it is. Otherwise the first place at which something stands is
used: the one that a variable names, four names in the working directory, and one in the directory
of the user's settings.
-/

namespace FaultDrill

/-- Why no document file was found. -/
inductive DiscoveryError where
  | nothingFound
  | noWorkingDirectory (cause : FileError)
  deriving DecidableEq, Repr

namespace DiscoveryError

/-- The text shown for an error. -/
def message : DiscoveryError → String
  | .nothingFound =>
    "設定ファイルが見つかりません。以下の場所を確認してください:\n" ++
      "- カレントディレクトリ: chaosflow.yaml, chaosflow.yml, chaosflow.json, chaosflow.toml\n" ++
      "- ~/.config/chaosflow/chaosflow.yaml\n" ++
      "または CHAOSFLOW_CONFIG_PATH 環境変数で直接指定できます"
  | .noWorkingDirectory cause => "IO エラー: " ++ cause.message

/-- The texts of what lies beneath an error, outermost first. -/
def causes : DiscoveryError → List String
  | .nothingFound => []
  | .noWorkingDirectory cause => [cause.message]

end DiscoveryError

namespace Discovery

/-- The names looked for in the working directory. -/
def candidateNames : List String :=
  ["chaosflow.yaml", "chaosflow.yml", "chaosflow.json", "chaosflow.toml"]

/-- The path that a variable names. -/
def namedPath? (environment : Environment) : Option Path :=
  (environment.text? "CHAOSFLOW_CONFIG_PATH").map Path.mk

/-- The directory of the user's settings. Names in a tree are texts, so that a path of other bytes
leads nowhere there; it is left out. -/
def settingsDirectory? (environment : Environment) : Option Path :=
  match environment.path? "XDG_CONFIG_HOME" with
  | some path =>
    if path.isAbsolute then (environment.text? "XDG_CONFIG_HOME").map Path.mk else home?
  | none => home?
where
  /-- The usual place of settings. -/
  home? : Option Path :=
    ((environment.text? "HOME").filter (· != "")).map fun home => Path.joinName ⟨home⟩ ".config"

/-- The path in the directory of the user's settings. -/
def globalPath? (environment : Environment) : Option Path :=
  (settingsDirectory? environment).map fun directory =>
    (directory.joinName "chaosflow").joinName "chaosflow.yaml"

/-- The places that are looked at from a working directory on. -/
def localPlaces (environment : Environment) (directory : Path) : List Path :=
  candidateNames.map directory.joinName ++ (globalPath? environment).toList

/-- The document file to use. -/
def find (environment : Environment) (tree : FileTree) (named : Option Path) :
    Except DiscoveryError Path :=
  match named with
  | some path => .ok path
  | none =>
    match (namedPath? environment).filter tree.exists? with
    | some path => .ok path
    | none =>
      match tree.workingDirectory with
      | .error cause => .error (.noWorkingDirectory cause)
      | .ok directory =>
        match (localPlaces environment directory).find? tree.exists? with
        | some path => .ok path
        | none => .error .nothingFound

end Discovery

end FaultDrill
