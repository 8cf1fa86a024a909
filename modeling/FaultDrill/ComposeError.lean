import FaultDrill.Runtime

/-!
What can go wrong between a scenario and a running topology.

Owns: the failures of making a workspace, of starting a topology and of stopping it, with their
texts.
-/

namespace FaultDrill

/-- Why a topology could not be prepared, started or stopped. -/
inductive ComposeError where
  | directory (path : Path) (cause : FileError)
  | file (path : Path) (cause : FileError)
  /-- Text could not be made from a template; the causes are told together, outermost first. -/
  | template (causes : List String)
  | baseImage (cause : RuntimeError)
  | up (cause : RuntimeError)
  | down (cause : RuntimeError)
  | removal (path : Path) (cause : FileError)
  deriving DecidableEq, Repr

namespace ComposeError

/-- The text shown for an error. -/
def message : ComposeError → String
  | .directory path _ => "ディレクトリを作成できません: " ++ path.text
  | .file path _ => "ファイルを書き込めません: " ++ path.text
  | .template causes => "テンプレート展開エラー: " ++ String.intercalate ": " causes
  | .baseImage _ => "ジャーニー用ベースイメージのビルドに失敗しました"
  | .up _ => "docker compose up に失敗しました"
  | .down _ => "docker compose down に失敗しました"
  | .removal path _ => "ワークスペースを削除できません: " ++ path.text

/-- The texts of what lies beneath an error, outermost first. -/
def causes : ComposeError → List String
  | .directory _ cause | .file _ cause | .removal _ cause => [cause.message]
  | .template _ => []
  | .baseImage cause | .up cause | .down cause => cause.message :: cause.causes

end ComposeError

end FaultDrill
