import FaultDrill.CommandLine.Style
import FaultDrill.ComposeError
import FaultDrill.Discovery
import FaultDrill.DocumentFile

/-!
Reports of the command line.

Owns: the summary of a scenario, and the report of a failure with all that lies beneath it.
-/

namespace FaultDrill.CommandLine

/-! ## Failures -/

/-- A failure as it is reported: a message, and what lies beneath it, outermost first. -/
structure Failure where
  message : String
  causes : List String
  deriving DecidableEq, Repr

namespace Failure

/-- A failure of finding a document file. -/
def ofDiscovery (error : DiscoveryError) : Failure := ⟨error.message, error.causes⟩

/-- A failure of a topology. -/
def ofCompose (error : ComposeError) : Failure := ⟨error.message, error.causes⟩

/-- A failure about a document file, beneath what was to be done with it. -/
def ofDocumentFile (purpose : String) (path : Path) (error : DocumentFileError) : Failure :=
  ⟨purpose ++ ": " ++ path.text, error.message :: error.causes⟩

/-- A text whose lines after the first are moved to the right. -/
def indented (blanks : String) (text : String) : String :=
  text.replace "\n" ("\n" ++ blanks)

/-- A number on five places. -/
def placed (number : Nat) : String :=
  let digits := Numeral.decimalText number
  String.ofList (List.replicate (5 - digits.length) ' ') ++ digits

/-- The lines about what lies beneath a failure. Several causes are numbered. -/
def causeLines : List String → List String
  | [] => []
  | [cause] => ["    " ++ indented "    " cause]
  | causes => causes.zipIdx.map fun (cause, number) =>
    placed number ++ ": " ++ indented "       " cause

/-- The report of a failure. -/
def report (failure : Failure) : String :=
  "Error: " ++ failure.message ++
    (if failure.causes.isEmpty then ""
      else "\n\nCaused by:\n" ++ String.intercalate "\n" (causeLines failure.causes)) ++ "\n"

end Failure

/-! ## Summaries -/

/-- The line about a service. -/
def serviceLine (service : Service) : List Span :=
  [plain "    - ", Style.name.on service.name, plain (" (" ++ service.image ++ ")\n")]

/-- The line about a journey. -/
def journeyLine (journey : Journey) : List Span :=
  [plain "    - ", Style.name.on journey.name,
    plain (" (" ++ Numeral.decimalText journey.steps.length ++ "ステップ)\n")]

/-- The lines about a stage. -/
def stageLines (stage : Stage) : List Span :=
  [plain "    - ", Style.name.on stage.name,
    plain (" (クライアント " ++ Numeral.decimalText stage.clients.toNat ++ "、" ++
      stage.duration.text ++ ")\n"),
    plain ("      ディスク破損 " ++ stage.diskCorruption.text ++ " / ネットワーク障害 " ++
      stage.networkFailure.text ++ " / 全停止 " ++ stage.fullOutage.text ++ "\n")]

/-- The line about the number of some things. -/
def countLine (things : String) (count : Nat) : Span :=
  plain ("  " ++ things ++ ": " ++ Numeral.decimalText count ++ "個\n")

/-- The summary of a scenario from a file. -/
def summary (path : Path) (scenario : Scenario) : List Span :=
  [plain "設定ファイル: ", Style.name.on path.text, plain "\n",
    Style.best.on "✓ 設定ファイルは正常です！", plain "\n\nサマリー:\n",
    countLine "サービス" scenario.services.length] ++
  scenario.services.flatMap serviceLine ++
  [countLine "ジャーニー" scenario.journeys.length] ++
  scenario.journeys.flatMap journeyLine ++
  [countLine "ステージ" scenario.stages.length] ++
  scenario.stages.flatMap stageLines

end FaultDrill.CommandLine
