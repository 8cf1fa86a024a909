import FaultDrill.Document.Basic
import FaultDrill.Duration.Grammar
import FaultDrill.Probability
import FaultDrill.Text.Quoted

/-!
Scenarios: documents whose stages are understood.

Owns:
- the checked stage and the scenario;
- the causes that keep a text from being a length of time or a probability, with their texts;
- checking of a stage, field by field, and of a document, stage by stage; the first failure wins.

Does not own: the grammars of the two kinds of text (`Duration.Grammar`, `Probability`).
-/

namespace FaultDrill

/-- Why a text has the wrong form. -/
inductive TextError where
  | probability (text : String)
  | duration (text : String) (cause : DurationError)
  deriving DecidableEq, Repr

namespace TextError

/-- The text shown for an error. -/
def message : TextError → String
  | .probability text => "確率の形式が不正です: " ++ Text.quoted text
  | .duration text _ => "期間の形式が不正です: " ++ Text.quoted text

/-- The texts of what lies beneath an error, outermost first. -/
def causes : TextError → List String
  | .probability _ => []
  | .duration _ cause => [cause.message]

end TextError

/-- The fields of a stage that have a form of their own. -/
inductive StageField where
  | duration | diskCorruption | networkFailure | fullOutage
  deriving DecidableEq, Repr

/-- The name of a field in every document format. -/
def StageField.name : StageField → String
  | .duration => "duration"
  | .diskCorruption => "disk_corruption"
  | .networkFailure => "network_failure"
  | .fullOutage => "full_outage"

/-- The field of a stage that could not be understood. -/
structure StageError where
  stage : String
  field : StageField
  cause : TextError
  deriving DecidableEq, Repr

namespace StageError

/-- The text shown for an error. -/
def message (error : StageError) : String :=
  "ステージ '" ++ error.stage ++ "' の " ++ error.field.name ++ " をパースできません"

/-- The texts of what lies beneath an error, outermost first. -/
def causes (error : StageError) : List String :=
  error.cause.message :: error.cause.causes

end StageError

/-- One phase of a drill. -/
structure Stage where
  name : String
  clients : UInt32
  duration : Duration
  diskCorruption : Probability
  networkFailure : Probability
  fullOutage : Probability
  deriving DecidableEq, Repr

/-- A checked document. -/
structure Scenario where
  services : List Service
  journeys : List Journey
  stages : List Stage
  deriving DecidableEq, Repr

/-- A length of time from a text. -/
def readDuration (text : String) : Except TextError Duration :=
  (Duration.ofText text).mapError (.duration text)

/-- A probability from a text. -/
def readProbability (text : String) : Except TextError Probability :=
  match Probability.ofText? text with
  | some probability => .ok probability
  | none => .error (.probability text)

namespace Stage

/-- Checks a stage. The fields are looked at in the order duration, disk corruption, network
failure, full outage. -/
def ofEntry (entry : StageEntry) : Except StageError Stage := do
  let duration ← (readDuration entry.duration).mapError (⟨entry.name, .duration, ·⟩)
  let diskCorruption ←
    (readProbability entry.diskCorruption).mapError (⟨entry.name, .diskCorruption, ·⟩)
  let networkFailure ←
    (readProbability entry.networkFailure).mapError (⟨entry.name, .networkFailure, ·⟩)
  let fullOutage ← (readProbability entry.fullOutage).mapError (⟨entry.name, .fullOutage, ·⟩)
  .ok {
    name := entry.name
    clients := entry.clients
    duration
    diskCorruption
    networkFailure
    fullOutage }

end Stage

/-- Checks a document; services and journeys are taken as they are. -/
def Scenario.ofDocument (document : Document) : Except StageError Scenario := do
  let stages ← document.stages.mapM Stage.ofEntry
  .ok { services := document.services, journeys := document.journeys, stages }

end FaultDrill
