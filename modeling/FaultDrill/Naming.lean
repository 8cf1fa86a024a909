import FaultDrill.Numeral.Layout

/-!
Names that stand for users' names and for runs.

Owns:
- names over ASCII letters, digits and the underscore, made from any text;
- the names of everything that belongs to a single run;
- the fixed names inside a workspace.

Does not own: where these names are used.
-/

namespace FaultDrill

/-- The number that tells the things of one run from those of another. -/
abbrev RunId := UInt32

namespace Naming

/-! ## Users' names -/

/-- Whether a character may stand in a name. -/
def isNameChar (char : Char) : Bool := char.isAlphanum || char == '_'

/-- Characters with an underscore for every longest run of those that may not stand in a name;
`inRun` says that such a run has begun before. -/
def sanitizeChars : (inRun : Bool) → List Char → List Char
  | _, [] => []
  | inRun, char :: rest =>
    if isNameChar char then char :: sanitizeChars false rest
    else if inRun then sanitizeChars true rest
    else '_' :: sanitizeChars true rest

/-- The name that stands for a text. -/
def sanitize (text : String) : String :=
  String.ofList (sanitizeChars false text.toList)

/-- The node of a journey. -/
def journeyNode (journey : String) : String := "journey__" ++ sanitize journey

/-! ## Names of a run -/

/-- The network that belongs to a run. -/
def network (run : RunId) : String := "chaosflow_" ++ Numeral.decimalText run.toNat

/-- The image on which the images of the run's journeys are built. -/
def baseImage (run : RunId) : String :=
  "chaosflow_journey_base_" ++ Numeral.decimalText run.toNat

/-- The directory of a run's workspace. -/
def workspaceDirectory (run : RunId) : String :=
  "chaosflow_compose_" ++ Numeral.decimalText run.toNat

/-! ## Names inside a workspace -/

/-- The directory of all build contexts. -/
def journeysDirectory : String := "_journeys"

/-- The build context of the base image, among those of the journeys. -/
def baseDirectory : String := "_base"

/-- The file that describes all nodes. -/
def manifestFile : String := "docker-compose.yml"

/-- The file that describes an image. -/
def recipeFile : String := "Dockerfile"

/-- The script of a journey. -/
def scriptFile : String := "entrypoint.sh"

end Naming

end FaultDrill
