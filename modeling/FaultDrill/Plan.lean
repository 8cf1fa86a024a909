import FaultDrill.Manifest
import FaultDrill.Path
import FaultDrill.Recipe

/-!
Plans: the files of a workspace before any is written.

Owns:
- the files of a workspace with paths relative to it;
- which names become the same name, of which the later one wins.

Does not own: writing of the files (`Workspace`).
-/

namespace FaultDrill

/-- A file of a workspace. -/
structure Artifact where
  /-- The path from the workspace. -/
  path : Path
  contents : String
  executable : Bool := false
  deriving DecidableEq, Repr

/-- What a name is the name of. -/
inductive NameKind where
  | service | journey
  deriving DecidableEq, Repr

/-- The word for a kind of name. -/
def NameKind.word : NameKind → String
  | .service => "service"
  | .journey => "journey"

/-- Two names that become the same name. -/
structure Collision where
  kind : NameKind
  first : String
  second : String
  /-- What both names become. -/
  sanitized : String
  deriving DecidableEq, Repr

/-- Each name that becomes the same as one before it, with the last such one; `seen` holds what
names before have become, the last one first. -/
def collisionsAfter (kind : NameKind) :
    (seen : List (String × String)) → List String → List Collision
  | _, [] => []
  | seen, name :: names =>
    let sanitized := Naming.sanitize name
    let rest := collisionsAfter kind ((sanitized, name) :: seen) names
    match seen.lookup sanitized with
    | some first => ⟨kind, first, name, sanitized⟩ :: rest
    | none => rest

/-- The collisions among some names. -/
def collisions (kind : NameKind) (names : List String) : List Collision :=
  collisionsAfter kind [] names

namespace Scenario

/-- The collisions of a scenario. The directory of the base image lies among those of the
journeys, as if a journey had its name. -/
def collisions (scenario : Scenario) : List Collision :=
  FaultDrill.collisions .service (scenario.services.map (·.name)) ++
    FaultDrill.collisions .journey
      (Naming.baseDirectory :: scenario.journeys.map (·.name))

/-- The directory of all build contexts, from the workspace. -/
def journeysPath : Path := ⟨Naming.journeysDirectory⟩

/-- The files in the build context of a journey. -/
def journeyArtifacts (run : RunId) (journey : Journey) : List Artifact :=
  let directory := journeysPath.joinName (Naming.sanitize journey.name)
  [ { path := directory.joinName Naming.recipeFile
      contents := Recipe.journey run },
    { path := directory.joinName Naming.scriptFile
      contents := Recipe.script journey
      executable := true }]

/-- The files of a workspace, in the order of writing. -/
def artifacts (scenario : Scenario) (run : RunId) : List Artifact :=
  { path := (journeysPath.joinName Naming.baseDirectory).joinName Naming.recipeFile
    contents := Recipe.base } ::
  scenario.journeys.flatMap (journeyArtifacts run) ++
  [{ path := ⟨Naming.manifestFile⟩
     contents := (Manifest.ofScenario scenario run).text }]

end Scenario

end FaultDrill
