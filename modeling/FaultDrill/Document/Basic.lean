/-!
Scenario documents: what a user writes down, before durations and probabilities are understood.

Owns: the records of a document, their empty forms, and the example that a new document starts
from.

Does not own: the textual formats (`Json`, `Yaml`, `Toml`) and the checked form (`Scenario`).
-/

namespace FaultDrill

/-- A container that the drill runs against. -/
structure Service where
  name : String := ""
  image : String := ""
  deriving DecidableEq, Repr, Inhabited

/-- A client that runs its steps one after the other. -/
structure Journey where
  name : String := ""
  steps : List String := []
  deriving DecidableEq, Repr, Inhabited

/-- One phase of a drill as written: a length of time and three probabilities, all still text. -/
structure StageEntry where
  name : String := ""
  clients : UInt32 := 0
  duration : String := ""
  diskCorruption : String := ""
  networkFailure : String := ""
  fullOutage : String := ""
  deriving DecidableEq, Repr, Inhabited

/-- A whole document. -/
structure Document where
  services : List Service := []
  journeys : List Journey := []
  stages : List StageEntry := []
  deriving DecidableEq, Repr, Inhabited

/-- A journey without steps does nothing. -/
def Journey.isIdle (journey : Journey) : Bool := journey.steps.isEmpty

/-- The document that scaffolding writes. -/
def Document.sample : Document where
  services := [{ name := "nginx_service", image := "nginx:latest" }]
  journeys := [
    { name := "get index"
      steps := ["GET http://nginx_service/ --status 200"] },
    { name := "get unknown"
      steps := [
        "http get http://nginx_service/unknown --status 404",
        "http head http://nginx_service/unknown --status 404"] }]
  stages := [
    { name := "default"
      clients := 1
      duration := "1s"
      diskCorruption := "5%"
      networkFailure := "23.4%"
      fullOutage := "2.01%" }]

end FaultDrill
