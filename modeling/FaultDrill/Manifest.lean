import FaultDrill.Json.Text
import FaultDrill.Naming
import FaultDrill.Scenario

/-!
The manifest of a run: which nodes there are, and that they share one network.

Owns:
- nodes with their images or build contexts, and the manifest of a scenario;
- the lines of a manifest.

An image is any text and is written as a JSON string, which never leaves its line; all other parts
of a line are names.
-/

namespace FaultDrill

/-- Where the image of a node comes from. -/
inductive NodeSource where
  | image (name : String)
  /-- The image is built from a directory, relative to the manifest. -/
  | build (context : String)
  deriving DecidableEq, Repr

/-- A container of a run. -/
structure Node where
  name : String
  source : NodeSource
  deriving DecidableEq, Repr

/-- All containers of a run and their network. -/
structure Manifest where
  nodes : List Node
  network : String
  deriving DecidableEq, Repr

namespace Node

/-- The node of a service. -/
def ofService (service : Service) : Node where
  name := Naming.sanitize service.name
  source := .image service.image

/-- The node of a journey. -/
def ofJourney (journey : Journey) : Node where
  name := Naming.journeyNode journey.name
  source := .build ("./" ++ Naming.journeysDirectory ++ "/" ++ Naming.sanitize journey.name)

/-- The line about the image of a node. -/
def sourceLine (node : Node) : String :=
  match node.source with
  | .image name => "    image: " ++ Json.textLiteral name
  | .build context => "    build: " ++ context

/-- The lines about a node. -/
def lines (network : String) (node : Node) : List String := [
  "  " ++ node.name ++ ":",
  node.sourceLine,
  "    networks:",
  "      - " ++ network]

end Node

namespace Manifest

/-- The manifest of a scenario: services first, then journeys. -/
def ofScenario (scenario : Scenario) (run : RunId) : Manifest where
  nodes := scenario.services.map Node.ofService ++ scenario.journeys.map Node.ofJourney
  network := Naming.network run

/-- The lines of a manifest. -/
def lines (manifest : Manifest) : List String :=
  (if manifest.nodes.isEmpty then ["services: \x7b\x7d"]
    else "services:" :: manifest.nodes.flatMap (Node.lines manifest.network)) ++
  ["networks:", "  " ++ manifest.network ++ ":"]

/-- The text of a manifest. -/
def text (manifest : Manifest) : String :=
  String.join (manifest.lines.map (· ++ "\n"))

end Manifest

end FaultDrill
