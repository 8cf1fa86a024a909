import FaultDrill.Document.Basic

/-!
The shape of documents, said once for all formats.

Owns:
- what a format must be able to read (`Reading`) and to write (`Writing`): texts, counts, lists
  and records;
- the reading and the writing of a whole document in these terms, with the names and the order of
  all fields.

Does not own: any format.
-/

namespace FaultDrill

/-- A field of a record: its name and a reader of its value, which puts the value in place. -/
structure ReadingField (Reader : Type → Type) (Record : Type) where
  name : String
  read : Reader (Record → Record)

/-- How a format reads the parts of a document. A field that is missing keeps the value of the
blank record; a field that is not listed is passed over. -/
structure Reading (Reader : Type → Type) where
  text : Reader String
  count : Reader UInt32
  list : {Item : Type} → Reader Item → Reader (List Item)
  record :
    {Record : Type} → (typeName : String) → (blank : Record) →
      List (ReadingField Reader Record) → Reader Record

/-- How a format writes the parts of a document. -/
structure Writing (Output : Type) where
  text : String → Output
  count : UInt32 → Output
  list : List Output → Output
  record : List (String × Output) → Output

namespace Reading

variable {Reader : Type → Type} [Functor Reader]

/-- A field whose value is put in place by `set`. -/
def field {Value Record : Type}
    (name : String)
    (set : Value → Record → Record)
    (value : Reader Value) :
    ReadingField Reader Record :=
  ⟨name, set <$> value⟩

/-- Reads a service. -/
def service (reading : Reading Reader) : Reader Service :=
  reading.record "RawService" {} [
    field "name" (fun name service => { service with name }) reading.text,
    field "image" (fun image service => { service with image }) reading.text]

/-- Reads a journey. -/
def journey (reading : Reading Reader) : Reader Journey :=
  reading.record "RawJourney" {} [
    field "name" (fun name journey => { journey with name }) reading.text,
    field "steps" (fun steps journey => { journey with steps }) (reading.list reading.text)]

/-- Reads a stage. -/
def stage (reading : Reading Reader) : Reader StageEntry :=
  reading.record "RawStage" {} [
    field "name" (fun name stage => { stage with name }) reading.text,
    field "clients" (fun clients stage => { stage with clients }) reading.count,
    field "duration" (fun duration stage => { stage with duration }) reading.text,
    field "disk_corruption" (fun diskCorruption stage => { stage with diskCorruption })
      reading.text,
    field "network_failure" (fun networkFailure stage => { stage with networkFailure })
      reading.text,
    field "full_outage" (fun fullOutage stage => { stage with fullOutage }) reading.text]

/-- Reads a document. -/
def document (reading : Reading Reader) : Reader Document :=
  reading.record "RawConfig" {} [
    field "services" (fun services document => { document with services })
      (reading.list reading.service),
    field "journeys" (fun journeys document => { document with journeys })
      (reading.list reading.journey),
    field "stages" (fun stages document => { document with stages })
      (reading.list reading.stage)]

end Reading

namespace Writing

variable {Output : Type}

/-- Writes a service. -/
def service (writing : Writing Output) (service : Service) : Output :=
  writing.record [("name", writing.text service.name), ("image", writing.text service.image)]

/-- Writes a journey. -/
def journey (writing : Writing Output) (journey : Journey) : Output :=
  writing.record [
    ("name", writing.text journey.name),
    ("steps", writing.list (journey.steps.map writing.text))]

/-- Writes a stage. -/
def stage (writing : Writing Output) (stage : StageEntry) : Output :=
  writing.record [
    ("name", writing.text stage.name),
    ("clients", writing.count stage.clients),
    ("duration", writing.text stage.duration),
    ("disk_corruption", writing.text stage.diskCorruption),
    ("network_failure", writing.text stage.networkFailure),
    ("full_outage", writing.text stage.fullOutage)]

/-- Writes a document. -/
def document (writing : Writing Output) (document : Document) : Output :=
  writing.record [
    ("services", writing.list (document.services.map writing.service)),
    ("journeys", writing.list (document.journeys.map writing.journey)),
    ("stages", writing.list (document.stages.map writing.stage))]

end Writing

end FaultDrill
