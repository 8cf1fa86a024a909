import FaultDrill.Document.Mismatch
import FaultDrill.Document.Shape

/-!
Documents that are written and read back, said once for all formats.

Owns:
- steps of processes that may fail;
- how what a format writes for a value belongs to the reader of such values (`Link`), and what a
  format must show of its texts, counts, lists and records (`Linked`);
- that the records of a document are then read back from what is written for them.

Does not own: any format.

Main statement: a format that reads back texts, counts, lists and records reads back documents
(`Linked.document`).
-/

namespace FaultDrill

theorem countOf?_toNat (value : UInt32) : countOf? value.toNat = some value := by
  have small : (value.toNat : Int) < 4294967296 := Int.ofNat_lt.mpr value.toNat_lt
  unfold countOf?
  rw [if_pos ⟨Int.natCast_nonneg _, small⟩, Int.toNat_natCast, UInt32.ofNat_toNat]

/-- Where steps suffice there is one, and those after it suffice for less. -/
theorem exists_step {count steps : Nat} (enough : count < steps) :
    ∃ fewer, steps = fewer + 1 ∧ count ≤ fewer :=
  ⟨steps - 1, by omega, by omega⟩

section Processes

variable {State Value Other : Type} {process : StateT State Option Value}
  {next : Value → StateT State Option Other} {state state' : State}

theorem run_bind {value : Value} (ran : process state = some (value, state')) :
    (process >>= next) state = next value state' := by
  change (process state).bind _ = _
  rw [ran]
  rfl

theorem run_bind_refused (refused : process state = none) : (process >>= next) state = none := by
  change (process state).bind _ = none
  rw [refused]
  rfl

end Processes

/-- The names of all fields of a document and of the records in it. -/
def fieldNames : List String :=
  ["services", "journeys", "stages", "name", "image", "steps", "clients", "duration",
    "disk_corruption", "network_failure", "full_outage"]

variable {Reader : Type → Type} {Output : Type}

/-- A field is found by its name if no other has the same name. -/
theorem find?_name {Record : Type} {fields : List (ReadingField Reader Record)}
    (distinct : (fields.map (·.name)).Nodup) {field : ReadingField Reader Record}
    (member : field ∈ fields) : fields.find? (·.name == field.name) = some field := by
  induction fields with
  | nil => cases member
  | cons head fields inductionHypothesis =>
      rw [List.map_cons, List.nodup_cons] at distinct
      rcases List.mem_cons.mp member with rfl | later
      · exact List.find?_cons_of_pos (beq_self_eq_true _)
      · have other : head.name ≠ field.name := fun same =>
          distinct.1 (same ▸ List.mem_map_of_mem later)
        rw [List.find?_cons_of_neg (by simpa using other)]
        exact inductionHypothesis distinct.2 later

/-! ## Links -/

/-- Whether a reader reads a value from an output. -/
abbrev Link (Reader : Type → Type) (Output : Type) :=
  (Value : Type) → Reader Value → Output → Value → Prop

/-- Fields that are written one after the other, with what reading each does to a record. -/
inductive WritesFields (link : Link Reader Output) {Record : Type} :
    List (ReadingField Reader Record) → List (String × Output) → List (Record → Record) → Prop where
  | nil : WritesFields link [] [] []
  | cons {field : ReadingField Reader Record} {output : Output} {change : Record → Record}
      {fields : List (ReadingField Reader Record)} {outputs : List (String × Output)}
      {changes : List (Record → Record)} (reads : link (Record → Record) field.read output change) :
      WritesFields link fields outputs changes →
      WritesFields link (field :: fields) ((field.name, output) :: outputs) (change :: changes)

/-- What is read from an output may be changed by a function. -/
def Maps [Functor Reader] (link : Link Reader Output) : Prop :=
  ∀ {Value Other : Type} (function : Value → Other) {reader : Reader Value} {output : Output}
    {given : Value}, link Value reader output given →
      link Other (function <$> reader) output (function given)

theorem WritesFields.field [Functor Reader] {link : Link Reader Output} (maps : Maps link)
    {Record Value : Type} (name : String) (set : Value → Record → Record) {reader : Reader Value}
    {output : Output} {given : Value} (reads : link Value reader output given)
    {fields : List (ReadingField Reader Record)} {outputs : List (String × Output)}
    {changes : List (Record → Record)} (others : WritesFields link fields outputs changes) :
    WritesFields link (Reading.field name set reader :: fields) ((name, output) :: outputs)
      (set given :: changes) := by
  have first : link (Record → Record) (Reading.field name set reader).read output (set given) :=
    maps set reads
  exact .cons first others

/-- A record after some changes, one after the other. -/
def applyAll {Record : Type} (changes : List (Record → Record)) (record : Record) : Record :=
  changes.foldl (fun record change => change record) record

/-- A format reads back the records that have fields. -/
def LinksRecords (reading : Reading Reader) (writing : Writing Output)
    (value record : Link Reader Output) : Prop :=
  ∀ {Record : Type} (typeName : String) (blank : Record)
    {fields : List (ReadingField Reader Record)} {outputs : List (String × Output)}
    {changes : List (Record → Record)}, WritesFields value fields outputs changes → fields ≠ [] →
      (fields.map (·.name)).Nodup → (∀ field ∈ fields, field.name ∈ fieldNames) →
      record Record (reading.record typeName blank fields) (writing.record outputs)
        (applyAll changes blank)

/-- A format reads back the values of fields, and the records that have such fields. -/
structure Linked [Functor Reader] (reading : Reading Reader) (writing : Writing Output)
    (value record : Link Reader Output) : Prop where
  maps : Maps value
  text : ∀ text, value String reading.text (writing.text text) text
  count : ∀ count, value UInt32 reading.count (writing.count count) count
  texts : ∀ texts : List String,
    value (List String) (reading.list reading.text) (writing.list (texts.map writing.text)) texts
  record : LinksRecords reading writing value record

namespace Linked

variable [Functor Reader] {reading : Reading Reader} {writing : Writing Output}
  {value record : Link Reader Output} (linked : Linked reading writing value record)

include linked

theorem service (service : Service) :
    record Service reading.service (writing.service service) service := by
  have fields :=
    WritesFields.field linked.maps "name" (fun name (service : Service) => { service with name })
      (linked.text service.name) <|
    WritesFields.field linked.maps "image" (fun image service => { service with image })
      (linked.text service.image) .nil
  have distinct : ["name", "image"].Nodup := by decide
  exact linked.record "RawService" {} fields (List.cons_ne_nil _ _) distinct
    (by simp [Reading.field, fieldNames])

theorem journey (journey : Journey) :
    record Journey reading.journey (writing.journey journey) journey := by
  have fields :=
    WritesFields.field linked.maps "name" (fun name (journey : Journey) => { journey with name })
      (linked.text journey.name) <|
    WritesFields.field linked.maps "steps" (fun steps journey => { journey with steps })
      (linked.texts journey.steps) .nil
  have distinct : ["name", "steps"].Nodup := by decide
  exact linked.record "RawJourney" {} fields (List.cons_ne_nil _ _) distinct
    (by simp [Reading.field, fieldNames])

theorem stage (stage : StageEntry) :
    record StageEntry reading.stage (writing.stage stage) stage := by
  have fields :=
    WritesFields.field linked.maps "name" (fun name (stage : StageEntry) => { stage with name })
      (linked.text stage.name) <|
    WritesFields.field linked.maps "clients" (fun clients stage => { stage with clients })
      (linked.count stage.clients) <|
    WritesFields.field linked.maps "duration" (fun duration stage => { stage with duration })
      (linked.text stage.duration) <|
    WritesFields.field linked.maps "disk_corruption"
      (fun diskCorruption stage => { stage with diskCorruption })
      (linked.text stage.diskCorruption) <|
    WritesFields.field linked.maps "network_failure"
      (fun networkFailure stage => { stage with networkFailure })
      (linked.text stage.networkFailure) <|
    WritesFields.field linked.maps "full_outage"
      (fun fullOutage stage => { stage with fullOutage })
      (linked.text stage.fullOutage) .nil
  have distinct : ["name", "clients", "duration", "disk_corruption", "network_failure",
      "full_outage"].Nodup := by decide
  exact linked.record "RawStage" {} fields (List.cons_ne_nil _ _) distinct
    (by simp [Reading.field, fieldNames])

/-- Where a field may also hold a list of records, whole documents are read back. -/
theorem document {top : Link Reader Output} (whole : LinksRecords reading writing value top)
    (lists : ∀ {Item : Type} {item : Reader Item} {write : Item → Output},
      (∀ given, record Item item (write given) given) →
        ∀ items, value (List Item) (reading.list item) (writing.list (items.map write)) items)
    (document : Document) :
    top Document reading.document (writing.document document) document := by
  have fields :=
    WritesFields.field linked.maps "services"
      (fun services (document : Document) => { document with services })
      (lists linked.service document.services) <|
    WritesFields.field linked.maps "journeys" (fun journeys document => { document with journeys })
      (lists linked.journey document.journeys) <|
    WritesFields.field linked.maps "stages" (fun stages document => { document with stages })
      (lists linked.stage document.stages) .nil
  have distinct : ["services", "journeys", "stages"].Nodup := by decide
  exact whole "RawConfig" {} fields (List.cons_ne_nil _ _) distinct
    (by simp [Reading.field, fieldNames])

end Linked

end FaultDrill
