import Mathlib.Data.List.Nodup
import FaultDrill.Proofs.Json.Refusal
import FaultDrill.Proofs.Json.RoundTrip

/-!
A document is read from all texts in which it is laid out.

Owns:
- readers that follow the layouts of their values, and fields that may come in any order;
- how the records of a document follow theirs.

Main statement: whatever the order of members, whatever stands in others and whichever defaults are
left out, the document is read; and a field that is repeated is an error (`decode_of_layout`).

Fields come in any order because what they do to a record commutes, and may be left out because a
default does nothing to the record that reading starts from. This is what `Fields` asks of a record.
-/

namespace FaultDrill.Json

open Grammar Reader Text
open Layout (Admissible Given layoutOf? memberOf)

/-- A reader reads a value from all its layouts, and fails where they repeat a field. -/
structure Follows {Value : Type} (reader : Reader Value) (layout : Layout) (value : Value) :
    Prop where
  spells : ∀ {bytes}, layout.spelled bytes → Spells reader bytes value
  rejects : ∀ {bytes}, layout.repeating bytes → Rejects reader bytes

theorem Follows.map {Value Other : Type} {reader : Reader Value} {layout : Layout} {value : Value}
    (follows : Follows reader layout value) (function : Value → Other) :
    Follows (function <$> reader) layout (function value) where
  spells spelled := (follows.spells spelled).map function
  rejects repeating := (follows.rejects repeating).map function

/-! ## Texts, counts and lists -/

theorem follows_text (value : String) : Follows Reader.text (Layout.text value) value where
  spells := by
    rintro bytes ⟨source, textOf, rfl⟩
    exact spells_text (transcribes_of_textOf textOf)
  rejects none := none.elim

theorem follows_count (value : UInt32) : Follows Reader.count (Layout.count value) value where
  spells := by
    rintro bytes rfl
    exact spells_count (Number.decimalOf_decimalText value.toNat)
  rejects none := none.elim

section List

variable {Item Value : Type} {element : Item → List UInt8 → Prop}
  {other : Value → List UInt8 → Prop} {function : Value → Item} {goal further : List UInt8 → Prop}
  {first : Bool} {values : List Value} {bytes : List UInt8}

theorem elements_of_map (elements : Elements element first (values.map function) bytes)
    (each : ∀ value bytes, element (function value) bytes → other value bytes) :
    Elements other first values bytes := by
  induction values generalizing first bytes with
  | nil =>
      cases elements
      exact .done first
  | cons value values inductionHypothesis =>
      cases elements with
      | more lead spelled others => exact .more lead (each _ _ spelled) (inductionHypothesis others)

theorem upTo_of_map (upTo : UpTo element goal first (values.map function) bytes)
    (each : ∀ value bytes, element (function value) bytes → other value bytes)
    (onward : ∀ bytes, goal bytes → further bytes) : UpTo other further first values bytes := by
  induction values generalizing first bytes with
  | nil =>
      cases upTo with
      | here lead reached => exact .here lead (onward _ reached)
  | cons value values inductionHypothesis =>
      cases upTo with
      | after lead spelled others =>
          exact .after lead (each _ _ spelled) (inductionHypothesis others)

end List

theorem follows_list {Item : Type} {item : Reader Item} {write : Item → Layout}
    (each : ∀ value, Follows item (write value) value) (values : List Item) :
    Follows (Reader.list item) (Layout.list (values.map write)) values where
  spells := by
    rintro bytes ⟨inside, blanks, elements, blank, rfl⟩
    exact spells_list (elements_of_map elements fun value _ => (each value).spells) blank
  rejects := by
    rintro bytes ⟨earlier, layout, later, inside, parts, upTo, rfl⟩
    obtain ⟨front, back, -, rfl, same⟩ := List.map_eq_append_iff.mp parts
    obtain ⟨value, back, -, rfl, -⟩ := List.map_eq_cons_iff.mp same
    exact rejects_list (upTo_of_map upTo (fun value _ => (each value).spells)
      fun _ => (each value).rejects)

/-! ## Fields in any order -/

/-- A field of a record with the layout of its value, and what reading it does. -/
structure FieldLayout (Record : Type) where
  field : ReadingField Reader Record
  layout : Layout
  change : Record → Record

namespace FieldLayout

variable {Record : Type}

/-- A field whose value is put in place by `set`. -/
def of {Value : Type} (name : String) (set : Value → Record → Record) (reader : Reader Value)
    (layout : Layout) (value : Value) : FieldLayout Record :=
  ⟨Reading.field name set reader, layout, set value⟩

section Of

variable {Value : Type} (name : String) (set : Value → Record → Record) (reader : Reader Value)
  (layout : Layout) (value : Value)

@[simp] theorem of_name : (of name set reader layout value).field.name = name := rfl

@[simp] theorem of_change : (of name set reader layout value).change = set value := rfl

end Of

/-- The field of some name. -/
def named? (fields : List (FieldLayout Record)) (name : String) : Option (FieldLayout Record) :=
  fields.find? (·.field.name == name)

/-- What a member of some name does. -/
def changeOf (fields : List (FieldLayout Record)) (name : String) : Record → Record :=
  (named? fields name).elim id (·.change)

end FieldLayout

open FieldLayout (named? changeOf)

/-- Fields that may come in any order, and may be left out where they have the default. -/
structure Fields {Record : Type} (start : Record) (fields : List (FieldLayout Record)) : Prop where
  follows : ∀ field ∈ fields, Follows field.field.read field.layout field.change
  distinct : (fields.map (·.field.name)).Nodup
  commute : ∀ first ∈ fields, ∀ second ∈ fields, ∀ record,
    first.change (second.change record) = second.change (first.change record)
  defaults : ∀ field ∈ fields, field.layout.isDefault → field.change start = start

namespace Fields

variable {Record : Type} {start : Record} {fields : List (FieldLayout Record)}

theorem nil : Fields start [] where
  follows := by simp
  distinct := by simp
  commute := by simp
  defaults := by simp

theorem cons {Value : Type} (name : String) (set : Value → Record → Record)
    {reader : Reader Value} {layout : Layout} {value missing : Value}
    (follows : Follows reader layout value) (fresh : name ∉ fields.map (·.field.name))
    (commutes : ∀ field ∈ fields, ∀ record,
      set value (field.change record) = field.change (set value record))
    (default : layout.isDefault → value = missing) (leaves : set missing start = start)
    (others : Fields start fields) :
    Fields start (.of name set reader layout value :: fields) where
  follows := List.forall_mem_cons.mpr ⟨follows.map set, others.follows⟩
  distinct := List.nodup_cons.mpr ⟨fresh, others.distinct⟩
  commute := by
    intro first inFirst second inSecond record
    rcases List.mem_cons.mp inFirst with rfl | firstLater
    · rcases List.mem_cons.mp inSecond with rfl | secondLater
      · rfl
      · exact commutes second secondLater record
    · rcases List.mem_cons.mp inSecond with rfl | secondLater
      · exact (commutes first firstLater record).symm
      · exact others.commute first firstLater second secondLater record
  defaults := List.forall_mem_cons.mpr
    ⟨fun isDefault => (congrArg (set · start) (default isDefault)).trans leaves, others.defaults⟩

theorem named?_eq_some_iff (ordered : Fields start fields) {name : String}
    {field : FieldLayout Record} :
    named? fields name = some field ↔ field ∈ fields ∧ field.field.name = name := by
  constructor
  · intro found
    exact ⟨List.mem_of_find?_eq_some found, by simpa using List.find?_some found⟩
  · rintro ⟨member, rfl⟩
    cases found : named? fields field.field.name with
    | none =>
        have none := List.find?_eq_none.mp found field member
        simp at none
    | some other =>
        have otherMember := List.mem_of_find?_eq_some found
        have same : other.field.name = field.field.name := by simpa using List.find?_some found
        rw [List.inj_on_of_nodup_map ordered.distinct otherMember member same]

theorem applyAll_perm (ordered : Fields start fields) {first second : List (FieldLayout Record)}
    (same : first.Perm second) (within : ∀ field ∈ first, field ∈ fields) (record : Record) :
    applyAll (first.map (·.change)) record = applyAll (second.map (·.change)) record := by
  unfold applyAll
  rw [List.foldl_map, List.foldl_map]
  exact same.foldl_eq' (fun one inOne two inTwo record =>
    ordered.commute two (within two inTwo) one (within one inOne) record) record

/-- Fields that all have the default do nothing. -/
theorem applyAll_defaults (ordered : Fields start fields) {absent : List (FieldLayout Record)}
    (within : ∀ field ∈ absent, field ∈ fields ∧ field.layout.isDefault) :
    applyAll (absent.map (·.change)) start = start := by
  induction absent with
  | nil => rfl
  | cons field absent inductionHypothesis =>
      rw [List.forall_mem_cons] at within
      change applyAll (absent.map (·.change)) (field.change start) = start
      rw [ordered.defaults field within.1.1 within.1.2]
      exact inductionHypothesis within.2

/-- The fields that members name, in the order of the members. -/
def given (fields : List (FieldLayout Record)) (names : List String) : List (FieldLayout Record) :=
  names.filterMap (named? fields)

theorem applyAll_changeOf (names : List String) (record : Record) :
    applyAll (names.map (changeOf fields)) record =
      applyAll ((given fields names).map (·.change)) record := by
  induction names generalizing record with
  | nil => rfl
  | cons name names inductionHypothesis =>
      unfold given
      change applyAll (names.map (changeOf fields)) (changeOf fields name record) = _
      cases found : named? fields name with
      | none =>
          rw [List.filterMap_cons_none found, changeOf, found]
          exact inductionHypothesis record
      | some field =>
          rw [List.filterMap_cons_some found, changeOf, found]
          exact inductionHypothesis (field.change record)

theorem map_name_given (ordered : Fields start fields) (names : List String) :
    (given fields names).map (·.field.name) =
      names.filter fun name => (named? fields name).isSome := by
  induction names with
  | nil => rfl
  | cons name names inductionHypothesis =>
      unfold given
      cases found : named? fields name with
      | none =>
          rw [List.filterMap_cons_none found, List.filter_cons_of_neg (by simp [found])]
          exact inductionHypothesis
      | some field =>
          rw [List.filterMap_cons_some found, List.filter_cons_of_pos (by simp [found]),
            List.map_cons, (ordered.named?_eq_some_iff.mp found).2]
          exact congrArg _ inductionHypothesis

/-- Members do to a record what all fields do, whatever their order. -/
theorem applyAll_given (ordered : Fields start fields) {names : List String}
    (distinct : (names.filter fun name => (named? fields name).isSome).Nodup)
    (complete : ∀ field ∈ fields, field.field.name ∈ names ∨ field.layout.isDefault) :
    applyAll (names.map (changeOf fields)) start = applyAll (fields.map (·.change)) start := by
  let isGiven (field : FieldLayout Record) : Bool := decide (field.field.name ∈ names)
  let present := fields.filter isGiven
  let absent := fields.filter fun field => !isGiven field
  have defaults : ∀ field ∈ absent, field ∈ fields ∧ field.layout.isDefault := by
    intro field member
    obtain ⟨listed, missing⟩ := List.mem_filter.mp member
    have notNamed : field.field.name ∉ names := by simpa [isGiven] using missing
    exact ⟨listed, (complete field listed).resolve_left notNamed⟩
  have fieldsDistinct : fields.Nodup := .of_map _ ordered.distinct
  have givenDistinct : (given fields names).Nodup := by
    refine .of_map (·.field.name) ?_
    rwa [ordered.map_name_given]
  have same : present.Perm (given fields names) := by
    refine (List.perm_ext_iff_of_nodup (fieldsDistinct.filter _) givenDistinct).mpr fun field => ?_
    rw [List.mem_filter, given, List.mem_filterMap]
    simp only [ordered.named?_eq_some_iff, isGiven, decide_eq_true_eq]
    constructor
    · exact fun ⟨listed, named⟩ => ⟨_, named, listed, rfl⟩
    · rintro ⟨name, named, listed, rfl⟩
      exact ⟨listed, named⟩
  have all : (absent ++ present).Perm fields :=
    List.perm_append_comm.trans (List.filter_append_perm isGiven fields)
  calc applyAll (names.map (changeOf fields)) start
      = applyAll ((given fields names).map (·.change)) start := applyAll_changeOf names start
    _ = applyAll (present.map (·.change)) start :=
        (ordered.applyAll_perm same (fun _ member => List.mem_of_mem_filter member) start).symm
    _ = applyAll ((absent ++ present).map (·.change)) start := by
        have unchanged := ordered.applyAll_defaults defaults
        unfold applyAll at unchanged ⊢
        rw [List.map_append, List.foldl_append, unchanged]
    _ = applyAll (fields.map (·.change)) start :=
        ordered.applyAll_perm all (fun _ member => all.mem_iff.mp member) start

end Fields

/-! ## Records -/

namespace Fields

variable {Record : Type} {start : Record} {fields : List (FieldLayout Record)}

theorem find?_field (fields : List (FieldLayout Record)) (name : String) :
    (fields.map (·.field)).find? (·.name == name) = (named? fields name).map (·.field) :=
  List.find?_map

/-- The layouts of fields with their names. -/
def layoutsOf (fields : List (FieldLayout Record)) : List (String × Layout) :=
  fields.map fun field => (field.field.name, field.layout)

theorem layoutOf?_eq (fields : List (FieldLayout Record)) (name : String) :
    layoutOf? (layoutsOf fields) name = (named? fields name).map (·.layout) := by
  unfold layoutOf? layoutsOf
  rw [List.find?_map, Option.map_map]
  rfl

/-- A member with what it does to a record. -/
def effectOf (fields : List (FieldLayout Record)) (given : Given) : String × (Record → Record) :=
  (given.1, changeOf fields given.1)

theorem knownNames_eq (fields : List (FieldLayout Record)) (members : List Given) :
    knownNames (fields.map (·.field)) (members.map (effectOf fields)) =
      (members.map Prod.fst).filter fun name => (named? fields name).isSome := by
  unfold knownNames
  rw [List.map_map]
  exact congrArg (List.filter · _) (funext fun name => by rw [find?_field, Option.isSome_map])

theorem distinct_of_admissible {members : List Given}
    (admissible : Admissible (layoutsOf fields) members) :
    ((members.map Prod.fst).filter fun name => (named? fields name).isSome).Nodup := by
  have distinct := admissible.distinct
  simp only [layoutOf?_eq, Option.isSome_map] at distinct
  exact distinct

/-- An admissible member is read, or passed over if no field has its name. -/
theorem member_of_admissible (ordered : Fields start fields) {members : List Given}
    (admissible : Admissible (layoutsOf fields) members) {given : Given} (listed : given ∈ members)
    {bytes : List UInt8} (spelled : memberOf given bytes) :
    Member (fields.map (·.field)) (effectOf fields given) bytes := by
  obtain ⟨name, value⟩ := given
  cases spelled with
  | @mk source before after value textOf blankBefore blankAfter same =>
      subst same
      refine .mk (transcribes_of_textOf textOf) blankBefore blankAfter ?_
      have layout := layoutOf?_eq fields name
      have found := find?_field fields name
      unfold changeOf
      cases named : named? fields name with
      | none =>
          rw [named, Option.map_none] at layout found
          obtain ⟨depth, value⟩ := admissible.other _ listed layout
          exact .passes found (spells_skip value)
      | some field =>
          rw [named, Option.map_some] at layout found
          have spelled := admissible.known _ listed field.layout layout
          have member := (ordered.named?_eq_some_iff.mp named).1
          exact .sets found ((ordered.follows field member).spells spelled)

theorem refusedMember_of_repeats (ordered : Fields start fields) {members : List Given}
    {seen : List String} {bytes : List UInt8}
    (within : ∀ name ∈ knownNames (fields.map (·.field)) (members.map (effectOf fields)),
      name ∈ seen)
    (repeats : Layout.record.repeats (layoutsOf fields) members bytes) :
    RefusedMember (fields.map (·.field)) seen bytes := by
  obtain ⟨name, layout, isLayout, alternatives⟩ := repeats
  rw [layoutOf?_eq, Option.map_eq_some_iff] at isLayout
  obtain ⟨field, named, rfl⟩ := isLayout
  have found := find?_field fields name
  rw [named, Option.map_some] at found
  rcases alternatives with ⟨already, source, rest, textOf, rfl⟩ | member
  · refine .twice found (within name ?_) (transcribes_of_textOf textOf)
    rw [knownNames_eq, List.mem_filter]
    exact ⟨already, by rw [named, Option.isSome_some]⟩
  · have listed := (ordered.named?_eq_some_iff.mp named).1
    cases member with
    | mk textOf blankBefore blankAfter repeating =>
        exact .inside found (transcribes_of_textOf textOf) blankBefore blankAfter
          ((ordered.follows field listed).rejects repeating)

/-- A record follows the layouts of its fields. -/
theorem follows_record (ordered : Fields start fields) (typeName : String) :
    Follows (Reader.record typeName start (fields.map (·.field)))
      (Layout.record (layoutsOf fields)) (applyAll (fields.map (·.change)) start) where
  spells := by
    rintro bytes ⟨members, inside, blanks, admissible, complete, elements, blank, rfl⟩
    have distinct := distinct_of_admissible admissible
    have read := spells_record typeName start
      (elements.map (effectOf fields) fun _ listed _ =>
        ordered.member_of_admissible admissible listed)
      blank (by rwa [knownNames_eq])
    have named : ∀ field ∈ fields,
        field.field.name ∈ members.map Prod.fst ∨ field.layout.isDefault :=
      fun field listed => complete _ (List.mem_map_of_mem listed)
    have changes : (members.map (effectOf fields)).map Prod.snd =
        (members.map Prod.fst).map (changeOf fields) := by
      rw [List.map_map, List.map_map]
      rfl
    rwa [changes, ordered.applyAll_given distinct named] at read
  rejects := by
    rintro bytes ⟨members, inside, admissible, upTo, rfl⟩
    have distinct := distinct_of_admissible admissible
    exact rejects_record typeName start
      (upTo.map (effectOf fields)
        (fun _ listed _ => ordered.member_of_admissible admissible listed) fun _ => id)
      ordered.refusedMember_of_repeats (by rwa [knownNames_eq])

end Fields

/-! ## Documents -/

theorem follows_service (service : Service) :
    Follows reading.service (layouts.service service) service := by
  have fields : Fields ({} : Service) _ :=
    .cons "name" (fun name service => { service with name }) (follows_text service.name)
      (by simp) (by simp) id rfl <|
    .cons "image" (fun image service => { service with image }) (follows_text service.image)
      (by simp) (by simp) id rfl .nil
  exact fields.follows_record "RawService"

theorem follows_journey (journey : Journey) :
    Follows reading.journey (layouts.journey journey) journey := by
  have fields : Fields ({} : Journey) _ :=
    .cons "name" (fun name journey => { journey with name }) (follows_text journey.name)
      (by simp) (by simp) id rfl <|
    .cons "steps" (fun steps journey => { journey with steps })
      (follows_list follows_text journey.steps) (by simp) (by simp) List.map_eq_nil_iff.mp rfl .nil
  exact fields.follows_record "RawJourney"

theorem follows_stage (stage : StageEntry) :
    Follows reading.stage (layouts.stage stage) stage := by
  have fields : Fields ({} : StageEntry) _ :=
    .cons "name" (fun name stage => { stage with name }) (follows_text stage.name)
      (by simp) (by simp) id rfl <|
    .cons "clients" (fun clients stage => { stage with clients }) (follows_count stage.clients)
      (by simp) (by simp) id rfl <|
    .cons "duration" (fun duration stage => { stage with duration }) (follows_text stage.duration)
      (by simp) (by simp) id rfl <|
    .cons "disk_corruption" (fun diskCorruption stage => { stage with diskCorruption })
      (follows_text stage.diskCorruption)
      (by simp) (by simp) id rfl <|
    .cons "network_failure" (fun networkFailure stage => { stage with networkFailure })
      (follows_text stage.networkFailure)
      (by simp) (by simp) id rfl <|
    .cons "full_outage" (fun fullOutage stage => { stage with fullOutage })
      (follows_text stage.fullOutage) (by simp) (by simp) id rfl .nil
  exact fields.follows_record "RawStage"

theorem follows_document (document : Document) :
    Follows reading.document (layouts.document document) document := by
  have fields : Fields ({} : Document) _ :=
    .cons "services" (fun services document => { document with services })
      (follows_list follows_service document.services)
      (by simp) (by simp)
      List.map_eq_nil_iff.mp rfl <|
    .cons "journeys" (fun journeys document => { document with journeys })
      (follows_list follows_journey document.journeys)
      (by simp) (by simp)
      List.map_eq_nil_iff.mp rfl <|
    .cons "stages" (fun stages document => { document with stages })
      (follows_list follows_stage document.stages) (by simp) (by simp)
      List.map_eq_nil_iff.mp rfl .nil
  exact fields.follows_record "RawConfig"

/-- A document is read from every text in which it is laid out: its members in any order, others
of any name and value among them, and defaults left out or not. A text that repeats a field of one
of its objects is an error, whatever follows the repeated name. -/
theorem decode_of_layout (document : Document) :
    (∀ bytes, LaidOut document bytes → Format.json.decode bytes none = .ok document) ∧
    ∀ bytes, Repeating document bytes → ∃ name position, Format.json.decode bytes none =
      .error (.json ⟨.mismatch (.duplicateField name), position⟩) := by
  have follows := follows_document document
  constructor
  · rintro bytes ⟨blankBefore, spelled, blankAfter⟩
    have read := takes_document blankBefore (follows.spells spelled) blankAfter
    unfold Format.decode
    rw [decode_of_takes read]
    rfl
  · rintro bytes ⟨blankBefore, repeating⟩
    have refuses : Refuses Reader.document _ :=
      ((follows.rejects repeating).refuses blankBefore).bind _
    obtain ⟨name, position, after, failed⟩ := refuses { rest := _, failure := none } rfl rfl
    refine ⟨name, position, ?_⟩
    unfold Format.decode decode
    rw [failed]
    rfl

/-! ## A document in two texts -/

private theorem textOf_bare (name : String) (simple : (name.toList.all fun char =>
    char != '"' && char != '\\' && 0x20 ≤ char.toNat) = true) :
    TextOf (Utf8.encode name.toList) name.toList :=
  textOf_plain fun char member => by simpa [and_assoc] using List.all_eq_true.mp simple char member

/-- A list that holds a number, as the value of an unknown member. -/
private theorem isValue_sample : IsValue 1 (Utf8.encode "[-1e+3]".toList) := by
  have one : Number.DecimalOf [0x31] 1 :=
    ⟨List.forall_mem_singleton.mpr rfl, by simp, rfl, by simp⟩
  have three : Digits [0x33] := ⟨List.forall_mem_singleton.mpr rfl, by simp⟩
  have exponent : Exponent (0x65 :: ([0x2B] ++ [0x33])) :=
    .some (.inl rfl) (.inr (.inl rfl)) three
  have number : IsValue 0 (0x2D :: ([0x31] ++ ([] ++ (0x65 :: ([0x2B] ++ [0x33]))))) :=
    .negative (.mk one .none exponent)
  exact @ValueOver.list _ [()] _ _ (.more (.first allBlank_nil) number (.done false)) allBlank_nil

/-- A stage whose members come in another order than its fields, one of them with an escape. -/
private theorem spelled_sample : (layouts.stage { name := "A", clients := 7 }).spelled
    (Utf8.encode "\x7b\"clients\":7,\"name\":\"\\u0041\"\x7d".toList) := by
  have escaped : TextOf [0x5C, 0x75, 0x30, 0x30, 0x34, 0x31] ['A'] := by
    have digits : FourHexDigits [0x30, 0x30, 0x34, 0x31] 'A'.toNat :=
      @FourHexDigits.mk _ _ _ _ 0 0 4 1 (by decide) (by decide) (by decide) (by decide)
    exact .cons (.number digits) .nil
  refine ⟨[("clients", [0x37]), ("name", Utf8.encode "\"\\u0041\"".toList)], _, [],
    ⟨?_, ?_, by decide +kernel⟩, by simp [layouts, Layout.text],
    .more (.first allBlank_nil)
      (.mk (textOf_bare "clients" rfl) allBlank_nil allBlank_nil rfl)
      (.more (.next allBlank_nil allBlank_nil)
        (.mk (textOf_bare "name" rfl) allBlank_nil allBlank_nil rfl) (.done false)),
    allBlank_nil, by decide +kernel⟩
  · rw [List.forall_mem_cons, List.forall_mem_singleton]
    constructor
    · rintro layout ⟨⟩
      exact rfl
    · rintro layout ⟨⟩
      exact ⟨_, escaped, rfl⟩
  · rw [List.forall_mem_cons, List.forall_mem_singleton]
    exact ⟨nofun, nofun⟩

private theorem laidOut_sample : LaidOut { stages := [{ name := "A", clients := 7 }] }
    (Utf8.encode ("\x7b\"x\":[-1e+3],\"stages\":" ++
      "[\x7b\"clients\":7,\"name\":\"\\u0041\"\x7d]\x7d").toList) := by
  have stages : (layouts.list [layouts.stage { name := "A", clients := 7 }]).spelled
      (Utf8.encode "[\x7b\"clients\":7,\"name\":\"\\u0041\"\x7d]".toList) :=
    ⟨_, [], .more (.first allBlank_nil) spelled_sample (.done false), allBlank_nil,
      by decide +kernel⟩
  have spelled : (layouts.document { stages := [{ name := "A", clients := 7 }] }).spelled
      (Utf8.encode ("\x7b\"x\":[-1e+3],\"stages\":" ++
        "[\x7b\"clients\":7,\"name\":\"\\u0041\"\x7d]\x7d").toList) := by
    refine ⟨[("x", Utf8.encode "[-1e+3]".toList), ("stages",
        Utf8.encode "[\x7b\"clients\":7,\"name\":\"\\u0041\"\x7d]".toList)], _, [],
      ⟨?_, ?_, by decide +kernel⟩, by simp [layouts, Layout.list],
      .more (.first allBlank_nil) (.mk (textOf_bare "x" rfl) allBlank_nil allBlank_nil rfl)
        (.more (.next allBlank_nil allBlank_nil)
          (.mk (textOf_bare "stages" rfl) allBlank_nil allBlank_nil rfl) (.done false)),
      allBlank_nil, by decide +kernel⟩
    · rw [List.forall_mem_cons, List.forall_mem_singleton]
      constructor
      · rintro layout ⟨⟩
      · rintro layout ⟨⟩
        exact stages
    · rw [List.forall_mem_cons, List.forall_mem_singleton]
      exact ⟨fun _ => ⟨1, isValue_sample⟩, nofun⟩
  have laidOut := LaidOut.mk allBlank_nil spelled allBlank_nil
  rwa [List.nil_append, List.append_nil] at laidOut

private theorem repeating_sample : Repeating { stages := [{}] }
    (Utf8.encode "\x7b\"stages\":[\x7b\"name\":\"\",\"name\":\"a\"\x7d]\x7d".toList) := by
  have name (value : List UInt8) : memberOf ("name", value) _ :=
    .mk (textOf_bare "name" rfl) allBlank_nil allBlank_nil rfl
  have inStage : (layouts.stage {}).repeating
      (Utf8.encode "\x7b\"name\":\"\",\"name\":\"a\"\x7d]\x7d".toList) := by
    have elements : Elements memberOf true
        [("name", [0x22, 0x22]), ("name", [0x22, 0x61, 0x22])] _ :=
      .more (.first allBlank_nil) (name _)
        (.more (.next allBlank_nil allBlank_nil) (name _) (.done false))
    refine @Layout.repeating_of_twice _ [("name", [0x22, 0x22])] [] ("name", [0x22, 0x61, 0x22])
      _ _ _ ⟨?_, ?_, by decide +kernel⟩ rfl (by simp) elements [0x7D, 0x5D, 0x7D]
      (by decide +kernel)
    · rw [List.forall_mem_singleton]
      rintro layout ⟨⟩
      exact ⟨[], .nil, rfl⟩
    · rw [List.forall_mem_singleton]
      exact nofun
  have inList : (layouts.list [layouts.stage {}]).repeating
      (Utf8.encode "[\x7b\"name\":\"\",\"name\":\"a\"\x7d]\x7d".toList) :=
    ⟨[], _, [], _, rfl, .here (.first allBlank_nil) inStage, by decide +kernel⟩
  have inDocument : (layouts.document { stages := [{}] }).repeating
      (Utf8.encode "\x7b\"stages\":[\x7b\"name\":\"\",\"name\":\"a\"\x7d]\x7d".toList) :=
    ⟨[], _, ⟨by simp, by simp, by simp⟩, .here (.first allBlank_nil)
      ⟨"stages", _, rfl,
        .inr (.mk (textOf_bare "stages" rfl) allBlank_nil allBlank_nil inList)⟩,
      by decide +kernel⟩
  have repeating := Repeating.mk allBlank_nil inDocument
  rwa [List.nil_append] at repeating

/-- Members in another order than that of the fields, with an escape, beside an unknown one, and
with defaults left out; and a field that comes twice. -/
theorem decode_of_layout_of_stage :
    Format.json.decode (Utf8.encode ("\x7b\"x\":[-1e+3],\"stages\":" ++
        "[\x7b\"clients\":7,\"name\":\"\\u0041\"\x7d]\x7d").toList) none =
      .ok { stages := [{ name := "A", clients := 7 }] } ∧
    ∃ name position, Format.json.decode
        (Utf8.encode "\x7b\"stages\":[\x7b\"name\":\"\",\"name\":\"a\"\x7d]\x7d".toList) none =
      .error (.json ⟨.mismatch (.duplicateField name), position⟩) :=
  ⟨(decode_of_layout _).1 _ laidOut_sample, (decode_of_layout _).2 _ repeating_sample⟩

end FaultDrill.Json
