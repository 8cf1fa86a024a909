import Mathlib.Data.List.Nodup
import Mathlib.Data.List.Perm.Basic
import FaultDrill.Proofs.Format
import FaultDrill.Proofs.Text.Utf8
import FaultDrill.Proofs.Toml.Outline

/-!
A document that is written as TOML is read back.

Owns:
- what is written for values, for records, and for lists of records;
- that values come before the sections of records, and that the order of the entries does not
  matter in a record whose fields are set independently of each other.

Main statement: every document can be written as TOML, and what is written is read as this document
(`encode_toml_decode`).
-/

namespace FaultDrill.Toml

open Reader TreeReader

variable {Value Other Record : Type}

/-! ## Values -/

/-- What is written for a value stands on a line. -/
def WritesValue : Link TreeReader Written := fun _ reader output value =>
  ∃ text, output = .inline text ∧ Denotes reader (depthLimit - 1) text value

theorem writes_text (text : String) :
    WritesValue String TreeReader.text (writing.text text) text :=
  ⟨_, rfl, denotes_text _ text⟩

theorem writes_count (count : UInt32) :
    WritesValue UInt32 TreeReader.count (writing.count count) count :=
  ⟨_, rfl, denotes_count _ count⟩

theorem writing_list (items : List Written) :
    writing.list items =
      match items.filterMap Written.linesText? with
      | [] =>
        .inline ('[' :: Written.separated [',', ' '] (items.filterMap Written.inlineText?) ++ [']'])
      | texts => .sections texts :=
  rfl

theorem writes_texts (texts : List String) :
    WritesValue (List String) (TreeReader.list TreeReader.text)
      (writing.list (texts.map writing.text)) texts := by
  have noLines : (texts.map writing.text).filterMap Written.linesText? = [] := by
    rw [List.filterMap_map, List.filterMap_eq_nil_iff]
    exact fun _ _ => rfl
  have literals : (texts.map writing.text).filterMap Written.inlineText? =
      texts.map fun text => textLiteral text.toList := by
    rw [List.filterMap_map, ← List.filterMap_eq_map]
    rfl
  have each : List.Forall₂ (fun text literal => Denotes TreeReader.text 78 literal text) texts
      (texts.map fun text => textLiteral text.toList) := by
    rw [List.forall₂_map_right_iff, List.forall₂_same]
    exact fun text _ => denotes_text 78 text
  refine ⟨_, ?_, denotes_list each⟩
  rw [writing_list, noLines, literals]

/-! ## Sections -/

/-- If the table that is being filled is put into its place, the document has certain entries. -/
def Stands (final : List Expected) (outline : Outline) : Prop :=
  ∃ expected closed, Fills expected closed outline ∧ closed expected = final

theorem Fills.stands {expected : List Expected} {closed : List Expected → List Expected}
    {outline : Outline} (fills : Fills expected closed outline) :
    Stands (closed expected) outline :=
  ⟨expected, closed, fills, rfl⟩

/-- What is written for a record is the lines of a table, wherever its header stands. -/
def WritesRecord : Link TreeReader Written := fun _ reader output value =>
  ∃ text expected, output = .lines text ∧
    (∀ closed, Leads text (Fills [] closed) (Fills expected closed)) ∧
    ∀ item, IsTable expected item → Holds reader value item

/-- Sections lead from outlines of one kind to outlines of another if blank lines stand between
them. -/
inductive Blocks : List (List Char) → (Outline → Prop) → (Outline → Prop) → Prop where
  | nil (before : Outline → Prop) : Blocks [] before before
  | cons {text : List Char} {texts : List (List Char)} {before between after : Outline → Prop}
      (first : Leads text before between) :
      Blocks texts between after → Blocks (text :: texts) before after

variable {before between after : Outline → Prop} {texts more : List (List Char)}

theorem Blocks.append (first : Blocks texts before between) (second : Blocks more between after) :
    Blocks (texts ++ more) before after := by
  induction first with
  | nil => exact second
  | cons leads _ inductionHypothesis => exact .cons leads (inductionHypothesis second)

theorem Blocks.leads_rest (blocks : Blocks texts before after) :
    Leads (texts.flatMap (['\n'] ++ ·)) before after := by
  induction blocks with
  | nil => exact leads_nil _
  | cons leads _ inductionHypothesis =>
      rw [List.flatMap_cons]
      exact ((leads_break _).append leads).append inductionHypothesis

theorem Blocks.leads (blocks : Blocks texts before after) :
    Leads (Written.separated ['\n'] texts) before after := by
  cases blocks with
  | nil => exact leads_nil _
  | cons first others => exact first.append others.leads_rest

/-- A record with its header. -/
def sectionText (name text : List Char) : List Char :=
  "[[".toList ++ name ++ "]]\n".toList ++ text

theorem leads_section {name text : List Char} {earlier expected : List Expected}
    {elements : List (Item → Prop)} (bare : Bare name) (fresh : name ∉ earlier.map Prod.fst)
    {final : List Expected} (isFinal : final = earlier ++ [(name, AreTables elements)] ∨
      final = earlier ∧ elements = [])
    (leads : ∀ closed, Leads text (Fills [] closed) (Fills expected closed)) :
    Leads (sectionText name text) (Stands final)
      (Stands (earlier ++ [(name, AreTables (elements ++ [IsTable expected]))])) := by
  rintro outline ⟨already, closed, fills, rfl⟩ rest steps position enough
  have whole := (leads_header bare fresh isFinal).append (leads _)
  obtain ⟨outline', steps', position', fillsAfter, enoughAfter, ran⟩ :=
    whole outline fills rest steps position enough
  exact ⟨outline', steps', position', fillsAfter.stands, enoughAfter, ran⟩

/-- What is written for a field is a value, or the sections of a list of records. -/
inductive WritesPart (reader : TreeReader Value) (value : Value) : Written → Prop where
  | line {text : List Char} (denotes : Denotes reader (depthLimit - 1) text value) :
      WritesPart reader value (.inline text)
  | sections {texts : List (List Char)} {tables : Item → Prop}
      (blocks : ∀ {name : List Char} {earlier : List Expected}, Bare name →
        name ∉ earlier.map Prod.fst → Blocks (texts.map (sectionText name)) (Stands earlier)
          (Stands (earlier ++ [(name, tables)])))
      (holds : ∀ item, tables item → Holds reader value item) :
      WritesPart reader value (.sections texts)

theorem WritesPart.map {reader : TreeReader Value} {value : Value} {output : Written}
    (writes : WritesPart reader value output) (function : Value → Other) :
    WritesPart (function <$> reader) (function value) output := by
  cases writes with
  | line denotes => exact .line (denotes.map function)
  | sections blocks holds =>
      exact .sections blocks fun item isTables => (holds item isTables).map function

/-- A list of records is written as sections, or as an empty list on a line. -/
theorem writes_records {item : TreeReader Value} {write : Value → Written}
    (each : ∀ value, WritesRecord Value item (write value) value) (values : List Value) :
    WritesPart (TreeReader.list item) values (writing.list (values.map write)) := by
  choose text expected written leads holds using each
  have lines : (values.map write).filterMap Written.linesText? = values.map text := by
    rw [List.filterMap_map, ← List.filterMap_eq_map]
    congr 1
    funext value
    change (write value).linesText? = some (text value)
    rw [written]
    rfl
  cases values with
  | nil =>
      have empty : Denotes (TreeReader.list item) (depthLimit - 1)
          ('[' :: Written.separated [',', ' '] [] ++ [']']) ([] : List Value) :=
        denotes_list .nil
      exact .line empty
  | cons first others =>
      have output : writing.list ((first :: others).map write) =
          .sections ((first :: others).map text) := by
        rw [writing_list, lines]
        rfl
      -- One record after the other joins those before it.
      have later : ∀ (name : List Char) (earlier : List Expected), Bare name →
          name ∉ earlier.map Prod.fst → ∀ (remaining : List Value) (elements : List (Item → Prop)),
            Blocks ((remaining.map text).map (sectionText name))
              (Stands (earlier ++ [(name, AreTables elements)]))
              (Stands (earlier ++ [(name, AreTables
                (elements ++ remaining.map fun value => IsTable (expected value)))])) := by
        intro name earlier bare fresh remaining
        induction remaining with
        | nil =>
            intro elements
            simpa using Blocks.nil _
        | cons value remaining inductionHypothesis =>
            intro elements
            have joined := inductionHypothesis (elements ++ [IsTable (expected value)])
            rw [List.append_assoc] at joined
            exact .cons (leads_section bare fresh (.inl rfl) (leads value)) joined
      rw [output]
      have blocks : ∀ {name : List Char} {earlier : List Expected}, Bare name →
          name ∉ earlier.map Prod.fst →
          Blocks (((first :: others).map text).map (sectionText name)) (Stands earlier)
            (Stands (earlier ++ [(name, AreTables ((first :: others).map fun value =>
              IsTable (expected value)))])) := by
        intro name earlier bare fresh
        exact .cons (leads_section bare fresh (.inr ⟨rfl, rfl⟩) (leads first))
          (later name earlier bare fresh others [IsTable (expected first)])
      refine .sections blocks ?_
      rintro item' ⟨span, tables, rfl, areTables⟩
      refine holds_list rfl ?_
      rw [List.forall₂_map_left_iff] at areTables
      rw [List.forall₂_map_right_iff]
      exact areTables.imp fun value table isTable => holds value _ isTable

/-! ## Records -/

/-- What an entry should be suits a field if its name is that of the field and its item sets it. -/
def Suits (fields : List (ReadingField TreeReader Record)) (wanted : Expected)
    (change : Record → Record) : Prop :=
  ∃ field, fields.find? (·.name == String.ofList wanted.1) = some field ∧
    ∀ item, wanted.2 item → Holds field.read change item

theorem Meets.sets {fields : List (ReadingField TreeReader Record)}
    {entries : List (Key × Item)} {expected : List Expected} {changes : List (Record → Record)}
    (meets : Meets entries expected) (suit : List.Forall₂ (Suits fields) expected changes) :
    List.Forall₂ (Sets fields) entries changes := by
  induction meets generalizing changes with
  | nil =>
      cases suit
      exact .nil
  | cons isWanted _ inductionHypothesis =>
      cases suit with
      | cons suits others =>
          obtain ⟨field, listed, holds⟩ := suits
          rw [← isWanted.1] at listed
          exact .cons ⟨field, listed, holds _ isWanted.2⟩ (inductionHypothesis others)

/-- The fields of a record as they are written: some on a line each, others in sections. -/
inductive WritesParts : List (String × Written) → List Expected → List Expected → Prop where
  | nil : WritesParts [] [] []
  | line {Value : Type} {reader : TreeReader Value} {value : Value} {name : String}
      {text : List Char} {outputs : List (String × Written)} {onLines inSections : List Expected}
      (bare : Bare name.toList) (denotes : Denotes reader (depthLimit - 1) text value) :
      WritesParts outputs onLines inSections →
      WritesParts ((name, .inline text) :: outputs)
        ((name.toList, Holds reader value) :: onLines) inSections
  | sections {name : String} {texts : List (List Char)} {tables : Item → Prop}
      {outputs : List (String × Written)} {onLines inSections : List Expected}
      (blocks : ∀ {earlier : List Expected}, name.toList ∉ earlier.map Prod.fst →
        Blocks (texts.map (sectionText name.toList)) (Stands earlier)
          (Stands (earlier ++ [(name.toList, tables)]))) :
      WritesParts outputs onLines inSections →
      WritesParts ((name, .sections texts) :: outputs) onLines
        ((name.toList, tables) :: inSections)

section Parts

variable {outputs : List (String × Written)} {onLines inSections : List Expected}

theorem WritesParts.leads_values (writes : WritesParts outputs onLines inSections)
    (closed : List Expected → List Expected) {already : List Expected}
    (distinct : ((already ++ onLines).map Prod.fst).Nodup) :
    Leads (outputs.flatMap Written.fieldLine) (Fills already closed)
      (Fills (already ++ onLines) closed) := by
  induction writes generalizing already with
  | nil =>
      rw [List.append_nil]
      exact leads_nil _
  | @line Value reader value name text outputs onLines inSections bare denotes _
      inductionHypothesis =>
      have fresh : name.toList ∉ already.map Prod.fst := by
        intro member
        rw [List.map_append, List.nodup_append] at distinct
        exact distinct.2.2 _ member _ List.mem_cons_self rfl
      have joined : already ++ (name.toList, Holds reader value) :: onLines =
          already ++ [(name.toList, Holds reader value)] ++ onLines := by simp
      rw [joined] at distinct ⊢
      exact (leads_entry bare fresh denotes).append (inductionHypothesis distinct)
  | sections _ _ inductionHypothesis => exact inductionHypothesis distinct

theorem WritesParts.blocks (writes : WritesParts outputs onLines inSections)
    {earlier : List Expected} (distinct : ((earlier ++ inSections).map Prod.fst).Nodup) :
    Blocks (outputs.flatMap Written.fieldSections) (Stands earlier)
      (Stands (earlier ++ inSections)) := by
  induction writes generalizing earlier with
  | nil =>
      rw [List.append_nil]
      exact .nil _
  | line _ _ _ inductionHypothesis => exact inductionHypothesis distinct
  | @sections name texts tables outputs onLines inSections blocks _ inductionHypothesis =>
      have fresh : name.toList ∉ earlier.map Prod.fst := by
        intro member
        rw [List.map_append, List.nodup_append] at distinct
        exact distinct.2.2 _ member _ List.mem_cons_self rfl
      have joined : earlier ++ (name.toList, tables) :: inSections =
          earlier ++ [(name.toList, tables)] ++ inSections := by simp
      rw [joined] at distinct ⊢
      have here := blocks fresh
      exact here.append (inductionHypothesis distinct)

theorem WritesParts.values_nonempty (writes : WritesParts outputs onLines inSections)
    (none : outputs.flatMap Written.fieldLine = []) : onLines = [] := by
  induction writes with
  | nil => rfl
  | line =>
      rw [List.flatMap_cons, List.append_eq_nil_iff] at none
      exact absurd none.1 (by simp [Written.fieldLine, Written.inlineText?])
  | sections _ _ inductionHypothesis =>
      rw [List.flatMap_cons] at none
      exact inductionHypothesis (List.append_eq_nil_iff.mp none).2

/-- Where all fields are on lines, these are the text of the record. -/
theorem WritesParts.recordText_eq (writes : WritesParts outputs onLines []) :
    Written.recordText outputs = outputs.flatMap Written.fieldLine := by
  have noSections : ∀ {outputs onLines inSections}, WritesParts outputs onLines inSections →
      inSections = [] → outputs.flatMap Written.fieldSections = [] := by
    intro outputs onLines inSections writes none
    induction writes with
    | nil => rfl
    | line _ _ _ inductionHypothesis => exact inductionHypothesis none
    | sections => cases none
  unfold Written.recordText
  dsimp only
  rw [noSections writes rfl, List.append_nil]
  split
  · next none => exact (List.isEmpty_iff.mp none).symm
  · exact separated_singleton _ _

/-- A whole document first has its values, then its sections. -/
theorem WritesParts.leads (writes : WritesParts outputs onLines inSections)
    (distinct : ((onLines ++ inSections).map Prod.fst).Nodup) :
    Leads (Written.recordText outputs) (Fills [] id) (Stands (onLines ++ inSections)) := by
  have values : Leads (outputs.flatMap Written.fieldLine) (Fills [] id) (Fills onLines id) := by
    rw [List.map_append] at distinct
    exact writes.leads_values id (List.nodup_append.mp distinct).1
  have sections := writes.blocks distinct
  unfold Written.recordText
  dsimp only
  split
  · next none =>
      rw [writes.values_nonempty (List.isEmpty_iff.mp none)] at sections ⊢
      exact sections.leads.mono (fun _ fills => fills.stands) fun _ stands => stands
  · have first := values.mono (fun _ fills => fills) fun _ fills => fills.stands
    exact (Blocks.cons first sections).leads

/-- Neither values nor sections begin with a byte order mark. -/
theorem WritesParts.head?_ne (writes : WritesParts outputs onLines inSections) :
    (Written.recordText outputs).head? ≠ some byteOrderMark := by
  have values : ∀ {outputs onLines inSections}, WritesParts outputs onLines inSections →
      (outputs.flatMap Written.fieldLine).head? ≠ some byteOrderMark := by
    intro outputs onLines inSections writes
    induction writes with
    | nil => simp
    | line bare _ _ _ =>
        simp only [List.flatMap_cons, Written.fieldLine, Written.inlineText?, List.append_assoc]
        exact bare.head_ne (by decide) _
    | sections _ _ inductionHypothesis => exact inductionHypothesis
  have sections : ∀ text ∈ outputs.flatMap Written.fieldSections, text.head? = some '[' := by
    intro text member
    obtain ⟨⟨name, output⟩, -, inside⟩ := List.mem_flatMap.mp member
    unfold Written.fieldSections at inside
    split at inside
    · obtain ⟨lines, -, rfl⟩ := List.mem_map.mp inside
      rfl
    · cases inside
  unfold Written.recordText
  dsimp only
  split
  · rw [List.nil_append]
    cases blocks : outputs.flatMap Written.fieldSections with
    | nil => simp [Written.separated]
    | cons first others =>
        have bracket := sections first (by simp [blocks])
        obtain ⟨more, rfl⟩ := List.head?_eq_some_iff.mp bracket
        simp [Written.separated, byteOrderMark]
  · next some' =>
      have first := values writes
      obtain ⟨letter, more, whole⟩ :=
        List.exists_cons_of_ne_nil (fun none => some' (List.isEmpty_iff.mpr none))
      rw [whole] at first ⊢
      simpa [Written.separated] using first

end Parts

section Record

variable {all fields : List (ReadingField TreeReader Record)} {outputs : List (String × Written)}
  {changes : List (Record → Record)}
  (listed : ∀ field ∈ fields, all.find? (·.name == field.name) = some field)
  (named : ∀ field ∈ fields, field.name ∈ fieldNames)

theorem bare_of_mem : ∀ name ∈ fieldNames, Bare name.toList := by
  decide

include listed named

/-- A record of values is written on lines, in the order of its fields. -/
theorem exists_lines (writes : WritesFields WritesValue fields outputs changes) :
    ∃ onLines, WritesParts outputs onLines [] ∧ List.Forall₂ (Suits all) onLines changes ∧
      onLines.map Prod.fst = fields.map (·.name.toList) := by
  induction writes with
  | nil => exact ⟨[], .nil, .nil, rfl⟩
  | @cons field output change fields outputs changes writes _ inductionHypothesis =>
      obtain ⟨onLines, parts, suit, names⟩ := inductionHypothesis
        (fun field member => listed field (List.mem_cons_of_mem _ member))
        (fun field member => named field (List.mem_cons_of_mem _ member))
      obtain ⟨text, rfl, denotes⟩ := writes
      have bare := bare_of_mem _ (named field List.mem_cons_self)
      have suits : Suits all (field.name.toList, Holds field.read change) change :=
        ⟨field, by simpa using listed field List.mem_cons_self, fun _ holds => holds⟩
      exact ⟨_, .line bare denotes parts, .cons suits suit, by simp [names]⟩

/-- A record is written in parts, not all in the order of its fields. -/
theorem exists_parts
    (writes : WritesFields (fun _ reader output value => WritesPart reader value output) fields
      outputs changes) :
    ∃ onLines inSections wanted, WritesParts outputs onLines inSections ∧
      (onLines ++ inSections).Perm wanted ∧ List.Forall₂ (Suits all) wanted changes ∧
      wanted.map Prod.fst = fields.map (·.name.toList) := by
  induction writes with
  | nil => exact ⟨[], [], [], .nil, .nil, .nil, rfl⟩
  | @cons field output change fields outputs changes writes _ inductionHypothesis =>
      obtain ⟨onLines, inSections, wanted, parts, same, suit, names⟩ := inductionHypothesis
        (fun field member => listed field (List.mem_cons_of_mem _ member))
        (fun field member => named field (List.mem_cons_of_mem _ member))
      have bare := bare_of_mem _ (named field List.mem_cons_self)
      have found : all.find? (·.name == String.ofList field.name.toList) = some field := by
        simpa using listed field List.mem_cons_self
      cases writes with
      | @line text denotes =>
          have suits : Suits all (field.name.toList, Holds field.read change) change :=
            ⟨field, found, fun _ holds => holds⟩
          exact ⟨_, _, _, .line bare denotes parts, same.cons _, .cons suits suit, by simp [names]⟩
      | @sections texts tables blocks holds =>
          have suits : Suits all (field.name.toList, tables) change := ⟨field, found, holds⟩
          exact ⟨_, _, _, .sections (blocks bare) parts, List.perm_middle.trans (same.cons _),
            .cons suits suit, by simp [names]⟩

end Record

theorem nodup_names {fields : List (ReadingField TreeReader Record)} {expected : List Expected}
    (names : expected.map Prod.fst = fields.map (·.name.toList))
    (distinct : (fields.map (·.name)).Nodup) : (expected.map Prod.fst).Nodup := by
  have mapped : fields.map (·.name.toList) = (fields.map (·.name)).map String.toList := by
    rw [List.map_map]
    rfl
  rw [names, mapped]
  exact distinct.map fun _ _ same => String.toList_injective same

theorem writes_record (typeName : String) (blank : Record)
    {fields : List (ReadingField TreeReader Record)} {outputs : List (String × Written)}
    {changes : List (Record → Record)} (writes : WritesFields WritesValue fields outputs changes)
    (_ : fields ≠ []) (distinct : (fields.map (·.name)).Nodup)
    (named : ∀ field ∈ fields, field.name ∈ fieldNames) :
    WritesRecord Record (TreeReader.record typeName blank fields) (writing.record outputs)
      (applyAll changes blank) := by
  obtain ⟨onLines, parts, suit, names⟩ :=
    exists_lines (fun field member => find?_name distinct member) named writes
  refine ⟨_, onLines, rfl, fun closed => ?_, ?_⟩
  · rw [parts.recordText_eq]
    exact parts.leads_values closed (nodup_names names distinct)
  · rintro _ ⟨span, role, entries, rfl, meets⟩
    exact holds_record typeName blank (meets.sets suit) span role

theorem linked : Linked TreeReader.reading writing WritesValue WritesRecord where
  maps := by
    rintro Value Other function reader output value ⟨text, rfl, denotes⟩
    exact ⟨text, rfl, denotes.map function⟩
  text := writes_text
  count := writes_count
  texts := writes_texts
  record := writes_record

/-! ## Documents -/

/-- The fields of a document may be set in any order. -/
theorem applyAll_perm {changes others : List (Record → Record)} (same : changes.Perm others)
    (commute : ∀ first ∈ changes, ∀ second ∈ changes, ∀ record,
      second (first record) = first (second record)) (record : Record) :
    applyAll changes record = applyAll others record :=
  same.foldl_eq' commute record

theorem exists_text (document : Document) :
    ∃ text expected, writing.document document = .lines text ∧
      text.head? ≠ some byteOrderMark ∧ Leads text (Fills [] id) (Stands expected) ∧
      ∀ item, IsTable expected item → Holds TreeReader.reading.document document item := by
  have maps : Maps (fun _ reader output value => WritesPart reader value output :
      Link TreeReader Written) := by
    intro Value Other function reader output given writes
    exact writes.map function
  have fields :=
    WritesFields.field maps "services" (fun services (document : Document) =>
      { document with services }) (writes_records linked.service document.services) <|
    WritesFields.field maps "journeys" (fun journeys document => { document with journeys })
      (writes_records linked.journey document.journeys) <|
    WritesFields.field maps "stages" (fun stages document => { document with stages })
      (writes_records linked.stage document.stages) .nil
  have distinct : ["services", "journeys", "stages"].Nodup := by decide
  obtain ⟨onLines, inSections, wanted, parts, same, suit, names⟩ :=
    exists_parts (fun field member => find?_name (by exact distinct) member)
      (by simp [Reading.field, fieldNames]) fields
  refine ⟨_, onLines ++ inSections, rfl, parts.head?_ne, parts.leads ?_, ?_⟩
  · exact (same.map _).nodup_iff.mpr (nodup_names names distinct)
  · rintro _ ⟨span, role, entries, rfl, meets⟩
    obtain ⟨changes, suitHere, sameChanges⟩ := List.perm_comp_forall₂ same suit
    have holds := holds_record "RawConfig" {} (meets.sets suitHere) span role
    have inOrder : applyAll changes {} = document := by
      refine (applyAll_perm sameChanges.symm ?_ {}).symm
      intro first isFirst second isSecond record
      simp only [List.mem_cons, List.not_mem_nil, or_false] at isFirst isSecond
      rcases isFirst with rfl | rfl | rfl <;> rcases isSecond with rfl | rfl | rfl <;> rfl
    rw [inOrder] at holds
    exact holds

/-- What is written for a document is read as this document. -/
theorem decode_bytes (document : Document) :
    Format.toml.decode (Format.toml.bytes document) none = .ok document := by
  obtain ⟨text, expected, written, noMark, leads, holds⟩ := exists_text document
  have closing : Leads text (Fills [] id) fun outline =>
      ∃ table, outline.closeTable = some table ∧ Meets table.entries expected := by
    refine leads.mono (fun _ fills => fills) ?_
    rintro outline ⟨already, closed, fills, rfl⟩
    exact fills.closeTable
  obtain ⟨table, isTree, meets⟩ := exists_ofText noMark closing
  have bytes : Format.toml.bytes document = Text.Utf8.encode text := by
    have source : (encode document).toList = text := by
      unfold encode
      rw [written, String.toList_ofList]
      rfl
    unfold Format.bytes Format.sections
    simp only [List.map_cons, List.map_nil, List.flatten_cons, List.flatten_nil, List.append_nil,
      source]
  have read : documentOf text = .ok document := by
    have held := holds table.toItem ⟨_, _, _, rfl, meets⟩ ⟨0, 0⟩
    unfold documentOf
    rw [isTree]
    dsimp only
    rw [held]
  unfold Format.decode Toml.decode
  dsimp only
  rw [bytes, Text.Utf8.decode?_encode]
  dsimp only
  rw [read]
  rfl

/-- A document that is written as TOML is read back. -/
theorem encode_toml_decode (document : Document) (refusals : Refusals) :
    ∃ writer, Format.toml.encode document {} refusals = (.ok (), writer) ∧
      writer.accepted = Format.toml.bytes document ∧
      Format.toml.decode writer.accepted none = .ok document :=
  Format.exists_writer (decode_bytes document) refusals

end FaultDrill.Toml
