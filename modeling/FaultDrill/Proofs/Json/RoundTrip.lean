import Mathlib.Data.List.Forall2
import FaultDrill.Proofs.Format
import FaultDrill.Proofs.Json.Decoder

/-!
A document that is written as JSON is read back.

Owns: what is written for texts, counts, lists and records, and that it spells the same value.

Main statement: every document can be written as JSON, and what is written is read as this document
(`encode_json_decode`).

Does not own: the records of a document (`Proofs.Document`).
-/

namespace FaultDrill.Json

open Text Reader

/-! ## Pieces -/

/-- The bytes of pieces. -/
def bytesOf (pieces : List String) : List UInt8 :=
  pieces.flatMap fun piece => Utf8.encode piece.toList

@[simp] theorem bytesOf_nil : bytesOf [] = [] := rfl

@[simp] theorem bytesOf_cons (piece : String) (pieces : List String) :
    bytesOf (piece :: pieces) = Utf8.encode piece.toList ++ bytesOf pieces :=
  List.flatMap_cons

@[simp] theorem bytesOf_append (first second : List String) :
    bytesOf (first ++ second) = bytesOf first ++ bytesOf second :=
  List.flatMap_append

theorem allBlank_lineBreak (level : Nat) : AllBlank (bytesOf (lineBreak level)) := by
  have indent : ∀ level, AllBlank (bytesOf (List.replicate level "    ")) := by
    intro level
    induction level with
    | zero => exact allBlank_nil
    | succ level inductionHypothesis =>
        rw [List.replicate_succ, bytesOf_cons]
        have blanks : AllBlank (Utf8.encode "    ".toList) := by
          simp [AllBlank, Utf8.encode, isBlank, String.utf8EncodeChar]
        exact blanks.append inductionHypothesis
  unfold lineBreak
  rw [bytesOf_cons]
  have lineEnd : AllBlank (Utf8.encode "\n".toList) := by
    simp [AllBlank, Utf8.encode, isBlank, String.utf8EncodeChar]
  exact lineEnd.append (indent level)

section Bracketed

variable {Value : Type} (element : Value → List UInt8 → Prop) {values : List Value}
  {outputs : List (List String)}

private theorem elements_rest (level : Nat)
    (each : List.Forall₂ (fun value output => element value (bytesOf output)) values outputs) :
    Elements element false values
      (bytesOf (outputs.flatMap fun output => "," :: lineBreak level ++ output)) := by
  induction each with
  | nil => exact .done false
  | @cons value output values outputs spelled _ inductionHypothesis =>
      have comma : Utf8.encode ",".toList = [0x2C] := by rfl
      rw [List.flatMap_cons, bytesOf_append, List.cons_append, bytesOf_cons, comma,
        bytesOf_append, List.append_assoc, List.append_assoc]
      have lead := Lead.next allBlank_nil (allBlank_lineBreak level)
      have all := Elements.more lead spelled inductionHypothesis
      exact all

/-- Between brackets stand the elements and some white space. -/
theorem exists_elements (opening closing : String) (level : Nat)
    (each : List.Forall₂ (fun value output => element value (bytesOf output)) values outputs) :
    ∃ bytes blanks, Elements element true values bytes ∧ AllBlank blanks ∧
      bytesOf (bracketed opening closing level outputs) =
        Utf8.encode opening.toList ++ (bytes ++ blanks ++ Utf8.encode closing.toList) := by
  cases each with
  | nil => exact ⟨[], [], .done true, allBlank_nil, by simp [bracketed]⟩
  | @cons value output values outputs spelled others =>
      refine ⟨_, _, .more (.first (allBlank_lineBreak (level + 1))) spelled
        (elements_rest element (level + 1) others), allBlank_lineBreak level, ?_⟩
      simp [bracketed]

end Bracketed

/-! ## Values -/

/-- What is written for a value is read as the value, at every level of nesting. -/
def Writes : Link Reader Pieces := fun _ reader output value =>
  ∀ level, Spells reader (bytesOf (output level)) value

theorem maps_writes : Maps Writes := by
  intro Value Other function reader output value writes level
  exact (writes level).map function

theorem encode_textLiteral (value : String) :
    Utf8.encode (textLiteral value).toList =
      0x22 :: (Utf8.encode (value.toList.flatMap textChar) ++ [0x22]) := by
  have inside : (String.ofList (value.toList.flatMap textChar)).toList =
      value.toList.flatMap textChar := String.toList_ofList
  have quote : Utf8.encode "\"".toList = [0x22] := by rfl
  unfold textLiteral
  rw [String.toList_append, String.toList_append, inside, Utf8.encode_append,
    Utf8.encode_append, quote, List.append_assoc]
  rfl

theorem writes_text (value : String) : Writes _ text (writing.text value) value := by
  intro level
  change Spells text (bytesOf [textLiteral value]) value
  rw [bytesOf_cons, bytesOf_nil, List.append_nil, encode_textLiteral]
  exact spells_text (transcribes_textChars value.toList)

theorem writes_count (value : UInt32) : Writes _ count (writing.count value) value := by
  intro level
  change Spells count (bytesOf [Numeral.decimalText value.toNat]) value
  rw [bytesOf_cons, bytesOf_nil, List.append_nil]
  exact spells_count (Number.decimalOf_decimalText value.toNat)

theorem writes_list {Item : Type} {item : Reader Item} {write : Item → Pieces}
    (each : ∀ value, Writes _ item (write value) value) (values : List Item) :
    Writes _ (list item) (writing.list (values.map write)) values := by
  intro level
  have outputs : List.Forall₂ (fun value output => Spells item (bytesOf output) value) values
      ((values.map write).map (· (level + 1))) := by
    rw [List.map_map, List.forall₂_map_right_iff, List.forall₂_same]
    exact fun value _ => each value (level + 1)
  obtain ⟨bytes, blanks, elements, blank, written⟩ :=
    exists_elements (fun value bytes => Spells item bytes value) "[" "]" level outputs
  change Spells (list item)
    (bytesOf (bracketed "[" "]" level ((values.map write).map (· (level + 1))))) values
  rw [written]
  exact spells_list elements blank

/-! ## Records -/

section Record

variable {Record : Type}

private theorem member_of_writes {fields : List (ReadingField Reader Record)}
    {field : ReadingField Reader Record} {output : Pieces} {change : Record → Record}
    (listed : fields.find? (·.name == field.name) = some field)
    (writes : Writes _ field.read output change) (level : Nat) :
    Member fields (field.name, change)
      (bytesOf (textLiteral field.name :: ": " :: output level)) := by
  have colon : Utf8.encode ": ".toList = [0x3A, 0x20] := by rfl
  rw [bytesOf_cons, bytesOf_cons, encode_textLiteral, colon]
  exact .mk (transcribes_textChars field.name.toList) allBlank_nil (allBlank_singleton rfl)
    (.sets listed (writes level))

/-- The fields that are written are the members, in their order. -/
theorem exists_members {all fields : List (ReadingField Reader Record)}
    {outputs : List (String × Pieces)} {changes : List (Record → Record)}
    (writes : WritesFields Writes fields outputs changes)
    (listed : ∀ field ∈ fields, all.find? (·.name == field.name) = some field) (level : Nat) :
    ∃ given, given.map Prod.fst = fields.map (·.name) ∧ given.map Prod.snd = changes ∧
      List.Forall₂ (fun member output => Member all member (bytesOf output)) given
        (outputs.map fun (name, value) => textLiteral name :: ": " :: value level) := by
  induction writes with
  | nil => exact ⟨[], rfl, rfl, .nil⟩
  | @cons field output change fields outputs changes written others inductionHypothesis =>
      obtain ⟨given, names, same, members⟩ :=
        inductionHypothesis fun field member => listed field (List.mem_cons_of_mem _ member)
      have first := member_of_writes (listed field List.mem_cons_self) written level
      exact ⟨(field.name, change) :: given, congrArg _ names, congrArg _ same, .cons first members⟩

end Record

/-- A record is written with all its fields, which have different names. -/
theorem writes_record : LinksRecords reading writing Writes Writes := by
  intro Record typeName blank fields outputs changes writes nonempty distinct named level
  obtain ⟨given, names, rfl, members⟩ :=
    exists_members writes (fun field member => find?_name distinct member) (level + 1)
  obtain ⟨bytes, blanks, elements, blank, written⟩ :=
    exists_elements (Member fields) "\x7b" "\x7d" level members
  -- The members have the names of all fields, one each.
  have known : (knownNames fields given).Nodup := by
    unfold knownNames
    rw [names]
    exact distinct.filter _
  change Spells _ (bytesOf (bracketed "\x7b" "\x7d" level
    (outputs.map fun (name, value) => textLiteral name :: ": " :: value (level + 1)))) _
  rw [written]
  exact spells_record typeName _ elements blank known

theorem linked : Linked reading writing Writes Writes where
  maps := maps_writes
  text := writes_text
  count := writes_count
  texts := writes_list writes_text
  record := writes_record

/-! ## Documents -/

theorem writes_document (document : Document) :
    Writes _ reading.document (writing.document document) document :=
  linked.document writes_record writes_list document

/-- White space may stand around a document. -/
theorem takes_document {before bytes after : List UInt8} {document : Document}
    (blankBefore : AllBlank before) (spells : Spells reading.document bytes document)
    (blankAfter : AllBlank after) :
    Takes Reader.document (before ++ bytes ++ after) [] document := by
  have ended : Number.Ended after := by
    have nothing : Number.Ended [] := fun byte next => by cases next
    have following := ended_of_blanks blankAfter nothing
    rwa [List.append_nil] at following
  have ending : Takes sourceEnd after [] () :=
    Takes.bind_done (takes_peekToken_end blankAfter) (takes_pure () [])
  have read := spells.takes blankBefore ended
  rw [← List.append_nil after] at read
  exact Takes.bind read (Takes.bind_done ending (takes_pure document []))

theorem decode_of_takes {bytes : List UInt8} {document : Document}
    (takes : Takes Reader.document bytes [] document) : decode bytes none = .ok document := by
  obtain ⟨after, ran, -, -⟩ := takes { rest := bytes, failure := none }
    (List.append_nil bytes).symm rfl
  unfold decode
  rw [ran]

theorem bytes_json (document : Document) :
    Format.json.bytes document = bytesOf (encode document) ++ [0x0A] := by
  have lineEnd : Utf8.encode "\n".toList = [0x0A] := by rfl
  unfold Format.bytes Format.sections
  simp only [List.map_cons, List.map_nil, List.flatten_cons, List.flatten_nil, List.append_nil,
    lineEnd]
  rw [bytesOf, List.flatMap_def]

/-- What is written for a document is read as this document. -/
theorem decode_bytes (document : Document) :
    Format.json.decode (Format.json.bytes document) none = .ok document := by
  have lineEnd : AllBlank [0x0A] := allBlank_singleton rfl
  have read := takes_document allBlank_nil (writes_document document 0) lineEnd
  rw [List.nil_append] at read
  unfold Format.decode
  dsimp only
  rw [bytes_json]
  change (decode (bytesOf (writing.document document 0) ++ [0x0A]) none).mapError _ = _
  rw [decode_of_takes read]
  rfl

/-- A document that is written as JSON is read back. -/
theorem encode_json_decode (document : Document) (refusals : Refusals) :
    ∃ writer, Format.json.encode document {} refusals = (.ok (), writer) ∧
      writer.accepted = Format.json.bytes document ∧
      Format.json.decode writer.accepted none = .ok document :=
  Format.exists_writer (decode_bytes document) refusals

end FaultDrill.Json
