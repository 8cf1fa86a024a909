import FaultDrill.Proofs.Json.Skipping

/-!
The texts in which a document may be laid out as JSON.

Owns:
- the layouts of texts, counts, lists and records, and by these those of documents: the members of
  an object come in any order among others of any name and value, and a member may be left out if
  its value is the default;
- what repeats a field of a record.

Does not own: the grammar of the parts (`Grammar`), and how any of this is read
(`Proofs.Json.Variants`).
-/

namespace FaultDrill.Json

open Grammar
open Reader (AllBlank Elements Lead)
open Text

/-- How a value may be laid out. -/
structure Layout where
  /-- The bytes that spell the value. -/
  spelled : List UInt8 → Prop
  /-- Whether the value is the one that a missing member has. -/
  isDefault : Prop
  /-- The bytes that go on as a spelling of the value until an object in it repeats a field;
  anything may follow that. -/
  repeating : List UInt8 → Prop

/-- Elements up to something else, which has a lead as they have. -/
inductive UpTo {Value : Type} (element : Value → List UInt8 → Prop) (goal : List UInt8 → Prop) :
    (first : Bool) → List Value → List UInt8 → Prop where
  | here {first : Bool} {leading bytes : List UInt8} (lead : Lead first leading)
      (reached : goal bytes) : UpTo element goal first [] (leading ++ bytes)
  | after {first : Bool} {leading bytes others : List UInt8} {value : Value} {values : List Value}
      (lead : Lead first leading) (spelled : element value bytes) :
      UpTo element goal false values others →
      UpTo element goal first (value :: values) (leading ++ (bytes ++ others))

namespace UpTo

variable {Value Other : Type} {element : Value → List UInt8 → Prop} {goal : List UInt8 → Prop}
  {first : Bool} {values : List Value} {bytes : List UInt8}

/-- After an element comes white space or a comma, up to whatever is reached. -/
theorem ended (upTo : UpTo element goal false values bytes) : Number.Ended bytes := by
  cases upTo with
  | here lead _ => exact lead.ended _
  | after lead _ _ => exact lead.ended _

theorem map {other : Other → List UInt8 → Prop} {further : List UInt8 → Prop}
    (upTo : UpTo element goal first values bytes) (function : Value → Other)
    (each : ∀ value ∈ values, ∀ bytes, element value bytes → other (function value) bytes)
    (onward : ∀ bytes, goal bytes → further bytes) :
    UpTo other further first (values.map function) bytes := by
  induction upTo with
  | here lead reached => exact .here lead (onward _ reached)
  | after lead spelled _ inductionHypothesis =>
      rw [List.forall_mem_cons] at each
      exact .after lead (each.1 _ spelled) (inductionHypothesis each.2)

theorem imp {further : List UInt8 → Prop} (upTo : UpTo element goal first values bytes)
    (onward : ∀ bytes, goal bytes → further bytes) : UpTo element further first values bytes := by
  have same := upTo.map id (fun _ _ _ spelled => spelled) onward
  rwa [List.map_id] at same

theorem length_le (upTo : UpTo element goal first values bytes)
    (nonempty : ∀ value bytes, element value bytes → bytes ≠ []) :
    values.length ≤ bytes.length := by
  induction upTo with
  | here lead reached => exact Nat.zero_le _
  | after lead spelled _ inductionHypothesis =>
      have positive := List.length_pos_iff.mpr (nonempty _ _ spelled)
      simp only [List.length_cons, List.length_append]
      omega

/-- Elements reach any one of them. -/
theorem of_elements {earlier later : List Value} {value : Value}
    (elements : Elements element first (earlier ++ value :: later) bytes) (rest : List UInt8) :
    UpTo element (fun bytes => ∃ own others, element value own ∧ bytes = own ++ others) first
      earlier (bytes ++ rest) := by
  induction earlier generalizing first bytes with
  | nil =>
      cases elements with
      | @more _ leading own others _ _ lead spelled _ =>
          rw [List.append_assoc, List.append_assoc]
          exact .here lead ⟨own, others ++ rest, spelled, rfl⟩
  | cons head earlier inductionHypothesis =>
      cases elements with
      | more lead spelled others =>
          rw [List.append_assoc, List.append_assoc]
          exact .after lead spelled (inductionHypothesis others)

end UpTo

namespace Layout

/-- A text between quotes. -/
def text (value : String) : Layout where
  spelled bytes := ∃ source, TextOf source value.toList ∧ bytes = 0x22 :: (source ++ [0x22])
  isDefault := value = ""
  repeating _ := False

/-- A count in decimal digits. -/
def count (value : UInt32) : Layout where
  spelled bytes := bytes = Utf8.encode (Numeral.decimalText value.toNat).toList
  isDefault := value = 0
  repeating _ := False

/-- Items between brackets. -/
def list (items : List Layout) : Layout where
  spelled bytes := ∃ inside blanks, Elements spelled true items inside ∧ AllBlank blanks ∧
    bytes = 0x5B :: (inside ++ blanks ++ [0x5D])
  isDefault := items = []
  repeating bytes := ∃ earlier item later inside, items = earlier ++ item :: later ∧
    UpTo spelled item.repeating true earlier inside ∧ bytes = 0x5B :: inside

/-- A member of an object: its name and the bytes of its value. -/
abbrev Given := String × List UInt8

/-- The bytes of a member. -/
def memberOf (given : Given) : List UInt8 → Prop :=
  MemberText (TextOf · given.1.toList) (· = given.2)

/-- The layout of the field of some name. -/
def layoutOf? (fields : List (String × Layout)) (name : String) : Option Layout :=
  (fields.find? (·.1 == name)).map Prod.snd

/-- Members that an object may have: those of fields spell their values and come once each, and
all others have any values. -/
structure Admissible (fields : List (String × Layout)) (members : List Given) : Prop where
  known : ∀ given ∈ members, ∀ layout ∈ layoutOf? fields given.1, layout.spelled given.2
  other : ∀ given ∈ members, layoutOf? fields given.1 = none → ∃ depth, IsValue depth given.2
  distinct : ((members.map Prod.fst).filter fun name => (layoutOf? fields name).isSome).Nodup

/-- Members between braces. -/
def record (fields : List (String × Layout)) : Layout where
  spelled bytes := ∃ members inside blanks, Admissible fields members ∧
    (∀ field ∈ fields, field.1 ∈ members.map Prod.fst ∨ field.2.isDefault) ∧
    Elements memberOf true members inside ∧ AllBlank blanks ∧
    bytes = 0x7B :: (inside ++ blanks ++ [0x7D])
  isDefault := ∀ field ∈ fields, field.2.isDefault
  repeating bytes := ∃ members inside, Admissible fields members ∧
    UpTo memberOf (repeats members) true members inside ∧ bytes = 0x7B :: inside
where
  /-- The name of a field that is among the members already, or a member whose value repeats a
  field. -/
  repeats (members : List Given) (bytes : List UInt8) : Prop :=
    ∃ name layout, layoutOf? fields name = some layout ∧
      ((name ∈ members.map Prod.fst ∧ ∃ source rest, TextOf source name.toList ∧
          bytes = 0x22 :: (source ++ [0x22] ++ rest)) ∨
        MemberText (TextOf · name.toList) layout.repeating bytes)

/-- A field that comes twice among the members of an object is repeated, whatever the value and
the members after it. -/
theorem repeating_of_twice {fields : List (String × Layout)} {earlier later : List Given}
    {again : Given} {layout : Layout} {bytes inside : List UInt8}
    (admissible : Admissible fields earlier) (listed : layoutOf? fields again.1 = some layout)
    (twice : again.1 ∈ earlier.map Prod.fst)
    (elements : Elements memberOf true (earlier ++ again :: later) inside) (rest : List UInt8)
    (whole : bytes = 0x7B :: (inside ++ rest)) : (record fields).repeating bytes := by
  refine ⟨earlier, inside ++ rest, admissible,
    (UpTo.of_elements elements rest).imp fun bytes reached => ?_, whole⟩
  obtain ⟨own, others, member, rfl⟩ := reached
  cases member with
  | @mk source before after value textOf _ _ _ =>
      exact ⟨again.1, layout, listed,
        .inl ⟨twice, source, before ++ 0x3A :: (after ++ value) ++ others, textOf, by simp⟩⟩

end Layout

/-- The layouts of the parts of a document. -/
def layouts : Writing Layout := ⟨Layout.text, Layout.count, Layout.list, Layout.record⟩

/-- The bytes of a text in which a document is laid out, with white space around it. -/
inductive LaidOut (document : Document) : List UInt8 → Prop where
  | mk {before inside after : List UInt8} (blankBefore : AllBlank before)
      (spelled : (layouts.document document).spelled inside) (blankAfter : AllBlank after) :
      LaidOut document (before ++ inside ++ after)

/-- The bytes of a text in which a document is laid out up to a field that an object repeats. -/
inductive Repeating (document : Document) : List UInt8 → Prop where
  | mk {before inside : List UInt8} (blankBefore : AllBlank before)
      (repeating : (layouts.document document).repeating inside) :
      Repeating document (before ++ inside)

end FaultDrill.Json
