import Mathlib.Data.List.Nodup
import FaultDrill.Json.Decoder
import FaultDrill.Proofs.Json.Number
import FaultDrill.Proofs.Json.Text

/-!
Values of JSON are read from whatever spells them.

Owns:
- bytes that spell a value, wherever the value stands: texts, counts, lists and records;
- elements between commas, with white space anywhere.

Main statements: a list is read from its items (`spells_list`), and a record from its members in
any order (`spells_record`).
-/

namespace FaultDrill.Json.Reader

open Text Number

/-- Bytes that a reader reads as a value, after any white space and before anything that does not
go on with a number. They begin neither as white space nor as the end of a list. -/
structure Spells {Value : Type} (reader : Reader Value) (bytes : List UInt8) (value : Value) :
    Prop where
  starts : ∃ first more, bytes = first :: more ∧ isBlank first = false ∧ first ≠ 0x5D
  takes : ∀ {blanks rest : List UInt8}, AllBlank blanks → Ended rest →
    Takes reader (blanks ++ bytes) rest value

theorem Spells.map {Value Other : Type} {reader : Reader Value} {bytes : List UInt8}
    {value : Value} (spells : Spells reader bytes value) (function : Value → Other) :
    Spells (function <$> reader) bytes (function value) where
  starts := spells.starts
  takes blank ended := (spells.takes blank ended).map function

variable {blanks rest : List UInt8}

/-! ## Texts and counts -/

theorem takes_valueStart (blank : AllBlank blanks) {first : UInt8} (token : isBlank first = false)
    (rest : List UInt8) : Takes valueStart blanks (first :: rest) first :=
  Takes.bind_done (takes_peekToken blank token rest) (takes_pure first (first :: rest))

theorem spells_text {source : List UInt8} {value : String}
    (stands : Transcribes source (Utf8.encode value.toList)) :
    Spells text (0x22 :: (source ++ [0x22])) value where
  starts := ⟨0x22, _, rfl, rfl, by decide⟩
  takes := by
    intro blanks rest blank ended
    refine Takes.bind (takes_valueStart blank rfl _) ?_
    exact Takes.bind_byte (takes_drop 0x22 _) (takes_textTail stands rest)

theorem isBlank_of_isDigit {byte : UInt8} (digit : isDigit byte = true) :
    isBlank byte = false ∧ byte ≠ 0x5D ∧ byte ≠ 0x2D := by
  unfold isDigit at digit
  unfold isBlank
  simp only [Bool.and_eq_true, decide_eq_true_eq, UInt8.le_iff_toNat_le, UInt8.reduceToNat,
    Bool.or_eq_false_iff, beq_eq_false_iff_ne, ne_eq, ← UInt8.toNat_inj] at digit ⊢
  omega

theorem countOfNumber_of_countOf? {value : Int} {count : UInt32}
    (counted : countOf? value = some count) : countOfNumber (.integer value) = pure count := by
  unfold countOfNumber
  dsimp only
  rw [counted]

theorem spells_count {digits : List UInt8} {value : UInt32}
    (decimal : DecimalOf digits value.toNat) : Spells count digits value where
  starts := by
    obtain ⟨first, more, rfl⟩ := List.exists_cons_of_ne_nil decimal.nonempty
    obtain ⟨token, notEnd, -⟩ := isBlank_of_isDigit (decimal.isDigit first List.mem_cons_self)
    exact ⟨first, more, rfl, token, notEnd⟩
  takes := by
    intro blanks rest blank ended
    have small : value.toNat < 4294967296 := value.toNat_lt
    have read := takes_number decimal (Nat.lt_trans small (by decide)) ended
    have fits : Takes (countOfNumber (.integer value.toNat)) [] rest value := by
      rw [countOfNumber_of_countOf? (countOf?_toNat value)]
      exact takes_pure value rest
    obtain ⟨first, more, rfl⟩ := List.exists_cons_of_ne_nil decimal.nonempty
    have isDigit := decimal.isDigit first List.mem_cons_self
    obtain ⟨token, -, notMinus⟩ := isBlank_of_isDigit isDigit
    refine Takes.bind (takes_valueStart blank token _) ?_
    split
    · next minus => exact absurd rfl notMinus
    · rw [if_pos isDigit]
      exact Takes.bind_done read fits.placed

/-! ## Elements between commas -/

/-- What stands before an element: white space, and a comma unless it is the first. -/
inductive Lead : (first : Bool) → List UInt8 → Prop where
  | first {blanks : List UInt8} (blank : AllBlank blanks) : Lead true blanks
  | next {before after : List UInt8} (blankBefore : AllBlank before)
      (blankAfter : AllBlank after) : Lead false (before ++ 0x2C :: after)

/-- Elements with commas between them and white space anywhere. `first` says that no element comes
before them. -/
inductive Elements {Value : Type} (element : Value → List UInt8 → Prop) :
    (first : Bool) → List Value → List UInt8 → Prop where
  | done (first : Bool) : Elements element first [] []
  | more {first : Bool} {leading bytes others : List UInt8} {value : Value} {values : List Value}
      (lead : Lead first leading) (spelled : element value bytes) :
      Elements element false values others →
      Elements element first (value :: values) (leading ++ (bytes ++ others))

theorem ended_cons {byte : UInt8}
    (other : isDigit byte = false ∧ byte ≠ 0x2E ∧ byte ≠ 0x65 ∧ byte ≠ 0x45)
    (rest : List UInt8) : Ended (byte :: rest) := by
  rintro _ ⟨⟩
  exact other

theorem ended_of_blanks (blank : AllBlank blanks) (ended : Ended rest) :
    Ended (blanks ++ rest) := by
  cases blanks with
  | nil => exact ended
  | cons byte blanks =>
      have white := blank byte List.mem_cons_self
      unfold isBlank at white
      simp only [Bool.or_eq_true, beq_iff_eq] at white
      rcases white with ((rfl | rfl) | rfl) | rfl <;> exact ended_cons (by decide) _

/-- Neither a comma nor white space goes on with a number. -/
theorem Lead.ended {leading : List UInt8} (lead : Lead false leading) (rest : List UInt8) :
    Ended (leading ++ rest) := by
  cases lead with
  | next blankBefore _ =>
      rw [List.append_assoc]
      exact ended_of_blanks blankBefore (ended_cons (by decide) _)

theorem Elements.ended {Value : Type} {element : Value → List UInt8 → Prop} {values : List Value}
    {bytes : List UInt8} (elements : Elements element false values bytes) (ended : Ended rest) :
    Ended (bytes ++ rest) := by
  cases elements with
  | done => exact ended
  | more lead _ _ =>
      rw [List.append_assoc]
      exact lead.ended _

/-- Elements may be seen as others. -/
theorem Elements.map {Value Other : Type} {element : Value → List UInt8 → Prop}
    {other : Other → List UInt8 → Prop} {first : Bool} {values : List Value} {bytes : List UInt8}
    (elements : Elements element first values bytes) (function : Value → Other)
    (each : ∀ value ∈ values, ∀ bytes, element value bytes → other (function value) bytes) :
    Elements other first (values.map function) bytes := by
  induction elements with
  | done first => exact .done first
  | more lead spelled _ inductionHypothesis =>
      rw [List.forall_mem_cons] at each
      exact .more lead (each.1 _ spelled) (inductionHypothesis each.2)

/-! ## Lists -/

theorem takes_hasItem {first : Bool} {leading : List UInt8} {byte : UInt8}
    (lead : Lead first leading) (token : isBlank byte = false) (notEnd : byte ≠ 0x5D)
    (rest : List UInt8) : Takes (hasItem first) leading (byte :: rest) true := by
  cases lead with
  | first blank =>
      refine Takes.bind_done (takes_peekToken blank token rest) ?_
      split
      · next none => cases none
      · next ending => exact absurd (Option.some.inj ending) notEnd
      · exact takes_pure true _
  | next blankBefore blankAfter =>
      refine Takes.bind (takes_peekToken blankBefore rfl _) ?_
      refine Takes.bind_byte (takes_drop 0x2C _) ?_
      refine Takes.bind_done (takes_peekToken blankAfter token rest) ?_
      split
      · next ending => exact absurd (Option.some.inj ending) notEnd
      · exact takes_pure true _
      · next none => cases none

theorem takes_hasItem_end (first : Bool) (blank : AllBlank blanks) (rest : List UInt8) :
    Takes (hasItem first) blanks (0x5D :: rest) false :=
  Takes.bind_done (takes_peekToken blank rfl rest) (takes_pure false _)

theorem Takes.thenEnd {Value : Type} {reader : Reader Value} {ending : Reader Unit}
    {bytes more : List UInt8} {value : Value} (first : Takes reader bytes (more ++ rest) value)
    (second : Takes ending more rest ()) :
    Takes (thenEnd reader ending) (bytes ++ more) rest value := by
  intro cursor left intact
  rw [List.append_assoc] at left
  obtain ⟨between, ran, leftBetween, intactBetween⟩ := first cursor left intact
  obtain ⟨after, ranOn, leftAfter, intactAfter⟩ := second between leftBetween intactBetween
  refine ⟨after, ?_, leftAfter, intactAfter⟩
  unfold Reader.thenEnd
  rw [ran]
  dsimp only
  rw [ranOn]

section List

variable {Item : Type} {item : Reader Item}

/-- One item is read, and put before those after it. -/
theorem goesOn_item {first : Bool} {value : Item} {leading bytes : List UInt8}
    (lead : Lead first leading) (spelled : Spells item bytes value) (ended : Ended rest)
    (steps : Nat) :
    GoesOn (items item (steps + 1) first)
      (items item steps false >>= fun values => pure (value :: values)) (leading ++ bytes)
      rest := by
  have read := spelled.takes allBlank_nil ended
  obtain ⟨byte, tail, rfl, token, notEnd⟩ := spelled.starts
  refine Takes.bind_goesOn (takes_hasItem lead token notEnd _) ?_
  rw [if_pos rfl]
  exact read.goesOn _

/-- Items are read up to the end of the list, which stays. -/
theorem takes_items {first : Bool} {values : List Item} {bytes : List UInt8}
    (elements : Elements (fun value bytes => Spells item bytes value) first values bytes)
    (blank : AllBlank blanks) (rest : List UInt8) :
    ∀ steps, values.length < steps →
      Takes (items item steps first) (bytes ++ blanks) (0x5D :: rest) values := by
  induction elements with
  | done first =>
      intro steps enough
      obtain ⟨steps, rfl, -⟩ := exists_step enough
      exact Takes.bind_done (takes_hasItem_end first blank rest) (takes_pure [] _)
  | @more first leading bytes others value values lead spelled later inductionHypothesis =>
      intro steps enough
      obtain ⟨steps, rfl, fewer⟩ := exists_step enough
      -- After an item comes white space, a comma or the end of the list.
      have ended : Ended (others ++ blanks ++ 0x5D :: rest) := by
        rw [List.append_assoc]
        exact later.ended (ended_of_blanks blank (ended_cons (by decide) rest))
      rw [← List.append_assoc leading, List.append_assoc]
      exact (goesOn_item lead spelled ended steps).takes
        (Takes.bind_done (inductionHypothesis steps fewer) (takes_pure (value :: values) _))

theorem Elements.length_le {Value : Type} {element : Value → List UInt8 → Prop} {first : Bool}
    {values : List Value} {bytes : List UInt8} (elements : Elements element first values bytes)
    (nonempty : ∀ value bytes, element value bytes → bytes ≠ []) :
    values.length ≤ bytes.length := by
  induction elements with
  | done first => exact Nat.le_refl 0
  | more lead spelled _ inductionHypothesis =>
      have positive := List.length_pos_iff.mpr (nonempty _ _ spelled)
      simp only [List.length_cons, List.length_append]
      omega

/-- A list is read from its items between brackets. -/
theorem spells_list {values : List Item} {bytes : List UInt8}
    (elements : Elements (fun value bytes => Spells item bytes value) true values bytes)
    (blank : AllBlank blanks) :
    Spells (list item) (0x5B :: (bytes ++ blanks ++ [0x5D])) values where
  starts := ⟨0x5B, _, rfl, by decide, by decide⟩
  takes := by
    intro before rest blankBefore ended
    refine Takes.bind (takes_valueStart blankBefore (by decide) _) (Takes.placed ?_)
    refine Takes.bind_byte (takes_drop 0x5B _) (takes_get_bind fun cursor left _ => ?_)
    have enough : values.length < cursor.rest.length + 1 := by
      have few := elements.length_le fun value bytes spelled => by
        obtain ⟨first, more, rfl, -⟩ := spelled.starts
        simp
      rw [left]
      simp only [List.length_append]
      omega
    have ending : Takes listEnd [0x5D] rest () :=
      Takes.bind_look (takes_peekToken allBlank_nil (by decide) rest) (takes_drop 0x5D rest)
    exact Takes.thenEnd (takes_items elements blank rest _ enough) ending

end List

/-! ## Records -/

section Record

variable {Record : Type}

/-- What the value of a member does to a record: it sets the field of the member's name, or
nothing if there is no such field. -/
inductive Effect (fields : List (ReadingField Reader Record)) (name : String) :
    List UInt8 → (Record → Record) → Prop where
  | sets {field : ReadingField Reader Record} {bytes : List UInt8} {change : Record → Record}
      (listed : fields.find? (·.name == name) = some field)
      (spelled : Spells field.read bytes change) : Effect fields name bytes change
  | passes {bytes : List UInt8} (unlisted : fields.find? (·.name == name) = none)
      (spelled : Spells skip bytes ()) : Effect fields name bytes id

/-- A member of an object with its name and its effect. -/
inductive Member (fields : List (ReadingField Reader Record)) :
    String × (Record → Record) → List UInt8 → Prop where
  | mk {name : String} {source before after bytes : List UInt8} {change : Record → Record}
      (named : Transcribes source (Utf8.encode name.toList)) (blankBefore : AllBlank before)
      (blankAfter : AllBlank after) (effect : Effect fields name bytes change) :
      Member fields (name, change)
        (0x22 :: (source ++ [0x22] ++ (before ++ (0x3A :: (after ++ bytes)))))

/-- The names of fields among those of members. -/
def knownNames (fields : List (ReadingField Reader Record))
    (given : List (String × (Record → Record))) : List String :=
  (given.map Prod.fst).filter fun name => (fields.find? (·.name == name)).isSome

theorem takes_hasMember {first : Bool} {leading : List UInt8} (lead : Lead first leading)
    (rest : List UInt8) : Takes (hasMember first) leading (0x22 :: rest) true := by
  cases lead with
  | first blank =>
      exact Takes.bind_done (takes_peekToken blank (by decide) rest) (takes_pure true _)
  | next blankBefore blankAfter =>
      refine Takes.bind (takes_peekToken blankBefore rfl _) ?_
      refine Takes.bind_byte (takes_drop 0x2C _) ?_
      exact Takes.bind_done (takes_peekToken blankAfter (by decide) rest) (takes_pure true _)

theorem takes_hasMember_end (first : Bool) {blanks : List UInt8} (blank : AllBlank blanks)
    (rest : List UInt8) : Takes (hasMember first) blanks (0x7D :: rest) false :=
  Takes.bind_done (takes_peekToken blank (by decide) rest) (takes_pure false _)

theorem takes_colon {before : List UInt8} (blank : AllBlank before) (rest : List UInt8) :
    Takes colon (before ++ [0x3A]) rest () :=
  Takes.bind (takes_peekToken blank rfl _) (takes_drop 0x3A rest)

theorem knownNames_cons (fields : List (ReadingField Reader Record))
    (member : String × (Record → Record)) (given : List (String × (Record → Record))) :
    knownNames fields (member :: given) =
      knownNames fields [member] ++ knownNames fields given := by
  unfold knownNames
  rw [← List.filter_append, ← List.map_append]
  rfl

/-- One member is read, and its name is remembered if a field has it. -/
theorem goesOn_member {fields : List (ReadingField Reader Record)} {first : Bool}
    {member : String × (Record → Record)} {leading bytes rest : List UInt8}
    (lead : Lead first leading) (spelled : Member fields member bytes) (ended : Ended rest)
    {seen : List String} (fresh : ∀ name ∈ knownNames fields [member], name ∉ seen) (steps : Nat)
    (record : Record) :
    GoesOn (members fields (steps + 1) first seen record)
      (members fields steps false (knownNames fields [member] ++ seen) (member.2 record))
      (leading ++ bytes) rest := by
  cases spelled with
  | @mk name source before after bytes change named blankBefore blankAfter effect =>
      have parts : 0x22 :: (source ++ [0x22] ++ (before ++ (0x3A :: (after ++ bytes)))) =
          0x22 :: (source ++ [0x22] ++ (before ++ [0x3A] ++ (after ++ bytes))) := by
        simp
      rw [parts]
      refine Takes.bind_goesOn (takes_hasMember lead _)
        (Takes.bind_goesOn (takes_drop 0x22 _) (Takes.bind_goesOn (takes_textTail named _) ?_))
      cases effect with
      | @sets field bytes change listed spelled =>
          have known : knownNames fields [(name, change)] = [name] := by simp [knownNames, listed]
          rw [known, List.forall_mem_singleton] at fresh
          have unseen : seen.contains name = false := by simpa using fresh
          rw [listed, known]
          dsimp only
          rw [unseen]
          exact Takes.bind_goesOn (takes_colon blankBefore _)
            ((spelled.takes blankAfter ended).goesOn _)
      | passes unlisted spelled =>
          have known : knownNames fields [(name, (id : Record → Record))] = [] := by
            simp [knownNames, unlisted]
          rw [unlisted, known]
          exact Takes.bind_goesOn (takes_colon blankBefore _)
            ((spelled.takes blankAfter ended).goesOn _)

/-- Names that come first have not been seen if all names are different. -/
theorem fresh_of_nodup {fields : List (ReadingField Reader Record)}
    {member : String × (Record → Record)} {given : List (String × (Record → Record))}
    {seen : List String} (distinct : (knownNames fields (member :: given) ++ seen).Nodup) :
    (∀ name ∈ knownNames fields [member], name ∉ seen) ∧
      (knownNames fields given ++ (knownNames fields [member] ++ seen)).Nodup := by
  rw [knownNames_cons, List.append_assoc] at distinct
  refine ⟨fun name known inSeen => ?_, List.perm_append_comm_assoc _ _ _ |>.nodup_iff.mp distinct⟩
  exact (List.nodup_append.mp distinct).2.2 name known name
    (List.mem_append_right _ inSeen) rfl

/-- Members are read up to the end of the object, which stays. -/
theorem takes_members {fields : List (ReadingField Reader Record)} {first : Bool}
    {given : List (String × (Record → Record))} {bytes : List UInt8}
    (elements : Elements (Member fields) first given bytes) {blanks : List UInt8}
    (blank : AllBlank blanks) (rest : List UInt8) :
    ∀ steps, given.length < steps → ∀ seen record, (knownNames fields given ++ seen).Nodup →
      Takes (members fields steps first seen record) (bytes ++ blanks) (0x7D :: rest)
        (applyAll (given.map Prod.snd) record) := by
  -- Each field moves from the names to come to those seen, and all of them stay different.
  induction elements with
  | done first =>
      intro steps enough seen record _
      obtain ⟨steps, rfl, -⟩ := exists_step enough
      exact Takes.bind_done (takes_hasMember_end first blank rest) (takes_pure record _)
  | @more first leading bytes others value values lead spelled later inductionHypothesis =>
      intro steps enough seen record distinct
      obtain ⟨steps, rfl, fewer⟩ := exists_step enough
      have ended : Ended (others ++ blanks ++ 0x7D :: rest) := by
        rw [List.append_assoc]
        exact later.ended (ended_of_blanks blank (ended_cons (by decide) rest))
      obtain ⟨fresh, stillDistinct⟩ := fresh_of_nodup distinct
      rw [← List.append_assoc leading, List.append_assoc]
      exact (goesOn_member lead spelled ended fresh steps record).takes
        (inductionHypothesis steps fewer _ (value.2 record) stillDistinct)

/-- A record is read from members with different names between braces. -/
theorem spells_record (typeName : String) (start : Record)
    {fields : List (ReadingField Reader Record)} {given : List (String × (Record → Record))}
    {bytes blanks : List UInt8} (elements : Elements (Member fields) true given bytes)
    (blank : AllBlank blanks) (distinct : (knownNames fields given).Nodup) :
    Spells (record typeName start fields) (0x7B :: (bytes ++ blanks ++ [0x7D]))
      (applyAll (given.map Prod.snd) start) where
  starts := ⟨0x7B, _, rfl, by decide, by decide⟩
  takes := by
    intro before rest blankBefore ended
    refine Takes.bind (takes_valueStart blankBefore (by decide) _) (Takes.placed ?_)
    refine Takes.bind_byte (takes_drop 0x7B _) (takes_get_bind fun cursor left _ => ?_)
    have enough : given.length < cursor.rest.length + 1 := by
      have few := elements.length_le fun value bytes spelled => by
        cases spelled
        simp
      rw [left]
      simp only [List.length_append]
      omega
    have read := takes_members elements blank rest _ enough [] start (by rwa [List.append_nil])
    have ending : Takes objectEnd [0x7D] rest () :=
      Takes.bind_look (takes_peekToken allBlank_nil (by decide) rest) (takes_drop 0x7D rest)
    exact Takes.thenEnd read ending

end Record

end FaultDrill.Json.Reader
