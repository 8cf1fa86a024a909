import FaultDrill.Proofs.Json.Layout

/-!
Readers fail at a field that an object repeats.

Owns: readers that fail for this reason, put together as the readers themselves are; and lists and
records in which something is refused.

Main statements: a list is refused at an item that is refused (`rejects_list`), and a record at a
member that is refused (`rejects_record`), whatever follows.
-/

namespace FaultDrill.Json.Reader

open Number Text

/-- A reader fails for a field that is repeated in some bytes, wherever these start and as long as
the source does not fail. -/
def Refuses {Value : Type} (reader : Reader Value) (bytes : List UInt8) : Prop :=
  ∀ cursor : Cursor, cursor.rest = bytes → cursor.failure = none →
    ∃ name position after, reader cursor = .error ⟨.mismatch (.duplicateField name), position⟩ after

variable {Value Other : Type} {reader : Reader Value} {next' : Value → Reader Other}
  {bytes rest : List UInt8} {value : Value}

/-! ## Combinations -/

theorem GoesOn.refuses {onward : Reader Value} (goesOn : GoesOn reader onward bytes rest)
    (refuses : Refuses onward rest) : Refuses reader (bytes ++ rest) := by
  intro cursor left intact
  obtain ⟨between, leftBetween, intactBetween, same⟩ := goesOn cursor left intact
  rw [same]
  exact refuses between leftBetween intactBetween

theorem Takes.bind_refuses (first : Takes reader bytes rest value)
    (second : Refuses (next' value) rest) : Refuses (reader >>= next') (bytes ++ rest) :=
  (first.goesOn next').refuses second

theorem Takes.look_refuses (first : Takes reader [] bytes value)
    (second : Refuses (next' value) bytes) : Refuses (reader >>= next') bytes :=
  first.bind_refuses second

theorem Refuses.bind (refuses : Refuses reader bytes) (next' : Value → Reader Other) :
    Refuses (reader >>= next') bytes := by
  intro cursor left intact
  obtain ⟨name, position, after, failed⟩ := refuses cursor left intact
  refine ⟨name, position, after, ?_⟩
  change EStateM.bind reader next' cursor = _
  unfold EStateM.bind
  rw [failed]

theorem Refuses.map (refuses : Refuses reader bytes) (function : Value → Other) :
    Refuses (function <$> reader) bytes := by
  intro cursor left intact
  obtain ⟨name, position, after, failed⟩ := refuses cursor left intact
  refine ⟨name, position, after, ?_⟩
  change EStateM.map function reader cursor = _
  unfold EStateM.map
  rw [failed]

theorem refuses_get_bind {reader : Cursor → Reader Value}
    (each : ∀ cursor, cursor.rest = bytes → Refuses (reader cursor) bytes) :
    Refuses (get >>= reader) bytes :=
  fun cursor left intact => each cursor left cursor left intact

theorem Refuses.placed (refuses : Refuses reader bytes) : Refuses (placed reader) bytes := by
  intro cursor left intact
  obtain ⟨name, position, after, failed⟩ := refuses cursor left intact
  refine ⟨name, position <|> some after.seen, after, ?_⟩
  unfold Reader.placed
  rw [failed]

/-- The end that is looked for after a failure does not change its cause. -/
theorem Refuses.thenEnd (refuses : Refuses reader bytes) (ending : Reader Unit) :
    Refuses (thenEnd reader ending) bytes := by
  intro cursor left intact
  obtain ⟨name, position, after, failed⟩ := refuses cursor left intact
  unfold Reader.thenEnd
  rw [failed]
  dsimp only
  cases ending after with
  | ok value later => exact ⟨name, position, later, rfl⟩
  | error error later => exact ⟨name, position, later, rfl⟩

/-! ## Lists -/

/-- Bytes in which a reader of values meets a field that is repeated, after any white space. -/
structure Rejects (reader : Reader Value) (bytes : List UInt8) : Prop where
  starts : ∃ first more, bytes = first :: more ∧ isBlank first = false ∧ first ≠ 0x5D
  refuses : ∀ {blanks : List UInt8}, AllBlank blanks → Refuses reader (blanks ++ bytes)

theorem Rejects.map (rejects : Rejects reader bytes) (function : Value → Other) :
    Rejects (function <$> reader) bytes where
  starts := rejects.starts
  refuses blank := (rejects.refuses blank).map function

section List

variable {Item : Type} {item : Reader Item}

theorem refuses_items {first : Bool} {values : List Item} {bytes : List UInt8}
    (upTo : UpTo (fun value bytes => Spells item bytes value) (Rejects item) first values bytes) :
    ∀ steps, values.length < steps → Refuses (items item steps first) bytes := by
  induction upTo with
  | here lead rejects =>
      intro steps enough
      obtain ⟨steps, rfl, -⟩ := exists_step enough
      have refuses := rejects.refuses allBlank_nil
      obtain ⟨byte, tail, rfl, token, notEnd⟩ := rejects.starts
      refine (takes_hasItem lead token notEnd tail).bind_refuses ?_
      rw [if_pos rfl]
      exact refuses.bind _
  | after lead spelled later inductionHypothesis =>
      intro steps enough
      obtain ⟨steps, rfl, fewer⟩ := exists_step enough
      rw [← List.append_assoc]
      exact (goesOn_item lead spelled (later.ended) steps).refuses
        ((inductionHypothesis steps fewer).bind _)

/-- A list is refused at an item that is refused. -/
theorem rejects_list {values : List Item} {bytes : List UInt8}
    (upTo : UpTo (fun value bytes => Spells item bytes value) (Rejects item) true values bytes) :
    Rejects (list item) (0x5B :: bytes) where
  starts := ⟨0x5B, bytes, rfl, by decide, by decide⟩
  refuses := by
    intro blanks blank
    refine (takes_valueStart blank (by decide) bytes).bind_refuses (Refuses.placed ?_)
    refine (takes_drop 0x5B bytes).bind_refuses (refuses_get_bind fun cursor left => ?_)
    have few := upTo.length_le fun value bytes spelled => by
      obtain ⟨first, more, rfl, -⟩ := spelled.starts
      simp
    exact (refuses_items upTo _ (by rw [left]; omega)).thenEnd listEnd

end List

/-! ## Records -/

section Record

variable {Record : Type} {fields : List (ReadingField Reader Record)}

/-- A member whose name is that of a field seen before, or whose value is refused. -/
inductive RefusedMember (fields : List (ReadingField Reader Record)) (seen : List String) :
    List UInt8 → Prop where
  | twice {field : ReadingField Reader Record} {name : String} {source rest : List UInt8}
      (listed : fields.find? (·.name == name) = some field) (already : name ∈ seen)
      (named : Transcribes source (Utf8.encode name.toList)) :
      RefusedMember fields seen (0x22 :: (source ++ [0x22] ++ rest))
  | inside {field : ReadingField Reader Record} {name : String}
      {source before after bytes : List UInt8}
      (listed : fields.find? (·.name == name) = some field)
      (named : Transcribes source (Utf8.encode name.toList)) (blankBefore : AllBlank before)
      (blankAfter : AllBlank after) (rejects : Rejects field.read bytes) :
      RefusedMember fields seen (0x22 :: (source ++ [0x22] ++ (before ++ 0x3A :: (after ++ bytes))))

theorem refuses_duplicate (name : String) (bytes : List UInt8) :
    Refuses (failUnplaced (.mismatch (.duplicateField name)) : Reader Value) bytes :=
  fun cursor _ _ => ⟨name, none, cursor, rfl⟩

/-- After the name of a field comes a refusal, unless the field is new and its value is read. -/
theorem refuses_named {first : Bool} {field : ReadingField Reader Record} {seen : List String}
    {name : String} {leading source rest : List UInt8} (lead : Lead first leading)
    (named : Transcribes source (Utf8.encode name.toList))
    (listed : fields.find? (·.name == name) = some field) (steps : Nat) (record : Record)
    (onward : name ∉ seen →
      Refuses (do
        colon
        let set ← field.read
        members fields steps false (name :: seen) (set record)) rest) :
    Refuses (members fields (steps + 1) first seen record)
      (leading ++ 0x22 :: (source ++ [0x22] ++ rest)) := by
  refine (takes_hasMember lead _).bind_refuses ((takes_drop 0x22 _).bind_refuses
    ((takes_textTail named _).bind_refuses ?_))
  rw [listed]
  dsimp only
  cases already : seen.contains name with
  | true => exact refuses_duplicate name rest
  | false => exact onward (by simpa using already)

theorem refuses_member {first : Bool} {seen : List String} {leading bytes : List UInt8}
    (lead : Lead first leading) (refused : RefusedMember fields seen bytes) (steps : Nat)
    (record : Record) :
    Refuses (members fields (steps + 1) first seen record) (leading ++ bytes) := by
  cases refused with
  | twice listed already named =>
      exact refuses_named lead named listed steps record fun unseen => absurd already unseen
  | @inside field name source before after bytes listed named blankBefore blankAfter rejects =>
      refine refuses_named lead named listed steps record fun _ => ?_
      have parts : before ++ 0x3A :: (after ++ bytes) = before ++ [0x3A] ++ (after ++ bytes) := by
        simp
      rw [parts]
      exact (takes_colon blankBefore _).bind_refuses ((rejects.refuses blankAfter).bind _)

theorem refuses_members {goal : List UInt8 → Prop} {first : Bool}
    {given : List (String × (Record → Record))} {bytes : List UInt8} {known : List String}
    (upTo : UpTo (Member fields) goal first given bytes)
    (refused : ∀ {seen bytes}, (∀ name ∈ known, name ∈ seen) → goal bytes →
      RefusedMember fields seen bytes) :
    ∀ steps, given.length < steps → ∀ seen record, (knownNames fields given ++ seen).Nodup →
      (∀ name ∈ known, name ∈ knownNames fields given ++ seen) →
      Refuses (members fields steps first seen record) bytes := by
  -- As for members that are read, each field moves to the names seen.
  induction upTo with
  | here lead reached =>
      intro steps enough seen record _ within
      obtain ⟨steps, rfl, -⟩ := exists_step enough
      exact refuses_member lead (refused within reached) steps record
  | @after first leading bytes others value values lead spelled later inductionHypothesis =>
      intro steps enough seen record distinct within
      obtain ⟨steps, rfl, fewer⟩ := exists_step enough
      obtain ⟨fresh, stillDistinct⟩ := fresh_of_nodup distinct
      rw [← List.append_assoc]
      refine (goesOn_member lead spelled (later.ended) fresh steps record).refuses
        (inductionHypothesis steps fewer _ (value.2 record) stillDistinct fun name isKnown => ?_)
      have somewhere := within name isKnown
      rw [knownNames_cons] at somewhere
      simp only [List.mem_append] at somewhere ⊢
      tauto

/-- A record is refused at a member that is refused. -/
theorem rejects_record (typeName : String) (start : Record) {goal : List UInt8 → Prop}
    {given : List (String × (Record → Record))} {bytes : List UInt8}
    (upTo : UpTo (Member fields) goal true given bytes)
    (refused : ∀ {seen bytes}, (∀ name ∈ knownNames fields given, name ∈ seen) → goal bytes →
      RefusedMember fields seen bytes)
    (distinct : (knownNames fields given).Nodup) :
    Rejects (record typeName start fields) (0x7B :: bytes) where
  starts := ⟨0x7B, bytes, rfl, by decide, by decide⟩
  refuses := by
    intro blanks blank
    refine (takes_valueStart blank (by decide) bytes).bind_refuses (Refuses.placed ?_)
    refine (takes_drop 0x7B bytes).bind_refuses (refuses_get_bind fun cursor left => ?_)
    have few := upTo.length_le fun value bytes spelled => by
      cases spelled
      simp
    exact (refuses_members upTo refused _ (by rw [left]; omega) [] start
      (by rwa [List.append_nil]) (by simp)).thenEnd objectEnd

end Record

end FaultDrill.Json.Reader
