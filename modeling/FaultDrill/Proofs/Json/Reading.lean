import FaultDrill.Json.Reader
import FaultDrill.Proofs.Document

/-!
What the readers of JSON take from the bytes that are left.

Owns: readers that take certain bytes and succeed, put together as the readers themselves are.

A reader takes some bytes only in view of what follows: the readers of numbers and of white space
go on for as long as they can. So the bytes that are left over are part of the statement, and
places play no role in it.
-/

namespace FaultDrill.Json.Reader

/-- Bytes that are white space. -/
def AllBlank (bytes : List UInt8) : Prop := ∀ byte ∈ bytes, isBlank byte = true

theorem AllBlank.append {first second : List UInt8} (one : AllBlank first)
    (two : AllBlank second) : AllBlank (first ++ second) := by
  intro byte member
  rcases List.mem_append.mp member with inFirst | inSecond
  · exact one byte inFirst
  · exact two byte inSecond

theorem allBlank_nil : AllBlank [] := fun _ member => by cases member

theorem allBlank_singleton {byte : UInt8} (blank : isBlank byte = true) : AllBlank [byte] := by
  intro other member
  rwa [List.mem_singleton.mp member]

/-- A reader takes some bytes, leaves the rest and returns a value, wherever it starts and as long
as the source does not fail. -/
def Takes {Value : Type} (reader : Reader Value) (bytes rest : List UInt8) (value : Value) :
    Prop :=
  ∀ cursor : Cursor, cursor.rest = bytes ++ rest → cursor.failure = none →
    ∃ after, reader cursor = .ok value after ∧ after.rest = rest ∧ after.failure = none

variable {Value Other : Type} {reader : Reader Value} {next' : Value → Reader Other}
  {bytes more rest : List UInt8} {value : Value} {other : Other}

/-! ## Combinations -/

theorem takes_pure (value : Value) (rest : List UInt8) :
    Takes (pure value) [] rest value :=
  fun cursor left intact => ⟨cursor, rfl, left, intact⟩

/-- After taking some bytes, a reader does what another does from there on. -/
def GoesOn (reader onward : Reader Value) (bytes rest : List UInt8) : Prop :=
  ∀ cursor : Cursor, cursor.rest = bytes ++ rest → cursor.failure = none →
    ∃ after : Cursor, after.rest = rest ∧ after.failure = none ∧ reader cursor = onward after

theorem Takes.goesOn (first : Takes reader bytes rest value) (next' : Value → Reader Other) :
    GoesOn (reader >>= next') (next' value) bytes rest := by
  intro cursor left intact
  obtain ⟨after, ran, leftAfter, intactAfter⟩ := first cursor left intact
  refine ⟨after, leftAfter, intactAfter, ?_⟩
  change EStateM.bind reader next' cursor = _
  unfold EStateM.bind
  rw [ran]

theorem GoesOn.trans {onward further : Reader Value}
    (first : GoesOn reader onward bytes (more ++ rest)) (second : GoesOn onward further more rest) :
    GoesOn reader further (bytes ++ more) rest := by
  intro cursor left intact
  rw [List.append_assoc] at left
  obtain ⟨between, leftBetween, intactBetween, same⟩ := first cursor left intact
  obtain ⟨after, leftAfter, intactAfter, sameAfter⟩ := second between leftBetween intactBetween
  exact ⟨after, leftAfter, intactAfter, same.trans sameAfter⟩

theorem GoesOn.takes {onward : Reader Value} (goesOn : GoesOn reader onward bytes (more ++ rest))
    (takes : Takes onward more rest value) : Takes reader (bytes ++ more) rest value := by
  intro cursor left intact
  rw [List.append_assoc] at left
  obtain ⟨between, leftBetween, intactBetween, same⟩ := goesOn cursor left intact
  obtain ⟨after, ran, leftAfter, intactAfter⟩ := takes between leftBetween intactBetween
  exact ⟨after, same.trans ran, leftAfter, intactAfter⟩

theorem Takes.bind (first : Takes reader bytes (more ++ rest) value)
    (second : Takes (next' value) more rest other) :
    Takes (reader >>= next') (bytes ++ more) rest other :=
  (first.goesOn next').takes second

theorem Takes.bind_goesOn {onward : Reader Other} (first : Takes reader bytes (more ++ rest) value)
    (second : GoesOn (next' value) onward more rest) :
    GoesOn (reader >>= next') onward (bytes ++ more) rest :=
  (first.goesOn next').trans second

theorem Takes.bind_byte {byte : UInt8} (first : Takes reader [byte] (more ++ rest) value)
    (second : Takes (next' value) more rest other) :
    Takes (reader >>= next') (byte :: more) rest other :=
  first.bind second

/-- A reader that looks first leaves everything to the reader after it. -/
theorem Takes.bind_look (first : Takes reader [] (bytes ++ rest) value)
    (second : Takes (next' value) bytes rest other) :
    Takes (reader >>= next') bytes rest other :=
  first.bind second

/-- A reader may be followed by one that only looks. -/
theorem Takes.bind_done (first : Takes reader bytes rest value)
    (second : Takes (next' value) [] rest other) :
    Takes (reader >>= next') bytes rest other := by
  rw [← List.append_nil bytes]
  exact Takes.bind first second

theorem Takes.map (first : Takes reader bytes rest value) (function : Value → Other) :
    Takes (function <$> reader) bytes rest (function value) := by
  intro cursor left intact
  obtain ⟨after, ran, leftAfter, intactAfter⟩ := first cursor left intact
  refine ⟨after, ?_, leftAfter, intactAfter⟩
  change EStateM.map function reader cursor = _
  unfold EStateM.map
  rw [ran]

/-- A reader may depend on what is left. -/
theorem takes_get_bind {reader : Cursor → Reader Value}
    (each : ∀ cursor, cursor.rest = bytes ++ rest → cursor.failure = none →
      Takes (reader cursor) bytes rest value) :
    Takes (get >>= reader) bytes rest value :=
  fun cursor left intact => each cursor left intact cursor left intact

theorem takes_set (cursor : Cursor) (bytes : List UInt8) (intact : cursor.failure = none) :
    Takes (set cursor) bytes cursor.rest () :=
  fun _ _ _ => ⟨cursor, rfl, rfl, intact⟩

theorem Takes.placed (takes : Takes reader bytes rest value) :
    Takes (placed reader) bytes rest value := by
  intro cursor left intact
  obtain ⟨after, ran, leftAfter, intactAfter⟩ := takes cursor left intact
  refine ⟨after, ?_, leftAfter, intactAfter⟩
  unfold Reader.placed
  rw [ran]

/-! ## Single bytes -/

theorem takes_peek (byte : UInt8) (rest : List UInt8) :
    Takes peek [] (byte :: rest) (some byte) := by
  intro cursor left intact
  refine ⟨{ cursor with looked := true }, ?_, left, intact⟩
  unfold peek
  rw [left]
  rfl

theorem takes_peek_end : Takes peek [] [] none := by
  intro cursor left intact
  refine ⟨cursor, ?_, left, intact⟩
  unfold peek
  rw [left, intact]
  rfl

theorem takes_peek_head (rest : List UInt8) : Takes peek [] rest rest.head? := by
  cases rest with
  | nil => exact takes_peek_end
  | cons byte rest => exact takes_peek byte rest

theorem takes_drop (byte : UInt8) (rest : List UInt8) : Takes drop [byte] rest () := by
  intro cursor left intact
  refine ⟨{ cursor with rest, taken := cursor.taken.after byte, looked := false }, ?_, rfl,
    intact⟩
  unfold drop
  rw [left]
  rfl

theorem takes_next (byte : UInt8) (rest : List UInt8) : Takes next [byte] rest (some byte) :=
  Takes.bind_look (takes_peek byte rest)
    (Takes.bind_done (takes_drop byte rest) (takes_pure (some byte) rest))

theorem takes_nextIs (class' : UInt8 → Bool) (byte : UInt8) (rest : List UInt8) :
    Takes (nextIs class') [] (byte :: rest) (class' byte) :=
  Takes.bind_look (takes_peek byte rest) (takes_pure (class' byte) _)

theorem takes_nextIs_not {class' : UInt8 → Bool} (none : rest.head?.all (!class' ·) = true) :
    Takes (nextIs class') [] rest false := by
  refine Takes.bind_look (takes_peek_head rest) ?_
  cases rest with
  | nil => exact takes_pure false []
  | cons byte rest =>
      have out : class' byte = false := by simpa using none
      rw [← out]
      exact takes_pure (class' byte) (byte :: rest)

/-! ## Runs of bytes -/

/-- A run ends where a byte outside its class comes, or the end. -/
theorem takes_takeWhile {class' : UInt8 → Bool} (run : List UInt8)
    (inside : ∀ byte ∈ run, class' byte = true) (ends : rest.head?.all (!class' ·) = true) :
    Takes (takeWhile class') run rest run := by
  have ended : rest.takeWhile class' = [] ∧ rest.dropWhile class' = rest := by
    cases rest with
    | nil => exact ⟨rfl, rfl⟩
    | cons byte rest =>
        have out : class' byte = false := by simpa using ends
        simp [out]
  refine takes_get_bind fun cursor left intact => ?_
  have took : cursor.rest.takeWhile class' = run := by
    rw [left, List.takeWhile_append_of_pos inside, ended.1, List.append_nil]
  have leaves : cursor.rest.dropWhile class' = rest := by
    rw [left, List.dropWhile_append_of_pos inside, ended.2]
  dsimp only
  rw [took, leaves]
  have moved := takes_set { cursor with
    rest
    taken := run.foldl Position.after cursor.taken
    looked := cursor.looked && run.isEmpty } run intact
  exact Takes.bind_done moved (Takes.bind_look (takes_peek_head rest) (takes_pure run rest))

theorem takes_peekToken {blanks : List UInt8} (blank : AllBlank blanks) {byte : UInt8}
    (token : isBlank byte = false) (rest : List UInt8) :
    Takes peekToken blanks (byte :: rest) (some byte) := by
  have ends : (byte :: rest).head?.all (!isBlank ·) = true := by simp [token]
  exact Takes.bind_done (takes_takeWhile blanks blank ends) (takes_peek byte rest)

theorem takes_peekToken_end {blanks : List UInt8} (blank : AllBlank blanks) :
    Takes peekToken blanks [] none := by
  exact Takes.bind_done (takes_takeWhile blanks blank rfl) takes_peek_end

end FaultDrill.Json.Reader
