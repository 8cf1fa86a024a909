import FaultDrill.Proofs.Document
import FaultDrill.Toml.Reader

/-!
What the readers of TOML take from the characters that are left.

Owns: readers that take certain characters and succeed, and readers that refuse, put together as
the readers themselves are.

As a rule a reader goes on for as long as it can, so the characters that are left over are part of
the statement. Values hold the places where they were read; where these matter, only a property of
the value is stated (`Reads`), else the value itself (`Takes`).
-/

namespace FaultDrill.Toml.Reader

variable {Value Other : Type}

/-- A reader takes some characters, leaves the rest and returns a value with a property, wherever
it starts. -/
def Reads (reader : Reader Value) (text rest : List Char) (meets : Value → Prop) : Prop :=
  ∀ position, ∃ value after,
    reader ⟨text ++ rest, position⟩ = some (value, ⟨rest, after⟩) ∧ meets value

/-- A reader takes some characters, leaves the rest and returns a certain value. -/
def Takes (reader : Reader Value) (text rest : List Char) (value : Value) : Prop :=
  ∀ position, ∃ after, reader ⟨text ++ rest, position⟩ = some (value, ⟨rest, after⟩)

/-- A reader fails, wherever it starts. -/
def Refuses (reader : Reader Value) (text : List Char) : Prop :=
  ∀ position, reader ⟨text, position⟩ = none

variable {reader : Reader Value} {next : Value → Reader Other} {text more rest : List Char}
  {value : Value} {other : Other} {meets : Value → Prop} {meetsOther : Other → Prop}

/-! ## Combinations -/

theorem Takes.reads (takes : Takes reader text rest value) (holds : meets value) :
    Reads reader text rest meets := by
  intro position
  obtain ⟨after, ran⟩ := takes position
  exact ⟨value, after, ran, holds⟩

theorem takes_pure (value : Value) (rest : List Char) : Takes (pure value) [] rest value :=
  fun position => ⟨position, rfl⟩

theorem Reads.mono (reads : Reads reader text rest meets) {weaker : Value → Prop}
    (implies : ∀ value, meets value → weaker value) : Reads reader text rest weaker := by
  intro position
  obtain ⟨value, after, ran, holds⟩ := reads position
  exact ⟨value, after, ran, implies value holds⟩

theorem Reads.bind (first : Reads reader text (more ++ rest) meets)
    (second : ∀ value, meets value → Reads (next value) more rest meetsOther) :
    Reads (reader >>= next) (text ++ more) rest meetsOther := by
  intro position
  obtain ⟨value, between, ran, holds⟩ := first position
  obtain ⟨other, after, ranOn, holdsOther⟩ := second value holds between
  refine ⟨other, after, ?_, holdsOther⟩
  rw [List.append_assoc]
  exact (run_bind ran).trans ranOn

theorem Takes.bind_reads (first : Takes reader text (more ++ rest) value)
    (second : Reads (next value) more rest meetsOther) :
    Reads (reader >>= next) (text ++ more) rest meetsOther :=
  (first.reads rfl : Reads reader text (more ++ rest) (· = value)).bind
    fun _ same => same ▸ second

theorem Takes.bind (first : Takes reader text (more ++ rest) value)
    (second : Takes (next value) more rest other) :
    Takes (reader >>= next) (text ++ more) rest other := by
  intro position
  obtain ⟨between, ran⟩ := first position
  obtain ⟨after, ranOn⟩ := second between
  refine ⟨after, ?_⟩
  rw [List.append_assoc]
  exact (run_bind ran).trans ranOn

/-- A reader of a single character goes before another. -/
theorem Takes.bind_cons {char : Char} (first : Takes reader [char] (more ++ rest) value)
    (second : Takes (next value) more rest other) :
    Takes (reader >>= next) (char :: more) rest other :=
  first.bind second

theorem Takes.bind_cons_reads {char : Char} (first : Takes reader [char] (more ++ rest) value)
    (second : Reads (next value) more rest meetsOther) :
    Reads (reader >>= next) (char :: more) rest meetsOther :=
  first.bind_reads second

/-- A reader that takes nothing leaves everything to the reader after it. -/
theorem Takes.bind_look (first : Takes reader [] (text ++ rest) value)
    (second : Takes (next value) text rest other) : Takes (reader >>= next) text rest other :=
  first.bind second

theorem Takes.bind_look_reads (first : Takes reader [] (text ++ rest) value)
    (second : Reads (next value) text rest meetsOther) :
    Reads (reader >>= next) text rest meetsOther :=
  first.bind_reads second

/-- A reader may be followed by one that takes nothing. -/
theorem Takes.bind_done (first : Takes reader text rest value)
    (second : Takes (next value) [] rest other) : Takes (reader >>= next) text rest other := by
  rw [← List.append_nil text]
  exact Takes.bind first second

theorem Reads.bind_done (first : Reads reader text rest meets)
    (second : ∀ value, meets value → Reads (next value) [] rest meetsOther) :
    Reads (reader >>= next) text rest meetsOther := by
  rw [← List.append_nil text]
  exact Reads.bind first second

theorem Refuses.bind (refuses : Refuses reader text) : Refuses (reader >>= next) text := by
  intro position
  exact run_bind_refused (refuses position)

theorem Takes.bind_refuses (first : Takes reader text more value)
    (second : Refuses (next value) more) : Refuses (reader >>= next) (text ++ more) := by
  intro position
  obtain ⟨between, ran⟩ := first position
  exact (run_bind ran).trans (second between)

theorem Takes.bind_look_refuses (first : Takes reader [] more value)
    (second : Refuses (next value) more) : Refuses (reader >>= next) more :=
  first.bind_refuses second

/-- Where one reader fails, another may be tried from the same place. -/
theorem Refuses.orElse {second : Unit → Reader Value} (refuses : Refuses reader (text ++ rest))
    (reads : Reads (second ()) text rest meets) :
    Reads (HOrElse.hOrElse reader second) text rest meets := by
  intro position
  obtain ⟨value, after, ran, holds⟩ := reads position
  refine ⟨value, after, ?_, holds⟩
  change (reader ⟨text ++ rest, position⟩ <|> second () ⟨text ++ rest, position⟩) = _
  rw [refuses position]
  exact ran

theorem Refuses.orElse_refuses {second : Unit → Reader Value} (refuses : Refuses reader text)
    (refusesToo : Refuses (second ()) text) : Refuses (HOrElse.hOrElse reader second) text := by
  intro position
  change (reader ⟨text, position⟩ <|> second () ⟨text, position⟩) = _
  rw [refuses position]
  exact refusesToo position

theorem refuses_failure (text : List Char) : Refuses (failure : Reader Value) text :=
  fun _ => rfl

/-! ## Looking -/

theorem takes_rest (rest : List Char) : Takes Reader.rest [] rest rest :=
  fun position => ⟨position, rfl⟩

/-- What a reader does may depend on the characters that are left. -/
theorem takes_rest_bind {next : List Char → Reader Other}
    (second : Takes (next (text ++ rest)) text rest other) :
    Takes (Reader.rest >>= next) text rest other :=
  Takes.bind_look (takes_rest _) second

theorem reads_rest_bind {next : List Char → Reader Other}
    (second : Reads (next (text ++ rest)) text rest meetsOther) :
    Reads (Reader.rest >>= next) text rest meetsOther :=
  Takes.bind_look_reads (takes_rest _) second

theorem takes_require {condition : Bool} (holds : condition = true) (rest : List Char) :
    Takes (require condition) [] rest () := by
  rw [holds]
  exact takes_pure () rest

theorem refuses_require {condition : Bool} (fails : condition = false) (text : List Char) :
    Refuses (require condition) text := by
  rw [fails]
  exact refuses_failure text

/-! ## Taking -/

theorem takes_skip (text rest : List Char) : Takes (skip text.length) text rest () :=
  fun position => ⟨position + text.length, by
    change some ((), Cursor.mk ((text ++ rest).drop text.length) _) = _
    rw [List.drop_left]⟩

theorem takes_one {class' : Char → Bool} {char : Char} (inside : class' char = true)
    (rest : List Char) : Takes (one class') [char] rest char :=
  takes_rest_bind <| Takes.bind_look (takes_require inside _) <|
    Takes.bind_done (takes_skip [char] rest) (takes_pure char rest)

theorem refuses_one {class' : Char → Bool} {text : List Char}
    (none : text.head?.all (!class' ·) = true) : Refuses (one class') text := by
  refine Takes.bind_look_refuses (takes_rest text) ?_
  cases text with
  | nil => exact refuses_failure []
  | cons char text =>
      have out : class' char = false := by simpa using none
      exact Refuses.bind (refuses_require out _)

theorem takes_char (char : Char) (rest : List Char) : Takes (Reader.char char) [char] rest () :=
  Takes.bind_done (takes_one (beq_self_eq_true char) rest) (takes_pure () rest)

theorem refuses_char {char : Char} {text : List Char} (other : text.head? ≠ some char) :
    Refuses (Reader.char char) text := by
  refine Refuses.bind (refuses_one ?_)
  cases text with
  | nil => rfl
  | cons first text =>
      have different : first ≠ char := fun same => other (by rw [same, List.head?_cons])
      simp [different]

theorem takes_tryTake (text rest : List Char) : Takes (tryTake text) text rest true := by
  refine takes_rest_bind ?_
  rw [if_pos (List.isPrefixOf_iff_prefix.mpr (List.prefix_append text rest))]
  exact Takes.bind_done (takes_skip text rest) (takes_pure true rest)

theorem takes_tryTake_not {wanted rest : List Char} (apart : ¬ wanted <+: rest) :
    Takes (tryTake wanted) [] rest false := by
  refine takes_rest_bind ?_
  rw [List.nil_append, if_neg (mt List.isPrefixOf_iff_prefix.mp apart)]
  exact takes_pure false rest

/-- Fixed characters do not stand where another than the first of them stands. -/
theorem takes_tryTake_head {first : Char} {wanted : List Char}
    (other : rest.head? ≠ some first) : Takes (tryTake (first :: wanted)) [] rest false := by
  refine takes_tryTake_not fun stands => ?_
  obtain ⟨more, rfl⟩ := stands
  exact other rfl

/-- A run ends where a character outside its class comes, or the end. -/
theorem takes_takeWhile {class' : Char → Bool} (run : List Char)
    (inside : ∀ char ∈ run, class' char = true) (ends : rest.head?.all (!class' ·) = true) :
    Takes (takeWhile class') run rest run := by
  have ended : rest.takeWhile class' = [] := by
    cases rest with
    | nil => rfl
    | cons char rest =>
        have out : class' char = false := by simpa using ends
        simp [out]
  have took : (run ++ rest).takeWhile class' = run := by
    rw [List.takeWhile_append_of_pos inside, ended, List.append_nil]
  refine takes_rest_bind ?_
  rw [took]
  exact Takes.bind_done (takes_skip run rest) (takes_pure run rest)

/-! ## White space -/

/-- The next character, if there is one, is no white space of the line. -/
def Unblank (rest : List Char) : Prop := rest.head?.all (!isBlank ·) = true

theorem takes_blanks (run : List Char) (blank : ∀ char ∈ run, isBlank char = true)
    (ends : Unblank rest) : Takes blanks run rest () :=
  Takes.bind_done (takes_takeWhile run blank ends) (takes_pure () rest)

theorem takes_blanks_none (ends : Unblank rest) : Takes blanks [] rest () :=
  takes_blanks [] (by simp) ends

theorem takes_blank (ends : Unblank rest) : Takes blanks [' '] rest () :=
  takes_blanks [' '] (by simp [isBlank]) ends

theorem takes_lineBreak (rest : List Char) : Takes lineBreak? ['\n'] rest true :=
  Takes.bind_done (takes_tryTake ['\n'] rest) (takes_pure true rest)

theorem takes_lineBreak_not (noFeed : rest.head? ≠ some '\n') (noReturn : rest.head? ≠ some '\r') :
    Takes lineBreak? [] rest false :=
  Takes.bind_look (takes_tryTake_head noFeed) (takes_tryTake_head noReturn)

theorem takes_comment_none (other : rest.head? ≠ some '#') : Takes comment [] rest () :=
  Takes.bind_look (takes_tryTake_head other) (takes_pure () rest)

/-- The end of a line. -/
theorem takes_lineEnd (rest : List Char) : Takes lineEnd ['\n'] rest () := by
  refine Takes.bind_look (takes_blanks_none rfl) (Takes.bind_look (takes_comment_none (by simp)) ?_)
  exact Takes.bind_done (takes_lineBreak rest) (takes_pure () rest)

/-- Blanks before something that is no white space. -/
theorem takes_allSpaces (run : List Char) (blank : ∀ char ∈ run, isBlank char = true)
    (unblank : Unblank rest) (noComment : rest.head? ≠ some '#') (noFeed : rest.head? ≠ some '\n')
    (noReturn : rest.head? ≠ some '\r') : Takes allSpaces run rest () := by
  refine takes_rest_bind ?_
  unfold spaces
  refine Takes.bind_done (takes_blanks run blank unblank) ?_
  refine Takes.bind_look (takes_comment_none noComment) ?_
  exact Takes.bind_look (takes_lineBreak_not noFeed noReturn) (takes_pure () rest)

/-! ## Places -/

theorem Reads.withSpan (reads : Reads reader text rest meets) :
    Reads (withSpan reader) text rest fun result => meets result.1 := by
  intro position
  obtain ⟨value, after, ran, holds⟩ := reads position
  refine ⟨(value, ⟨position, after⟩), after, ?_, holds⟩
  exact (run_bind rfl).trans ((run_bind ran).trans rfl)

theorem Refuses.withSpan (refuses : Refuses reader text) : Refuses (withSpan reader) text := by
  intro position
  exact (run_bind rfl).trans (run_bind_refused (refuses position))

end FaultDrill.Toml.Reader
