import Mathlib.Data.List.Forall2
import FaultDrill.Proofs.Document
import FaultDrill.Proofs.Toml.Number
import FaultDrill.Proofs.Toml.Text
import FaultDrill.Toml.Decoder

/-!
Values of TOML are read from what is written for them, and parts of a document from items.

Owns:
- items that hold a value for a reader of documents (`Holds`);
- the items that characters on a line are read as (`Denotes`): texts, counts and lists of these.

Main statements: what is written for a text, a count or a list of texts denotes it
(`denotes_text`, `denotes_count`, `denotes_list`).
-/

namespace FaultDrill.Toml

/-! ## Items -/

namespace TreeReader

variable {Value Other : Type}

/-- A reader finds a value in an item, whatever place it would name. -/
def Holds (reader : TreeReader Value) (value : Value) (item : Item) : Prop :=
  ∀ span, reader ⟨item, span⟩ = .ok value

theorem Holds.map {reader : TreeReader Value} {value : Value} {item : Item}
    (holds : Holds reader value item) (function : Value → Other) :
    Holds (function <$> reader) (function value) item := by
  intro span
  change function <$> reader ⟨item, span⟩ = _
  rw [holds span]
  rfl

theorem run_read (next : Place → TreeReader Value) (place : Place) :
    (read >>= next) place = next place place :=
  rfl

theorem holds_text (span : Span) (value : List Char) :
    Holds text (String.ofList value) (.text span value) :=
  fun _ => rfl

theorem holds_count (span : Span) (value : UInt32) :
    Holds count value (.integer span value.toNat) := by
  have counted : ∀ whole : Int, countOf? whole = some value →
      Holds count value (.integer span whole) := by
    intro whole isCount place
    unfold count
    rw [run_read]
    dsimp only
    rw [isCount]
    rfl
  exact counted value.toNat (countOf?_toNat value)

theorem holds_list {reader : TreeReader Value} {values : List Value} {item : Item}
    {elements : List Item} (isList : elements? item = some elements)
    (each : List.Forall₂ (Holds reader) values elements) : Holds (list reader) values item := by
  intro span
  have every : (elements.mapM fun element => within element reader) ⟨item, span⟩ = .ok values := by
    clear isList
    induction each with
    | nil => rfl
    | @cons value element values elements holds _ inductionHypothesis =>
        rw [List.mapM_cons]
        change (reader ⟨element, element.span.getD span⟩ >>= fun value =>
          (elements.mapM fun element => within element reader) ⟨item, span⟩ >>= fun values =>
            pure (value :: values)) = _
        rw [holds, inductionHypothesis]
        rfl
  unfold list
  rw [run_read, isList]
  exact every

section Record

variable {Record : Type} {fields : List (ReadingField TreeReader Record)}

/-- An entry sets a field. -/
def Sets (fields : List (ReadingField TreeReader Record)) (entry : Key × Item)
    (change : Record → Record) : Prop :=
  ∃ field, fields.find? (·.name == String.ofList entry.1.name) = some field ∧
    Holds field.read change entry.2

theorem entries_eq {members : List (Key × Item)} {changes : List (Record → Record)}
    (each : List.Forall₂ (Sets fields) members changes) (record : Record) (place : Place) :
    entries fields members record place = .ok (applyAll changes record) := by
  induction each generalizing record with
  | nil => rfl
  | @cons member change members changes sets _ inductionHypothesis =>
      obtain ⟨field, listed, holds⟩ := sets
      obtain ⟨key, item⟩ := member
      unfold entries
      rw [listed]
      change (field.read ⟨item, item.span.getD key.span⟩ >>= fun set =>
        entries fields members (set record) place) = _
      rw [holds]
      exact inductionHypothesis (change record)

theorem holds_record (typeName : String) (blank : Record) {members : List (Key × Item)}
    {changes : List (Record → Record)} (each : List.Forall₂ (Sets fields) members changes)
    (span : Option Span) (role : TableRole) :
    Holds (record typeName blank fields) (applyAll changes blank) (.table span role members) :=
  fun _ => entries_eq each blank _

end Record

end TreeReader

/-! ## Characters on a line -/

open Reader TreeReader

variable {Value : Type}

/-- Characters are read as an item that holds a value, with so many brackets inside one another at
most. They begin neither as white space nor as the end of an array. -/
structure Denotes (reader : TreeReader Value) (depth : Nat) (text : List Char) (value : Value) :
    Prop where
  starts : ∃ first more, text = first :: more ∧ isBlank first = false ∧
    first ∉ ['#', '\n', '\r', ']']
  reads : ∀ {rest : List Char} {steps : Nat}, Ended rest → text.length < steps →
    Reads (Reader.value depth steps) text rest (Holds reader value)

theorem Denotes.map {Other : Type} {reader : TreeReader Value} {depth : Nat} {text : List Char}
    {value : Value} (denotes : Denotes reader depth text value) (function : Value → Other) :
    Denotes (function <$> reader) depth text (function value) where
  starts := denotes.starts
  reads ended enough := (denotes.reads ended enough).mono fun _ holds => holds.map function

theorem denotes_text (depth : Nat) (value : String) :
    Denotes TreeReader.text depth (textLiteral value.toList) value := by
  have noMark : ∀ mark : Char, ([] : List Char).head? ≠ some mark := by simp
  obtain ⟨quote, isMark, first, -⟩ := takes_textLiteral value.toList (noMark '"') (noMark '\'')
  obtain ⟨more, literal⟩ := List.head?_eq_some_iff.mp first
  refine ⟨⟨quote, more, literal, ?_⟩, fun {rest steps} ended enough => ?_⟩
  · rcases isMark with rfl | rfl <;> decide
  obtain ⟨steps, rfl, -⟩ := exists_step enough
  have noDouble : rest.head? ≠ some '"' := ended.head_ne (by decide)
  have noSingle : rest.head? ≠ some '\'' := ended.head_ne (by decide)
  obtain ⟨quote', -, first', takes⟩ := takes_textLiteral value.toList noDouble noSingle
  cases (first.symm.trans first')
  have read : Reads (Reader.text quote) (textLiteral value.toList) rest (· = value.toList) :=
    takes.reads rfl
  have item : Reads (do
      let read ← withSpan (Reader.text quote)
      return .text read.2 read.1) (textLiteral value.toList) rest
        (Holds TreeReader.text value) := by
    refine Reads.bind_done read.withSpan ?_
    rintro ⟨literal, span⟩ rfl
    refine (takes_pure _ rest).reads ?_
    have holds := holds_text span value.toList
    rwa [String.ofList_toList] at holds
  refine reads_rest_bind ?_
  rw [literal] at item ⊢
  rcases isMark with rfl | rfl <;> exact item

theorem denotes_count (depth : Nat) (value : UInt32) :
    Denotes TreeReader.count depth (Nat.toDigits 10 value.toNat) value := by
  have decimal := decimalOf_toDigits value.toNat
  obtain ⟨first, more, digits⟩ := List.exists_cons_of_ne_nil decimal.nonempty
  have isDigit : first.isDigit = true :=
    decimal.isDigit first (digits ▸ List.mem_cons_self)
  have apart : ∀ char : Char, char.isDigit = false → first ≠ char := by
    rintro char notDigit rfl
    rw [isDigit] at notDigit
    cases notDigit
  refine ⟨⟨first, more, digits, ?_, ?_⟩, fun {rest steps} ended enough => ?_⟩
  · unfold isBlank
    simp [apart ' ' (by decide), apart '\t' (by decide)]
  · simp [apart '#' (by decide), apart '\n' (by decide), apart '\r' (by decide),
      apart ']' (by decide)]
  obtain ⟨steps, rfl, -⟩ := exists_step enough
  have fits : value.toNat < Nat.pow 2 63 := Nat.lt_trans value.toNat_lt (by decide)
  have item : Reads numberItem (Nat.toDigits 10 value.toNat) rest
      (Holds TreeReader.count value) := by
    refine (reads_numberItem decimal ended fits).mono ?_
    rintro _ ⟨span, rfl⟩
    exact holds_count span value
  refine reads_rest_bind ?_
  rw [digits] at item ⊢
  have isNumber : (first == '+' || first == '-' || first.isDigit) = true := by
    rw [isDigit, Bool.or_true]
  rw [List.cons_append]
  split
  case h_9 =>
    next same =>
      rw [List.cons.injEq] at same
      obtain ⟨rfl, -⟩ := same
      exact Takes.bind_look_reads (takes_require isNumber _) item
  case h_10 =>
    next same => cases same
  all_goals
    next same =>
      rw [List.cons.injEq] at same
      exact absurd same.1 (apart _ (by decide))

/-! ## Lists -/

theorem separated_singleton (separator text : List Char) :
    Written.separated separator [text] = text := by
  change text ++ [].flatMap (separator ++ ·) = text
  rw [List.flatMap_nil, List.append_nil]

theorem separated_cons_cons (separator first second : List Char) (texts : List (List Char)) :
    Written.separated separator (first :: second :: texts) =
      first ++ (separator ++ Written.separated separator (second :: texts)) := by
  change first ++ (second :: texts).flatMap (separator ++ ·) = _
  rw [List.flatMap_cons, List.append_assoc]
  rfl

section Lists

variable {reader : TreeReader Value} {depth : Nat}

theorem Denotes.takes_allSpaces {text : List Char} {value : Value}
    (denotes : Denotes reader depth text value) {lead : List Char}
    (blank : ∀ char ∈ lead, isBlank char = true) (rest : List Char) :
    Takes allSpaces lead (text ++ rest) () := by
  obtain ⟨first, more, rfl, unblank, notMark⟩ := denotes.starts
  simp only [List.mem_cons, List.not_mem_nil, or_false, not_or] at notMark
  obtain ⟨noComment, noFeed, noReturn, -⟩ := notMark
  exact Reader.takes_allSpaces lead blank (by simp [Unblank, unblank]) (by simpa using noComment)
    (by simpa using noFeed) (by simpa using noReturn)

/-- The items of an array are read up to its end. -/
theorem reads_arrayItems {values : List Value} {texts : List (List Char)}
    (each : List.Forall₂ (fun value text => Denotes reader depth text value) values texts)
    (rest : List Char) :
    ∀ lead steps, (∀ char ∈ lead, isBlank char = true) →
      (lead ++ (Written.separated [',', ' '] texts ++ [']'])).length < steps →
      Reads (arrayItems depth steps) (lead ++ (Written.separated [',', ' '] texts ++ [']'])) rest
        (List.Forall₂ (Holds reader) values) := by
  induction each with
  | nil =>
      intro lead steps blank enough
      obtain ⟨steps, rfl, -⟩ := exists_step enough
      have spaces : Takes allSpaces lead ([']'] ++ rest) () :=
        Reader.takes_allSpaces lead blank rfl (by simp) (by simp) (by simp)
      refine Takes.bind_reads spaces ?_
      exact (Takes.bind_done (takes_tryTake [']'] rest) (takes_pure [] rest)).reads .nil
  | @cons value text values texts denotes others inductionHypothesis =>
      intro lead steps blank enough
      obtain ⟨steps, rfl, fewer⟩ := exists_step enough
      obtain ⟨first, more, start, -, notMark⟩ := denotes.starts
      have notEnd : ∀ after, (text ++ after ++ rest).head? ≠ some ']' := by
        intro after
        rw [start, List.cons_append, List.cons_append, List.head?_cons, ne_eq, Option.some.injEq]
        exact fun same => notMark (by simp [same])
      have spaces : ∀ after, Takes allSpaces lead (text ++ after ++ rest) () := by
        intro after
        rw [List.append_assoc]
        exact denotes.takes_allSpaces blank (after ++ rest)
      cases others with
      | nil =>
          rw [separated_singleton] at fewer ⊢
          have ended : Ended (']' :: rest) := ended_cons (by decide) rest
          refine Takes.bind_reads (spaces _) ?_
          refine Takes.bind_look_reads (takes_tryTake_head (notEnd _)) ?_
          refine Reads.bind (denotes.reads ended (by simp at fewer; omega)) fun item holds => ?_
          refine Takes.bind_look_reads
            (Reader.takes_allSpaces [] (by simp) rfl (by simp) (by simp) (by simp)) ?_
          refine Takes.bind_look_reads (takes_tryTake_head (by simp)) ?_
          rw [if_neg Bool.false_ne_true]
          exact (Takes.bind_done (takes_char ']' rest) (takes_pure [item] rest)).reads
            (.cons holds .nil)
      | @cons second secondText values texts denotesSecond others =>
          have parts :
              lead ++ (Written.separated [',', ' '] (text :: secondText :: texts) ++ [']']) =
              lead ++ (text ++ ([','] ++ ([' '] ++
                (Written.separated [',', ' '] (secondText :: texts) ++ [']'])))) := by
            rw [separated_cons_cons]
            simp
          rw [parts] at fewer ⊢
          have ended : ∀ after, Ended ([','] ++ after) := fun after => ended_cons (by decide) after
          have later := inductionHypothesis [' '] steps (by simp [isBlank])
            (by simp at fewer ⊢; omega)
          refine Takes.bind_reads (spaces _) ?_
          refine Takes.bind_look_reads (takes_tryTake_head (notEnd _)) ?_
          refine Reads.bind (denotes.reads (ended _) (by simp at fewer; omega)) fun item holds => ?_
          refine Takes.bind_look_reads
            (Reader.takes_allSpaces [] (by simp) rfl (by simp) (by simp) (by simp)) ?_
          refine Takes.bind_reads (takes_tryTake [','] _) ?_
          rw [if_pos rfl]
          refine Reads.bind_done later ?_
          exact fun items hold => (takes_pure _ rest).reads (.cons holds hold)

/-- A list on a line is read from its items. -/
theorem denotes_list {values : List Value} {texts : List (List Char)}
    (each : List.Forall₂ (fun value text => Denotes reader depth text value) values texts) :
    Denotes (TreeReader.list reader) (depth + 1)
      ('[' :: Written.separated [',', ' '] texts ++ [']']) values where
  starts := ⟨'[', _, rfl, by decide, by decide⟩
  reads := by
    intro rest steps ended enough
    obtain ⟨steps, rfl, fewer⟩ := exists_step enough
    have items := reads_arrayItems each rest [] steps (by simp) (by simp at fewer ⊢; omega)
    have array : Reads (do
        skip 1
        arrayItems depth steps) ('[' :: Written.separated [',', ' '] texts ++ [']']) rest
          (List.Forall₂ (Holds reader) values) :=
      Takes.bind_cons_reads (takes_skip ['['] _) items
    refine reads_rest_bind (Takes.bind_look_reads (takes_require rfl _) ?_)
    refine Reads.bind_done array.withSpan ?_
    rintro ⟨items, span⟩ hold
    exact (takes_pure _ rest).reads (holds_list rfl hold)

end Lists

end FaultDrill.Toml
