import FaultDrill.Proofs.Format
import FaultDrill.Proofs.Text.Utf8
import FaultDrill.Proofs.Yaml.BlockTokens
import FaultDrill.Proofs.Yaml.Decoder
import FaultDrill.Proofs.Yaml.Node

/-!
Documents that are written as YAML are read back.

Owns:
- the tokens of what is written for values, entries and items;
- the links between writing, tokens, trees and reading.

Main statement: what any writer without limits accepts for a document is read as this document
(`encode_yaml_decode`).
-/

namespace FaultDrill.Yaml

open Lexing Parsing

/-! ## Values -/

/-- What is written for a value after its key or its dash, in a block at a column, consists of some
tokens, wherever on a line it begins that is a place of some kind. -/
structure Tokens (place : Nat → Prop) (column : Nat) (keyAllowed : Bool) (text : List Char)
    (lexemes : List Lexeme) : Prop where
  gap : startsIn isGap text = true
  allowed : AllAllowed text
  reaches : ∀ below rest, below ≤ column → Clear rest →
    ∀ position, place position → ∀ outer lexer given,
      At lexer position (text ++ (padding below ++ rest)) (column :: outer) keyAllowed given →
      Reaches lexer (Between · below rest (column :: outer) (given ++ lexemes))

theorem Tokens.nonempty {place : Nat → Prop} {column : Nat} {keyAllowed : Bool} {text : List Char}
    {lexemes : List Lexeme} (tokens : Tokens place column keyAllowed text lexemes) : text ≠ [] := by
  rintro rfl
  cases tokens.gap

/-- Tokens of what is written for a value after its key make a tree that holds the value. -/
def WritesValue : Link Reader Written := fun _ reader write value =>
  ∀ column, ∃ lexemes, Tokens (column < ·) column false (write (some column)) lexemes ∧
    Denotes [.key, .value, .blockEnd] true lexemes (Holds reader value)

/-- Tokens of what is written for an item after its dash make a tree that holds the item. -/
def WritesItem : Link Reader Written := fun _ reader write value =>
  ∀ column, ∃ lexemes, Tokens (· = column + 1) column true (write (some column)) lexemes ∧
    Denotes [.dash, .key, .value, .blockEnd] false lexemes (Holds reader value)

theorem maps_writesValue : Maps WritesValue := by
  intro Value Other function reader write value writes column
  obtain ⟨lexemes, tokens, denotes⟩ := writes column
  exact ⟨lexemes, tokens, denotes.mono fun node holds => holds.map function⟩

/-! ## Scalars -/

theorem tokens_text (text : String) (column : Nat) (keyAllowed : Bool) {place : Nat → Prop}
    (inner : ∀ position, place position → column < position) :
    Tokens place column keyAllowed (writing.text text (some column))
      [.scalar (styleFound (styleOf text.toList)) text.toList] where
  gap := rfl
  allowed := allAllowed_cons rfl (scalarText_allowed _ _)
  reaches := by
    intro below rest left clear position isPlace outer lexer given at'
    have right := inner position isPlace
    have spaces : At lexer position
        (padding 1 ++ (scalarText (column + 2) text.toList ++ (padding below ++ rest)))
        (column :: outer) keyAllowed given := at'
    have begins := spaces.begins (clear_scalarText _ _ _) (by simp; omega)
    exact begins.reaches_text (Nat.lt_succ_of_lt right) left clear

theorem denotes_text (missing : List Lexeme) (dashes : Bool) (style : ScalarStyle) (text : String)
    (present : .scalar style text.toList ∉ missing) :
    Denotes missing dashes [.scalar style text.toList] (Holds Reader.text text) := by
  refine (denotes_scalar missing dashes style text.toList present).mono fun node isScalar => ?_
  have held := holds_text isScalar
  rwa [String.ofList_toList] at held

theorem writes_text (text : String) : WritesValue String Reader.text (writing.text text) text :=
  fun column => ⟨_, tokens_text text column false fun _ right => right,
    denotes_text _ _ _ text (by simp)⟩

theorem writes_item_text (text : String) :
    WritesItem String Reader.text (writing.text text) text :=
  fun column => ⟨_, tokens_text text column true fun _ right => by omega,
    denotes_text _ _ _ text (by simp)⟩

theorem writes_count (count : UInt32) :
    WritesValue UInt32 Reader.count (writing.count count) count := by
  intro column
  refine ⟨[.scalar .plain (Nat.toDigits 10 count.toNat)], ⟨rfl, ?_, ?_⟩,
    (denotes_scalar _ _ _ _ (by simp)).mono fun node isScalar => holds_count isScalar⟩
  · refine allAllowed_cons rfl (allAllowed_append (fun char member => ?_)
      (by simp [AllAllowed, isAllowed]))
    exact isAllowed_of_isNamePart (isNamePart_toDigits _ char member)
  · intro below rest left clear position right outer lexer given at'
    have spaces : At lexer position
        (padding 1 ++ (Nat.toDigits 10 count.toNat ++ '\n' :: (padding below ++ rest)))
        (column :: outer) false given := by
      have text : writing.count count (some column) ++ (padding below ++ rest) =
          padding 1 ++ (Nat.toDigits 10 count.toNat ++ '\n' :: (padding below ++ rest)) := by
        simp [writing, Outer.gap, padding]
      rwa [← text]
    have clear' : Clear (Nat.toDigits 10 count.toNat ++ '\n' :: (padding below ++ rest)) := by
      have isName := isNamePart_toDigits count.toNat
      obtain ⟨char, text, digits⟩ :=
        List.exists_cons_of_ne_nil (Nat.toDigits_ne_nil (b := 10) (n := count.toNat))
      rw [digits] at isName ⊢
      exact clear_of_isNamePart (isName char List.mem_cons_self) _
    have begins := spaces.begins clear' (by simp; omega)
    exact begins.reaches_count (Nat.lt_succ_of_lt right) left clear

/-! ## Lines -/

/-- Lines of a block at a column consist of some tokens. -/
structure LinesOf (column : Nat) (text : List Char) (lexemes : List Lexeme) : Prop where
  allowed : AllAllowed text
  reaches : ∀ below rest, below ≤ column → Clear rest → ∃ here left, here ≤ column ∧ Clear left ∧
    text ++ (padding below ++ rest) = padding here ++ left ∧
    ∀ outer lexer given, Between lexer here left (column :: outer) given →
      Reaches lexer (Between · below rest (column :: outer) (given ++ lexemes))

theorem linesOf_nil (column : Nat) : LinesOf column [] [] where
  allowed := by simp [AllAllowed]
  reaches := by
    intro below rest left clear
    refine ⟨below, rest, left, clear, rfl, fun outer lexer given between => ?_⟩
    rw [List.append_nil]
    exact .here between

theorem LinesOf.append {column : Nat} {text more : List Char} {lexemes others : List Lexeme}
    (first : LinesOf column text lexemes) (second : LinesOf column more others) :
    LinesOf column (text ++ more) (lexemes ++ others) where
  allowed := allAllowed_append first.allowed second.allowed
  reaches := by
    intro below rest left clear
    obtain ⟨middle, following, leftMiddle, clearMiddle, same, reachesOn⟩ :=
      second.reaches below rest left clear
    obtain ⟨here, start, leftHere, clearHere, same', reaches⟩ :=
      first.reaches middle following leftMiddle clearMiddle
    refine ⟨here, start, leftHere, clearHere, ?_, fun outer lexer given between => ?_⟩
    · rw [List.append_assoc, same, same']
    · refine (reaches outer lexer given between).trans fun after betweenHere => ?_
      rw [← List.append_assoc]
      exact reachesOn outer after _ betweenHere

/-! ## Lists -/

/-- An item stands on lines that begin with a dash. -/
theorem Tokens.item {column : Nat} {text : List Char} {lexemes : List Lexeme}
    (tokens : Tokens (· = column + 1) column true text lexemes) :
    LinesOf column (padding column ++ '-' :: text) (.dash :: lexemes) where
  allowed := allAllowed_append (allAllowed_padding column) (allAllowed_cons rfl tokens.allowed)
  reaches := by
    intro below rest left clear
    refine ⟨column, '-' :: (text ++ (padding below ++ rest)), Nat.le_refl _, rfl, by simp,
      fun outer lexer given between => ?_⟩
    have gap : startsIn isGap (text ++ (padding below ++ rest)) = true := by
      rw [startsIn_append tokens.nonempty]
      exact tokens.gap
    refine ((between.begins (by simp)).reaches_dash gap).trans fun after at' => ?_
    have reached := tokens.reaches below rest left clear _ rfl outer after _ at'
    rwa [List.append_assoc] at reached

theorem exists_items {Item : Type} {item : Reader Item} {write : Item → Written}
    (writes : ∀ given, WritesItem Item item (write given) given) (items : List Item)
    (column : Nat) :
    ∃ lexemes, LinesOf column (writeItems column (items.map write)) lexemes ∧
      (items ≠ [] → ∃ later, lexemes = .dash :: later) ∧
      DenotesItems lexemes (List.Forall₂ (Holds item) items) := by
  induction items with
  | nil =>
      refine ⟨[], linesOf_nil column, fun nonempty => absurd rfl nonempty, fun steps enough => ?_⟩
      refine (denotesItems_nil steps enough).mono ?_
      rintro _ rfl
      exact .nil
  | cons given items inductionHypothesis =>
      obtain ⟨others, lines, -, denotesOthers⟩ := inductionHypothesis
      obtain ⟨lexemes, tokens, denotes⟩ := writes given column
      refine ⟨.dash :: lexemes ++ others, tokens.item.append lines, fun _ => ⟨_, rfl⟩,
        fun steps enough => ?_⟩
      refine (DenotesItems.cons denotes denotesOthers steps enough).mono ?_
      rintro _ ⟨node, rest, rfl, holds, hold⟩
      exact .cons holds hold

theorem tokens_empty (column : Nat) :
    Tokens (column < ·) column false (writing.list [] (some column)) [.listOpen, .listClose] where
  gap := rfl
  allowed := by simp [AllAllowed, writing, Outer.gap, isAllowed]
  reaches := by
    intro below rest left clear position right outer lexer given at'
    have spaces : At lexer position
        (padding 1 ++ '[' :: ']' :: '\n' :: (padding below ++ rest)) (column :: outer) false
        given := at'
    have begins := spaces.begins rfl (by simp; omega)
    exact begins.reaches_empty (Nat.succ_pos _) clear

theorem tokens_lines {column : Nat} {text : List Char} {lexemes : List Lexeme}
    (lines : LinesOf column text lexemes) :
    Tokens (column < ·) column false ('\n' :: text) lexemes where
  gap := rfl
  allowed := allAllowed_cons rfl lines.allowed
  reaches := by
    intro below rest left clear position right outer lexer given at'
    obtain ⟨here, start, leftHere, clearHere, same, reaches⟩ := lines.reaches below rest left clear
    have onNext : lexer.cursor.rest = '\n' :: (padding here ++ start) := by
      rw [at'.rest, ← same]
      rfl
    exact reaches outer lexer given ((at'.past _).between_line onNext clearHere)

/-- A list is written in brackets if it is empty, else on lines of items. -/
theorem writes_list {Item : Type} {item : Reader Item} {write : Item → Written}
    (writes : ∀ given, WritesItem Item item (write given) given) (items : List Item) :
    WritesValue (List Item) (Reader.list item) (writing.list (items.map write)) items := by
  intro column
  cases items with
  | nil =>
      refine ⟨_, tokens_empty column, (denotes_empty _ true (by simp)).mono ?_⟩
      rintro node ⟨mark, rfl⟩
      exact holds_list ⟨mark, [], rfl, .nil⟩
  | cons first items =>
      obtain ⟨lexemes, lines, begins, denotes⟩ := exists_items writes (first :: items) column
      obtain ⟨later, rfl⟩ := begins (List.cons_ne_nil _ _)
      exact ⟨_, tokens_lines lines, denotes.denotes.mono fun node isList => holds_list isList⟩

/-! ## Records -/

theorem isName_of_mem (name : String) (named : name ∈ fieldNames) :
    name.toList ≠ [] ∧ (∀ char ∈ name.toList, isNamePart char = true) ∧
      name.toList.length ≤ Lexer.longestKey := by
  have checked : ∀ name ∈ fieldNames, name.toList ≠ [] ∧ name.toList.all isNamePart = true ∧
      name.toList.length ≤ Lexer.longestKey := by decide
  obtain ⟨nonempty, isName, short⟩ := checked name named
  exact ⟨nonempty, List.all_eq_true.mp isName, short⟩

theorem clear_name {name : String} (named : name ∈ fieldNames) (rest : List Char) :
    Clear (name.toList ++ rest) := by
  obtain ⟨nonempty, isName, -⟩ := isName_of_mem name named
  obtain ⟨char, others, same⟩ := List.exists_cons_of_ne_nil nonempty
  rw [same] at isName ⊢
  exact clear_of_isNamePart (isName char List.mem_cons_self) _

theorem allAllowed_entry {name : String} (named : name ∈ fieldNames) {text : List Char}
    (allowed : AllAllowed text) : AllAllowed (name.toList ++ ':' :: text) :=
  allAllowed_append
    (fun char member => isAllowed_of_isNamePart ((isName_of_mem name named).2.1 char member))
    (allAllowed_cons rfl allowed)

/-- The tokens of the key of an entry. -/
def keyLexemes (name : String) : List Lexeme :=
  [.key, .scalar .plain name.toList, .value]

/-- An entry is a key with the tokens of its value, and may open the mapping of this entry. -/
theorem Tokens.reaches_entry {column : Nat} {text : List Char} {lexemes : List Lexeme}
    (tokens : Tokens (column < ·) column false text lexemes) {name : String}
    (named : name ∈ fieldNames) {below : Nat} {rest : List Char} (left : below ≤ column)
    (clear : Clear rest) {lexer : Lexer} {columns outer : List Nat} {given : List Lexeme}
    (begins : Begins lexer (At · column
      (name.toList ++ ':' :: (text ++ (padding below ++ rest))) columns true given))
    (heads : ∀ open' ∈ columns.head?, open' ≤ column)
    (opens : (entered column columns).1 = column :: outer) :
    Reaches lexer (Between · below rest (column :: outer)
      (given ++ (entered column columns).2 ++ (keyLexemes name ++ lexemes))) := by
  obtain ⟨nonempty, isName, short⟩ := isName_of_mem name named
  have ends : atWordEnd (text ++ (padding below ++ rest)) = true := by
    obtain ⟨char, others, rfl⟩ := List.exists_cons_of_ne_nil tokens.nonempty
    exact tokens.gap
  refine (begins.reaches_key nonempty isName short ends heads).trans ?_
  rintro after ⟨position, right, at'⟩
  rw [opens] at at'
  have reached := tokens.reaches below rest left clear position right outer after _ at'
  rw [← List.append_assoc]
  exact reached

theorem Tokens.entry {column : Nat} {write : Written} {lexemes : List Lexeme}
    (tokens : Tokens (column < ·) column false (write (some column)) lexemes) {name : String}
    (named : name ∈ fieldNames) :
    LinesOf column (padding column ++ writeEntry column (name, write))
      (keyLexemes name ++ lexemes) where
  allowed := allAllowed_append (allAllowed_padding column) (allAllowed_entry named tokens.allowed)
  reaches := by
    intro below rest left clear
    refine ⟨column, name.toList ++ ':' :: (write (some column) ++ (padding below ++ rest)),
      Nat.le_refl _, clear_name named _, by simp [writeEntry], fun outer lexer given between => ?_⟩
    have isOpen : entered column (column :: outer) = (column :: outer, []) := if_pos rfl
    have reached := tokens.reaches_entry named left clear (between.begins (by simp)) (by simp)
      (by rw [isOpen])
    rwa [isOpen, List.append_nil] at reached

theorem denotes_entry {Record : Type} {all : List (ReadingField Reader Record)}
    {field : ReadingField Reader Record} {change : Record → Record} {lexemes others : List Lexeme}
    {names : List String} {changes : List (Record → Record)}
    (found : all.find? (·.name == field.name) = some field)
    (denotes : Denotes [.key, .value, .blockEnd] true lexemes (Holds field.read change))
    (denotesOthers : DenotesEntries others (Entries all · names changes)) :
    DenotesEntries (keyLexemes field.name ++ lexemes ++ others)
      (Entries all · (field.name :: names) (change :: changes)) := by
  refine (DenotesEntries.cons field.name.toList denotes denotesOthers).mono ?_
  rintro _ ⟨mark, node, rest, rfl, holds, sets⟩
  exact .cons found holds sets

theorem exists_entries {Record : Type} {all fields : List (ReadingField Reader Record)}
    {outputs : List (String × Written)} {changes : List (Record → Record)}
    (writes : WritesFields WritesValue fields outputs changes)
    (found : ∀ field ∈ fields, all.find? (·.name == field.name) = some field)
    (named : ∀ field ∈ fields, field.name ∈ fieldNames) (column : Nat) :
    ∃ lexemes,
      LinesOf column (outputs.flatMap fun entry => padding column ++ writeEntry column entry)
        lexemes ∧
      DenotesEntries (lexemes ++ [.blockEnd]) (Entries all · (fields.map (·.name)) changes) := by
  induction writes with
  | nil =>
      refine ⟨[], linesOf_nil column, denotesEntries_nil.mono ?_⟩
      rintro _ rfl
      exact .nil
  | @cons field write change fields outputs changes writes _ inductionHypothesis =>
      obtain ⟨others, lines, denotesOthers⟩ := inductionHypothesis
        (fun field member => found field (List.mem_cons_of_mem _ member))
        (fun field member => named field (List.mem_cons_of_mem _ member))
      obtain ⟨lexemes, tokens, denotes⟩ := writes column
      have isNamed := named field List.mem_cons_self
      refine ⟨keyLexemes field.name ++ lexemes ++ others, (tokens.entry isNamed).append lines, ?_⟩
      rw [List.append_assoc]
      exact denotes_entry (found field List.mem_cons_self) denotes denotesOthers

/-- The entries of a record open a mapping at a column right of the blocks around it. -/
structure BlockOf (column : Nat) (text : List Char) (lexemes : List Lexeme) : Prop where
  allowed : AllAllowed text
  clear : ∀ rest, Clear (text ++ rest)
  reaches : ∀ below rest, below ≤ column → Clear rest →
    ∀ lexer outer given, (∀ open' ∈ outer.head?, open' < column) →
      Begins lexer (At · column (text ++ (padding below ++ rest)) outer true given) →
      Reaches lexer (Between · below rest (column :: outer) (given ++ .blockMapping :: lexemes))

theorem exists_block {Record : Type} {all fields : List (ReadingField Reader Record)}
    {outputs : List (String × Written)} {changes : List (Record → Record)}
    (writes : WritesFields WritesValue fields outputs changes) (nonempty : fields ≠ [])
    (found : ∀ field ∈ fields, all.find? (·.name == field.name) = some field)
    (named : ∀ field ∈ fields, field.name ∈ fieldNames) (column : Nat) :
    ∃ lexemes, BlockOf column (writeEntries column outputs) lexemes ∧
      DenotesEntries (lexemes ++ [.blockEnd]) (Entries all · (fields.map (·.name)) changes) := by
  cases writes with
  | nil => exact absurd rfl nonempty
  | @cons field write change fields outputs changes writes writesOthers =>
      obtain ⟨others, lines, denotesOthers⟩ := exists_entries writesOthers
        (fun field member => found field (List.mem_cons_of_mem _ member))
        (fun field member => named field (List.mem_cons_of_mem _ member)) column
      obtain ⟨lexemes, tokens, denotes⟩ := writes column
      have isNamed := named field List.mem_cons_self
      have text : writeEntries column ((field.name, write) :: outputs) =
          field.name.toList ++ ':' :: (write (some column) ++
            outputs.flatMap fun entry => padding column ++ writeEntry column entry) := by
        simp [writeEntries, writeEntry]
      rw [text]
      refine ⟨keyLexemes field.name ++ lexemes ++ others, ⟨?_, fun rest => ?_, ?_⟩, ?_⟩
      · exact allAllowed_entry isNamed (allAllowed_append tokens.allowed lines.allowed)
      · rw [List.append_assoc]
        exact clear_name isNamed _
      · intro below rest left clear lexer outer given heads begins
        obtain ⟨here, start, leftHere, clearHere, same, reachesOn⟩ :=
          lines.reaches below rest left clear
        have notOpen : entered column outer = (column :: outer, [.blockMapping]) :=
          if_neg fun isHead => Nat.lt_irrefl _ (heads column isHead)
        simp only [List.append_assoc, List.cons_append, same] at begins
        have first := tokens.reaches_entry isNamed leftHere clearHere begins
          (fun open' isHead => Nat.le_of_lt (heads open' isHead)) (by rw [notOpen])
        rw [notOpen] at first
        refine first.trans fun after between => ?_
        have reached := reachesOn outer after _ between
        simpa only [List.append_assoc, List.cons_append, List.nil_append] using reached
      · rw [List.append_assoc]
        exact denotes_entry (found field List.mem_cons_self) denotes denotesOthers

/-- A record after its dash is a mapping two columns further right. -/
theorem writes_record : LinksRecords Reader.reading writing WritesValue WritesItem := by
  intro Record typeName blank fields outputs changes writes nonempty distinct named column
  obtain ⟨lexemes, block, denotes⟩ := exists_block writes nonempty
    (fun field member => find?_name distinct member) named (column + 2)
  refine ⟨.blockMapping :: (lexemes ++ [.blockEnd]), ⟨rfl, ?_, ?_⟩,
    (denotes.denotes _ false (by simp)).mono fun node isMapping =>
      holds_record typeName blank distinct isMapping⟩
  · exact allAllowed_cons rfl block.allowed
  · rintro below rest left clear position rfl outer lexer given at'
    have spaces : At lexer (column + 1)
        (padding 1 ++ (writeEntries (column + 2) outputs ++ (padding below ++ rest)))
        (column :: outer) true given := at'
    have begins := spaces.begins (block.clear _) (by simp; omega)
    refine (block.reaches below rest (Nat.le_add_right_of_le left) clear lexer (column :: outer)
      given (by simp) begins).trans fun after between => ?_
    have ended := between.outer (Nat.lt_add_right 1 (Nat.lt_succ_of_le left))
    simp only [List.append_assoc, List.cons_append] at ended
    exact .here ended

theorem linked : Linked Reader.reading writing WritesValue WritesItem where
  maps := maps_writesValue
  text := writes_text
  count := writes_count
  texts := writes_list writes_item_text
  record := writes_record

/-! ## Documents -/

/-- A whole text is one mapping, whose tree holds the value. -/
def WritesText : Link Reader Written := fun _ reader write value =>
  ∃ lexemes, BlockOf 0 (write none) lexemes ∧
    Denotes [] false (.blockMapping :: (lexemes ++ [.blockEnd])) (Holds reader value)

theorem writes_text_record : LinksRecords Reader.reading writing WritesValue WritesText := by
  intro Record typeName blank fields outputs changes writes nonempty distinct named
  obtain ⟨lexemes, block, denotes⟩ := exists_block writes nonempty
    (fun field member => find?_name distinct member) named 0
  exact ⟨lexemes, block, (denotes.denotes [] false (by simp)).mono fun node isMapping =>
    holds_record typeName blank distinct isMapping⟩

theorem writes_document (document : Document) :
    WritesText Document Reader.reading.document (writing.document document) document :=
  linked.document writes_text_record writes_list document

/-- The tokens of a text that is one mapping. -/
theorem BlockOf.scan {text : List Char} {lexemes : List Lexeme} (block : BlockOf 0 text lexemes) :
    ∃ tokens, Token.scan text = some tokens ∧
      tokens.map Token.lexeme = .blockMapping :: (lexemes ++ [.blockEnd]) ++ [.textEnd] := by
  have start : At { cursor := { rest := text } } 0 (padding 0 ++ text) [] true [] :=
    ⟨rfl, rfl, rfl, rfl, rfl, rfl, rfl⟩
  have clear := block.clear []
  rw [List.append_nil] at clear
  have begins := start.begins clear (by simp)
  have whole : text = text ++ (padding 0 ++ []) := by simp [padding]
  rw [whole] at begins
  have reaches := block.reaches 0 [] (Nat.le_refl 0) rfl _ [] [] (by simp) begins
  obtain ⟨fewer, after, enough, between, same⟩ := reaches (text.length + 1) (by simp [padding])
  obtain ⟨final, ended, isText⟩ := (between.begins (by simp)).tokens_end enough
  rw [← whole] at same
  refine ⟨final.reversed.reverse, ?_, by rw [isText]; simp⟩
  unfold Token.scan
  rw [if_pos (List.all_eq_true.mpr block.allowed), same, ended]

/-- What is written for a document is read as this document. -/
theorem decode_bytes (document : Document) :
    Format.yaml.decode (Format.yaml.bytes document) none = .ok document := by
  obtain ⟨lexemes, block, denotes⟩ := writes_document document
  obtain ⟨tokens, scanned, isText⟩ := block.scan
  obtain ⟨node, stream, parsed, holds⟩ := denotes.document isText
  have bytes : Format.yaml.bytes document = Text.Utf8.encode (writing.document document none) := by
    unfold Format.bytes Format.sections
    simp only [List.map_cons, List.map_nil, List.flatten_cons, List.flatten_nil, List.append_nil,
      encode, String.toList_ofList]
  have tree : Node.ofText? (writing.document document none) = some (some node) := by
    unfold Node.ofText?
    rw [scanned]
    change (Parsing.document { tokens }).bind _ = _
    rw [parsed]
    rfl
  have read : documentOf node = .ok document := by
    have held := holds [] node.anchored.reverse (repetitionFactor * node.size) 0
    unfold documentOf
    dsimp only
    rw [held]
    rfl
  unfold Format.decode Yaml.decode
  dsimp only
  rw [bytes, Text.Utf8.decode?_encode]
  dsimp only [Option.bind_some]
  rw [tree]
  dsimp only
  rw [read]
  rfl

/-- A document that is written as YAML is read back. -/
theorem encode_yaml_decode (document : Document) (refusals : Refusals) :
    ∃ writer, Format.yaml.encode document {} refusals = (.ok (), writer) ∧
      writer.accepted = Format.yaml.bytes document ∧
      Format.yaml.decode writer.accepted none = .ok document :=
  Format.exists_writer (decode_bytes document) refusals

end FaultDrill.Yaml
