import FaultDrill.Proofs.Yaml.BlockTokens
import FaultDrill.Proofs.Yaml.JsonLiteral

/-!
The tokens of entries whose names and values come from elsewhere.

Owns:
- values that are JSON literals or paths, each up to the next line;
- entries with any name, whose value stands on the same line or on the next ones;
- items of a sequence that stands further right than its key.

Such a text may be refused: names may be too long for keys, and literals may hold a line that
starts or ends a document.

Main statements: a literal is one scalar unless it is refused (`Begins.leads_literal`), and a name
is a key unless it is too long (`Between.leads_entry`).
-/

namespace FaultDrill.Yaml

namespace Lexing

variable {lexer : Lexer} {position column open' : Nat} {outer : List Nat} {rest : List Char}
  {keyAllowed : Bool} {given : List Lexeme}

/-- A JSON literal is one scalar, with the text of the literal if no white space in it is folded. -/
theorem Begins.leads_literal {chars : List Char}
    (begins : Begins lexer
      (At · position ('"' :: literalTail ('\n' :: (padding column ++ rest)) chars) (open' :: outer)
        keyAllowed given))
    (inner : open' < position) (clear : Clear rest) :
    Leads lexer (Unfolded chars) fun after => ∃ text, (text = chars ↔ Unfolded chars) ∧
      Between after column rest (open' :: outer) (given ++ [.scalar .other text]) := by
  refine begins.leads fun ready at' => ⟨_, _, at'.rest, ?_⟩
  have right : 0 < ready.cursor.mark.column := by
    rw [at'.column]
    exact Nat.lt_of_le_of_lt (Nat.zero_le _) inner
  have reads := reads_literal ('\n' :: (padding column ++ rest)) chars ready.cursor.mark
  rw [← at'.cursor] at reads
  rw [token_double right]
  cases ran : Scan.quoted false ready.cursor with
  | none =>
      rw [ran] at reads
      have refused : (do return Lexeme.scalar .other (← Scan.quoted false) : Scan Lexeme)
          ready.cursor = none := run_bind_refused ran
      exact .inr ⟨run_keyStart_refused at'.possibleKey at'.outerKeys refused, reads⟩
  | some found =>
      obtain ⟨text, cursor⟩ := found
      rw [ran] at reads
      obtain ⟨left, onLine, -, same⟩ := reads
      have scanned : (do return Lexeme.scalar .other (← Scan.quoted false) : Scan Lexeme)
          ready.cursor = some (.scalar .other text, cursor) := run_bind ran
      have head : ready.columns.head? ≠ some position := by
        rw [at'.columns]
        exact ne_of_inner inner outer
      refine .inl ⟨_, run_keyStart at'.possibleKey at'.outerKeys scanned, ?_, text, same,
        Past.between_line ⟨at'.columns, at'.outerKeys, ?_, fun key member => ?_⟩ left clear⟩
      · simp only [left, at'.rest, literalTail, List.length_append, List.length_cons]
        omega
      · rw [List.map_cons, at'.lexemes, List.reverse_append]
        rfl
      · obtain ⟨notRequired, keyLine⟩ := noted_inner at'.column head key member
        exact ⟨notRequired, by rw [keyLine]; exact Nat.lt_succ_of_le onLine⟩

/-- The characters of a path of names. -/
def isPathPart (char : Char) : Bool := isNamePart char || char == '/'

/-- A path that begins in the present directory is one scalar without quotes. -/
theorem Begins.reaches_path {path : List Char}
    (begins : Begins lexer (At · position ('.' :: '/' :: path ++ '\n' :: (padding column ++ rest))
      (open' :: outer) keyAllowed given))
    (inner : open' < position) (left : column ≤ open') (clear : Clear rest)
    (isPath : ∀ char ∈ path, isPathPart char = true) :
    Reaches lexer (Between · column rest (open' :: outer)
      (given ++ [.scalar .plain ('.' :: '/' :: path)])) := by
  have visible : ∀ char ∈ '.' :: '/' :: path, isGap char = false ∧ char ≠ ':' := by
    have part : ∀ char, isPathPart char = true → isGap char = false ∧ char ≠ ':' := by
      intro char isPart
      unfold isPathPart at isPart
      rw [Bool.or_eq_true, beq_iff_eq] at isPart
      rcases isPart with isName | rfl
      · exact ⟨notGap_of_isNamePart isName, ne_of_isNamePart isName rfl⟩
      · decide
    simp only [List.forall_mem_cons]
    exact ⟨by decide, by decide, fun char member => part char (isPath char member)⟩
  have noIndicator : startsWithIndicator ('.' :: '/' :: path) = false := by
    simp [startsWithIndicator, String.contains_char_eq]
  exact begins.reaches_plain inner left clear rfl noIndicator (List.append_nil _).symm
    (word_of_visible visible _) .nil

/-! ## Entries -/

/-- The tokens of the key of an entry, whose name may be left out. -/
def nameLexemes (name : List Char) : List Lexeme :=
  if name = [] then [.value] else [.key, .scalar .plain name, .value]

theorem entered_head (column : Nat) (columns : List Nat) :
    (entered column columns).1.head? = some column := by
  unfold entered
  split
  · next isOpen => exact isOpen
  · rfl

section Entries

variable {columns : List Nat} {name : List Char}

/-- The value of an entry begins on the next line. -/
theorem Between.leads_entry {inner : Nat}
    (between : Between lexer column (name ++ ':' :: '\n' :: (padding inner ++ rest)) columns given)
    (left : ∀ open' ∈ columns.head?, open' ≤ column)
    (isName : ∀ char ∈ name, isNamePart char = true) (right : name = [] → 0 < column)
    (clear : Clear rest) :
    Leads lexer (name.length ≤ Lexer.longestKey) fun after =>
      name.length ≤ Lexer.longestKey ∧
        Between after inner rest (entered column columns).1
          (given ++ (entered column columns).2 ++ nameLexemes name) := by
  have begins := between.begins left
  by_cases nonempty : name = []
  · subst nonempty
    refine ((begins.reaches_colon (right rfl) left rfl).trans fun after at' => ?_).leads _
    exact .here ⟨Nat.zero_le _, (at'.past _).between_line at'.rest clear⟩
  · refine (begins.leads_key nonempty isName rfl left).mono id ?_
    rintro after ⟨short, position, -, at'⟩
    have ended := (at'.past _).between_line at'.rest clear
    unfold nameLexemes
    rw [if_neg nonempty]
    exact ⟨short, ended⟩

/-- The value of an entry stands on the same line. -/
theorem Between.leads_inline
    (between : Between lexer column (name ++ ':' :: ' ' :: rest) columns given)
    (left : ∀ open' ∈ columns.head?, open' ≤ column) (nonempty : name ≠ [])
    (isName : ∀ char ∈ name, isNamePart char = true) (clear : Clear rest) :
    Leads lexer (name.length ≤ Lexer.longestKey) fun after => ∃ position, column < position ∧
      Begins after (At · position rest (entered column columns).1 false
        (given ++ (entered column columns).2 ++ nameLexemes name)) := by
  refine ((between.begins left).leads_key nonempty isName rfl left).mono id ?_
  rintro after ⟨-, position, right, at'⟩
  have spaces : At after position (padding 1 ++ rest) (entered column columns).1 false
      (given ++ (entered column columns).2 ++ nameLexemes name) := by
    unfold nameLexemes
    rwa [if_neg nonempty]
  refine ⟨position + 1, Nat.lt_succ_of_lt right, spaces.begins clear ?_⟩
  rw [entered_head]
  rintro open' isHead
  rw [← Option.mem_some_iff.mp isHead]
  exact Nat.le_succ_of_le (Nat.le_of_lt right)

/-- The only item of a sequence is a name. -/
theorem Between.reaches_item {below : Nat}
    (between : Between lexer column ('-' :: ' ' :: (name ++ '\n' :: (padding below ++ rest)))
      columns given)
    (inner : ∀ open' ∈ columns.head?, open' < column) (nonempty : name ≠ [])
    (isName : ∀ char ∈ name, isNamePart char = true) (left : below < column) (clear : Clear rest) :
    Reaches lexer (Between · below rest columns
      (given ++ [.blockSequence, .dash, .scalar .plain name, .blockEnd])) := by
  have begins := between.begins fun open' isHead => Nat.le_of_lt (inner open' isHead)
  refine (begins.reaches_firstDash inner rfl).trans fun after at' => ?_
  have spaces : At after (column + 1) (padding 1 ++ (name ++ '\n' :: (padding below ++ rest)))
      (column :: columns) true (given ++ [.blockSequence] ++ [.dash]) := at'
  obtain ⟨char, name, rfl⟩ := List.exists_cons_of_ne_nil nonempty
  have isPart := isName char List.mem_cons_self
  have here := spaces.begins (clear_of_isNamePart isPart _) (by simp; omega)
  have reached := here.reaches_plain (by omega) (Nat.le_of_lt left) clear
    (notGap_of_isNamePart isPart) (noIndicator_of_isNamePart isPart name)
    (List.append_nil _).symm (word_of_isNamePart isName _) .nil
  refine reached.trans fun after between => .here ?_
  simpa using between.outer left

end Entries

end Lexing

end FaultDrill.Yaml
