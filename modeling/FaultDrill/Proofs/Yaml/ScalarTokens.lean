import FaultDrill.Proofs.Numeral.Digits
import FaultDrill.Proofs.Yaml.Block
import FaultDrill.Proofs.Yaml.Lexer
import FaultDrill.Proofs.Yaml.Plain
import FaultDrill.Proofs.Yaml.ScalarText

/-!
A scalar of a document is one token.

Owns:
- the keys that tokens may begin, and which step a character leads to;
- scalars in every style, up to the next line;
- the characters of names and counts.

Main statements: a text up to the end of its last line is one scalar (`Begins.reaches_text`), and
so is a count (`Begins.reaches_count`).
-/

namespace FaultDrill.Yaml

namespace Lexing

section Steps

variable {lexer : Lexer}

/-- The key that may begin in a state. -/
def noted (lexer : Lexer) : Option PossibleKey :=
  if lexer.keyAllowed then
    some {
      required := lexer.columns.head? == some lexer.cursor.mark.column
      position := lexer.reversed.length
      mark := lexer.cursor.mark }
  else none

theorem run_noteKey (noKey : lexer.possibleKey = none) (noBrackets : lexer.outerKeys = []) :
    noteKey lexer = some ((), { lexer with possibleKey := noted lexer }) := by
  have dropped : dropKey lexer = some ((), { lexer with possibleKey := none }) := by
    unfold dropKey
    refine (run_bind rfl).trans ?_
    rw [noKey]
    rfl
  refine (run_bind rfl).trans ?_
  dsimp only
  rw [inBrackets_eq noBrackets]
  unfold noted
  by_cases allowed : lexer.keyAllowed = true
  · rw [if_pos allowed, if_pos allowed]
    exact (run_bind dropped).trans rfl
  · rw [if_neg allowed, if_neg allowed, ← noKey]
    rfl

theorem noted_inner {column : Nat} (here : lexer.cursor.mark.column = column)
    (inner : lexer.columns.head? ≠ some column) :
    ∀ key ∈ noted lexer, key.required = false ∧ key.mark.line = lexer.cursor.mark.line := by
  intro key member
  unfold noted at member
  split at member
  · obtain rfl := Option.mem_some_iff.mp member
    exact ⟨by rw [here]; simpa using inner, rfl⟩
  · cases member

theorem run_keyStart {scan : Scan Lexeme} {lexeme : Lexeme} {cursor : Cursor}
    (noKey : lexer.possibleKey = none) (noBrackets : lexer.outerKeys = [])
    (ran : scan lexer.cursor = some (lexeme, cursor)) :
    keyStart scan lexer =
      some ((), { lexer with
        cursor
        possibleKey := noted lexer
        keyAllowed := false
        reversed := ⟨lexer.cursor.mark, lexeme⟩ :: lexer.reversed }) := by
  unfold keyStart
  refine (run_bind (run_noteKey noKey noBrackets)).trans ?_
  refine (run_bind rfl).trans ?_
  refine (run_bind rfl).trans ?_
  have taken := @run_read _ scan
    { lexer with possibleKey := noted lexer, keyAllowed := false } _ _ ran
  exact (run_bind taken).trans rfl

theorem run_keyStart_refused {scan : Scan Lexeme} (noKey : lexer.possibleKey = none)
    (noBrackets : lexer.outerKeys = []) (refused : scan lexer.cursor = none) :
    keyStart scan lexer = none := by
  unfold keyStart
  refine (run_bind (run_noteKey noKey noBrackets)).trans ?_
  refine (run_bind rfl).trans ?_
  refine (run_bind rfl).trans ?_
  exact run_bind_refused (run_read_refused refused)

theorem run_plain {text : List Char} {passedLine : Bool} {cursor : Cursor}
    (noKey : lexer.possibleKey = none) (noBrackets : lexer.outerKeys = [])
    (ran : Scan.plain false lexer.leastColumn lexer.cursor = some ((text, passedLine), cursor)) :
    plain lexer =
      some ((), { lexer with
        cursor
        possibleKey := noted lexer
        keyAllowed := passedLine
        reversed := ⟨lexer.cursor.mark, .scalar .plain text⟩ :: lexer.reversed }) := by
  unfold plain
  refine (run_bind (run_noteKey noKey noBrackets)).trans ?_
  refine (run_bind rfl).trans ?_
  have outside : Lexer.inBrackets { lexer with possibleKey := noted lexer } = false :=
    inBrackets_eq noBrackets
  rw [outside]
  have taken := @run_read _ (Scan.plain false lexer.leastColumn)
    { lexer with possibleKey := noted lexer } _ _ ran
  exact (run_bind taken).trans rfl

theorem run_dropKey (noKey : lexer.possibleKey = none) : dropKey lexer = some ((), lexer) := by
  unfold dropKey
  refine (run_bind rfl).trans ?_
  rw [noKey]
  refine (run_bind rfl).trans ?_
  rw [← noKey]
  rfl

theorem run_block {text : List Char} {cursor : Cursor} (noKey : lexer.possibleKey = none)
    (ran : Scan.block false lexer.leastColumn lexer.cursor = some (text, cursor)) :
    block false lexer =
      some ((), { lexer with
        cursor
        keyAllowed := true
        reversed := ⟨lexer.cursor.mark, .scalar .literal text⟩ :: lexer.reversed }) := by
  unfold block
  refine (run_bind (run_dropKey noKey)).trans ?_
  refine (run_bind rfl).trans ?_
  refine (run_bind rfl).trans ?_
  have taken := @run_read _ (Scan.block false lexer.leastColumn)
    { lexer with keyAllowed := true } _ _ ran
  exact (run_bind taken).trans rfl

/-! ## Scalars -/

theorem notMarker_right {cursor : Cursor} (right : 0 < cursor.mark.column) :
    cursor.startsWithTriple '-' = false ∧ cursor.startsWithTriple '.' = false := by
  have notFirst : (cursor.mark.column == 0) = false := by simpa using Nat.ne_of_gt right
  simp [Cursor.startsWithTriple, notFirst]

theorem token_plain {char : Char} {rest : List Char}
    (noMarker : lexer.cursor.startsWithTriple '-' = false ∧
      lexer.cursor.startsWithTriple '.' = false)
    (noBrackets : lexer.outerKeys = []) (visible : isGap char = false)
    (begins : startsWithIndicator (char :: rest) = false) :
    token char rest lexer = plain lexer := by
  have parts : (char ∉ "#,[]\x7b\x7d&*!|>'\"%@\x60".toList) ∧
      (char = '?' ∨ char = ':' ∨ char = '-' → atWordEnd rest = false) := by
    simpa [startsWithIndicator, String.contains_char_eq, or_assoc] using begins
  obtain ⟨notIndicator, notAlone⟩ := parts
  have mayBegin : char = '-' ∨ char = '?' ∨ char = ':' ∨ !(isReserved char || isGap char) := by
    by_cases inside : char = '-' ∨ char = '?' ∨ char = ':'
    · exact inside.imp_right (.imp_right .inl)
    · simp_all [isReserved, String.contains_char_eq]
  have notDash : ¬ (char = '-' ∧ atWordEnd rest = true) := fun ⟨same, alone⟩ =>
    Bool.false_ne_true ((notAlone (.inr (.inr same))).symm.trans alone)
  have notKey : ¬ (char = '?' ∧ atWordEnd rest = true) := fun ⟨same, alone⟩ =>
    Bool.false_ne_true ((notAlone (.inl same)).symm.trans alone)
  have notValue : ¬ (char = ':' ∧ atWordEnd rest = true) := fun ⟨same, alone⟩ =>
    Bool.false_ne_true ((notAlone (.inr (.inl same))).symm.trans alone)
  have different : ∀ other ∈ "#,[]\x7b\x7d&*!|>'\"%@\x60".toList, char ≠ other :=
    fun other member same => notIndicator (same ▸ member)
  simp only [String.reduceToList, List.forall_mem_cons] at different
  unfold token
  refine (run_bind rfl).trans ?_
  simp only [noMarker, inBrackets_eq noBrackets, different, notDash, notKey, notValue, mayBegin,
    false_and, if_false, if_true, Bool.false_eq_true, false_or]

theorem token_double {rest : List Char} (right : 0 < lexer.cursor.mark.column) :
    token '"' rest lexer =
      keyStart (return .scalar .other (← Scan.quoted false)) lexer := by
  unfold token
  refine (run_bind rfl).trans ?_
  simp [notMarker_right right]

theorem token_single {rest : List Char} (right : 0 < lexer.cursor.mark.column) :
    token '\'' rest lexer =
      keyStart (return .scalar .other (← Scan.quoted true)) lexer := by
  unfold token
  refine (run_bind rfl).trans ?_
  simp [notMarker_right right]

theorem token_literal (right : 0 < lexer.cursor.mark.column) (noBrackets : lexer.outerKeys = [])
    (rest : List Char) : token '|' rest lexer = block false lexer := by
  unfold token
  refine (run_bind rfl).trans ?_
  simp [notMarker_right right, inBrackets_eq noBrackets]

end Steps

section Scalars

variable {lexer : Lexer} {position column open' : Nat} {outer : List Nat} {rest : List Char}
  {keyAllowed : Bool} {given : List Lexeme}

theorem ne_of_inner {open' position : Nat} (inner : open' < position) (outer : List Nat) :
    (open' :: outer).head? ≠ some position :=
  fun same => Nat.ne_of_lt inner (Option.some.inj same)

/-- A scalar that may begin a key ends at the end of its line. -/
theorem Begins.reaches_keyStart {char : Char} {text : List Char} {scan : Scan Lexeme}
    {lexeme : Lexeme}
    (begins : Begins lexer (At · position (char :: text ++ '\n' :: (padding column ++ rest))
      (open' :: outer) keyAllowed given))
    (inner : open' < position) (clear : Clear rest)
    (dispatch : ∀ ready more, 0 < ready.cursor.mark.column →
      token char more ready = keyStart scan ready)
    (takes : ∀ line, Scan.Takes (From 1 line) scan (char :: text)
      ('\n' :: (padding column ++ rest)) lexeme (From 1 line)) :
    Reaches lexer (Between · column rest (open' :: outer) (given ++ [lexeme])) := by
  refine begins.reaches fun ready at' => ?_
  have right : 1 ≤ ready.cursor.mark.column := by
    rw [at'.column]
    exact Nat.lt_of_le_of_lt (Nat.zero_le _) inner
  obtain ⟨mark, ran, place⟩ := takes _ ready.cursor.mark ⟨right, Nat.le_refl _⟩
  rw [← at'.cursor] at ran
  have taken := run_keyStart at'.possibleKey at'.outerKeys ran
  have head : ready.columns.head? ≠ some position := by
    rw [at'.columns]
    exact ne_of_inner inner outer
  refine ⟨_, _, _, at'.rest, (dispatch _ _ right).trans taken, ?_, Past.between_line
    ⟨at'.columns, at'.outerKeys, ?_, fun key member => ?_⟩ rfl clear⟩
  · simp only [at'.rest, List.length_append, List.length_cons]
    omega
  · rw [List.map_cons, at'.lexemes, List.reverse_append]
    rfl
  · obtain ⟨notRequired, onLine⟩ := noted_inner at'.column head key member
    exact ⟨notRequired, by rw [onLine]; exact Nat.lt_succ_of_le place.2⟩

theorem startsWithIndicator_append {char : Char} {text after : List Char}
    (ends : atWordEnd after = true) :
    startsWithIndicator (char :: (text ++ after)) = startsWithIndicator (char :: text) := by
  simp only [startsWithIndicator, atWordEnd_append ends]

/-- A scalar without quotes goes on up to the next line. -/
theorem Begins.reaches_plain {char : Char} {text word more : List Char}
    (begins : Begins lexer (At · position (char :: text ++ '\n' :: (padding column ++ rest))
      (open' :: outer) keyAllowed given))
    (inner : open' < position) (left : column ≤ open') (clear : Clear rest)
    (visible : isGap char = false) (noIndicator : startsWithIndicator (char :: text) = false)
    (whole : char :: text = word ++ more)
    (isWord : Word (more ++ ('\n' :: (padding column ++ rest))) word)
    (words : Words ('\n' :: (padding column ++ rest)) more) :
    Reaches lexer
      (Between · column rest (open' :: outer) (given ++ [.scalar .plain (char :: text)])) := by
  refine begins.reaches fun ready at' => ?_
  have least : ready.leastColumn = open' + 1 := by
    unfold Lexer.leastColumn
    rw [at'.columns]
  have right : open' + 1 ≤ ready.cursor.mark.column := by
    rw [at'.column]
    exact inner
  have leftOfLeast : column < open' + 1 := Nat.lt_succ_of_le left
  obtain ⟨mark, ran, place⟩ := takes_plain leftOfLeast clear.parts.1 isWord words
    ready.cursor.mark ⟨right, Nat.le_refl _⟩
  have source : word ++ more ++ '\n' :: padding column ++ rest =
      char :: text ++ '\n' :: (padding column ++ rest) := by
    rw [whole, List.append_assoc]
    rfl
  rw [source, ← whole, ← at'.cursor, ← least] at ran
  have positive : 0 < ready.cursor.mark.column := Nat.lt_of_lt_of_le (Nat.succ_pos _) right
  have ends : atWordEnd ('\n' :: (padding column ++ rest)) = true := rfl
  rw [← startsWithIndicator_append ends] at noIndicator
  have taken := (token_plain (notMarker_right positive) at'.outerKeys visible noIndicator).trans
    (run_plain at'.possibleKey at'.outerKeys ran)
  have head : ready.columns.head? ≠ some position := by
    rw [at'.columns]
    exact ne_of_inner inner outer
  refine ⟨_, _, _, at'.rest, taken, ?_, Past.between
    ⟨at'.columns, at'.outerKeys, ?_, fun key member => ?_⟩ rfl place.1 rfl clear⟩
  · simp only [at'.rest, List.length_append, List.length_cons]
    omega
  · rw [List.map_cons, at'.lexemes, List.reverse_append]
    rfl
  · obtain ⟨notRequired, onLine⟩ := noted_inner at'.column head key member
    exact ⟨notRequired, by rw [onLine]; exact place.2⟩

/-- A literal scalar goes on up to a line that stands further left. -/
theorem Begins.reaches_literal {chars : List Char}
    (begins : Begins lexer (At · position
      (literalHeader chars ++
        '\n' :: (literalBody (open' + 2) true chars ++ (padding column ++ rest)))
      (open' :: outer) keyAllowed given))
    (inner : open' < position) (left : column ≤ open') (clear : Clear rest) (nonempty : chars ≠ [])
    (printable : ∀ char ∈ chars, isPrintable char = true) :
    Reaches lexer
      (Between · column rest (open' :: outer) (given ++ [.scalar .literal chars])) := by
  refine begins.reaches fun ready at' => ?_
  have least : ready.leastColumn = open' + 1 := by
    unfold Lexer.leastColumn
    rw [at'.columns]
  have right : 1 ≤ ready.cursor.mark.column := by
    rw [at'.column]
    exact Nat.lt_of_le_of_lt (Nat.zero_le _) inner
  have positive : 0 < open' + 1 := Nat.succ_pos open'
  have leftOfLeast : column < open' + 1 := Nat.lt_succ_of_le left
  obtain ⟨mark, ran, place⟩ := takes_block positive leftOfLeast clear.parts.1 nonempty printable
    ready.cursor.mark ⟨right, Nat.le_refl _⟩
  have source : literalHeader chars ++
        '\n' :: (literalBody (open' + 1 + 1) true chars ++ padding column) ++ rest =
      literalHeader chars ++
        '\n' :: (literalBody (open' + 2) true chars ++ (padding column ++ rest)) := by
    simp only [List.append_assoc, List.cons_append]
  rw [source, ← at'.cursor, ← least] at ran
  have taken (more : List Char) := (token_literal right at'.outerKeys more).trans
    (run_block at'.possibleKey ran)
  refine ⟨_, _, _, at'.rest, taken _, ?_, Past.between
    ⟨at'.columns, at'.outerKeys, ?_, fun key member => ?_⟩ rfl place.1 rfl clear⟩
  · simp only [at'.rest, List.length_append, List.length_cons]
    omega
  · rw [List.map_cons, at'.lexemes, List.reverse_append]
    rfl
  · rw [at'.possibleKey] at member
    cases member

/-- How a scalar is found that is written in a style. -/
def styleFound : WrittenStyle → ScalarStyle
  | .plain => .plain
  | .literal => .literal
  | .single | .double => .other

/-- Neither white space nor a comment begins a scalar. -/
theorem clear_scalarText (indent : Nat) (chars rest : List Char) :
    Clear (scalarText indent chars ++ rest) := by
  unfold scalarText
  rcases styleOf_cases chars with isDouble | ⟨isPlain, nonempty, plain⟩ | ⟨isSingle, -⟩ |
    ⟨isLiteral, -, -⟩
  · rw [isDouble]
    rfl
  · obtain ⟨char, text, rfl⟩ := List.exists_cons_of_ne_nil nonempty
    obtain ⟨visible, noIndicator⟩ := begins_of_plain plain
    have noComment : (char == '#') = false := by
      rw [beq_eq_false_iff_ne]
      rintro rfl
      simp [startsWithIndicator, String.contains_char_eq] at noIndicator
    have noMark : (char == byteOrderMark) = false := by
      rw [beq_eq_false_iff_ne]
      rintro rfl
      cases plain
    rw [isPlain]
    change (isGap char || char == '#' || char == byteOrderMark) = false
    rw [visible, noComment, noMark]
    rfl
  · rw [isSingle]
    rfl
  · rw [isLiteral]
    rfl

/-- A text up to the end of its last line is one scalar. -/
theorem Begins.reaches_text {chars : List Char}
    (begins : Begins lexer (At · position (scalarText (open' + 2) chars ++ (padding column ++ rest))
      (open' :: outer) keyAllowed given))
    (inner : open' < position) (left : column ≤ open') (clear : Clear rest) :
    Reaches lexer
      (Between · column rest (open' :: outer)
        (given ++ [.scalar (styleFound (styleOf chars)) chars])) := by
  unfold scalarText at begins
  rcases styleOf_cases chars with isDouble | ⟨isPlain, nonempty, allowed⟩ | ⟨isSingle, single⟩ |
    ⟨isLiteral, nonempty, printable⟩
  · rw [isDouble] at begins ⊢
    have source : '"' :: chars.flatMap doubleChar ++ ['"', '\n'] ++ (padding column ++ rest) =
        '"' :: (chars.flatMap doubleChar ++ ['"']) ++ '\n' :: (padding column ++ rest) := by
      simp
    dsimp only at begins
    rw [source] at begins
    refine begins.reaches_keyStart inner clear (fun _ _ right => token_double right) ?_
    exact fun line => Scan.Takes.bind_done (takes_double chars _ line) (Scan.takes_pure _ _ _)
  · obtain ⟨char, text, rfl⟩ := List.exists_cons_of_ne_nil nonempty
    rw [isPlain] at begins ⊢
    dsimp only at begins
    rw [List.append_assoc, List.singleton_append] at begins
    have ends : atWordEnd ('\n' :: (padding column ++ rest)) = true := rfl
    obtain ⟨word, more, whole, isWord, words⟩ := exists_words_of_plain ends allowed
    obtain ⟨visible, noIndicator⟩ := begins_of_plain allowed
    exact begins.reaches_plain inner left clear visible noIndicator whole isWord words
  · rw [isSingle] at begins ⊢
    have source : '\'' :: singleBody (open' + 2) false chars ++ ['\'', '\n'] ++
          (padding column ++ rest) =
        '\'' :: (singleBody (open' + 2) false chars ++ ['\'']) ++
          '\n' :: (padding column ++ rest) := by
      simp
    dsimp only at begins
    rw [source] at begins
    refine begins.reaches_keyStart inner clear (fun _ _ right => token_single right) ?_
    exact fun line => Scan.Takes.bind_done (takes_single (Nat.succ_pos _) single _ rfl line)
      (Scan.takes_pure _ _ _)
  · rw [isLiteral] at begins ⊢
    simp only [List.cons_append, List.append_assoc] at begins
    exact begins.reaches_literal inner left clear nonempty printable

/-- Letters, digits and underscores. -/
def isNamePart (char : Char) : Bool := char.isAlphanum || char == '_'

theorem ne_of_isNamePart {char other : Char} (isPart : isNamePart char = true)
    (notPart : isNamePart other = false) : char ≠ other := by
  rintro rfl
  rw [isPart] at notPart
  cases notPart

theorem notGap_of_isNamePart {char : Char} (isPart : isNamePart char = true) :
    isGap char = false := by
  have apart (other : Char) (notPart : isNamePart other = false) : char ≠ other :=
    ne_of_isNamePart isPart notPart
  simp [isGap, isBlank, isBreak, apart ' ' rfl, apart '\t' rfl, apart '\r' rfl, apart '\n' rfl,
    apart '\u0085' rfl, apart '\u2028' rfl, apart '\u2029' rfl]

theorem noIndicator_of_isNamePart {char : Char} (isPart : isNamePart char = true)
    (rest : List Char) : startsWithIndicator (char :: rest) = false := by
  have apart : ∀ other ∈ "#,[]\x7b\x7d&*!|>'\"%@\x60?:-".toList, char ≠ other := by
    intro other member
    have notPart : "#,[]\x7b\x7d&*!|>'\"%@\x60?:-".toList.all (!isNamePart ·) = true := by decide
    exact ne_of_isNamePart isPart (by simpa using List.all_eq_true.mp notPart other member)
  simp only [String.reduceToList, List.forall_mem_cons] at apart
  simp [startsWithIndicator, String.contains_char_eq, apart]

theorem clear_of_isNamePart {char : Char} (isPart : isNamePart char = true) (rest : List Char) :
    Clear (char :: rest) := by
  have noComment : char ≠ '#' := ne_of_isNamePart isPart rfl
  have noMark : char ≠ byteOrderMark := ne_of_isNamePart isPart rfl
  change (isGap char || char == '#' || char == byteOrderMark) = false
  simp [notGap_of_isNamePart isPart, noComment, noMark]

theorem isAllowed_of_isNamePart {char : Char} (isPart : isNamePart char = true) :
    isAllowed char = true := by
  unfold isNamePart Char.isAlphanum Char.isAlpha Char.isUpper Char.isLower Char.isDigit at isPart
  simp only [Bool.or_eq_true, Bool.and_eq_true, decide_eq_true_eq, beq_iff_eq] at isPart
  have visible : ' ' ≤ char ∧ char ≤ '~' := by
    rcases isPart with ((⟨low, high⟩ | ⟨low, high⟩) | ⟨low, high⟩) | rfl
    · exact ⟨UInt32.le_trans (by decide) low, UInt32.le_trans high (by decide)⟩
    · exact ⟨UInt32.le_trans (by decide) low, UInt32.le_trans high (by decide)⟩
    · exact ⟨UInt32.le_trans (by decide) low, UInt32.le_trans high (by decide)⟩
    · decide
  simp [isAllowed, visible]

theorem word_of_isNamePart {word : List Char} (isName : ∀ char ∈ word, isNamePart char = true)
    (after : List Char) : Word after word :=
  word_of_visible (fun char member =>
    ⟨notGap_of_isNamePart (isName char member), ne_of_isNamePart (isName char member) rfl⟩) after

theorem isNamePart_toDigits (count : Nat) :
    ∀ char ∈ Nat.toDigits 10 count, isNamePart char = true := by
  intro char member
  simp [isNamePart, Char.isAlphanum, Numeral.isDigit_toDigits char member]

/-- A count is one scalar without quotes. -/
theorem Begins.reaches_count {count : Nat}
    (begins : Begins lexer (At · position
      (Nat.toDigits 10 count ++ '\n' :: (padding column ++ rest))
      (open' :: outer) keyAllowed given))
    (inner : open' < position) (left : column ≤ open') (clear : Clear rest) :
    Reaches lexer
      (Between · column rest (open' :: outer)
        (given ++ [.scalar .plain (Nat.toDigits 10 count)])) := by
  have isName := isNamePart_toDigits count
  have nonempty : Nat.toDigits 10 count ≠ [] := Nat.toDigits_ne_nil
  obtain ⟨char, text, digits⟩ := List.exists_cons_of_ne_nil nonempty
  rw [digits] at begins isName ⊢
  have isPart := isName char List.mem_cons_self
  exact begins.reaches_plain inner left clear (notGap_of_isNamePart isPart)
    (noIndicator_of_isNamePart isPart text) (List.append_nil _).symm
    (word_of_isNamePart isName _) .nil

end Scalars

end Lexing

end FaultDrill.Yaml
