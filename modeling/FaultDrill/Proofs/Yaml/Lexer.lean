import FaultDrill.Proofs.Yaml.Scanning
import FaultDrill.Yaml.Token.Lexer

/-!
The tokens of YAML are found one after the other.

Owns:
- white space between tokens;
- states between tokens: where a token has ended (`Past`), where a value may follow on the same line
  (`At`), where a line has ended (`Between`), and where a token begins (`Begins`);
- states that are reached by taking tokens (`Reaches`).

Does not own: any kind of token.

Main statements: the blocks end that stand further right than the next token (`Between.begins`,
`Between.outer`), and where a token begins its step leads on (`Begins.reaches`).
-/

namespace FaultDrill.Yaml

namespace Lexing

variable {Value : Type}

/-! ## Between tokens -/

/-- What follows neither continues white space nor begins a comment. -/
def Clear (rest : List Char) : Prop :=
  startsIn (fun char => isGap char || char == '#' || char == byteOrderMark) rest = false

/-- White space and keys that can no longer end are passed over. -/
def settle : Lexing Unit := do
  skipGap ((← get).cursor.rest.length + 1)
  dropStaleKeys

theorem Clear.parts {rest : List Char} (clear : Clear rest) :
    startsIn isGap rest = false ∧ startsIn (· == '#') rest = false ∧
      startsIn (· == byteOrderMark) rest = false := by
  cases rest with
  | nil => exact ⟨rfl, rfl, rfl⟩
  | cons char rest =>
      have outside : (isGap char || char == '#' || char == byteOrderMark) = false := clear
      simp only [Bool.or_eq_false_iff] at outside
      exact ⟨outside.1.1, outside.1.2, outside.2⟩

/-- The blanks of a line are passed over, and a comment behind them. -/
def blanks (tabs : Bool) : Scan Unit := do
  if (← Scan.mark).column = 0 then
    if ← Scan.nextIs (· == byteOrderMark) then Scan.skip 1
  Scan.skipWhile (fun char => char == ' ' || (tabs && char == '\t'))
  if ← Scan.nextIs (· == '#') then Scan.skipWhile (fun char => !isBreak char)

theorem blanks_spaces (tabs : Bool) {count : Nat} {rest : List Char}
    (noSpace : startsIn isSpace rest = false) (noTab : startsIn (· == '\t') rest = false)
    (noComment : startsIn (· == '#') rest = false)
    (noMark : startsIn (· == byteOrderMark) rest = false) (mark : Mark) :
    blanks tabs ⟨padding count ++ rest, mark⟩ = some ((), ⟨rest, mark.after count⟩) := by
  have noMarkHere : startsIn (· == byteOrderMark) (padding count ++ rest) = false := by
    cases count with
    | zero => exact noMark
    | succ count => rfl
  have spaces : ∀ char ∈ padding count, (char == ' ' || (tabs && char == '\t')) = true := by
    intro char member
    rw [List.eq_of_mem_replicate member]
    rfl
  have ended : startsIn (fun char => char == ' ' || (tabs && char == '\t')) rest = false := by
    cases rest with
    | nil => rfl
    | cons char rest =>
        have notTab : (char == '\t') = false := noTab
        change (isSpace char || (tabs && char == '\t')) = false
        rw [notTab, Bool.and_false, Bool.or_false]
        exact noSpace
  obtain ⟨taken, left⟩ := Scan.takeWhile_of_ends spaces ended
  have passed : Cursor.skipWhile ⟨padding count ++ rest, mark⟩
      (fun char => char == ' ' || (tabs && char == '\t')) = ⟨rest, mark.after count⟩ := by
    unfold Cursor.skipWhile Cursor.span
    dsimp only
    rw [taken, left, through_spaces]
  have skipped : (Scan.skipWhile (fun char => char == ' ' || (tabs && char == '\t')))
      ⟨padding count ++ rest, mark⟩ = some ((), ⟨rest, mark.after count⟩) := by
    rw [← passed]
    rfl
  have looked (class' : Char → Bool) (cursor : Cursor) :
      Scan.nextIs class' cursor = some (startsIn class' cursor.rest, cursor) := rfl
  unfold blanks
  rw [run_bind (show Scan.mark _ = some (mark, _) from rfl)]
  have finish : (do
      Scan.skipWhile (fun char => char == ' ' || (tabs && char == '\t'))
      if ← Scan.nextIs (· == '#') then Scan.skipWhile (fun char => !isBreak char) : Scan Unit)
      ⟨padding count ++ rest, mark⟩ = some ((), ⟨rest, mark.after count⟩) := by
    rw [run_bind skipped, run_bind (looked _ _)]
    dsimp only
    rw [noComment]
    rfl
  dsimp only
  split
  · rw [run_bind (looked _ _)]
    dsimp only
    rw [noMarkHere]
    exact finish
  · exact finish

theorem run_read {scan : Scan Value} {lexer : Lexer} {value : Value} {cursor : Cursor}
    (ran : scan lexer.cursor = some (value, cursor)) :
    read scan lexer = some (value, { lexer with cursor }) := by
  have lifted : (liftM (scan lexer.cursor) : Lexing (Value × Cursor)) lexer =
      some ((value, cursor), lexer) := by
    rw [ran]
    rfl
  exact (run_bind rfl).trans (run_bind lifted)

theorem run_read_refused {scan : Scan Value} {lexer : Lexer}
    (refused : scan lexer.cursor = none) : read scan lexer = none := by
  have lifted : (liftM (scan lexer.cursor) : Lexing (Value × Cursor)) lexer = none := by
    rw [refused]
    rfl
  exact (run_bind rfl).trans (run_bind_refused lifted)

theorem skipGap_spaces {lexer : Lexer} {count : Nat} {rest : List Char}
    (left : lexer.cursor.rest = padding count ++ rest) (clear : Clear rest) (steps : Nat) :
    skipGap (steps + 1) lexer =
      some ((), { lexer with cursor := ⟨rest, lexer.cursor.mark.after count⟩ }) := by
  obtain ⟨noGap, noComment, noMark⟩ := clear.parts
  obtain ⟨noSpace, noTab, noBreak⟩ := startsIn_isSpace_of_gap noGap
  have passed (tabs : Bool) : read (blanks tabs) lexer =
      some ((), { lexer with cursor := ⟨rest, lexer.cursor.mark.after count⟩ }) := by
    refine run_read ?_
    rw [show lexer.cursor = ⟨padding count ++ rest, lexer.cursor.mark⟩ by rw [← left]]
    exact blanks_spaces tabs noSpace noTab noComment noMark _
  unfold skipGap
  refine (run_bind rfl).trans ?_
  refine (run_bind (passed _)).trans ?_
  refine (run_bind rfl).trans ?_
  dsimp only
  rw [noBreak]
  rfl

/-- A line ends, and blanks begin the next one. -/
theorem skipGap_line {lexer : Lexer} {column : Nat} {rest : List Char}
    (left : lexer.cursor.rest = '\n' :: (padding column ++ rest))
    (noBrackets : lexer.outerKeys = []) (clear : Clear rest) (steps : Nat) :
    skipGap (steps + 2) lexer =
      some ((), { lexer with
        cursor := ⟨rest, (lexer.cursor.mark.afterBreak 1).after column⟩
        keyAllowed := true }) := by
  have passed (tabs : Bool) : read (blanks tabs) lexer = some ((), lexer) := by
    have here : blanks tabs ⟨padding 0 ++ lexer.cursor.rest, lexer.cursor.mark⟩ =
        some ((), ⟨lexer.cursor.rest, lexer.cursor.mark⟩) := by
      rw [left]
      exact blanks_spaces tabs rfl rfl rfl rfl _
    exact run_read here
  have starts : startsIn isBreak lexer.cursor.rest = true := by
    rw [left]
    rfl
  have outside : lexer.inBrackets = false := by
    unfold Lexer.inBrackets
    rw [noBrackets]
    rfl
  have broken : lexer.cursor.skipBreak =
      ⟨padding column ++ rest, lexer.cursor.mark.afterBreak 1⟩ := by
    unfold Cursor.skipBreak
    rw [left]
    rfl
  unfold skipGap
  refine (run_bind rfl).trans ?_
  refine (run_bind (passed _)).trans ?_
  refine (run_bind rfl).trans ?_
  rw [starts, if_pos rfl]
  refine (run_bind rfl).trans ?_
  dsimp only
  rw [broken, outside, Bool.not_false, Bool.or_true]
  exact skipGap_spaces rfl clear steps

theorem fresh_given_up {key : PossibleKey} {lexer : Lexer} (isStale : lexer.isStale key = true)
    (notRequired : key.required = false) : fresh (some key) lexer = some (none, lexer) := by
  unfold fresh
  refine (run_bind rfl).trans ?_
  dsimp only
  rw [isStale, notRequired]
  rfl

/-- Keys that are not required and can no longer end are given up. -/
theorem fresh_stale {key : Option PossibleKey} {lexer : Lexer}
    (stale : ∀ key' ∈ key, key'.required = false ∧ key'.mark.line < lexer.cursor.mark.line) :
    fresh key lexer = some (none, lexer) := by
  cases key with
  | none => rfl
  | some key =>
      obtain ⟨notRequired, earlier⟩ := stale key rfl
      have isStale : lexer.isStale key = true := by
        unfold Lexer.isStale
        rw [decide_eq_true earlier, Bool.true_or]
      exact fresh_given_up isStale notRequired

theorem fresh_fresh {key : PossibleKey} {lexer : Lexer} (isFresh : lexer.isStale key = false) :
    fresh (some key) lexer = some (some key, lexer) := by
  unfold fresh
  refine (run_bind rfl).trans ?_
  dsimp only
  rw [isFresh]
  rfl

theorem fresh_refused {key : PossibleKey} {lexer : Lexer} (isStale : lexer.isStale key = true)
    (required : key.required = true) : fresh (some key) lexer = none := by
  unfold fresh
  refine (run_bind rfl).trans ?_
  dsimp only
  rw [isStale, required]
  rfl

theorem mapM_fresh_none {keys : List (Option PossibleKey)} (noKeys : ∀ key ∈ keys, key = none)
    (lexer : Lexer) : List.mapM fresh keys lexer = some (keys, lexer) := by
  induction keys with
  | nil => rfl
  | cons key keys inductionHypothesis =>
      obtain rfl := noKeys key List.mem_cons_self
      have later := inductionHypothesis fun other member =>
        noKeys other (List.mem_cons_of_mem _ member)
      rw [List.mapM_cons]
      refine (run_bind rfl).trans ?_
      exact (run_bind later).trans rfl

theorem run_dropStaleKeys {lexer : Lexer} {key : Option PossibleKey}
    (ran : fresh lexer.possibleKey lexer = some (key, lexer))
    (noKeys : ∀ key ∈ lexer.outerKeys, key = none) :
    dropStaleKeys lexer = some ((), { lexer with possibleKey := key }) := by
  unfold dropStaleKeys
  refine (run_bind rfl).trans ?_
  refine (run_bind ran).trans ?_
  exact (run_bind (mapM_fresh_none noKeys lexer)).trans rfl

theorem settle_line {lexer : Lexer} {column : Nat} {rest : List Char}
    (left : lexer.cursor.rest = '\n' :: (padding column ++ rest))
    (noBrackets : lexer.outerKeys = []) (clear : Clear rest)
    (stale : ∀ key ∈ lexer.possibleKey,
      key.required = false ∧ key.mark.line ≤ lexer.cursor.mark.line) :
    settle lexer =
      some ((), { lexer with
        cursor := ⟨rest, (lexer.cursor.mark.afterBreak 1).after column⟩
        possibleKey := none
        keyAllowed := true }) := by
  unfold settle
  refine (run_bind rfl).trans ?_
  have steps : lexer.cursor.rest.length + 1 = (padding column ++ rest).length + 2 := by
    rw [left]
    rfl
  rw [steps]
  refine (run_bind (skipGap_line left noBrackets clear _)).trans ?_
  refine run_dropStaleKeys (fresh_stale fun key member => ?_) (by simp [noBrackets])
  exact ⟨(stale key member).1, Nat.lt_succ_of_le (stale key member).2⟩

theorem settle_spaces {lexer : Lexer} {count : Nat} {rest : List Char}
    (left : lexer.cursor.rest = padding count ++ rest) (clear : Clear rest)
    (noKeys : ∀ key ∈ lexer.outerKeys, key = none) {key : Option PossibleKey}
    (ran : fresh lexer.possibleKey
        { lexer with cursor := ⟨rest, lexer.cursor.mark.after count⟩ } =
      some (key, { lexer with cursor := ⟨rest, lexer.cursor.mark.after count⟩ })) :
    settle lexer =
      some ((), { lexer with
        cursor := ⟨rest, lexer.cursor.mark.after count⟩
        possibleKey := key }) := by
  unfold settle
  refine (run_bind rfl).trans ?_
  refine (run_bind (skipGap_spaces left clear _)).trans ?_
  exact run_dropStaleKeys ran noKeys

/-- A text is refused in which a key that is required can no longer end. -/
theorem settle_refused {lexer : Lexer} {count : Nat} {rest : List Char} {key : PossibleKey}
    (left : lexer.cursor.rest = padding count ++ rest) (clear : Clear rest)
    (isKey : lexer.possibleKey = some key) (isStale : lexer.isStale key = true)
    (required : key.required = true) : settle lexer = none := by
  have staleAfter : Lexer.isStale
      { lexer with cursor := ⟨rest, lexer.cursor.mark.after count⟩ } key = true := by
    unfold Lexer.isStale at isStale ⊢
    simp only [Bool.or_eq_true, decide_eq_true_iff] at isStale ⊢
    exact isStale.imp id fun far => Nat.lt_of_lt_of_le far (Nat.le_add_right _ _)
  have refused : fresh lexer.possibleKey
      { lexer with cursor := ⟨rest, lexer.cursor.mark.after count⟩ } = none := by
    rw [isKey]
    exact fresh_refused staleAfter required
  unfold settle
  refine (run_bind rfl).trans ?_
  refine (run_bind (skipGap_spaces left clear _)).trans ?_
  unfold dropStaleKeys
  refine (run_bind rfl).trans ?_
  exact run_bind_refused refused

/-! ## States -/

/-- Where a token has ended: the columns of open blocks and the tokens so far. No brackets are open,
and what may have begun as a key did so on an earlier line than the next token and need not be
one. -/
structure Past (lexer : Lexer) (line : Nat) (columns : List Nat) (given : List Lexeme) : Prop where
  columns : lexer.columns = columns
  outerKeys : lexer.outerKeys = []
  lexemes : lexer.reversed.map (·.lexeme) = given.reverse
  stale : ∀ key ∈ lexer.possibleKey, key.required = false ∧ key.mark.line < line

/-- A place on a line, with what is left and whether a key may begin. -/
structure At (lexer : Lexer) (column : Nat) (rest : List Char) (columns : List Nat)
    (keyAllowed : Bool) (given : List Lexeme) : Prop where
  rest : lexer.cursor.rest = rest
  column : lexer.cursor.mark.column = column
  keyAllowed : lexer.keyAllowed = keyAllowed
  possibleKey : lexer.possibleKey = none
  columns : lexer.columns = columns
  outerKeys : lexer.outerKeys = []
  lexemes : lexer.reversed.map (·.lexeme) = given.reverse

/-- After white space and the ends of blocks a token begins, in a state of some kind. -/
def Begins (lexer : Lexer) (state : Lexer → Prop) : Prop :=
  ∃ settled ready, settle lexer = some ((), settled) ∧
    closeBlocks (some settled.cursor.mark.column) settled = some ((), ready) ∧
    ready.cursor.rest.length ≤ lexer.cursor.rest.length ∧ state ready

/-- Before the next token the blocks end that stand further right; their ends count among the
tokens so far. -/
def Between (lexer : Lexer) (column : Nat) (rest : List Char) (columns : List Nat)
    (given : List Lexeme) : Prop :=
  ∃ settled ended early, settle lexer = some ((), settled) ∧
    rest.length ≤ lexer.cursor.rest.length ∧ (∀ open' ∈ ended, column < open') ∧
    At settled column rest (ended ++ columns) true early ∧
    given = early ++ List.replicate ended.length .blockEnd

theorem At.cursor {lexer : Lexer} {column : Nat} {rest : List Char} {columns : List Nat}
    {keyAllowed : Bool} {given : List Lexeme}
    (at' : At lexer column rest columns keyAllowed given) :
    lexer.cursor = ⟨rest, lexer.cursor.mark⟩ := by
  rw [← at'.rest]

section States

variable {lexer : Lexer} {column : Nat} {rest : List Char} {columns : List Nat} {keyAllowed : Bool}
  {given : List Lexeme}

theorem inBrackets_eq (noBrackets : lexer.outerKeys = []) : lexer.inBrackets = false := by
  unfold Lexer.inBrackets
  rw [noBrackets]
  rfl

theorem At.past (at' : At lexer column rest columns keyAllowed given) (line : Nat) :
    Past lexer line columns given :=
  ⟨at'.columns, at'.outerKeys, at'.lexemes, by simp [at'.possibleKey]⟩

/-- The next token stands on the next line. -/
theorem Past.between_line (past : Past lexer (lexer.cursor.mark.line + 1) columns given)
    (left : lexer.cursor.rest = '\n' :: (padding column ++ rest)) (clear : Clear rest) :
    Between lexer column rest columns given := by
  have settled := settle_line left past.outerKeys clear fun key member =>
    ⟨(past.stale key member).1, Nat.le_of_lt_succ (past.stale key member).2⟩
  refine ⟨_, [], given, settled, ?_, by simp, ⟨rfl, ?_, rfl, rfl, past.columns, past.outerKeys,
    past.lexemes⟩, by simp⟩
  · rw [left, List.length_cons, List.length_append]
    omega
  · exact Nat.zero_add column

/-- The next token stands here, at the start of a line. -/
theorem Past.between (past : Past lexer lexer.cursor.mark.line columns given)
    (left : lexer.cursor.rest = rest) (here : lexer.cursor.mark.column = column)
    (allowed : lexer.keyAllowed = true) (clear : Clear rest) :
    Between lexer column rest columns given := by
  have spaces : lexer.cursor.rest = padding 0 ++ rest := left
  have settled := settle_spaces spaces clear (by simp [past.outerKeys]) (fresh_stale past.stale)
  exact ⟨_, [], given, settled, Nat.le_of_eq (by rw [left]), by simp,
    ⟨rfl, here, allowed, rfl, past.columns, past.outerKeys, past.lexemes⟩, by simp⟩

theorem closeBlocks_eq (mark : Mark) {ended : List Nat}
    (right : ∀ open' ∈ ended, column < open') (left : ∀ open' ∈ columns.head?, open' ≤ column)
    (reversed : List Token) :
    Lexer.closeBlocks mark (some column) (ended ++ columns) reversed =
      (columns, List.replicate ended.length ⟨mark, .blockEnd⟩ ++ reversed) := by
  induction ended generalizing reversed with
  | nil =>
      cases columns with
      | nil => rfl
      | cons open' columns =>
          have notRight : ¬ column < open' := Nat.not_lt.mpr (left open' rfl)
          simp [Lexer.closeBlocks, notRight]
  | cons open' ended inductionHypothesis =>
      have isRight : column < open' := right open' List.mem_cons_self
      have step : Lexer.closeBlocks mark (some column) (open' :: (ended ++ columns)) reversed =
          Lexer.closeBlocks mark (some column) (ended ++ columns)
            (⟨mark, .blockEnd⟩ :: reversed) := by
        simp [Lexer.closeBlocks, isRight]
      rw [List.cons_append, step,
        inductionHypothesis fun other member => right other (List.mem_cons_of_mem _ member),
        List.length_cons, List.replicate_succ', List.append_assoc, List.singleton_append]

theorem run_closeBlocks (noBrackets : lexer.outerKeys = []) {ended : List Nat}
    (opened : lexer.columns = ended ++ columns) (right : ∀ open' ∈ ended, column < open')
    (left : ∀ open' ∈ columns.head?, open' ≤ column) :
    closeBlocks (some column) lexer =
      some ((), { lexer with
        columns
        reversed :=
          List.replicate ended.length ⟨lexer.cursor.mark, .blockEnd⟩ ++ lexer.reversed }) := by
  change some ((), if lexer.inBrackets then lexer else _) = _
  rw [inBrackets_eq noBrackets, opened, closeBlocks_eq _ right left]
  rfl

theorem Between.begins (between : Between lexer column rest columns given)
    (left : ∀ open' ∈ columns.head?, open' ≤ column) :
    Begins lexer (At · column rest columns true given) := by
  obtain ⟨settled, ended, early, ran, shorter, right, at', rfl⟩ := between
  have closed := run_closeBlocks at'.outerKeys at'.columns right left
  rw [← at'.column] at closed
  refine ⟨settled, _, ran, closed, ?_, at'.rest, at'.column, at'.keyAllowed, at'.possibleKey, rfl,
    at'.outerKeys, ?_⟩
  · dsimp only
    rw [at'.rest]
    exact shorter
  · dsimp only
    rw [List.map_append, List.map_replicate, at'.lexemes, List.reverse_append,
      List.reverse_replicate]

/-- A block that stands further right than the next token ends before it. -/
theorem Between.outer {open' : Nat} (between : Between lexer column rest (open' :: columns) given)
    (right : column < open') : Between lexer column rest columns (given ++ [.blockEnd]) := by
  obtain ⟨settled, ended, early, ran, shorter, allRight, at', rfl⟩ := between
  refine ⟨settled, ended ++ [open'], early, ran, shorter, ?_, ?_, ?_⟩
  · intro other member
    rcases List.mem_append.mp member with isEnded | last
    · exact allRight other isEnded
    · rw [List.mem_singleton.mp last]
      exact right
  · rwa [List.append_assoc, List.singleton_append]
  · rw [List.length_append, List.length_singleton, List.replicate_succ', List.append_assoc]

/-- After blanks the next token stands on the same line. -/
theorem At.begins {count : Nat} {rest : List Char}
    (at' : At lexer column (padding count ++ rest) columns keyAllowed given) (clear : Clear rest)
    (left : ∀ open' ∈ columns.head?, open' ≤ column + count) :
    Begins lexer (At · (column + count) rest columns keyAllowed given) := by
  have noKey : ∀ key ∈ lexer.possibleKey, key.required = false ∧
      key.mark.line < (lexer.cursor.mark.after count).line := by
    simp [at'.possibleKey]
  have settled := settle_spaces at'.rest clear (by simp [at'.outerKeys]) (fresh_stale noKey)
  have here : (lexer.cursor.mark.after count).column = column + count := by
    rw [← at'.column]
    rfl
  have closed := @run_closeBlocks
    { lexer with cursor := ⟨rest, lexer.cursor.mark.after count⟩, possibleKey := none }
    _ _ at'.outerKeys [] at'.columns (by simp) left
  rw [← here] at closed
  refine ⟨_, _, settled, closed, ?_, rfl, here, at'.keyAllowed, rfl, rfl, at'.outerKeys, ?_⟩
  · dsimp only
    rw [at'.rest, List.length_append]
    exact Nat.le_add_left _ _
  · exact at'.lexemes

end States

/-! ## Tokens -/

/-- Taking tokens leads to a state of some kind. -/
def Reaches (lexer : Lexer) (goal : Lexer → Prop) : Prop :=
  ∀ steps, lexer.cursor.rest.length < steps → ∃ fewer after,
    after.cursor.rest.length < fewer ∧ goal after ∧ tokens steps lexer = tokens fewer after

theorem Reaches.here {lexer : Lexer} {goal : Lexer → Prop} (holds : goal lexer) :
    Reaches lexer goal :=
  fun steps enough => ⟨steps, lexer, enough, holds, rfl⟩

theorem Reaches.trans {lexer : Lexer} {middle goal : Lexer → Prop} (first : Reaches lexer middle)
    (second : ∀ between, middle between → Reaches between goal) : Reaches lexer goal := by
  intro steps enough
  obtain ⟨fewer, between, suffices', holds, same⟩ := first steps enough
  obtain ⟨last, after, stillSuffices, holdsAfter, same'⟩ := second between holds fewer suffices'
  exact ⟨last, after, stillSuffices, holdsAfter, same.trans same'⟩

theorem tokens_succ (steps : Nat) :
    tokens (steps + 1) = (do
      settle
      closeBlocks (some (← mark).column)
      match (← get).cursor.rest with
      | [] => textEnd
      | char :: rest =>
        token char rest
        tokens steps) := by
  symm
  unfold settle
  exact (bind_assoc _ _ _).trans (bind_congr fun _ => bind_assoc _ _ _)

/-- One token is taken. -/
theorem Begins.reaches {lexer : Lexer} {state goal : Lexer → Prop} (begins : Begins lexer state)
    (step : ∀ ready, state ready → ∃ char rest after, ready.cursor.rest = char :: rest ∧
      token char rest ready = some ((), after) ∧
      after.cursor.rest.length < ready.cursor.rest.length ∧ goal after) :
    Reaches lexer goal := by
  intro steps enough
  obtain ⟨settled, ready, ran, closed, shorter, holds⟩ := begins
  obtain ⟨char, rest, after, left, taken, shorterAfter, holdsAfter⟩ := step ready holds
  obtain ⟨fewer, rfl, enoughLeft⟩ := exists_step enough
  refine ⟨fewer, after, ?_, holdsAfter, ?_⟩
  · omega
  · rw [tokens_succ]
    refine (run_bind ran).trans ?_
    refine (run_bind rfl).trans ?_
    refine (run_bind closed).trans ?_
    refine (run_bind rfl).trans ?_
    rw [left]
    exact run_bind taken

/-! ## Texts that may be refused -/

/-- Taking tokens leads to a state of some kind, unless the text is refused. That happens only where
a promise is not kept. -/
def Leads (lexer : Lexer) (promise : Prop) (goal : Lexer → Prop) : Prop :=
  ∀ steps, lexer.cursor.rest.length < steps →
    (∃ fewer after, after.cursor.rest.length < fewer ∧ goal after ∧
      tokens steps lexer = tokens fewer after) ∨
    (tokens steps lexer = none ∧ ¬ promise)

section Leads

variable {lexer : Lexer} {promise promise' : Prop} {state middle goal : Lexer → Prop}

theorem Reaches.leads (reaches : Reaches lexer goal) (promise : Prop) :
    Leads lexer promise goal :=
  fun steps enough => .inl (reaches steps enough)

theorem leads_of_refused (refused : ∀ steps, tokens steps lexer = none) (broken : ¬ promise) :
    Leads lexer promise goal :=
  fun steps _ => .inr ⟨refused steps, broken⟩

theorem Leads.trans (first : Leads lexer promise middle)
    (second : ∀ between, middle between → Leads between promise' goal) :
    Leads lexer (promise ∧ promise') goal := by
  intro steps enough
  rcases first steps enough with ⟨fewer, between, suffices', holds, same⟩ | ⟨refused, broken⟩
  · rw [same]
    rcases second between holds fewer suffices' with onward | ⟨refused, broken⟩
    · exact .inl onward
    · exact .inr ⟨refused, fun both => broken both.2⟩
  · exact .inr ⟨refused, fun both => broken both.1⟩

theorem Leads.mono (leads : Leads lexer promise goal) {stronger : Prop} {weaker : Lexer → Prop}
    (keeps : stronger → promise) (implies : ∀ after, goal after → weaker after) :
    Leads lexer stronger weaker := by
  intro steps enough
  rcases leads steps enough with ⟨fewer, after, suffices', holds, same⟩ | ⟨refused, broken⟩
  · exact .inl ⟨fewer, after, suffices', implies after holds, same⟩
  · exact .inr ⟨refused, fun isKept => broken (keeps isKept)⟩

theorem Reaches.trans_leads (first : Reaches lexer middle)
    (second : ∀ between, middle between → Leads between promise goal) :
    Leads lexer promise goal :=
  ((first.leads True).trans second).mono (fun kept => ⟨trivial, kept⟩) fun _ holds => holds

/-- One token is taken, or refused. -/
theorem Begins.leads (begins : Begins lexer state)
    (step : ∀ ready, state ready → ∃ char rest, ready.cursor.rest = char :: rest ∧
      ((∃ after, token char rest ready = some ((), after) ∧
        after.cursor.rest.length < ready.cursor.rest.length ∧ goal after) ∨
      (token char rest ready = none ∧ ¬ promise))) :
    Leads lexer promise goal := by
  intro steps enough
  obtain ⟨settled, ready, ran, closed, shorter, holds⟩ := begins
  obtain ⟨char, rest, left, outcome⟩ := step ready holds
  obtain ⟨fewer, rfl, enoughLeft⟩ := exists_step enough
  have next : tokens (fewer + 1) lexer = (token char rest >>= fun _ => tokens fewer) ready := by
    rw [tokens_succ]
    refine (run_bind ran).trans ?_
    refine (run_bind rfl).trans ?_
    refine (run_bind closed).trans ?_
    refine (run_bind rfl).trans ?_
    rw [left]
  rw [next]
  rcases outcome with ⟨after, taken, shorterAfter, holdsAfter⟩ | ⟨refused, broken⟩
  · exact .inl ⟨fewer, after, by omega, holdsAfter, run_bind taken⟩
  · exact .inr ⟨run_bind_refused refused, broken⟩

end Leads

end Lexing

end FaultDrill.Yaml
