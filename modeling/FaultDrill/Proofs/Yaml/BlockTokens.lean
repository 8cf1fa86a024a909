import FaultDrill.Proofs.Yaml.ScalarTokens

/-!
The tokens that stand around the scalars of a document.

Owns:
- empty brackets;
- keys and dashes, with the blocks that they open;
- the end of a text.

Main statements: a name and a colon are the key of an entry (`Begins.reaches_key`), a dash begins an
item (`Begins.reaches_dash`), and at the end of a text all blocks end (`Begins.tokens_end`).
-/

namespace FaultDrill.Yaml

namespace Lexing

/-! ## Brackets -/

theorem run_take {lexer : Lexer} {text rest : List Char} (left : lexer.cursor.rest = text ++ rest)
    (lexeme : Lexeme) :
    take text.length lexeme lexer =
      some ((), { lexer with
        cursor := ⟨rest, lexer.cursor.mark.after text.length⟩
        reversed := ⟨lexer.cursor.mark, lexeme⟩ :: lexer.reversed }) := by
  have skipped : lexer.cursor.skip text.length = ⟨rest, lexer.cursor.mark.after text.length⟩ := by
    unfold Cursor.skip
    rw [left, List.drop_left]
  unfold take
  refine (run_bind rfl).trans ?_
  have taken : read (Scan.skip text.length) lexer =
      some ((), { lexer with cursor := ⟨rest, lexer.cursor.mark.after text.length⟩ }) := by
    rw [← skipped]
    exact run_read rfl
  exact (run_bind taken).trans rfl

/-- An opened list that holds nothing yet. -/
structure Opened (lexer : Lexer) (rest : List Char) (columns : List Nat) (given : List Lexeme) :
    Prop where
  rest : lexer.cursor.rest = rest
  right : 0 < lexer.cursor.mark.column
  possibleKey : lexer.possibleKey = none
  outerKeys : lexer.outerKeys = [none]
  columns : lexer.columns = columns
  lexemes : lexer.reversed.map (·.lexeme) = given.reverse

section Brackets

variable {lexer : Lexer} {position column : Nat} {columns : List Nat} {rest : List Char}
  {given : List Lexeme}

theorem token_bracket (right : 0 < lexer.cursor.mark.column) (more : List Char) :
    token '[' more lexer = openBracket .listOpen lexer ∧
      token ']' more lexer = closeBracket .listClose lexer ∧
      token '\x7b' more lexer = openBracket .mapOpen lexer ∧
      token '\x7d' more lexer = closeBracket .mapClose lexer := by
  refine ⟨?_, ?_, ?_, ?_⟩
  all_goals
    unfold token
    refine (run_bind rfl).trans ?_
    simp [notMarker_right right]

theorem Begins.reaches_open {bracket : Char} {opening : Lexeme}
    (begins : Begins lexer (At · position (bracket :: rest) columns false given))
    (right : 0 < position)
    (dispatch : ∀ ready more, 0 < ready.cursor.mark.column →
      token bracket more ready = openBracket opening ready) :
    Reaches lexer (Opened · rest columns (given ++ [opening])) := by
  refine begins.reaches fun ready at' => ?_
  have positive : 0 < ready.cursor.mark.column := by
    rw [at'.column]
    exact right
  have noKey : noted ready = none := by
    unfold noted
    rw [at'.keyAllowed]
    rfl
  have took := @run_take
    { ready with possibleKey := none, outerKeys := [none], keyAllowed := true } [bracket] rest
    at'.rest opening
  have opened : openBracket opening ready =
      some ((), { ready with
        cursor := ⟨rest, ready.cursor.mark.after 1⟩
        possibleKey := none
        outerKeys := [none]
        keyAllowed := true
        reversed := ⟨ready.cursor.mark, opening⟩ :: ready.reversed }) := by
    unfold openBracket
    refine (run_bind (run_noteKey at'.possibleKey at'.outerKeys)).trans ?_
    rw [noKey]
    refine (run_bind rfl).trans ?_
    rw [at'.outerKeys]
    exact took
  refine ⟨_, _, _, at'.rest, (dispatch ready _ positive).trans opened, ?_, rfl, ?_, rfl, rfl,
    at'.columns, ?_⟩
  · rw [at'.rest]
    exact Nat.lt_succ_self _
  · exact Nat.succ_pos _
  · rw [List.map_cons, at'.lexemes, List.reverse_append]
    rfl

theorem Opened.begins (opened : Opened lexer rest columns given) (clear : Clear rest) :
    Begins lexer (Opened · rest columns given) := by
  have spaces : lexer.cursor.rest = padding 0 ++ rest := opened.rest
  have noKey : ∀ key ∈ lexer.possibleKey, key.required = false ∧
      key.mark.line < (lexer.cursor.mark.after 0).line := by
    simp [opened.possibleKey]
  have settled := settle_spaces spaces clear (by simp [opened.outerKeys]) (fresh_stale noKey)
  have inside : Lexer.inBrackets { lexer with
      cursor := ⟨rest, lexer.cursor.mark.after 0⟩
      possibleKey := none } = true := by
    unfold Lexer.inBrackets
    rw [opened.outerKeys]
    rfl
  have kept : closeBlocks (some (lexer.cursor.mark.after 0).column)
      { lexer with cursor := ⟨rest, lexer.cursor.mark.after 0⟩, possibleKey := none } =
      some ((), { lexer with
        cursor := ⟨rest, lexer.cursor.mark.after 0⟩
        possibleKey := none }) := by
    unfold closeBlocks
    change some ((), if Lexer.inBrackets _ = true then _ else _) = _
    rw [if_pos inside]
  exact ⟨_, _, settled, kept, Nat.le_of_eq (by rw [opened.rest]), rfl, opened.right, rfl,
    opened.outerKeys, opened.columns, opened.lexemes⟩

theorem Begins.reaches_close {bracket : Char} {closing : Lexeme}
    (begins : Begins lexer
      (Opened · (bracket :: '\n' :: (padding column ++ rest)) columns given)) (clear : Clear rest)
    (dispatch : ∀ ready more, 0 < ready.cursor.mark.column →
      token bracket more ready = closeBracket closing ready) :
    Reaches lexer (Between · column rest columns (given ++ [closing])) := by
  refine begins.reaches fun ready opened => ?_
  have took := @run_take { ready with possibleKey := none, outerKeys := [], keyAllowed := false }
    [bracket] ('\n' :: (padding column ++ rest)) opened.rest closing
  have closed : closeBracket closing ready =
      some ((), { ready with
        cursor := ⟨'\n' :: (padding column ++ rest), ready.cursor.mark.after 1⟩
        possibleKey := none
        outerKeys := []
        keyAllowed := false
        reversed := ⟨ready.cursor.mark, closing⟩ :: ready.reversed }) := by
    unfold closeBracket
    refine (run_bind (run_dropKey opened.possibleKey)).trans ?_
    refine (run_bind rfl).trans ?_
    dsimp only
    rw [opened.outerKeys]
    exact took
  refine ⟨_, _, _, opened.rest, (dispatch ready _ opened.right).trans closed, ?_,
    Past.between_line ⟨opened.columns, rfl, ?_, by simp⟩ rfl clear⟩
  · rw [opened.rest]
    exact Nat.lt_succ_self _
  · rw [List.map_cons, opened.lexemes, List.reverse_append]
    rfl

/-- Empty brackets are two tokens. -/
theorem Begins.reaches_brackets {left right' : Char} {opening closing : Lexeme}
    (begins : Begins lexer
      (At · position (left :: right' :: '\n' :: (padding column ++ rest)) columns false given))
    (right : 0 < position) (clear : Clear rest) (visible : Clear [right'])
    (opens : ∀ ready more, 0 < ready.cursor.mark.column →
      token left more ready = openBracket opening ready)
    (closes : ∀ ready more, 0 < ready.cursor.mark.column →
      token right' more ready = closeBracket closing ready) :
    Reaches lexer (Between · column rest columns (given ++ [opening, closing])) := by
  refine (begins.reaches_open right opens).trans fun between opened => ?_
  have closed := (opened.begins visible).reaches_close clear closes
  rwa [List.append_assoc] at closed

theorem Begins.reaches_empty
    (begins : Begins lexer
      (At · position ('[' :: ']' :: '\n' :: (padding column ++ rest)) columns false given))
    (right : 0 < position) (clear : Clear rest) :
    Reaches lexer (Between · column rest columns (given ++ [.listOpen, .listClose])) :=
  begins.reaches_brackets right clear rfl (fun _ more right => (token_bracket right more).1)
    fun _ more right => (token_bracket right more).2.1

theorem Begins.reaches_emptyMap
    (begins : Begins lexer
      (At · position ('\x7b' :: '\x7d' :: '\n' :: (padding column ++ rest)) columns false given))
    (right : 0 < position) (clear : Clear rest) :
    Reaches lexer (Between · column rest columns (given ++ [.mapOpen, .mapClose])) :=
  begins.reaches_brackets right clear rfl (fun _ more right => (token_bracket right more).2.2.1)
    fun _ more right => (token_bracket right more).2.2.2

end Brackets

/-! ## Blocks -/

/-- The columns of open blocks where a key or an item stands at a column, with the token of the
block that it opens, if none is open there. -/
def entered (column : Nat) (columns : List Nat) : List Nat × List Lexeme :=
  if columns.head? = some column then (columns, []) else (column :: columns, [.blockMapping])

section Blocks

variable {lexer : Lexer} {position : Nat} {columns : List Nat} {rest : List Char}
  {given : List Lexeme}

/-- A scalar that the next colon makes a key if that comes early enough. -/
structure Named (lexer : Lexer) (position : Nat) (rest : List Char) (columns : List Nat)
    (given : List Lexeme) (name : Token) (before : List Token) (key : PossibleKey) : Prop where
  rest : lexer.cursor.rest = rest
  columns : lexer.columns = columns
  outerKeys : lexer.outerKeys = []
  reversed : lexer.reversed = name :: before
  lexemes : before.map (·.lexeme) = given.reverse
  possibleKey : lexer.possibleKey = some key
  here : key.mark.column = position
  before : key.position = before.length
  after : position < lexer.cursor.mark.column

theorem notMarker_of_isNamePart {cursor : Cursor} {char : Char} (isPart : isNamePart char = true)
    (left : cursor.rest = char :: rest) :
    cursor.startsWithTriple '-' = false ∧ cursor.startsWithTriple '.' = false := by
  have apart (other : Char) (notPart : isNamePart other = false) : char ≠ other :=
    ne_of_isNamePart isPart notPart
  simp [Cursor.startsWithTriple, left, apart '-' rfl, apart '.' rfl]

theorem Begins.reaches_name {char : Char} {name : List Char}
    (begins : Begins lexer
      (At · position (char :: name ++ ':' :: rest) columns true given))
    (isName : ∀ part ∈ char :: name, isNamePart part = true) (ends : atWordEnd rest = true) :
    Reaches lexer fun after => ∃ mark before key,
      Named after position (':' :: rest) columns given ⟨mark, .scalar .plain (char :: name)⟩ before
        key ∧
      after.isStale key = decide (Lexer.longestKey < (char :: name).length) ∧
      after.keyAllowed = false := by
  refine begins.reaches fun ready at' => ?_
  have isPart := isName char List.mem_cons_self
  obtain ⟨mark, ran, rfl⟩ := takes_plain_key (word_of_isNamePart isName _) ends
    ready.leastColumn ready.cursor.mark ready.cursor.mark rfl
  rw [← at'.cursor] at ran
  have left : ready.cursor.rest = char :: (name ++ ':' :: rest) := at'.rest
  have taken (more : List Char) := (token_plain (notMarker_of_isNamePart isPart left) at'.outerKeys
    (notGap_of_isNamePart isPart) (noIndicator_of_isNamePart isPart more)).trans
    (run_plain at'.possibleKey at'.outerKeys ran)
  refine ⟨_, _, _, left, taken _, ?_, _, _, _, ⟨rfl, at'.columns, at'.outerKeys, rfl, at'.lexemes,
    if_pos at'.keyAllowed, at'.column, rfl, ?_⟩, ?_, rfl⟩
  · simp only [at'.rest, List.length_append, List.length_cons]
    omega
  · change position < ready.cursor.mark.column + (name.length + 1)
    rw [at'.column]
    omega
  · have sameLine : ¬ ready.cursor.mark.line < ready.cursor.mark.line := Nat.lt_irrefl _
    have far : ready.cursor.mark.index + Lexer.longestKey <
        ready.cursor.mark.index + (char :: name).length ↔
          Lexer.longestKey < (char :: name).length := by
      omega
    change (decide (ready.cursor.mark.line < ready.cursor.mark.line) ||
      decide (ready.cursor.mark.index + Lexer.longestKey <
        ready.cursor.mark.index + (char :: name).length)) = _
    rw [decide_eq_false sameLine, Bool.false_or]
    exact decide_eq_decide.mpr far

theorem Named.begins {name : Token} {before : List Token} {key : PossibleKey}
    (named : Named lexer position rest columns given name before key)
    (isFresh : lexer.isStale key = false) (left : ∀ open' ∈ columns.head?, open' ≤ position)
    (clear : Clear rest) :
    Begins lexer (Named · position rest columns given name before key) := by
  have spaces : lexer.cursor.rest = padding 0 ++ rest := named.rest
  have settled := settle_spaces spaces clear (by simp [named.outerKeys])
    (by rw [named.possibleKey]; exact fresh_fresh isFresh)
  have inside : ∀ open' ∈ columns.head?, open' ≤ lexer.cursor.mark.column := fun open' head =>
    Nat.le_trans (left open' head) (Nat.le_of_lt named.after)
  have closed := @run_closeBlocks
    { lexer with cursor := ⟨rest, lexer.cursor.mark.after 0⟩, possibleKey := some key }
    _ _ named.outerKeys [] named.columns (by simp) inside
  exact ⟨_, _, settled, closed, Nat.le_of_eq (by rw [named.rest]), rfl, rfl, named.outerKeys,
    named.reversed, named.lexemes, rfl, named.here, named.before, named.after⟩

theorem insertAt_eq {late before : List Token} (reversed : lexer.reversed = late ++ before)
    (mark : Mark) (lexeme : Lexeme) :
    lexer.insertAt before.length mark lexeme =
      { lexer with reversed := late ++ ⟨mark, lexeme⟩ :: before } := by
  have later : lexer.reversed.length - before.length = late.length := by
    rw [reversed, List.length_append, Nat.add_sub_cancel]
  unfold Lexer.insertAt
  dsimp only
  rw [later, reversed, List.take_left, List.drop_left]

/-- A mapping is opened where none is open at the column. -/
theorem run_openBlock {late before : List Token} {mark : Mark}
    (noBrackets : lexer.outerKeys = []) (reversed : lexer.reversed = late ++ before)
    (left : ∀ open' ∈ lexer.columns.head?, open' ≤ mark.column) :
    ∃ opened : List Token,
      opened.map (·.lexeme) = (entered mark.column lexer.columns).2.reverse ∧
      openBlock .blockMapping before.length mark lexer =
        some ((), { lexer with
          columns := (entered mark.column lexer.columns).1
          reversed := late ++ opened ++ before }) := by
  have ran : openBlock .blockMapping before.length mark lexer =
      some ((), if lexer.inBrackets || mark.column < lexer.leastColumn then lexer
        else { lexer.insertAt before.length mark .blockMapping with
          columns := mark.column :: lexer.columns }) := rfl
  rw [ran, inBrackets_eq noBrackets, insertAt_eq reversed, Bool.false_or]
  unfold entered Lexer.leastColumn
  by_cases isOpen : lexer.columns.head? = some mark.column
  · refine ⟨[], by rw [if_pos isOpen]; rfl, ?_⟩
    obtain ⟨outer, columns⟩ : ∃ outer, lexer.columns = mark.column :: outer :=
      List.head?_eq_some_iff.mp isOpen
    rw [if_pos isOpen, columns, List.append_nil, ← reversed]
    dsimp only
    rw [if_pos (by simp), ← columns]
  · refine ⟨[⟨mark, .blockMapping⟩], by rw [if_neg isOpen]; rfl, ?_⟩
    rw [if_neg isOpen]
    cases columns : lexer.columns with
    | nil => simp
    | cons open' outer =>
        rw [columns] at left isOpen
        have atMost : open' ≤ mark.column := left open' rfl
        have different : open' ≠ mark.column := by simpa using isOpen
        have notRight : ¬ mark.column < open' + 1 := by omega
        simp [notRight]

theorem token_colon (right : 0 < lexer.cursor.mark.column) (ends : atWordEnd rest = true) :
    token ':' rest lexer = value lexer := by
  unfold token
  refine (run_bind rfl).trans ?_
  simp [notMarker_right right, ends]

theorem token_colon_refused (noName : lexer.possibleKey = none) (noBrackets : lexer.outerKeys = [])
    (noKey : lexer.keyAllowed = false) (right : 0 < lexer.cursor.mark.column)
    (ends : atWordEnd rest = true) : token ':' rest lexer = none := by
  rw [token_colon right ends]
  unfold value
  refine (run_bind rfl).trans ?_
  rw [noName, inBrackets_eq noBrackets, noKey]
  rfl

/-- The colon after a name makes it the key of an entry, and may open the mapping of this entry. -/
theorem Named.reaches {mark : Mark} {name : Lexeme} {before : List Token} {key : PossibleKey}
    (named : Named lexer position (':' :: rest) columns given ⟨mark, name⟩ before key)
    (isFresh : lexer.isStale key = false) (left : ∀ open' ∈ columns.head?, open' ≤ position)
    (ends : atWordEnd rest = true) :
    Reaches lexer fun after => ∃ column, position < column ∧
      At after column rest (entered position columns).1 false
        (given ++ (entered position columns).2 ++ [.key, name, .value]) := by
  refine (named.begins isFresh left rfl).reaches fun ready named => ?_
  have positive : 0 < ready.cursor.mark.column := Nat.lt_of_le_of_lt (Nat.zero_le _) named.after
  have dispatched : token ':' rest ready = value ready := token_colon positive ends
  have reversed : ready.reversed = [⟨mark, name⟩] ++ before := named.reversed
  have inserted := insertAt_eq reversed key.mark .key
  obtain ⟨opened, opens, ran⟩ := @run_openBlock
    { ready with reversed := [⟨mark, name⟩] ++ ⟨key.mark, .key⟩ :: before }
    [⟨mark, name⟩, ⟨key.mark, .key⟩] before key.mark named.outerKeys rfl
    (by rw [named.here]; exact named.columns ▸ left)
  rw [named.here, named.columns] at opens ran
  have took := @run_take
    { ready with
      columns := (entered position columns).1
      possibleKey := none
      keyAllowed := false
      reversed := [⟨mark, name⟩, ⟨key.mark, .key⟩] ++ opened ++ before }
    [':'] rest named.rest .value
  have valued : value ready =
      some ((), { ready with
        cursor := ⟨rest, ready.cursor.mark.after 1⟩
        columns := (entered position columns).1
        possibleKey := none
        keyAllowed := false
        reversed := ⟨ready.cursor.mark, .value⟩ ::
          ([⟨mark, name⟩, ⟨key.mark, .key⟩] ++ opened ++ before) }) := by
    unfold value
    refine (run_bind rfl).trans ?_
    rw [named.possibleKey]
    dsimp only
    refine (run_bind rfl).trans ?_
    dsimp only
    rw [named.before, inserted, named.columns]
    refine (run_bind ran).trans ?_
    refine (run_bind rfl).trans ?_
    refine (run_bind rfl).trans ?_
    exact took
  refine ⟨_, _, _, named.rest, dispatched.trans valued, ?_, ready.cursor.mark.column + 1,
    Nat.lt_succ_of_lt named.after, rfl, rfl, rfl, rfl, rfl, named.outerKeys, ?_⟩
  · rw [named.rest]
    exact Nat.lt_succ_self _
  · simp [opens, named.lexemes]

/-- A name and a colon are the key of an entry. -/
theorem Begins.reaches_key {name : List Char} (begins : Begins lexer
      (At · position (name ++ ':' :: rest) columns true given))
    (nonempty : name ≠ []) (isName : ∀ char ∈ name, isNamePart char = true)
    (short : name.length ≤ Lexer.longestKey) (ends : atWordEnd rest = true)
    (left : ∀ open' ∈ columns.head?, open' ≤ position) :
    Reaches lexer fun after => ∃ column, position < column ∧
      At after column rest (entered position columns).1 false
        (given ++ (entered position columns).2 ++ [.key, .scalar .plain name, .value]) := by
  obtain ⟨char, name, rfl⟩ := List.exists_cons_of_ne_nil nonempty
  refine (begins.reaches_name isName ends).trans fun between named => ?_
  obtain ⟨mark, before, key, named, stale, -⟩ := named
  rw [decide_eq_false (Nat.not_lt.mpr short)] at stale
  exact named.reaches stale left ends

/-- A text is refused in which a colon comes too late after a name. -/
theorem Named.refused {name : Token} {before : List Token} {key : PossibleKey}
    (named : Named lexer position (':' :: rest) columns given name before key)
    (stale : lexer.isStale key = true) (noKey : lexer.keyAllowed = false)
    (left : ∀ open' ∈ columns.head?, open' ≤ position) (ends : atWordEnd rest = true)
    (steps : Nat) : tokens steps lexer = none := by
  cases steps with
  | zero => rfl
  | succ steps =>
      have spaces : lexer.cursor.rest = padding 0 ++ ':' :: rest := named.rest
      rw [tokens_succ]
      cases required : key.required with
      | true =>
          -- A name where an entry must begin is given up at the price of the whole text.
          exact run_bind_refused
            (settle_refused spaces rfl named.possibleKey stale required)
      | false =>
          have settled := settle_spaces spaces rfl (by simp [named.outerKeys])
            (by rw [named.possibleKey]; exact fresh_given_up stale required)
          have inside : ∀ open' ∈ columns.head?, open' ≤ lexer.cursor.mark.column :=
            fun open' head => Nat.le_trans (left open' head) (Nat.le_of_lt named.after)
          have closed := @run_closeBlocks
            { lexer with cursor := ⟨':' :: rest, lexer.cursor.mark.after 0⟩, possibleKey := none }
            _ _ named.outerKeys [] named.columns (by simp) inside
          refine (run_bind settled).trans ?_
          refine (run_bind rfl).trans ?_
          refine (run_bind closed).trans ?_
          refine (run_bind rfl).trans ?_
          exact run_bind_refused (token_colon_refused rfl named.outerKeys noKey
            (Nat.lt_of_le_of_lt (Nat.zero_le _) named.after) ends)

/-- A name and a colon are the key of an entry if the name is not too long. -/
theorem Begins.leads_key {name : List Char} (begins : Begins lexer
      (At · position (name ++ ':' :: rest) columns true given))
    (nonempty : name ≠ []) (isName : ∀ char ∈ name, isNamePart char = true)
    (ends : atWordEnd rest = true) (left : ∀ open' ∈ columns.head?, open' ≤ position) :
    Leads lexer (name.length ≤ Lexer.longestKey) fun after =>
      name.length ≤ Lexer.longestKey ∧ ∃ column, position < column ∧
        At after column rest (entered position columns).1 false
          (given ++ (entered position columns).2 ++ [.key, .scalar .plain name, .value]) := by
  by_cases short : name.length ≤ Lexer.longestKey
  · exact ((begins.reaches_key nonempty isName short ends left).leads _).mono id
      fun after found => ⟨short, found⟩
  · obtain ⟨char, name, rfl⟩ := List.exists_cons_of_ne_nil nonempty
    refine (begins.reaches_name isName ends).trans_leads fun between named => ?_
    obtain ⟨mark, before, key, named, stale, noKey⟩ := named
    rw [decide_eq_true (Nat.not_le.mp short)] at stale
    exact leads_of_refused (named.refused stale noKey left ends) short

/-- A colon without a key before it may open the mapping of an entry, too. -/
theorem Begins.reaches_colon
    (begins : Begins lexer (At · position (':' :: rest) columns true given)) (right : 0 < position)
    (left : ∀ open' ∈ columns.head?, open' ≤ position) (ends : atWordEnd rest = true) :
    Reaches lexer (At · (position + 1) rest (entered position columns).1 true
      (given ++ (entered position columns).2 ++ [.value])) := by
  refine begins.reaches fun ready at' => ?_
  obtain ⟨cursor, columns', possibleKey, outerKeys, keyAllowed, reversed⟩ := ready
  obtain rfl : possibleKey = none := at'.possibleKey
  obtain rfl : keyAllowed = true := at'.keyAllowed
  obtain rfl : outerKeys = [] := at'.outerKeys
  obtain rfl : columns' = columns := at'.columns
  obtain rfl : cursor.mark.column = position := at'.column
  obtain ⟨opened, opens, ran⟩ := @run_openBlock ⟨cursor, columns', none, [], true, reversed⟩ []
    reversed cursor.mark rfl rfl left
  have took := @run_take
    ⟨cursor, (entered cursor.mark.column columns').1, none, [], true, [] ++ opened ++ reversed⟩
    [':'] rest at'.rest .value
  have valued : value ⟨cursor, columns', none, [], true, reversed⟩ =
      some ((), ⟨⟨rest, cursor.mark.after 1⟩, (entered cursor.mark.column columns').1, none, [],
        true, ⟨cursor.mark, .value⟩ :: ([] ++ opened ++ reversed)⟩) := by
    unfold value
    refine (run_bind rfl).trans ?_
    dsimp only
    refine (run_bind rfl).trans ?_
    refine (run_bind (show openBlockHere .blockMapping _ = _ from ran)).trans ?_
    refine (run_bind rfl).trans ?_
    exact took
  refine ⟨_, _, _, at'.rest, (token_colon right ends).trans valued, ?_, rfl, rfl, rfl, rfl, rfl,
    rfl, ?_⟩
  · have whole : cursor.rest = ':' :: rest := at'.rest
    rw [whole]
    exact Nat.lt_succ_self _
  · simp [opens, at'.lexemes]

/-- White space after a dash makes it that of an item. -/
theorem run_dash {ready : Lexer} {opened : List Nat} {reversed : List Token}
    (at' : At ready position ('-' :: rest) columns true given) (ends : startsIn isGap rest = true)
    (opens : openBlockHere .blockSequence ready =
      some ((), { ready with columns := opened, reversed })) :
    token '-' rest ready =
      some ((), { ready with
        cursor := ⟨rest, ready.cursor.mark.after 1⟩
        columns := opened
        keyAllowed := true
        reversed := ⟨ready.cursor.mark, .dash⟩ :: reversed }) := by
  obtain ⟨next, more, rfl⟩ : ∃ next more, rest = next :: more := by
    cases rest with
    | nil => cases ends
    | cons next more => exact ⟨next, more, rfl⟩
  have isGap' : isGap next = true := ends
  have notDash : next ≠ '-' := by
    rintro rfl
    cases isGap'
  have noMarker : ready.cursor.startsWithTriple '-' = false ∧
      ready.cursor.startsWithTriple '.' = false := by
    simp [Cursor.startsWithTriple, at'.rest, notDash]
  have dispatched : token '-' (next :: more) ready = dash ready := by
    unfold token
    refine (run_bind rfl).trans ?_
    have wordEnd : atWordEnd (next :: more) = true := ends
    simp [noMarker, wordEnd]
  have took := @run_take { ready with columns := opened, keyAllowed := true, reversed } ['-']
    (next :: more) at'.rest .dash
  rw [dispatched]
  unfold dash
  refine (run_bind rfl).trans ?_
  rw [at'.keyAllowed, Bool.or_true]
  refine (run_bind rfl).trans ?_
  refine (run_bind opens).trans ?_
  have dropped := @run_dropKey { ready with columns := opened, reversed } at'.possibleKey
  refine (run_bind dropped).trans ?_
  refine (run_bind rfl).trans ?_
  exact took

theorem at_dash {ready : Lexer} {opened : List Nat} {reversed : List Token} {more : List Lexeme}
    (at' : At ready position ('-' :: rest) columns true given)
    (lexemes : reversed.map (·.lexeme) = (given ++ more).reverse) :
    At { ready with
      cursor := ⟨rest, ready.cursor.mark.after 1⟩
      columns := opened
      keyAllowed := true
      reversed := ⟨ready.cursor.mark, .dash⟩ :: reversed }
      (position + 1) rest opened true (given ++ more ++ [.dash]) := by
  refine ⟨rfl, ?_, rfl, at'.possibleKey, rfl, at'.outerKeys, ?_⟩
  · rw [← at'.column]
    rfl
  · simp [lexemes]

/-- A dash where a block is open begins an item. -/
theorem Begins.reaches_dash {outer : List Nat}
    (begins : Begins lexer (At · position ('-' :: rest) (position :: outer) true given))
    (ends : startsIn isGap rest = true) :
    Reaches lexer (At · (position + 1) rest (position :: outer) true (given ++ [.dash])) := by
  refine begins.reaches fun ready at' => ?_
  have opened : openBlockHere .blockSequence ready =
      some ((), { ready with columns := position :: outer, reversed := ready.reversed }) := by
    have least : ready.cursor.mark.column < ready.leastColumn := by
      unfold Lexer.leastColumn
      rw [at'.columns, at'.column]
      exact Nat.lt_succ_self _
    rw [← at'.columns]
    change some ((), if _ = true then _ else _) = _
    rw [if_pos (by rw [decide_eq_true least, Bool.or_true])]
  refine ⟨_, _, _, at'.rest, run_dash at' ends opened,
    by rw [at'.rest]; exact Nat.lt_succ_self _, ?_⟩
  rw [← List.append_nil given]
  exact at_dash at' (by rw [at'.lexemes, List.append_nil])

/-- A dash further right opens a block sequence with its first item. -/
theorem Begins.reaches_firstDash
    (begins : Begins lexer (At · position ('-' :: rest) columns true given))
    (inner : ∀ open' ∈ columns.head?, open' < position) (ends : startsIn isGap rest = true) :
    Reaches lexer (At · (position + 1) rest (position :: columns) true
      (given ++ [.blockSequence] ++ [.dash])) := by
  refine begins.reaches fun ready at' => ?_
  have opened : openBlockHere .blockSequence ready =
      some ((), { ready with
        columns := position :: columns
        reversed := ⟨ready.cursor.mark, .blockSequence⟩ :: ready.reversed }) := by
    have inserted := @insertAt_eq ready [] ready.reversed rfl ready.cursor.mark .blockSequence
    have notRight : ¬ ready.cursor.mark.column < ready.leastColumn := by
      unfold Lexer.leastColumn
      rw [at'.columns, at'.column]
      cases columns with
      | nil => exact Nat.not_lt_zero _
      | cons open' columns => exact Nat.not_lt.mpr (inner open' rfl)
    change some ((), if _ = true then _ else _) = _
    rw [inBrackets_eq at'.outerKeys, Bool.false_or, decide_eq_false notRight, inserted, at'.column,
      at'.columns]
    rfl
  refine ⟨_, _, _, at'.rest, run_dash at' ends opened, by rw [at'.rest]; exact Nat.lt_succ_self _,
    at_dash at' ?_⟩
  rw [List.map_cons, at'.lexemes, List.reverse_append]
  rfl

theorem closeBlocks_none (mark : Mark) (columns : List Nat) (reversed : List Token) :
    Lexer.closeBlocks mark none columns reversed =
      ([], List.replicate columns.length ⟨mark, .blockEnd⟩ ++ reversed) := by
  induction columns generalizing reversed with
  | nil => rfl
  | cons open' columns inductionHypothesis =>
      have step : Lexer.closeBlocks mark none (open' :: columns) reversed =
          Lexer.closeBlocks mark none columns (⟨mark, .blockEnd⟩ :: reversed) := rfl
      rw [step, inductionHypothesis, List.length_cons, List.replicate_succ', List.append_assoc,
        List.singleton_append]

/-- At the end of a text all blocks end. -/
theorem Begins.tokens_end (begins : Begins lexer (At · 0 [] columns true given)) {steps : Nat}
    (enough : lexer.cursor.rest.length < steps) :
    ∃ after, tokens steps lexer = some ((), after) ∧
      after.reversed.reverse.map (·.lexeme) =
        given ++ List.replicate columns.length .blockEnd ++ [.textEnd] := by
  obtain ⟨settled, ready, ran, closed, -, at'⟩ := begins
  obtain ⟨steps, rfl, -⟩ := exists_step enough
  have ended : textEnd ready =
      some ((), { ready with
        columns := []
        reversed := ⟨ready.cursor.mark, .textEnd⟩ ::
          (List.replicate columns.length ⟨ready.cursor.mark, .blockEnd⟩ ++ ready.reversed) }) := by
    have closedAll : closeBlocks none ready =
        some ((), { ready with
          columns := []
          reversed := List.replicate columns.length ⟨ready.cursor.mark, .blockEnd⟩ ++
            ready.reversed }) := by
      change some ((), if ready.inBrackets then ready else _) = _
      rw [inBrackets_eq at'.outerKeys, closeBlocks_none, at'.columns]
      rfl
    unfold textEnd
    refine (run_bind rfl).trans ?_
    rw [if_pos at'.column]
    refine (run_bind rfl).trans ?_
    refine (run_bind closedAll).trans ?_
    have dropped := @run_dropKey
      { ready with
        columns := []
        reversed := List.replicate columns.length ⟨ready.cursor.mark, .blockEnd⟩ ++
          ready.reversed }
      at'.possibleKey
    exact (run_bind dropped).trans rfl
  have whole : tokens (steps + 1) lexer = textEnd ready := by
    rw [tokens_succ]
    refine (run_bind ran).trans ?_
    refine (run_bind rfl).trans ?_
    refine (run_bind closed).trans ?_
    refine (run_bind rfl).trans ?_
    rw [at'.rest]
  refine ⟨_, whole.trans ended, ?_⟩
  rw [List.map_reverse, List.map_cons, List.map_append, List.map_replicate, at'.lexemes]
  simp

end Blocks

end Lexing

end FaultDrill.Yaml
