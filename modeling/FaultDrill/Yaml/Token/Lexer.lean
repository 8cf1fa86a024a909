import FaultDrill.Yaml.Token.Block
import FaultDrill.Yaml.Token.Plain
import FaultDrill.Yaml.Token.Tag

/-!
The tokens of a YAML text.

Owns:
- the state between two tokens: open blocks, and places where a key may turn out to have begun;
- one step for every kind of token;
- the tokens of a whole text.

A colon makes a key of what stands before it. The token of the key, and that of the block mapping
which it may open, then belong before tokens that were already found, so the state remembers where
a key could begin.
-/

namespace FaultDrill.Yaml

/-- A place where a key may have begun: the number of tokens before it, and whether the text is
refused if it turns out to be no key. -/
structure PossibleKey where
  required : Bool
  position : Nat
  mark : Mark
  deriving DecidableEq, Repr

/-- The state between two tokens: the columns of the open block collections, the possible key of
the innermost brackets and those of the brackets around them, whether a key may begin here, and
the tokens so far, the latest first. -/
structure Lexer where
  cursor : Cursor
  columns : List Nat := []
  possibleKey : Option PossibleKey := none
  outerKeys : List (Option PossibleKey) := []
  keyAllowed : Bool := true
  reversed : List Token := []
  deriving Repr

/-- A step that changes the state; `none` means that the text is not well formed. -/
abbrev Lexing := StateT Lexer Option

namespace Lexer

/-- Whether some brackets are open. -/
def inBrackets (lexer : Lexer) : Bool := !lexer.outerKeys.isEmpty

/-- The column at which the content of the innermost block collection may begin. -/
def leastColumn (lexer : Lexer) : Nat :=
  match lexer.columns with
  | [] => 0
  | column :: _ => column + 1

/-- The longest key that may turn out to be one, in characters. -/
def longestKey : Nat := 1024

/-- Whether a key that began at a place can no longer end here. -/
def isStale (lexer : Lexer) (key : PossibleKey) : Bool :=
  key.mark.line < lexer.cursor.mark.line ||
    key.mark.index + longestKey < lexer.cursor.mark.index

/-- Adds a token at the end. -/
def push (lexer : Lexer) (mark : Mark) (lexeme : Lexeme) : Lexer :=
  { lexer with reversed := ⟨mark, lexeme⟩ :: lexer.reversed }

/-- Adds a token after the first `position` tokens. -/
def insertAt (lexer : Lexer) (position : Nat) (mark : Mark) (lexeme : Lexeme) : Lexer :=
  let later := lexer.reversed.length - position
  { lexer with
    reversed := lexer.reversed.take later ++ ⟨mark, lexeme⟩ :: lexer.reversed.drop later }

/-- Ends the block collections that stand further right than a column. -/
def closeBlocks (mark : Mark) (column : Option Nat) :
    List Nat → List Token → List Nat × List Token
  | [], reversed => ([], reversed)
  | open' :: outer, reversed =>
    if (match column with
      | none => true
      | some column => column < open') then
      closeBlocks mark column outer (⟨mark, .blockEnd⟩ :: reversed)
    else (open' :: outer, reversed)

end Lexer

namespace Lexing

/-- Stops unless a condition holds. -/
def require (condition : Bool) : Lexing Unit := if condition then return () else failure

/-- Reads on from the cursor. -/
def read {Value : Type} (scan : Scan Value) : Lexing Value := do
  let lexer ← get
  let (value, cursor) ← (scan lexer.cursor : Option (Value × Cursor))
  set { lexer with cursor }
  return value

/-- The present place. -/
def mark : Lexing Mark := return (← get).cursor.mark

/-- Adds a token at the end. -/
def push (mark : Mark) (lexeme : Lexeme) : Lexing Unit := modify (·.push mark lexeme)

/-- Says whether a key may begin here. -/
def allowKey (keyAllowed : Bool) : Lexing Unit := modify ({ · with keyAllowed })

/-- A possible key that was required and is given up. -/
def refuseRequired (key : Option PossibleKey) : Lexing Unit :=
  require (!key.any (·.required))

/-- Gives up the possible key. -/
def dropKey : Lexing Unit := do
  refuseRequired (← get).possibleKey
  modify ({ · with possibleKey := none })

/-- Notes that a key may begin here. -/
def noteKey : Lexing Unit := do
  let lexer ← get
  if lexer.keyAllowed then
    let mark := lexer.cursor.mark
    let required := !lexer.inBrackets && lexer.columns.head? == some mark.column
    dropKey
    modify ({ · with
      possibleKey := some { required, position := lexer.reversed.length, mark } })

/-- Gives up a key that can no longer end here. -/
def fresh (key : Option PossibleKey) : Lexing (Option PossibleKey) := do
  let lexer ← get
  match key with
  | some key =>
    if lexer.isStale key then
      require (!key.required)
      return none
    else return some key
  | none => return none

/-- Gives up all keys that can no longer end here. -/
def dropStaleKeys : Lexing Unit := do
  let lexer ← get
  let possibleKey ← fresh lexer.possibleKey
  let outerKeys ← lexer.outerKeys.mapM fresh
  modify ({ · with possibleKey, outerKeys })

/-- Ends the block collections that stand further right than a column, all of them if there is
none. Inside brackets nothing ends. -/
def closeBlocks (column : Option Nat) : Lexing Unit :=
  modify fun lexer =>
    if lexer.inBrackets then lexer
    else
      let (columns, reversed) :=
        Lexer.closeBlocks lexer.cursor.mark column lexer.columns lexer.reversed
      { lexer with columns, reversed }

/-- Begins a block collection at a column, unless one is already open there or further right, with
its token after the first `position` tokens. Inside brackets nothing begins. -/
def openBlock (lexeme : Lexeme) (position : Nat) (mark : Mark) : Lexing Unit :=
  modify fun lexer =>
    if lexer.inBrackets || mark.column < lexer.leastColumn then lexer
    else { lexer.insertAt position mark lexeme with columns := mark.column :: lexer.columns }

/-- Begins a block collection here. -/
def openBlockHere (lexeme : Lexeme) : Lexing Unit := do
  let lexer ← get
  openBlock lexeme lexer.reversed.length lexer.cursor.mark

/-- Adds a token of some characters that stand here. -/
def take (count : Nat) (lexeme : Lexeme) : Lexing Unit := do
  let mark ← mark
  read (Scan.skip count)
  push mark lexeme

/-! ## Between tokens -/

/-- Passes over blanks, comments and line breaks. A tab may stand where no key may begin. A line
break outside brackets allows a key. `steps` bounds the number of lines. -/
def skipGap : Nat → Lexing Unit
  | 0 => return ()
  | steps + 1 => do
    let lexer ← get
    let tabs := lexer.inBrackets || !lexer.keyAllowed
    read do
      if (← Scan.mark).column = 0 then
        if ← Scan.nextIs (· == byteOrderMark) then Scan.skip 1
      Scan.skipWhile (fun char => char == ' ' || (tabs && char == '\t'))
      if ← Scan.nextIs (· == '#') then Scan.skipWhile (fun char => !isBreak char)
    if startsIn isBreak (← get).cursor.rest then
      modify fun lexer =>
        { lexer with
          cursor := lexer.cursor.skipBreak
          keyAllowed := lexer.keyAllowed || !lexer.inBrackets }
      skipGap steps

/-! ## Tokens -/

/-- The end of the text. -/
def textEnd : Lexing Unit := do
  let mark ← mark
  let mark := if mark.column = 0 then mark else { mark with line := mark.line + 1, column := 0 }
  modify fun lexer => { lexer with cursor := { lexer.cursor with mark } }
  closeBlocks none
  dropKey
  push mark .textEnd

/-- A token of a line that starts or ends a document, or of a directive. -/
def documentLine (token : Lexing Unit) : Lexing Unit := do
  closeBlocks none
  dropKey
  allowKey false
  token

/-- A directive. -/
def directive : Lexing Unit := do
  let mark ← mark
  let lexeme ← read Scan.directive
  push mark lexeme

/-- An opening bracket. -/
def openBracket (lexeme : Lexeme) : Lexing Unit := do
  noteKey
  modify fun lexer =>
    { lexer with
      possibleKey := none
      outerKeys := lexer.possibleKey :: lexer.outerKeys
      keyAllowed := true }
  take 1 lexeme

/-- A closing bracket. -/
def closeBracket (lexeme : Lexeme) : Lexing Unit := do
  dropKey
  modify fun lexer =>
    match lexer.outerKeys with
    | [] => lexer
    | possibleKey :: outerKeys => { lexer with possibleKey, outerKeys }
  allowKey false
  take 1 lexeme

/-- A comma inside brackets. -/
def comma : Lexing Unit := do
  dropKey
  allowKey true
  take 1 .comma

/-- The dash of an item. -/
def dash : Lexing Unit := do
  let lexer ← get
  require (lexer.inBrackets || lexer.keyAllowed)
  openBlockHere .blockSequence
  dropKey
  allowKey true
  take 1 .dash

/-- The question mark of a key. -/
def key : Lexing Unit := do
  let lexer ← get
  require (lexer.inBrackets || lexer.keyAllowed)
  openBlockHere .blockMapping
  dropKey
  allowKey (!lexer.inBrackets)
  take 1 .key

/-- The colon of a value. -/
def value : Lexing Unit := do
  let lexer ← get
  match lexer.possibleKey with
  | some key =>
    modify (·.insertAt key.position key.mark .key)
    openBlock .blockMapping key.position key.mark
    modify ({ · with possibleKey := none })
    allowKey false
  | none =>
    require (lexer.inBrackets || lexer.keyAllowed)
    openBlockHere .blockMapping
    allowKey (!lexer.inBrackets)
  take 1 .value

/-- A token that may begin a key. -/
def keyStart (scan : Scan Lexeme) : Lexing Unit := do
  noteKey
  allowKey false
  let mark ← mark
  let lexeme ← read scan
  push mark lexeme

/-- A block scalar. -/
def block (folded : Bool) : Lexing Unit := do
  dropKey
  allowKey true
  let lexer ← get
  let text ← read (Scan.block folded lexer.leastColumn)
  push lexer.cursor.mark (.scalar (if folded then .other else .literal) text)

/-- A plain scalar. -/
def plain : Lexing Unit := do
  noteKey
  let lexer ← get
  let (text, passedLine) ← read (Scan.plain lexer.inBrackets lexer.leastColumn)
  allowKey passedLine
  push lexer.cursor.mark (.scalar .plain text)

/-- Characters that cannot begin a plain scalar. -/
def isReserved (char : Char) : Bool := "-?:,[]\x7b\x7d#&*!|>'\"%@\x60".contains char

/-- The token that begins with a character; `rest` follows that character. -/
def token (char : Char) (rest : List Char) : Lexing Unit := do
  let lexer ← get
  if char = '%' ∧ lexer.cursor.mark.column = 0 then documentLine directive
  else if lexer.cursor.startsWithTriple '-' then documentLine (take 3 .documentStart)
  else if lexer.cursor.startsWithTriple '.' then documentLine (take 3 .documentEnd)
  else if char = '[' then openBracket .listOpen
  else if char = '{' then openBracket .mapOpen
  else if char = ']' then closeBracket .listClose
  else if char = '}' then closeBracket .mapClose
  else if char = ',' then comma
  else if char = '-' ∧ atWordEnd rest then dash
  else if char = '?' ∧ (lexer.inBrackets ∨ atWordEnd rest) then key
  else if char = ':' ∧ (lexer.inBrackets ∨ atWordEnd rest) then value
  else if char = '*' then keyStart (return .alias (← Scan.name))
  else if char = '&' then keyStart (return .anchor (← Scan.name))
  else if char = '!' then keyStart (Scan.tag lexer.inBrackets)
  else if char = '|' ∧ !lexer.inBrackets then block false
  else if char = '>' ∧ !lexer.inBrackets then block true
  else if char = '\'' then keyStart (return .scalar .other (← Scan.quoted true))
  else if char = '"' then keyStart (return .scalar .other (← Scan.quoted false))
  else if char = '-' ∨ char = '?' ∨ char = ':' ∨ !(isReserved char || isGap char) then plain
  else failure

/-- All tokens from here on; `steps` bounds their number. -/
def tokens : Nat → Lexing Unit
  | 0 => failure
  | steps + 1 => do
    skipGap ((← get).cursor.rest.length + 1)
    dropStaleKeys
    closeBlocks (some (← mark).column)
    match (← get).cursor.rest with
    | [] => textEnd
    | char :: rest =>
      token char rest
      tokens steps

end Lexing

/-- The tokens of a text, if they are well formed. A text holds allowed characters only. -/
def Token.scan (text : List Char) : Option (List Token) :=
  if text.all isAllowed then
    match Lexing.tokens (text.length + 1) { cursor := { rest := text } } with
    | some ((), lexer) => some lexer.reversed.reverse
    | none => none
  else none

end FaultDrill.Yaml
