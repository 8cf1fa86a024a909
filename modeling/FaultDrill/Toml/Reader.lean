import FaultDrill.Toml.Tree

/-!
Reading the characters of a TOML text.

Owns: the cursor, the classes of characters, and white space, comments and line ends.
-/

namespace FaultDrill.Toml

/-- What is left of a text and the number of characters before it. -/
structure Cursor where
  rest : List Char
  position : Nat := 0
  deriving DecidableEq, Repr

/-- A step of reading; `none` means that the text is not well formed. -/
abbrev Reader := StateT Cursor Option

/-- White space inside a line. -/
def isBlank (char : Char) : Bool := char == ' ' || char == '\t'

/-- Characters that need no escape anywhere but where they have a meaning of their own. -/
def isPlain (char : Char) : Bool :=
  char == '\t' || (' ' ≤ char && char ≤ '~') || 0x80 ≤ char.toNat

/-- Characters of keys without quotes. -/
def isKeyChar (char : Char) : Bool := char.isAlphanum || char == '-' || char == '_'

namespace Reader

/-- The characters that are left. -/
def rest : Reader (List Char) := return (← get).rest

/-- Stops unless a condition holds. -/
def require (condition : Bool) : Reader Unit := if condition then return () else failure

/-- Passes over some characters. -/
def skip (count : Nat) : Reader Unit :=
  modify fun cursor => ⟨cursor.rest.drop count, cursor.position + count⟩

/-- Takes a run of characters. -/
def takeWhile (class' : Char → Bool) : Reader (List Char) := do
  let run := (← rest).takeWhile class'
  skip run.length
  return run

/-- Takes a character of a class. -/
def one (class' : Char → Bool) : Reader Char := do
  match ← rest with
  | char :: _ =>
    require (class' char)
    skip 1
    return char
  | [] => failure

/-- Takes a fixed character. -/
def char (char : Char) : Reader Unit := do
  let _ ← one (· == char)

/-- Takes fixed characters if they stand here. -/
def tryTake (chars : List Char) : Reader Bool := do
  if chars.isPrefixOf (← rest) then
    skip chars.length
    return true
  else return false

/-- Takes white space of the line. -/
def blanks : Reader Unit := do
  let _ ← takeWhile isBlank

/-- Takes a line break, if there is one. -/
def lineBreak? : Reader Bool := do
  if ← tryTake ['\n'] then return true else tryTake ['\r', '\n']

/-- Takes a comment, if there is one. -/
def comment : Reader Unit := do
  if ← tryTake ['#'] then
    let _ ← takeWhile isPlain

/-- Takes the end of a line: white space, a comment, and a line break or the end of the text. -/
def lineEnd : Reader Unit := do
  blanks
  comment
  if !(← lineBreak?) then require (← rest).isEmpty

/-- Takes white space, comments and line breaks; `steps` bounds the number of lines. -/
def spaces : Nat → Reader Unit
  | 0 => return ()
  | steps + 1 => do
    blanks
    comment
    if ← lineBreak? then spaces steps

/-- Takes all white space, comments and line breaks. -/
def allSpaces : Reader Unit := do
  spaces ((← rest).length + 1)

/-- What a reader takes and where it stands. -/
def withSpan {Value : Type} (reader : Reader Value) : Reader (Value × Span) := do
  let start := (← get).position
  let value ← reader
  return (value, ⟨start, (← get).position⟩)

end Reader

end FaultDrill.Toml
