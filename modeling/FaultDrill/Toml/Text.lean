import FaultDrill.Toml.Reader

/-!
Texts of TOML: between quotes, which tell whether there are escapes, or between three quotes each,
where a text may have several lines.

Owns: reading texts and keys.
-/

namespace FaultDrill.Toml

/-- The value of a hexadecimal digit. -/
def hexDigit? (char : Char) : Option Nat :=
  if '0' ≤ char ∧ char ≤ '9' then some (char.toNat - '0'.toNat)
  else if 'A' ≤ char ∧ char ≤ 'F' then some (char.toNat - 'A'.toNat + 10)
  else if 'a' ≤ char ∧ char ≤ 'f' then some (char.toNat - 'a'.toNat + 10)
  else none

/-- The character that a one-letter escape stands for. -/
def escapedChar? : Char → Option Char
  | 'b' => some '\x08'
  | 't' => some '\t'
  | 'n' => some '\n'
  | 'f' => some '\x0C'
  | 'r' => some '\r'
  | '"' => some '"'
  | '\\' => some '\\'
  | _ => none

/-- The character of a code point; surrogates and numbers past the last code point are none. -/
def charOf? (codePoint : Nat) : Option Char :=
  if codePoint < 0xD800 ∨ (0xDFFF < codePoint ∧ codePoint < 0x110000) then
    some (Char.ofNat codePoint)
  else none

namespace Reader

/-- Takes hexadecimal digits after a number. -/
def hexNumber : Nat → Nat → Reader Nat
  | 0, value => return value
  | count + 1, value => do
    let digit ← hexDigit? (← one fun _ => true)
    hexNumber count (value * 16 + digit)

/-- Takes an escape after its backslash. -/
def escape : Reader Char := do
  match ← one fun _ => true with
  | 'u' => charOf? (← hexNumber 4 0)
  | 'U' => charOf? (← hexNumber 8 0)
  | letter => escapedChar? letter

/-- Takes the rest of a text in double quotes; `steps` bounds its length. -/
def basicTail : Nat → Reader (List Char)
  | 0 => failure
  | steps + 1 => do
    match ← one isPlain with
    | '"' => return []
    | '\\' =>
      let char ← escape
      return char :: (← basicTail steps)
    | char => return char :: (← basicTail steps)

/-- Takes the rest of a text in single quotes. -/
def literalTail : Reader (List Char) := do
  let text ← takeWhile fun char => isPlain char && char != '\''
  char '\''
  return text

/-- Takes an escaped line end after its backslash, with all white space after it, if it is one. -/
def escapedLineEnd? : Reader Bool := do
  let start ← get
  blanks
  if ← lineBreak? then
    let _ ← takeWhile isBlank
    skipLines ((← rest).length + 1)
    return true
  else
    set start
    return false
where
  /-- Takes lines that hold nothing, and the white space of the line after them. -/
  skipLines : Nat → Reader Unit
    | 0 => return ()
    | steps + 1 => do
      blanks
      if ← lineBreak? then skipLines steps

/-- Takes the quotes at the end of a text of several lines: three end it, and up to two before
them belong to it. -/
def closingQuotes (quote : Char) : Reader (Option (List Char)) := do
  let run := (← rest).takeWhile (· == quote)
  if run.length < 3 then
    skip run.length
    return none
  else
    let inside := min (run.length - 3) 2
    skip (inside + 3)
    return some (List.replicate inside quote)

/-- Takes the rest of a text between three quotes each; `escapes` tells whether it has escapes and
`steps` bounds its length. -/
def multilineTail (quote : Char) (escapes : Bool) : Nat → Reader (List Char)
  | 0 => failure
  | steps + 1 => do
    let quotes := (← rest).takeWhile (· == quote)
    if !quotes.isEmpty then
      match ← closingQuotes quote with
      | some inside => return inside
      | none => return quotes ++ (← multilineTail quote escapes steps)
    else if ← lineBreak? then return '\n' :: (← multilineTail quote escapes steps)
    else
      let char ← one isPlain
      if escapes && char == '\\' then
        if ← escapedLineEnd? then multilineTail quote escapes steps
        else
          let char ← escape
          return char :: (← multilineTail quote escapes steps)
      else return char :: (← multilineTail quote escapes steps)

/-- Takes a text between three quotes each, after the first three. A line break right after them
does not count. -/
def multiline (quote : Char) (escapes : Bool) : Reader (List Char) := do
  let _ ← lineBreak?
  multilineTail quote escapes ((← rest).length + 1)

/-- Takes a text on one line. -/
def lineText (quote : Char) : Reader (List Char) := do
  skip 1
  if quote = '"' then basicTail ((← rest).length + 1) else literalTail

/-- Takes a text that begins with a quote. -/
def text (quote : Char) : Reader (List Char) := do
  if ← tryTake [quote, quote, quote] then multiline quote (quote == '"')
  else lineText quote

/-- Takes a key of one part. -/
def simpleKey : Reader Key := do
  let (name, span) ← withSpan do
    match ← rest with
    | '"' :: _ => lineText '"'
    | '\'' :: _ => lineText '\''
    | _ =>
      let name ← takeWhile isKeyChar
      require (!name.isEmpty)
      return name
  return ⟨name, span⟩

/-- How many parts a key may not have. -/
def pathLimit : Nat := 80

/-- Takes the parts of a key, with white space around each; `steps` bounds their number. -/
def keyParts : Nat → Reader (List Key)
  | 0 => failure
  | steps + 1 => do
    blanks
    let key ← simpleKey
    blanks
    if ← tryTake ['.'] then return key :: (← keyParts steps) else return [key]

/-- Takes a key: the parts before the last one, and the last one. -/
def key : Reader (List Key × Key) := do
  let parts ← keyParts ((← rest).length + 1)
  require (parts.length < pathLimit)
  match parts.reverse with
  | last :: path => return (path.reverse, last)
  | [] => failure

end Reader

end FaultDrill.Toml
