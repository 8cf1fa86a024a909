import FaultDrill.Document.Shape

/-!
Documents as TOML.

Owns:
- the choice of quotes for a text, and the text between them;
- the layout: values of a table first, a header in double brackets for every record of a list.

A text is written with quotes that need no escapes if there are such, preferably double ones, and
on one line if it has only one.
-/

namespace FaultDrill.Toml

/-! ## Texts -/

/-- Characters that are always written as escapes. -/
def isControl (char : Char) : Bool :=
  (char.toNat < 0x20 && char != '\t' && char != '\n') || char == '\x7F'

/-- The length of the longest run of a character. -/
def longestRun (wanted : Char) : Nat → List Char → Nat
  | run, [] => run
  | run, char :: rest =>
    if char = wanted then longestRun wanted (run + 1) rest
    else max run (longestRun wanted 0 rest)

/-- The quotes of a text. -/
structure Quoting where
  quote : Char
  multiline : Bool
  deriving DecidableEq, Repr

/-- Double quotes allow escapes. -/
def Quoting.escapes (quoting : Quoting) : Bool := quoting.quote == '"'

/-- The quotes that suit a text. -/
def quotingOf (text : List Char) : Quoting :=
  let control := text.any isControl
  let backslash := text.contains '\\'
  let lines := text.contains '\n'
  let doubles := longestRun '"' 0 text
  let singles := longestRun '\'' 0 text
  if !control && !backslash && doubles == 0 && !lines then ⟨'"', false⟩
  else if !control && singles == 0 && !lines then ⟨'\'', false⟩
  else if !control && !backslash && doubles ≤ 2 then ⟨'"', true⟩
  else if !control && singles ≤ 2 then ⟨'\'', true⟩
  else ⟨'"', lines⟩

/-- A hexadecimal digit in upper case. -/
def upperHexDigit (value : Nat) : Char :=
  if value < 10 then Char.ofNat (0x30 + value) else Char.ofNat (0x41 + value - 10)

/-- The escape of a character other than a quote, if it needs one; line breaks need none in a text
of several lines. -/
def escape? (multiline : Bool) (char : Char) : Option (List Char) :=
  match char with
  | '\x08' => some ['\\', 'b']
  | '\t' => some ['\\', 't']
  | '\n' => if multiline then none else some ['\\', 'n']
  | '\x0C' => some ['\\', 'f']
  | '\r' => some ['\\', 'r']
  | '\\' => some ['\\', '\\']
  | _ =>
    if isControl char then
      some ['\\', 'u', '0', '0', upperHexDigit (char.toNat / 16), upperHexDigit (char.toNat % 16)]
    else none

/-- A text with escapes. In a text of several lines two quotes may stand side by side, and `run`
counts those that do. -/
def escaped (multiline : Bool) : Nat → List Char → List Char
  | _, [] => []
  | run, char :: rest =>
    if char = '"' then
      if run < (if multiline then 2 else 0) then '"' :: escaped multiline (run + 1) rest
      else '\\' :: '"' :: escaped multiline 0 rest
    else (escape? multiline char).getD [char] ++ escaped multiline 0 rest

/-- A text between its quotes. A text of several lines begins on a line of its own. -/
def textLiteral (text : List Char) : List Char :=
  let quoting := quotingOf text
  let quotes := List.replicate (if quoting.multiline then 3 else 1) quoting.quote
  quotes ++ (if quoting.multiline && text.contains '\n' then ['\n'] else []) ++
    (if quoting.escapes then escaped quoting.multiline 0 text else text) ++ quotes

/-! ## Layout -/

/-- A written part of a document: a value on a line, the lines of a record, or those of several
records. Only the outermost record holds several records. -/
inductive Written where
  | inline (text : List Char)
  | lines (text : List Char)
  | sections (texts : List (List Char))
  deriving DecidableEq, Repr

namespace Written

/-- The text of a value on a line. -/
def inlineText? : Written → Option (List Char)
  | .inline text => some text
  | _ => none

/-- The lines of a record. -/
def linesText? : Written → Option (List Char)
  | .lines text => some text
  | _ => none

/-- Texts with something between them. -/
def separated (separator : List Char) : List (List Char) → List Char
  | [] => []
  | first :: rest => first ++ rest.flatMap (separator ++ ·)

/-- The line of a field with a value. -/
def fieldLine (field : String × Written) : List Char :=
  match field.2.inlineText? with
  | some text => field.1.toList ++ " = ".toList ++ text ++ ['\n']
  | none => []

/-- The lines of the records of a field, each after its header. -/
def fieldSections (field : String × Written) : List (List Char) :=
  match field.2 with
  | .sections texts => texts.map fun text => "[[".toList ++ field.1.toList ++ "]]\n".toList ++ text
  | _ => []

/-- The lines of a record: values, then sections after blank lines. -/
def recordText (fields : List (String × Written)) : List Char :=
  let values := fields.flatMap fieldLine
  separated ['\n'] ((if values.isEmpty then [] else [values]) ++ fields.flatMap fieldSections)

end Written

/-- The parts of a document in TOML. -/
def writing : Writing Written where
  text text := .inline (textLiteral text.toList)
  count count := .inline (Nat.toDigits 10 count.toNat)
  list items :=
    match items.filterMap Written.linesText? with
    | [] =>
      .inline ('[' :: Written.separated [',', ' '] (items.filterMap Written.inlineText?) ++ [']'])
    | texts => .sections texts
  record fields := .lines (Written.recordText fields)

/-- The text of a document. -/
def encode (document : Document) : String :=
  String.ofList ((writing.document document).linesText?.getD [])

end FaultDrill.Toml
