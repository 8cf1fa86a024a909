import FaultDrill.Document.Shape
import FaultDrill.Yaml.Scalar

/-!
Documents as YAML.

Owns:
- the choice between plain, quoted and literal scalars;
- the text of a scalar in each style;
- the layout: entries and items on lines of their own, the items of a list no further right than
  its key, empty lists as brackets.
-/

namespace FaultDrill.Yaml

/-! ## Which style suits a text -/

/-- The styles that are written. -/
inductive WrittenStyle where
  | plain
  | single
  | double
  | literal
  deriving DecidableEq, Repr

/-- Characters that need no escape. -/
def isPrintable (char : Char) : Bool :=
  char == '\n' || (' ' ≤ char && char ≤ '~') ||
    ('\u00A0' ≤ char && char ≤ '\uFFFD' && char != byteOrderMark) || 0x10000 ≤ char.toNat

/-- Whether a character that may begin a plain scalar nowhere begins the text, or one that may do
so only inside a word stands alone. -/
def startsWithIndicator : List Char → Bool
  | [] => false
  | char :: rest =>
    "#,[]\x7b\x7d&*!|>'\"%@\x60".contains char ||
      ((char == '?' || char == ':' || char == '-') && atWordEnd rest)

/-- Whether a colon ends a word, or a number sign begins one after the first; `previous` is the
character before the text. -/
def hasIndicator (previous : Char) : List Char → Bool
  | [] => false
  | char :: rest =>
    (char == ':' && atWordEnd rest) || (char == '#' && isGap previous) || hasIndicator char rest

/-- Whether three hyphens or points begin a text. -/
def startsLikeMarker (chars : List Char) : Bool :=
  chars.take 3 == ['-', '-', '-'] || chars.take 3 == ['.', '.', '.']

/-- Whether two characters follow each other somewhere in a text, each in its class. -/
def hasPair (first second : Char → Bool) : List Char → Bool
  | char :: next :: rest => (first char && second next) || hasPair first second (next :: rest)
  | _ => false

/-- Whether a character is the blank that is written. -/
def isSpace (char : Char) : Bool := char == ' '

/-- Whether a text reads as something else than a text if it is plain. -/
def isAmbiguous (chars : List Char) : Bool :=
  match Scalar.meaning chars with
  | .text _ => Scalar.hasSurplusNought chars
  | _ => true

/-- Whether every character is printable and no blank stands before a line break. -/
def isRegular (chars : List Char) : Bool :=
  chars.all isPrintable && !hasPair isSpace isBreak chars

/-- Whether a text may be written literally. -/
def literalAllowed (chars : List Char) : Bool :=
  isRegular chars && !chars.getLast?.any isSpace

/-- Whether a text may be written in single quotes. -/
def singleAllowed (chars : List Char) : Bool :=
  isRegular chars && !hasPair isBreak isSpace chars

/-- Whether a text may be written without quotes. -/
def plainAllowed (chars : List Char) : Bool :=
  isRegular chars && !chars.any isBreak && !chars.head?.any isSpace &&
    !chars.getLast?.any isSpace && !startsLikeMarker chars && !startsWithIndicator chars &&
    !hasIndicator 'x' chars

/-- The style of a text: literal for several lines, else plain unless it would be misread. -/
def styleOf (chars : List Char) : WrittenStyle :=
  if chars.contains '\n' then if literalAllowed chars then .literal else .double
  else if !isAmbiguous chars && plainAllowed chars then .plain
  else if singleAllowed chars then .single
  else .double

/-! ## The text of a scalar -/

/-- Blanks up to a column. -/
def padding (column : Nat) : List Char := List.replicate column ' '

/-- A text inside single quotes. After a line break the text goes on at column `indent`. -/
def singleBody (indent : Nat) : Bool → List Char → List Char
  | afterBreak, [] => if afterBreak then padding indent else []
  | afterBreak, char :: rest =>
    if isBreak char then char :: singleBody indent true rest
    else
      (if afterBreak then padding indent else []) ++
        (if char = '\'' then ['\'', '\''] else [char]) ++ singleBody indent false rest

/-- A hexadecimal digit in upper case. -/
def upperHexDigit (value : Nat) : Char :=
  if value < 10 then Char.ofNat (0x30 + value) else Char.ofNat (0x41 + value - 10)

/-- The last `count` hexadecimal digits of a number. -/
def upperHex : Nat → Nat → List Char
  | 0, _ => []
  | count + 1, value => upperHex count (value / 16) ++ [upperHexDigit (value % 16)]

/-- The letter of the short escape of a character, if it has one. -/
def escapeLetter? : Char → Option Char
  | '\x00' => some '0'
  | '\x07' => some 'a'
  | '\x08' => some 'b'
  | '\t' => some 't'
  | '\n' => some 'n'
  | '\x0B' => some 'v'
  | '\x0C' => some 'f'
  | '\r' => some 'r'
  | '\x1B' => some 'e'
  | '"' => some '"'
  | '\\' => some '\\'
  | '\u0085' => some 'N'
  | '\u2028' => some 'L'
  | '\u2029' => some 'P'
  | _ => none

/-- A character inside double quotes. -/
def doubleChar (char : Char) : List Char :=
  match escapeLetter? char with
  | some letter => ['\\', letter]
  | none =>
    if isPrintable char then [char]
    else if char.toNat < 0x100 then '\\' :: 'x' :: upperHex 2 char.toNat
    else '\\' :: 'u' :: upperHex 4 char.toNat

/-- The lines of a literal scalar at column `indent`, with the end of the last line. -/
def literalBody (indent : Nat) : Bool → List Char → List Char
  | atStart, [] => if atStart then [] else ['\n']
  | atStart, char :: rest =>
    if isBreak char then char :: literalBody indent true rest
    else (if atStart then padding indent else []) ++ char :: literalBody indent false rest

/-- The header of a literal scalar: its indentation where the first character does not show it,
and what happens to the line breaks at its end. -/
def literalHeader (chars : List Char) : List Char :=
  '|' :: (if startsIn (fun char => isSpace char || isBreak char) chars then ['2'] else []) ++
    (match chars.reverse with
    | last :: previous =>
      if !isBreak last then ['-'] else if endsOr isBreak previous then ['+'] else []
    | [] => ['-'])

/-- A text as a scalar up to the end of its last line; further lines stand at column `indent`. -/
def scalarText (indent : Nat) (chars : List Char) : List Char :=
  match styleOf chars with
  | .plain => chars ++ ['\n']
  | .single => '\'' :: singleBody indent false chars ++ ['\'', '\n']
  | .double => '"' :: chars.flatMap doubleChar ++ ['"', '\n']
  | .literal => literalHeader chars ++ '\n' :: literalBody indent true chars

/-! ## Layout -/

/-- The collection that a value is part of, by its column; the whole document has none. -/
abbrev Outer := Option Nat

/-- A value from the colon or the dash before it up to the end of its last line. -/
abbrev Written := Outer → List Char

/-- What separates a value from the colon or the dash before it. -/
def Outer.gap : Outer → List Char
  | none => []
  | some _ => [' ']

/-- The column at which the content of a value stands. -/
def Outer.contentColumn : Outer → Nat
  | none => 0
  | some column => column + 2

/-- An entry of a mapping at a column. -/
def writeEntry (column : Nat) (entry : String × Written) : List Char :=
  entry.1.toList ++ ':' :: entry.2 (some column)

/-- The entries of a mapping at a column; the first one stands where the text has got to. -/
def writeEntries (column : Nat) : List (String × Written) → List Char
  | [] => []
  | entry :: rest =>
    writeEntry column entry ++ rest.flatMap fun entry => padding column ++ writeEntry column entry

/-- The items of a list at a column. -/
def writeItems (column : Nat) (items : List Written) : List Char :=
  items.flatMap fun item => padding column ++ '-' :: item (some column)

/-- The parts of a document in YAML. -/
def writing : Writing Written where
  text text outer := Outer.gap outer ++ scalarText (Outer.contentColumn outer) text.toList
  count count outer := Outer.gap outer ++ Nat.toDigits 10 count.toNat ++ ['\n']
  list items outer :=
    if items.isEmpty then Outer.gap outer ++ "[]\n".toList
    else if outer.isSome then '\n' :: writeItems (outer.getD 0) items
    else writeItems 0 items
  record fields outer := Outer.gap outer ++ writeEntries (Outer.contentColumn outer) fields

/-- The text of a document. -/
def encode (document : Document) : String :=
  String.ofList (writing.document document none)

end FaultDrill.Yaml
