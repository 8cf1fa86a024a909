/-!
Moving through the characters of a YAML text.

Owns:
- places in a text, counted in characters;
- blanks and line breaks, and which characters a text may hold at all;
- cursors: what is left to read and the place where it stands;
- taking runs of characters and passing over line breaks.

Does not own: what the characters mean.
-/

namespace FaultDrill.Yaml

/-- A place: the number of characters before it, the number of lines before its line, and the
number of characters before it on its line. -/
structure Mark where
  index : Nat := 0
  line : Nat := 0
  column : Nat := 0
  deriving DecidableEq, Repr, Inhabited

/-- The place after some characters of the same line. -/
def Mark.after (mark : Mark) (count : Nat) : Mark :=
  { mark with index := mark.index + count, column := mark.column + count }

/-- The place after a line break of some characters. -/
def Mark.afterBreak (mark : Mark) (count : Nat) : Mark :=
  { index := mark.index + count, line := mark.line + 1, column := 0 }

/-- Blanks separate words on a line. -/
def isBlank (char : Char) : Bool := char == ' ' || char == '\t'

/-- Characters that end a line. -/
def isBreak (char : Char) : Bool :=
  char == '\r' || char == '\n' || char == '\u0085' || char == '\u2028' || char == '\u2029'

/-- The mark that may stand before a text. -/
def byteOrderMark : Char := '\uFEFF'

/-- Characters that a text may hold outside escapes. -/
def isAllowed (char : Char) : Bool :=
  char == '\t' || char == '\n' || char == '\r' || (' ' ≤ char && char ≤ '~') ||
    char == '\u0085' || ('\u00A0' ≤ char && char ≤ '\uFFFD') || 0x10000 ≤ char.toNat

/-- Letters, digits, hyphen and underscore: the characters of names. -/
def isNameChar (char : Char) : Bool := char.isAlphanum || char == '-' || char == '_'

/-- The line break that stands for a given one: three breaks mean a new line, two keep their own
character. -/
def normalBreak (char : Char) : Char :=
  if char == '\u2028' || char == '\u2029' then char else '\n'

/-- The place after some characters; a carriage return and a line feed are one line break. -/
def Mark.through (mark : Mark) : List Char → Mark
  | [] => mark
  | '\r' :: '\n' :: rest => (mark.afterBreak 2).through rest
  | char :: rest =>
    if isBreak char then (mark.afterBreak 1).through rest else (mark.after 1).through rest

/-- Whether a text ends or goes on with a character of a class. -/
def endsOr (class' : Char → Bool) : List Char → Bool
  | [] => true
  | char :: _ => class' char

/-- Whether a text goes on with a character of a class. -/
def startsIn (class' : Char → Bool) : List Char → Bool
  | [] => false
  | char :: _ => class' char

/-- Whether a line ends here. -/
def atLineEnd (chars : List Char) : Bool := endsOr isBreak chars

/-- Blanks and line breaks separate words. -/
def isGap (char : Char) : Bool := isBlank char || isBreak char

/-- Whether a word ends here. -/
def atWordEnd (chars : List Char) : Bool := endsOr isGap chars

/-- The rest of a text and its place. -/
structure Cursor where
  rest : List Char
  mark : Mark := {}
  deriving DecidableEq, Repr, Inhabited

/-- A step of reading; `none` means that the text is not well formed. -/
abbrev Scan := StateT Cursor Option

/-- The characters of a line break at the start of a text: two for a carriage return with a line
feed, else one. -/
def breakLength : List Char → Nat
  | '\r' :: '\n' :: _ => 2
  | _ => 1

namespace Cursor

/-- Passes over some characters of the line. -/
def skip (cursor : Cursor) (count : Nat) : Cursor :=
  ⟨cursor.rest.drop count, cursor.mark.after count⟩

/-- Passes over one line break. -/
def skipBreak (cursor : Cursor) : Cursor :=
  ⟨cursor.rest.drop (breakLength cursor.rest),
    cursor.mark.afterBreak (breakLength cursor.rest)⟩

/-- Passes over one line break if there is one. -/
def skipLineEnd (cursor : Cursor) : Cursor :=
  if startsIn isBreak cursor.rest then cursor.skipBreak else cursor

/-- The longest run of characters in a class and the cursor after it. -/
def span (cursor : Cursor) (class' : Char → Bool) : List Char × Cursor :=
  let run := cursor.rest.takeWhile class'
  (run, ⟨cursor.rest.dropWhile class', cursor.mark.through run⟩)

/-- Passes over a run of characters in a class. -/
def skipWhile (cursor : Cursor) (class' : Char → Bool) : Cursor :=
  (cursor.span class').2

/-- Whether a line begins here with three times a character as a word of its own. -/
def startsWithTriple (cursor : Cursor) (char : Char) : Bool :=
  cursor.mark.column == 0 && cursor.rest.take 3 == [char, char, char] &&
    atWordEnd (cursor.rest.drop 3)

/-- Whether a line begins here that starts or ends a document. -/
def atDocumentMarker (cursor : Cursor) : Bool :=
  cursor.startsWithTriple '-' || cursor.startsWithTriple '.'

end Cursor

namespace Scan

/-- The characters that are left. -/
def rest : Scan (List Char) := return (← get).rest

/-- The present place. -/
def mark : Scan Mark := return (← get).mark

/-- Stops unless a condition holds. -/
def require (condition : Bool) : Scan Unit := if condition then return () else failure

/-- Passes over some characters of the line. -/
def skip (count : Nat) : Scan Unit := modify (·.skip count)

/-- Whether the next character is in a class. -/
def nextIs (class' : Char → Bool) : Scan Bool := return startsIn class' (← rest)

/-- Takes a run of characters. -/
def takeWhile (class' : Char → Bool) : Scan (List Char) := do
  let (run, cursor) := (← get).span class'
  set cursor
  return run

/-- Passes over a run of characters. -/
def skipWhile (class' : Char → Bool) : Scan Unit := modify (·.skipWhile class')

/-- Passes over blanks, then a comment if one begins, up to the end of the line, and over that
end; anything else on the line is refused. -/
def finishLine : Scan Unit := do
  skipWhile isBlank
  if ← nextIs (· == '#') then skipWhile (fun char => !isBreak char)
  require (atLineEnd (← rest))
  modify Cursor.skipLineEnd

end Scan

end FaultDrill.Yaml
