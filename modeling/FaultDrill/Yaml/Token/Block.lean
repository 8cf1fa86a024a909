import FaultDrill.Yaml.Token.Folding

/-!
Block scalars: texts that stand on lines of their own, told apart by indentation.

Owns:
- the header: what happens to the line breaks at the end, and how far the lines are indented;
- the lines, kept as they are or folded.
-/

namespace FaultDrill.Yaml

/-- What happens to the line breaks at the end of a block scalar. -/
inductive Chomping where
  | strip
  | clip
  | keep
  deriving DecidableEq, Repr

/-- A block scalar so far: its text, the line break after the last line, and those of the empty
lines after that. -/
structure BlockText where
  text : List Char := []
  lastBreak : List Char := []
  emptyLines : List Char := []
  deriving DecidableEq, Repr

/-- The text of a finished block scalar. -/
def BlockText.chomped (block : BlockText) : Chomping → List Char
  | .strip => block.text
  | .clip => block.text ++ block.lastBreak
  | .keep => block.text ++ block.lastBreak ++ block.emptyLines

namespace Scan

/-- Takes the mark for the line breaks at the end, if there is one. -/
def chomping? : Scan (Option Chomping) := do
  match ← rest with
  | '+' :: _ => skip 1; return some .keep
  | '-' :: _ => skip 1; return some .strip
  | _ => return none

/-- Takes the digit for the indentation, if there is one; nought is refused. -/
def indentDigit? : Scan (Option Nat) := do
  match ← rest with
  | char :: _ =>
    if char.isDigit then
      require (char != '0')
      skip 1
      return some (char.toNat - '0'.toNat)
    else return none
  | [] => return none

/-- Takes the header of a block scalar after its first character, with the line on which it
stands. -/
def blockHeader : Scan (Chomping × Option Nat) := do
  match ← chomping? with
  | some chomping =>
    let indent ← indentDigit?
    finishLine
    return (chomping, indent)
  | none =>
    let indent ← indentDigit?
    let chomping ←
      match indent with
      | some _ => chomping?
      | none => pure none
    finishLine
    return (chomping.getD .clip, indent)

/-- Takes one line break as what it stands for; at the end of the text there is none. -/
def lineBreak : Scan (List Char) := do
  match ← rest with
  | char :: _ =>
    if isBreak char then
      modify Cursor.skipBreak
      return [normalBreak char]
    else return []
  | [] => return []

/-- Takes the blanks that indent a line, at most to a given column. -/
def indentation (indent : Option Nat) : Scan Unit := do
  let cursor ← get
  let blanks := (cursor.rest.takeWhile (· == ' ')).length
  let count :=
    match indent with
    | none => blanks
    | some indent => min blanks (indent - cursor.mark.column)
  skip count
  let cursor ← get
  let inside :=
    match indent with
    | none => true
    | some indent => cursor.mark.column < indent
  require (!(inside && startsIn (· == '\t') cursor.rest))

/-- Takes empty lines and the indentation of the line after them: the line breaks, and the
largest column that was reached. -/
def emptyLines (indent : Option Nat) : Nat → Nat → Scan (List Char × Nat)
  | 0, _ => failure
  | steps + 1, widest => do
    indentation indent
    let widest := max widest (← mark).column
    match ← lineBreak with
    | [] => return ([], widest)
    | lineBreak =>
      let (breaks, widest) ← emptyLines indent steps widest
      return (lineBreak ++ breaks, widest)

/-- Takes the lines of a block scalar at column `indent`. Between two folded lines that do not
begin with a blank, one line break becomes a blank and others lose their first. -/
def blockLines (folded : Bool) (indent : Nat) :
    Nat → Bool → BlockText → Scan BlockText
  | 0, _, _ => failure
  | steps + 1, previousBlank, block => do
    let cursor ← get
    if cursor.mark.column = indent ∧ cursor.rest ≠ [] then
      let startsBlank := startsIn isBlank cursor.rest
      let joint :=
        if folded && block.lastBreak == ['\n'] && !previousBlank && !startsBlank then
          if block.emptyLines.isEmpty then [' '] else []
        else block.lastBreak
      let line ← takeWhile (fun char => !isBreak char)
      let lastBreak ← lineBreak
      let (emptyLines, _) ← emptyLines (some indent) ((← rest).length + 1) 0
      blockLines folded indent steps startsBlank
        ⟨block.text ++ joint ++ block.emptyLines ++ line, lastBreak, emptyLines⟩
    else return block

/-- Takes a block scalar inside a collection whose content may begin at column `least`. -/
def block (folded : Bool) (least : Nat) : Scan (List Char) := do
  skip 1
  let (chomping, digit) ← blockHeader
  let bound := (← rest).length + 1
  let given := digit.map (least - 1 + ·)
  let (breaks, widest) ← emptyLines given bound 0
  let indent := given.getD (max (max widest least) 1)
  let block ← blockLines folded indent bound false { emptyLines := breaks }
  return block.chomped chomping

end Scan

end FaultDrill.Yaml
