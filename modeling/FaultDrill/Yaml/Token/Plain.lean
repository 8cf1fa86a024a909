import FaultDrill.Yaml.Token.Folding

/-!
Scalars without quotes.

Owns: where a plain scalar ends, inside brackets and outside of them, and its text.
-/

namespace FaultDrill.Yaml

/-- Characters that end a plain scalar inside brackets. -/
def isFlowMark (char : Char) : Bool :=
  char == ',' || char == '[' || char == ']' || char == '{' || char == '}'

/-- The word at the start of a text. Inside brackets a colon right before a bracket, a comma or a
question mark is refused. -/
def plainWord? (inBrackets : Bool) : List Char → Option (List Char)
  | [] => some []
  | char :: rest =>
    if isGap char then some []
    else if inBrackets && char == ':' &&
        startsIn (fun next => isFlowMark next || next == '?') rest then none
    else if (char == ':' && atWordEnd rest) || (inBrackets && isFlowMark char) then some []
    else (plainWord? inBrackets rest).map (char :: ·)

/-- Whether a line of a gap begins with too few blanks before a tab; `column` is none before the
first line break. -/
def tabsBefore (indent : Nat) : Option Nat → List Char → Bool
  | _, [] => false
  | column, char :: rest =>
    if isBreak char then tabsBefore indent (some 0) rest
    else
      match column with
      | none => tabsBefore indent none rest
      | some column =>
        (char == '\t' && column < indent) || tabsBefore indent (some (column + 1)) rest

namespace Scan

/-- Takes a word of a plain scalar. -/
def plainWord (inBrackets : Bool) : Scan (List Char) := do
  let word ← plainWord? inBrackets (← rest)
  skip word.length
  return word

/-- Takes what follows a word of a plain scalar: gaps and more words. Lines that continue it stand
at column `indent` or further right. The answer also tells whether the scalar ended with passing to
another line; `steps` bounds the number of words. -/
def plainTail (inBrackets : Bool) (indent : Nat) : Nat → Scan (List Char × Bool)
  | 0 => failure
  | steps + 1 => do
    let gap ← Scan.gap
    if gap = [] then return ([], false)
    require (!tabsBefore indent none gap)
    let passedLine := !(lineBreaks gap).isEmpty
    let cursor ← get
    if (!inBrackets && cursor.mark.column < indent) || cursor.atDocumentMarker ||
        startsIn (· == '#') cursor.rest then
      return ([], passedLine)
    let word ← plainWord inBrackets
    if word = [] then return ([], passedLine)
    let (tail, passedLine) ← plainTail inBrackets indent steps
    return (gapText gap ++ word ++ tail, passedLine)

/-- Takes a plain scalar. -/
def plain (inBrackets : Bool) (indent : Nat) : Scan (List Char × Bool) := do
  let word ← plainWord inBrackets
  let (tail, passedLine) ← plainTail inBrackets indent ((← rest).length + 1)
  return (word ++ tail, passedLine)

end Scan

end FaultDrill.Yaml
