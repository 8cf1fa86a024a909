import FaultDrill.Yaml.Cursor

/-!
Gaps inside scalars: runs of blanks and line breaks between two words.

Owns:
- the line breaks of a gap;
- what a gap stands for: itself on one line, a blank for one line break, the line breaks after the
  first for several.
-/

namespace FaultDrill.Yaml

/-- The line breaks of a gap, each as the break that it stands for. -/
def lineBreaks : List Char → List Char
  | [] => []
  | '\r' :: '\n' :: rest => '\n' :: lineBreaks rest
  | char :: rest => if isBreak char then normalBreak char :: lineBreaks rest else lineBreaks rest

/-- What some line breaks stand for between two words. A first break that keeps its own character
is not replaced. -/
def foldBreaks : List Char → List Char
  | ['\n'] => [' ']
  | '\n' :: rest => rest
  | breaks => breaks

/-- What a gap stands for. -/
def gapText (gap : List Char) : List Char :=
  match lineBreaks gap with
  | [] => gap
  | breaks => foldBreaks breaks

namespace Scan

/-- Takes a gap. -/
def gap : Scan (List Char) := takeWhile isGap

end Scan

end FaultDrill.Yaml
