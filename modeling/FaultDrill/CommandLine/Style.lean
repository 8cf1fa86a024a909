import FaultDrill.Environment

/-!
Styled text on a terminal.

Owns: pieces of text with a style, and their text with or without the style.
-/

namespace FaultDrill.CommandLine

/-- A style: what is sent to the terminal before a text in it. -/
structure Style where
  opening : String
  deriving DecidableEq, Repr

namespace Style

/-- What is sent to the terminal after a text in any style. -/
def closing : String := "\x1b[0m"

/-- Names of things. -/
def name : Style := ⟨"\x1b[36m"⟩

/-- Good news. -/
def good : Style := ⟨"\x1b[32m"⟩

/-- Very good news. -/
def best : Style := ⟨"\x1b[1;32m"⟩

/-- Notices. -/
def notice : Style := ⟨"\x1b[33m"⟩

/-- Bad news. -/
def bad : Style := ⟨"\x1b[31m"⟩

/-- The word that begins a report of wrong arguments. -/
def error : Style := ⟨"\x1b[1m\x1b[31m"⟩

/-- Headings. -/
def heading : Style := ⟨"\x1b[1m\x1b[4m"⟩

/-- What is to be typed as it stands. -/
def literal : Style := ⟨"\x1b[1m"⟩

end Style

/-- A piece of text, perhaps in a style. -/
structure Span where
  text : String
  style : Option Style := none
  deriving DecidableEq, Repr

namespace Span

/-- A piece of text as it is sent to a terminal that shows styles, or to one that does not. A style
that ends within the text begins again. -/
def render (styled : Bool) (span : Span) : String :=
  match span.style with
  | some style =>
    if styled then
      style.opening ++ span.text.replace Style.closing (Style.closing ++ style.opening) ++
        Style.closing
    else span.text
  | none => span.text

/-- Pieces of text as they are sent to a terminal. -/
def renderAll (styled : Bool) (spans : List Span) : String :=
  String.join (spans.map (render styled))

end Span

/-- A piece of text without a style. -/
def plain (text : String) : Span := ⟨text, none⟩

/-- A piece of text in a style. -/
def Style.on (style : Style) (text : String) : Span := ⟨text, some style⟩

/-- Whether reports are styled where no terminal is seen. -/
def stylesReports (environment : Environment) : Bool :=
  match environment.text? "CLICOLOR_FORCE" with
  | some value => value != "0"
  | none => false

/-- Whether help and reports of wrong arguments are styled where no terminal is seen. -/
def stylesUsage (environment : Environment) : Bool :=
  ((environment.bytes? "NO_COLOR").getD []).isEmpty &&
    (match environment.bytes? "CLICOLOR_FORCE" with
      | some value => value != Text.Utf8.encode ['0']
      | none => false)

end FaultDrill.CommandLine
