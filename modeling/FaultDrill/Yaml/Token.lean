import FaultDrill.Yaml.Cursor

/-!
Tokens of YAML.

Owns: the tokens, with the place where each begins.

Blocks that indentation opens and closes have tokens of their own, as if they had brackets.
-/

namespace FaultDrill.Yaml

/-- How a scalar is written, as far as its meaning depends on it. -/
inductive ScalarStyle where
  | plain
  | literal
  | other
  deriving DecidableEq, Repr

/-- What a tag or the start of a tag expands to, in bytes. -/
abbrev Tag := List UInt8

/-- The kinds of tokens. -/
inductive Lexeme where
  | textEnd
  | version (major minor : Nat)
  | tagPrefix (handle : List Char) (start : Tag)
  | documentStart
  | documentEnd
  | blockSequence
  | blockMapping
  | blockEnd
  | listOpen
  | listClose
  | mapOpen
  | mapClose
  | dash
  | comma
  | key
  | value
  | alias (name : List Char)
  | anchor (name : List Char)
  | tag (handle : List Char) (suffix : Tag)
  | scalar (style : ScalarStyle) (text : List Char)
  deriving DecidableEq, Repr

/-- A token and the place of its first character. -/
structure Token where
  mark : Mark
  lexeme : Lexeme
  deriving DecidableEq, Repr

end FaultDrill.Yaml
