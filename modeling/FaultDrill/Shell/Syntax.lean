/-!
Scripts of the command shell.

Owns: words with parameters in them, redirections, and commands.

Left out: pipelines, background jobs, functions, substitution of commands, and loops other than
those over a list of words.
-/

namespace FaultDrill.Shell

/-- What is done to the value of a parameter. -/
inductive Form where
  | plain
  | length
  /-- An end that matches a pattern is cut off, the longest such or the shortest. -/
  | withoutEnd (pattern : List Char) (longest : Bool)
  /-- A beginning that matches a pattern is cut off, the longest such or the shortest. -/
  | withoutBeginning (pattern : List Char) (longest : Bool)
  /-- A text stands in for a parameter that is not set, or also for one that is empty. -/
  | fallback (text : List Char) (orEmpty : Bool)
  deriving DecidableEq, Repr

/-- A part of a word. -/
inductive Piece where
  | text (text : List Char) (quoted : Bool)
  | parameter (name : String) (form : Form) (quoted : Bool)
  deriving DecidableEq, Repr

/-- A word before its parameters are replaced. -/
abbrev Word := List Piece

/-- What a redirection does with its descriptor. -/
inductive RedirectionKind where
  | input | output | append | duplicate
  deriving DecidableEq, Repr

/-- A redirection of a descriptor. -/
structure Redirection where
  descriptor : Nat
  kind : RedirectionKind
  target : Word
  deriving DecidableEq, Repr

/-- A command. -/
inductive Command where
  | nothing
  | simple (line : Nat) (assignments : List (String × Word)) (words : List Word)
      (redirections : List Redirection)
  | sequence (first second : Command)
  | both (first second : Command)
  | either (first second : Command)
  | negated (command : Command)
  | conditional (condition affirmative negative : Command)
  /-- The body for a word that matches one of some patterns, and what is to be done otherwise. -/
  | choice (subject : Word) (patterns : List Word) (body otherwise : Command)
  | loop (variableName : String) (items : List Word) (body : Command)
  /-- Commands with redirections that hold for all of them. -/
  | group (line : Nat) (body : Command) (redirections : List Redirection)
  | subshell (body : Command)
  /-- What could not be read as a command. -/
  | malformed (line : Nat)
  deriving Repr

end FaultDrill.Shell
