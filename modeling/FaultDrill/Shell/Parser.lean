import FaultDrill.Shell.Token

/-!
Scripts as commands.

Owns: the grammar of lists, conditions, choices, loops, groups and simple commands.

A script is read one complete command after the other; what cannot be read fails when it is
reached, after all that comes before it. A command takes at least one token, so the number of
tokens bounds every repetition.
-/

namespace FaultDrill.Shell

namespace Command

/-- The text of a word that is written without quotes and parameters. -/
def plainText? : Word → Option (List Char)
  | [] => some []
  | .text text false :: rest => (plainText? rest).map (text ++ ·)
  | _ => none

/-- The word that a token is, if it is one written plainly. -/
def keyword? : Token → Option String
  | .word _ word => (plainText? word).map String.ofList
  | _ => none

/-- Whether some tokens start with a keyword. -/
def startsWith (keyword : String) : List Token → Bool
  | token :: _ => keyword? token == some keyword
  | [] => false

/-- The tokens after a keyword. -/
def expect? (keyword : String) : List Token → Option (List Token)
  | token :: rest => if keyword? token == some keyword then some rest else none
  | [] => none

/-- The words at which a list of commands ends. -/
def closingKeywords : List String := ["then", "else", "elif", "fi", "do", "done", "esac", "\x7d"]

/-- Whether a list of commands ends before some tokens. -/
def atEnd : List Token → Bool
  | [] => true
  | .closing :: _ | .doubleSemicolon :: _ => true
  | token :: _ => ((keyword? token).map closingKeywords.contains).getD false

/-- The tokens after some line ends and separators. -/
def skipSeparators : List Token → List Token
  | .newline :: rest | .semicolon :: rest => skipSeparators rest
  | tokens => tokens

/-- The tokens after some line ends. -/
def skipNewlines : List Token → List Token
  | .newline :: rest => skipNewlines rest
  | tokens => tokens

/-- An assignment, if a word is one. -/
def assignment? (word : Word) : Option (String × Word) :=
  let characters := word.takeWhile fun
    | .text [char] false => Token.isNameChar char
    | _ => false
  match plainText? characters, word.drop characters.length with
  | some (first :: rest), .text ['='] false :: value =>
    if Token.startsName first then some (String.ofList (first :: rest), value) else none
  | _, _ => none

/-- The redirections at the start of some tokens, and the tokens after them. -/
def redirections : List Token → List Redirection × List Token
  | .redirection _ descriptor kind :: .word _ target :: rest =>
    let (more, rest) := redirections rest
    (⟨descriptor, kind, target⟩ :: more, rest)
  | tokens => ([], tokens)

/-- The parts of a simple command. -/
structure SimpleParts where
  assignments : List (String × Word) := []
  words : List Word := []
  redirections : List Redirection := []
  deriving DecidableEq, Repr

/-- The parts of the simple command at the start of some tokens, and the tokens after it;
assignments come before the first word. -/
def simpleParts (started : Bool) : List Token → SimpleParts × List Token
  | .redirection _ descriptor kind :: .word _ target :: rest =>
    let (parts, rest) := simpleParts started rest
    ({ parts with redirections := ⟨descriptor, kind, target⟩ :: parts.redirections }, rest)
  | .word _ word :: rest =>
    match if started then none else assignment? word with
    | some assigned =>
      let (parts, rest) := simpleParts false rest
      ({ parts with assignments := assigned :: parts.assignments }, rest)
    | none =>
      let (parts, rest) := simpleParts true rest
      ({ parts with words := word :: parts.words }, rest)
  | tokens => ({}, tokens)

/-- The line of the first token that knows its line. -/
def lineOf : List Token → Nat
  | .word line _ :: _ | .redirection line .. :: _ | .broken line :: _ => line
  | _ :: rest => lineOf rest
  | [] => 0

/-- The words before the end of a line. -/
def wordsOf : List Token → List Word × List Token
  | .word _ word :: rest =>
    let (words, rest) := wordsOf rest
    (word :: words, rest)
  | tokens => ([], tokens)

/-- The patterns of a choice up to the closing parenthesis. -/
def patterns? : List Token → Option (List Word × List Token)
  | .word _ word :: .closing :: rest => some ([word], rest)
  | .word _ word :: .pipe :: rest => (patterns? rest).map fun (words, rest) => (word :: words, rest)
  | _ => none

/-- Whether some tokens start a command that holds other commands. -/
def opensCompound (tokens : List Token) : Bool :=
  tokens.head? == some .opening ||
    ["if", "case", "for", "\x7b"].any fun keyword => startsWith keyword tokens

mutual

/-- A list of commands up to the end of the text or a word that closes it. -/
def list? : (steps : Nat) → List Token → Option (Command × List Token)
  | 0, _ => none
  | steps + 1, tokens => do
    let tokens := skipSeparators tokens
    if atEnd tokens then some (.nothing, tokens)
    else
      let (first, rest) ← chain? steps tokens
      match rest with
      | .newline :: _ | .semicolon :: _ =>
        let (others, rest) ← list? steps rest
        some (.sequence first others, rest)
      | _ => if atEnd rest then some (first, rest) else none

/-- Commands joined by what they depend on each other for. -/
def chain? : (steps : Nat) → List Token → Option (Command × List Token)
  | 0, _ => none
  | steps + 1, tokens => do
    let (first, rest) ← prefixed? steps tokens
    links? steps first rest

/-- The rest of joined commands after the first ones. -/
def links? : (steps : Nat) → Command → List Token → Option (Command × List Token)
  | 0, _, _ => none
  | steps + 1, first, .both :: rest => do
    let (second, rest) ← prefixed? steps (skipNewlines rest)
    links? steps (.both first second) rest
  | steps + 1, first, .either :: rest => do
    let (second, rest) ← prefixed? steps (skipNewlines rest)
    links? steps (.either first second) rest
  | _ + 1, first, tokens => some (first, tokens)

/-- A command, perhaps negated. -/
def prefixed? : (steps : Nat) → List Token → Option (Command × List Token)
  | 0, _ => none
  | steps + 1, tokens =>
    match expect? "!" tokens with
    | some rest => (command? steps rest).map fun (command, rest) => (.negated command, rest)
    | none => command? steps tokens

/-- A single command. -/
def command? : (steps : Nat) → List Token → Option (Command × List Token)
  | 0, _ => none
  | steps + 1, tokens =>
    if opensCompound tokens then do
      let (body, rest) ← compound? steps tokens
      let (redirections, rest) := redirections rest
      some (if redirections.isEmpty then body else .group (lineOf tokens) body redirections, rest)
    else if atEnd tokens then none
    else
      let (parts, rest) := simpleParts false tokens
      if parts = {} then none
      else
        some
          (.simple (lineOf tokens) parts.assignments parts.words parts.redirections, rest)

/-- A command that holds other commands. -/
def compound? : (steps : Nat) → List Token → Option (Command × List Token)
  | 0, _ => none
  | steps + 1, tokens =>
    if startsWith "if" tokens then conditional? steps tokens.tail
    else if startsWith "case" tokens then
      match tokens.tail with
      | .word _ subject :: rest => do
        let rest ← expect? "in" (skipNewlines rest)
        choices? steps subject rest
      | _ => none
    else if startsWith "for" tokens then
      match tokens.tail with
      | .word _ variableName :: rest => do
        let variableName ← plainText? variableName
        let (items, rest) :=
          match expect? "in" (skipNewlines rest) with
          | some rest => wordsOf rest
          | none => ([[.parameter "@" .plain true]], rest)
        let rest ← expect? "do" (skipSeparators rest)
        let (body, rest) ← list? steps rest
        let rest ← expect? "done" rest
        some (.loop (String.ofList variableName) items body, rest)
      | _ => none
    else if startsWith "\x7b" tokens then do
      let (body, rest) ← list? steps tokens.tail
      let rest ← expect? "\x7d" rest
      some (body, rest)
    else do
      let (body, rest) ← list? steps tokens.tail
      match rest with
      | .closing :: rest => some (.subshell body, rest)
      | _ => none

/-- A condition with its branches, after its first word. -/
def conditional? : (steps : Nat) → List Token → Option (Command × List Token)
  | 0, _ => none
  | steps + 1, tokens => do
    let (condition, rest) ← list? steps tokens
    let rest ← expect? "then" rest
    let (affirmative, rest) ← list? steps rest
    match expect? "elif" rest with
    | some rest =>
      let (negative, rest) ← conditional? steps rest
      some (.conditional condition affirmative negative, rest)
    | none =>
      match expect? "else" rest with
      | some rest =>
        let (negative, rest) ← list? steps rest
        let rest ← expect? "fi" rest
        some (.conditional condition affirmative negative, rest)
      | none =>
        let rest ← expect? "fi" rest
        some (.conditional condition affirmative .nothing, rest)

/-- The branches of a choice. -/
def choices? : (steps : Nat) → Word → List Token → Option (Command × List Token)
  | 0, _, _ => none
  | steps + 1, subject, tokens => do
    let tokens := skipNewlines tokens
    match expect? "esac" tokens with
    | some rest => some (.nothing, rest)
    | none =>
      let tokens := if tokens.head? == some .opening then tokens.tail else tokens
      let (patterns, rest) ← patterns? tokens
      let (body, rest) ← list? steps rest
      match rest with
      | .doubleSemicolon :: rest =>
        let (otherwise, rest) ← choices? steps subject rest
        some (.choice subject patterns body otherwise, rest)
      | _ =>
        let rest ← expect? "esac" rest
        some (.choice subject patterns body .nothing, rest)

end

/-- The commands of a script from some token on. -/
def ofTokens : (steps : Nat) → List Token → Command
  | 0, tokens => .malformed (lineOf tokens)
  | steps + 1, tokens =>
    let tokens := skipSeparators tokens
    if tokens.isEmpty then .nothing
    else
      match chain? (7 * tokens.length + 7) tokens with
      | none => .malformed (lineOf tokens)
      | some (first, rest) =>
        match rest with
        | [] => first
        | .newline :: _ | .semicolon :: _ => .sequence first (ofTokens steps rest)
        | _ => .malformed (lineOf tokens)

/-- The commands of a script. -/
def ofText (text : List Char) : Command :=
  let tokens := Token.ofText (text.length + 1) 1 text
  ofTokens (tokens.length + 1) tokens

end Command

end FaultDrill.Shell
