import FaultDrill.Shell.Syntax

/-!
Tokens of scripts.

Owns: words with their quotes and parameters, operators, redirections and comments, each word with
the number of its line.

A token takes at least one character, so the number of characters bounds every repetition.
-/

namespace FaultDrill.Shell

/-- A token. -/
inductive Token where
  | word (line : Nat) (word : Word)
  | newline
  | semicolon
  | doubleSemicolon
  | both
  | either
  | pipe
  | background
  | opening
  | closing
  | redirection (line : Nat) (descriptor : Nat) (kind : RedirectionKind)
  /-- What could not be read as a token. -/
  | broken (line : Nat)
  deriving DecidableEq, Repr

namespace Token

/-! ## Words -/

/-- Whether a character separates tokens on a line. -/
def isBlank (char : Char) : Bool := char == ' ' || char == '\t'

/-- Whether a character ends a word. -/
def endsWord (char : Char) : Bool :=
  isBlank char || ['\n', ';', '&', '|', '<', '>', '(', ')'].contains char

/-- Whether a name can begin with a character. -/
def startsName (char : Char) : Bool := char.isAlpha || char == '_'

/-- Whether a character may stand in a name. -/
def isNameChar (char : Char) : Bool := char.isAlphanum || char == '_'

/-- Whether a character is the whole name of a parameter. -/
def isSpecial (char : Char) : Bool := char.isDigit || ['#', '*', '@', '$', '?', '!'].contains char

/-- The name at the start of a text, and what follows it. -/
def name? : List Char → Option (String × List Char)
  | [] => none
  | first :: rest =>
    if startsName first then
      let more := rest.takeWhile isNameChar
      some (String.ofList (first :: more), rest.drop more.length)
    else if first.isDigit then
      let more := rest.takeWhile Char.isDigit
      some (String.ofList (first :: more), rest.drop more.length)
    else if isSpecial first then some (String.singleton first, rest)
    else none

/-- The form that stands between the name of a parameter and the closing brace. -/
def form? : List Char → Option Form
  | [] => some .plain
  | '%' :: '%' :: pattern => some (.withoutEnd pattern true)
  | '%' :: pattern => some (.withoutEnd pattern false)
  | '#' :: '#' :: pattern => some (.withoutBeginning pattern true)
  | '#' :: pattern => some (.withoutBeginning pattern false)
  | ':' :: '-' :: text => some (.fallback text true)
  | '-' :: text => some (.fallback text false)
  | _ => none

/-- A parameter between braces, after the opening one. -/
def bracedParameter? (quoted : Bool) (chars : List Char) : Option (Piece × List Char) :=
  let body := chars.takeWhile (· != '}')
  match chars.drop body.length with
  | [] => none
  | _ :: after =>
    match body with
    | '#' :: (first :: rest) =>
      match name? (first :: rest) with
      | some (name, []) => some (.parameter name .length quoted, after)
      | _ => none
    | _ => do
      let (name, rest) ← name? body
      let form ← form? (rest.filter fun char => char != '"' && char != '\'')
      some (.parameter name form quoted, after)

/-- A parameter after its dollar sign. A dollar sign before anything else stands for itself; what
would run another command is refused. -/
def parameter? (quoted : Bool) : List Char → Option (Piece × List Char)
  | '{' :: rest => bracedParameter? quoted rest
  | '(' :: _ => none
  | first :: rest =>
    if startsName first then
      let more := rest.takeWhile isNameChar
      some (.parameter (String.ofList (first :: more)) .plain quoted, rest.drop more.length)
    else if isSpecial first then some (.parameter (String.singleton first) .plain quoted, rest)
    else some (.text ['$'] quoted, first :: rest)
  | [] => some (.text ['$'] quoted, [])

/-- The pieces between double quotes, after the opening one; `steps` bounds their number. -/
def quotedPieces? : (steps : Nat) → List Char → Option (Word × List Char)
  | 0, _ => none
  | steps + 1, chars =>
    match chars with
    | [] => none
    | '"' :: rest => some ([.text [] true], rest)
    | '\\' :: '\n' :: rest => quotedPieces? steps rest
    | '\\' :: char :: rest => do
      let (pieces, rest) ← quotedPieces? steps rest
      let text := if ['$', '\x60', '"', '\\'].contains char then [char] else ['\\', char]
      some (.text text true :: pieces, rest)
    | '\x60' :: _ => none
    | '$' :: rest => do
      let (piece, rest) ← parameter? true rest
      let (pieces, rest) ← quotedPieces? steps rest
      some (piece :: pieces, rest)
    | char :: rest => do
      let (pieces, rest) ← quotedPieces? steps rest
      some (.text [char] true :: pieces, rest)

/-- The pieces of a word; `steps` bounds their number. -/
def pieces? : (steps : Nat) → List Char → Option (Word × List Char)
  | 0, _ => none
  | steps + 1, chars =>
    match chars with
    | [] => some ([], [])
    | '\\' :: '\n' :: rest => pieces? steps rest
    | '\\' :: char :: rest => do
      let (pieces, rest) ← pieces? steps rest
      some (.text [char] true :: pieces, rest)
    | '\'' :: rest =>
      let body := rest.takeWhile (· != '\'')
      match rest.drop body.length with
      | [] => none
      | _ :: rest => do
        let (pieces, rest) ← pieces? steps rest
        some (.text body true :: pieces, rest)
    | '"' :: rest => do
      let (quoted, rest) ← quotedPieces? (rest.length + 1) rest
      let (pieces, rest) ← pieces? steps rest
      some (quoted ++ pieces, rest)
    | '\x60' :: _ => none
    | '$' :: rest => do
      let (piece, rest) ← parameter? false rest
      let (pieces, rest) ← pieces? steps rest
      some (piece :: pieces, rest)
    | char :: rest =>
      if endsWord char then some ([], chars)
      else do
        let (pieces, rest) ← pieces? steps rest
        some (.text [char] false :: pieces, rest)

/-! ## Tokens -/

/-- The kind of the redirection at the start of a text. -/
def redirectionKind? : List Char → Option (RedirectionKind × List Char)
  | '>' :: '>' :: rest => some (.append, rest)
  | '>' :: '&' :: rest => some (.duplicate, rest)
  | '<' :: '&' :: rest => some (.duplicate, rest)
  | '>' :: rest => some (.output, rest)
  | '<' :: rest => some (.input, rest)
  | _ => none

/-- The redirection at the start of a text, with its descriptor. -/
def redirection? (line : Nat) (chars : List Char) : Option (Token × List Char) :=
  match chars with
  | digit :: rest =>
    let (digits, after) := if digit.isDigit then ([digit], rest) else ([], chars)
    let standard := if after.head? == some '<' then 0 else 1
    (redirectionKind? after).map fun (kind, rest) =>
      (.redirection line (digits.foldl (fun _ digit => digit.toNat - 0x30) standard) kind, rest)
  | [] => none

/-- The operator at the start of a text. -/
def operator? : List Char → Option (Token × List Char)
  | ';' :: ';' :: rest => some (.doubleSemicolon, rest)
  | ';' :: rest => some (.semicolon, rest)
  | '&' :: '&' :: rest => some (.both, rest)
  | '&' :: rest => some (.background, rest)
  | '|' :: '|' :: rest => some (.either, rest)
  | '|' :: rest => some (.pipe, rest)
  | '(' :: rest => some (.opening, rest)
  | ')' :: rest => some (.closing, rest)
  | _ => none

/-- The tokens of a text from a line on; `steps` bounds their number. -/
def ofText : (steps : Nat) → (line : Nat) → List Char → List Token
  | 0, line, _ => [.broken line]
  | _ + 1, _, [] => []
  | steps + 1, line, first :: rest =>
    if isBlank first then ofText steps line rest
    else if first = '\n' then .newline :: ofText steps (line + 1) rest
    else if first = '#' then ofText steps line (rest.dropWhile (· != '\n'))
    else if first = '\\' ∧ rest.head? = some '\n' then ofText steps (line + 1) rest.tail
    else
      match (redirection? line (first :: rest)).or (operator? (first :: rest)) with
      | some (token, after) => token :: ofText steps line after
      | none =>
        match pieces? (rest.length + 2) (first :: rest) with
        | none => [.broken line]
        | some (pieces, after) =>
          let taken := (first :: rest).take (rest.length + 1 - after.length)
          .word line pieces :: ofText steps (line + taken.count '\n') after

end Token

end FaultDrill.Shell
