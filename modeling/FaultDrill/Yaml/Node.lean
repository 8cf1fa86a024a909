import FaultDrill.Text.Utf8
import FaultDrill.Yaml.Token.Lexer

/-!
The tree of a YAML document.

Owns:
- nodes, with the places where they begin and the anchors they carry;
- the grammar that makes a tree of tokens;
- what aliases stand for.

An anchor that is named again gets a new number, but the number is that of the names known so far,
so two anchors may share one; an alias stands for the last node with its number.
-/

namespace FaultDrill.Yaml

/-- A node. Aliases and anchors are numbers. -/
inductive Node where
  | alias (mark : Mark) (target : Nat)
  | scalar (mark : Mark) (anchor : Option Nat) (tag : Option Tag) (style : ScalarStyle)
      (text : List Char)
  | sequence (mark : Mark) (anchor : Option Nat) (items : List Node)
  | mapping (mark : Mark) (anchor : Option Nat) (entries : List (Node × Node))
  deriving Repr, Inhabited

namespace Node

/-- The place where a node begins. -/
def mark : Node → Mark
  | .alias mark _ | .scalar mark .. | .sequence mark .. | .mapping mark .. => mark

/-- The anchor of a node. -/
def anchor : Node → Option Nat
  | .alias .. => none
  | .scalar _ anchor .. | .sequence _ anchor _ | .mapping _ anchor _ => anchor

/-- A value that is left out. -/
def missing (mark : Mark) : Node := .scalar mark none none .plain []

mutual

/-- All nodes of a tree that carry anchors, in the order of the text. -/
def anchored : Node → List (Nat × Node)
  | .alias .. => []
  | .scalar mark anchor tag style text =>
    (anchor.map (·, .scalar mark anchor tag style text)).toList
  | .sequence mark anchor items =>
    (anchor.map (·, .sequence mark anchor items)).toList ++ anchoredItems items
  | .mapping mark anchor entries =>
    (anchor.map (·, .mapping mark anchor entries)).toList ++ anchoredEntries entries

@[inherit_doc anchored]
def anchoredItems : List Node → List (Nat × Node)
  | [] => []
  | item :: items => anchored item ++ anchoredItems items

@[inherit_doc anchored]
def anchoredEntries : List (Node × Node) → List (Nat × Node)
  | [] => []
  | (key, value) :: entries => anchored key ++ anchored value ++ anchoredEntries entries

end

mutual

/-- The size of a tree: scalars and aliases count once, collections for their start and end. -/
def size : Node → Nat
  | .alias .. | .scalar .. => 1
  | .sequence _ _ items => 2 + sizeItems items
  | .mapping _ _ entries => 2 + sizeEntries entries

@[inherit_doc size]
def sizeItems : List Node → Nat
  | [] => 0
  | item :: items => size item + sizeItems items

@[inherit_doc size]
def sizeEntries : List (Node × Node) → Nat
  | [] => 0
  | (key, value) :: entries => size key + size value + sizeEntries entries

end

end Node

/-- What a tree is made from: the tokens that are left, what the handles of tags stand for, and
the numbers of the anchors named so far. -/
structure TokenStream where
  tokens : List Token
  handles : List (List Char × Tag) := []
  anchors : List (List Char × Nat) := []
  deriving Repr

/-- A step of making a tree; `none` means that the tokens are no document. -/
abbrev Parsing := StateT TokenStream Option

/-- The tag of YAML's own kinds of values, before their names. -/
def coreTag : Tag := Text.Utf8.encode "tag:yaml.org,2002:".toList

/-- Handles that need no directive. -/
def coreHandles : List (List Char × Tag) := [(['!'], [0x21]), (['!', '!'], coreTag)]

namespace Parsing

/-- Stops unless a condition holds. -/
def require (condition : Bool) : Parsing Unit := if condition then return () else failure

/-- The next token. -/
def peek : Parsing Token := do (← get).tokens.head?

/-- Passes over the next token. -/
def drop : Parsing Unit := modify fun stream => { stream with tokens := stream.tokens.tail }

/-- Whether the next token is one of some. -/
def nextIn (lexemes : List Lexeme) : Parsing Bool :=
  return lexemes.contains (← peek).lexeme

/-- The number of an anchor that is named here. -/
def define (name : List Char) : Parsing Nat := do
  let stream ← get
  let number := stream.anchors.length
  set { stream with
    anchors := (name, number) :: stream.anchors.filter (fun (known, _) => known != name) }
  return number

/-- Takes an anchor, if there is one. -/
def anchor? : Parsing (Option Nat) := do
  match (← peek).lexeme with
  | .anchor name =>
    drop
    return some (← define name)
  | _ => return none

/-- Takes a tag, if there is one; nothing counts after a zero byte. -/
def tag? : Parsing (Option Tag) := do
  match (← peek).lexeme with
  | .tag [] suffix =>
    drop
    return some (suffix.takeWhile (· != 0))
  | .tag handle suffix =>
    drop
    let start ← (← get).handles.lookup handle
    return some ((start ++ suffix).takeWhile (· != 0))
  | _ => return none

/-- Takes an anchor and a tag, in any order. -/
def properties : Parsing (Option Nat × Option Tag) := do
  match ← anchor? with
  | some anchor => return (some anchor, ← tag?)
  | none =>
    let tag ← tag?
    match tag with
    | some _ => return (← anchor?, tag)
    | none => return (none, none)

mutual

/-- Takes a node: in a block or in brackets, and where `dashes` tells that the items of a sequence
may stand no further right than the node. -/
def node (inBlock dashes : Bool) : Nat → Parsing Node
  | 0 => failure
  | steps + 1 => do
    let first ← peek
    match first.lexeme with
    | .alias name =>
      drop
      return .alias first.mark (← (← get).anchors.lookup name)
    | _ =>
      let (anchor, tag) ← properties
      let token ← peek
      match token.lexeme with
      | .scalar style text =>
        drop
        return .scalar first.mark anchor (if tag = some [0x21] then none else tag) style text
      | .listOpen =>
        drop
        return .sequence first.mark anchor (← listItems steps true)
      | .mapOpen =>
        drop
        return .mapping first.mark anchor (← mapEntries steps true)
      | lexeme =>
        if dashes && lexeme == .dash then
          return .sequence first.mark anchor (← dashItems steps)
        else if inBlock && lexeme == .blockSequence then
          drop
          return .sequence first.mark anchor (← blockItems steps)
        else if inBlock && lexeme == .blockMapping then
          drop
          return .mapping first.mark anchor (← blockEntries steps)
        else if anchor.isSome || tag.isSome then
          return .scalar first.mark anchor tag .plain []
        else failure

/-- Takes a node, unless a token follows that shows that it was left out. -/
def nodeOr (missing : List Lexeme) (mark : Option Mark) (inBlock dashes : Bool) :
    Nat → Parsing Node
  | 0 => failure
  | steps + 1 => do
    let next ← peek
    if missing.contains next.lexeme then return .missing (mark.getD next.mark)
    else node inBlock dashes steps

/-- Takes the items of a block sequence and its end. -/
def blockItems : Nat → Parsing (List Node)
  | 0 => failure
  | steps + 1 => do
    let token ← peek
    drop
    match token.lexeme with
    | .dash =>
      let item ← nodeOr [.dash, .blockEnd] (some (token.mark.after 1)) true false steps
      return item :: (← blockItems steps)
    | .blockEnd => return []
    | _ => failure

/-- Takes the items of a sequence that has no end of its own. -/
def dashItems : Nat → Parsing (List Node)
  | 0 => failure
  | steps + 1 => do
    let token ← peek
    match token.lexeme with
    | .dash =>
      drop
      let item ←
        nodeOr [.dash, .key, .value, .blockEnd] (some (token.mark.after 1)) true false steps
      return item :: (← dashItems steps)
    | _ => return []

/-- Takes the entries of a block mapping and its end. -/
def blockEntries : Nat → Parsing (List (Node × Node))
  | 0 => failure
  | steps + 1 => do
    let token ← peek
    drop
    match token.lexeme with
    | .key =>
      let key ← nodeOr [.key, .value, .blockEnd] (some (token.mark.after 1)) true true steps
      let token ← peek
      let value ←
        match token.lexeme with
        | .value => do
          drop
          nodeOr [.key, .value, .blockEnd] (some (token.mark.after 1)) true true steps
        | _ => pure (.missing token.mark)
      return (key, value) :: (← blockEntries steps)
    | .blockEnd => return []
    | _ => failure

/-- Takes the items of a sequence in brackets and its end; all items but the first follow a
comma. An item that is a key with a value is a mapping. -/
def listItems : Nat → Bool → Parsing (List Node)
  | 0, _ => failure
  | steps + 1, first => do
    if ← nextIn [.listClose] then
      drop
      return []
    if !first then
      require (← nextIn [.comma])
      drop
    let token ← peek
    match token.lexeme with
    | .key =>
      drop
      let item ← pair token.mark steps
      return item :: (← listItems steps false)
    | .listClose =>
      drop
      return []
    | _ =>
      let item ← node false false steps
      return item :: (← listItems steps false)

/-- Takes the single entry of a mapping in square brackets, after the token of its key. Where the
key is left out, the token that shows it is passed over. -/
def pair (mark : Mark) : Nat → Parsing Node
  | 0 => failure
  | steps + 1 => do
    let next ← peek
    let key ←
      if [Lexeme.value, .comma, .listClose].contains next.lexeme then do
        drop
        pure (.missing (next.mark.after 1))
      else node false false steps
    let value ← flowValue [.comma, .listClose] steps
    return .mapping mark none [(key, value)]

/-- Takes the value of an entry in brackets; both its colon and the value may be left out. -/
def flowValue (ends : List Lexeme) : Nat → Parsing Node
  | 0 => failure
  | steps + 1 => do
    let token ← peek
    match token.lexeme with
    | .value =>
      drop
      nodeOr ends none false false steps
    | _ => return .missing token.mark

/-- Takes the entries of a mapping in brackets and its end; all entries but the first follow a
comma. A node that is no key is a key without a value. -/
def mapEntries : Nat → Bool → Parsing (List (Node × Node))
  | 0, _ => failure
  | steps + 1, first => do
    if ← nextIn [.mapClose] then
      drop
      return []
    if !first then
      require (← nextIn [.comma])
      drop
    match (← peek).lexeme with
    | .key =>
      drop
      let key ← nodeOr [.value, .comma, .mapClose] none false false steps
      let value ← flowValue [.comma, .mapClose] steps
      return (key, value) :: (← mapEntries steps false)
    | .mapClose =>
      drop
      return []
    | _ =>
      let key ← node false false steps
      let value := .missing (← peek).mark
      return (key, value) :: (← mapEntries steps false)

end

/-- Takes the directives before a document. Versions are 1.1 and 1.2; nothing is defined twice.
`steps` bounds their number. -/
def directives : Nat → Bool → List (List Char × Tag) → Parsing (List (List Char × Tag))
  | 0, _, handles => return handles
  | steps + 1, hasVersion, handles => do
    match (← peek).lexeme with
    | .version major minor =>
      require (!hasVersion && major == 1 && (minor == 1 || minor == 2))
      drop
      directives steps true handles
    | .tagPrefix handle start =>
      require (handles.lookup handle).isNone
      drop
      directives steps hasVersion ((handle, start) :: handles)
    | _ => return handles

/-- Takes marks of the end of a document; `steps` bounds their number. -/
def documentEnds : Nat → Parsing Unit
  | 0 => return ()
  | steps + 1 => do
    if ← nextIn [.documentEnd] then
      drop
      documentEnds steps

/-- Takes the only document of a text, if it has one. -/
def document : Parsing (Option Node) := do
  let bound := (← get).tokens.length
  if ← nextIn [.textEnd] then return none
  let handles ← directives bound false []
  modify ({ · with handles := handles ++ coreHandles })
  let bare := (← get).tokens.length = bound && !(← nextIn [.documentStart])
  if !bare then
    require (← nextIn [.documentStart])
    drop
  let next ← peek
  let document ←
    if !bare && endsDocument next.lexeme then pure (.missing next.mark)
    else node true false (4 * bound + 4)
  documentEnds bound
  require (← nextIn [.textEnd])
  return some document
where
  /-- Whether a token shows that a document has no content. -/
  endsDocument : Lexeme → Bool
    | .version .. | .tagPrefix .. | .documentStart | .documentEnd | .textEnd => true
    | _ => false

end Parsing

/-- The document of a text, `none` for a text without one, if the text is well formed. -/
def Node.ofText? (text : List Char) : Option (Option Node) := do
  let tokens ← Token.scan text
  let (document, _) ← Parsing.document { tokens }
  return document

end FaultDrill.Yaml
