/-!
Paths as written.

Owns:
- paths, and what their text says about them: whether they are absolute, their components, the
  last name, its extension;
- joining of paths and the directory part of a path.

Components that name the directory they stand in, and repeated separators, say nothing.

Does not own: what a path leads to (`FileTree`).
-/

namespace FaultDrill

/-- A path as written. -/
structure Path where
  text : String
  deriving DecidableEq, Repr, Inhabited

namespace Path

/-- The pieces of a text between separators; there is always at least one. -/
def split : List Char → List (List Char)
  | [] => [[]]
  | char :: rest =>
    if char = '/' then [] :: split rest
    else
      match split rest with
      | piece :: pieces => (char :: piece) :: pieces
      | [] => [[char]]

/-- The pieces of a path between separators. -/
def pieces (path : Path) : List (List Char) := split path.text.toList

/-- Whether a piece leads anywhere. -/
def leads (piece : List Char) : Bool := piece != [] && piece != ['.']

/-- The components of a path that lead somewhere. -/
def components (path : Path) : List String :=
  (path.pieces.filter leads).map String.ofList

/-- Whether a path starts at the root. -/
def isAbsolute (path : Path) : Bool := path.text.toList.head? == some '/'

/-- The name that a path ends in, if it ends in one. -/
def fileName? (path : Path) : Option (List Char) :=
  match (path.pieces.filter leads).getLast? with
  | some name => if name = ['.', '.'] then none else some name
  | none => none

/-- What follows the last dot of a text that has a dot after its first character. -/
def extensionOf? (name : List Char) : Option (List Char) :=
  let reversed := name.reverse
  let extension := reversed.takeWhile (· != '.')
  match reversed.drop extension.length with
  | _ :: _ :: _ => some extension.reverse
  | _ => none

/-- The extension of the name that a path ends in. -/
def extension? (path : Path) : Option (List Char) :=
  path.fileName?.bind extensionOf?

/-- A path from a directory on. An absolute path starts anew. -/
def join (directory part : Path) : Path :=
  if part.isAbsolute then part
  else if directory.text = "" ∨ directory.text.toList.getLast? = some '/' then
    ⟨directory.text ++ part.text⟩
  else ⟨directory.text ++ "/" ++ part.text⟩

/-- A name in a directory. -/
def joinName (directory : Path) (name : String) : Path := directory.join ⟨name⟩

/-- A reversed text without the pieces at its start that lead nowhere. A lone dot or separator at
the beginning of the path stays. -/
def trimReversed : List Char → List Char
  | ['/'] => ['/']
  | ['.'] => ['.']
  | '/' :: rest => trimReversed rest
  | '.' :: '/' :: rest => trimReversed ('/' :: rest)
  | reversed => reversed

/-- The path without its last component. The root and the empty path have none. -/
def parent? (path : Path) : Option Path :=
  match trimReversed path.text.toList.reverse with
  | [] => none
  | ['/'] => none
  | reversed =>
    match reversed.dropWhile (· != '/') with
    | [] => some ⟨""⟩
    | rest => some ⟨String.ofList (trimReversed rest).reverse⟩

end Path

end FaultDrill
