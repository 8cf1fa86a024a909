import FaultDrill.FileTree.Basic
import FaultDrill.FileTree.Error

/-!
Where paths lead.

Owns: the way from the root or the working directory along the names of a path, through links, to
an entry or to a place where one could be made.

A path that ends in a separator wants a directory; the last name is then on the way and not at its
end. At most forty links are followed.
-/

namespace FaultDrill

/-- The names on a path, with an empty one at the end if it ends in a separator. -/
def Path.names (path : Path) : List String :=
  let pieces := path.pieces
  let names := (pieces.filter (· != [])).map String.ofList
  if pieces.getLast? = some [] && !names.isEmpty then names ++ [""] else names

/-- What is wanted at the end of a path. -/
inductive Purpose where
  /-- The entry that all links lead to. -/
  | target
  /-- The entry itself, even if it is a link. -/
  | itself
  /-- The entry itself, whether or not separators follow its name. -/
  | entryName
  /-- A file, which may be made. -/
  | newFile
  deriving DecidableEq, Repr

/-- Where a path leads. -/
inductive Place where
  | entry (location : Location) (entry : Entry)
  /-- Nothing stands there, but its directory exists. -/
  | vacancy (location : Location)
  deriving DecidableEq, Repr

namespace FileTree

/-- The longest name, in bytes. -/
def nameLimit : Nat := 255

/-- The first length in bytes that a path may not have. -/
def pathLimit : Nat := 4096

/-- How many links a path may lead through. -/
def linkLimit : Nat := 40

/-- Whether a name with some names after it is the last one for a purpose. -/
def isLast (purpose : Purpose) (rest : List String) : Bool :=
  rest.isEmpty || (purpose == .entryName && rest == [""])

/-- Whether a link is itself wanted. -/
def wantsLink (purpose : Purpose) : Bool :=
  purpose == .itself || purpose == .entryName

/-- Follows names from a directory; `onLink` goes on at a link, given the directory that holds it,
its target and the names that follow. -/
def walkNames
    (tree : FileTree)
    (purpose : Purpose)
    (onLink : Location → Path → List String → Except FileError Place) :
    Location → List String → Except FileError Place
  | directory, [] => .ok (.entry directory .directory)
  | directory, name :: rest =>
    if name = "" ∨ name = "." then walkNames tree purpose onLink directory rest
    else if name = ".." then walkNames tree purpose onLink directory.dropLast rest
    else if purpose = .newFile ∧ rest = [""] then .error .isDirectory
    else if nameLimit < name.utf8ByteSize then .error .nameTooLong
    else
      match tree.get? (directory ++ [name]) with
      | none =>
        if isLast purpose rest && tree.get? directory == some .directory then
          .ok (.vacancy (directory ++ [name]))
        else .error .notFound
      | some .directory => walkNames tree purpose onLink (directory ++ [name]) rest
      | some (.link target) =>
        if isLast purpose rest && wantsLink purpose then
          .ok (.entry (directory ++ [name]) (.link target))
        else onLink directory target rest
      | some entry =>
        if isLast purpose rest then .ok (.entry (directory ++ [name]) entry)
        else .error .notDirectory

/-- Where a path starts. -/
def start (path : Path) (directory : Location) : Location :=
  if path.isAbsolute then [] else directory

/-- Follows names from a directory through a number of links at most. -/
def walk (tree : FileTree) (purpose : Purpose) :
    (links : Nat) → Location → List String → Except FileError Place
  | 0 => tree.walkNames purpose fun _ _ _ => .error .tooManyLinks
  | links + 1 => tree.walkNames purpose fun directory target rest =>
    walk tree purpose links (start target directory) (target.names ++ rest)

/-- Where a path leads. -/
def resolve (tree : FileTree) (purpose : Purpose) (path : Path) : Except FileError Place :=
  if path.text.toList.contains '\x00' then .error .nulCharacter
  else if path.text = "" then .error .notFound
  else if pathLimit ≤ path.text.utf8ByteSize then .error .nameTooLong
  else tree.walk purpose linkLimit (start path tree.base) path.names

/-- The entry that a path leads to. -/
def find (tree : FileTree) (purpose : Purpose) (path : Path) :
    Except FileError (Location × Entry) := do
  match ← tree.resolve purpose path with
  | .entry location entry => .ok (location, entry)
  | .vacancy _ => .error .notFound

end FileTree

end FaultDrill
