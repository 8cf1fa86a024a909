import FaultDrill.FileTree.Resolve

/-!
What a process does with files.

Owns: looking at entries, reading, writing and making them, and removing whole directories.

An operation that fails leaves the tree as it was, except for two that are done step by step:
making a directory with all those above it, and removing a directory with all that is in it.
-/

namespace FaultDrill.FileTree

/-! ## Looking -/

/-- What a path leads to, through all links. -/
def stat (tree : FileTree) (path : Path) : Except FileError Entry :=
  (tree.find .target path).map (·.2)

/-- Whether a path leads anywhere. -/
def exists? (tree : FileTree) (path : Path) : Bool :=
  (tree.stat path).isOk

/-- Whether a path leads to a directory. -/
def isDirectory (tree : FileTree) (path : Path) : Bool :=
  match tree.stat path with
  | .ok .directory => true
  | _ => false

/-- The path of the working directory. -/
def workingDirectory (tree : FileTree) : Except FileError Path :=
  if tree.get? tree.base = some .directory then
    .ok ⟨"/" ++ String.intercalate "/" tree.base⟩
  else .error .notFound

/-- What an opened entry gives: some bytes, after which reading ends or fails. -/
structure Source where
  bytes : List UInt8
  failure : Option FileError := none
  deriving DecidableEq, Repr

/-- Opens an entry for reading. A directory can be opened but not read. -/
def openSource (tree : FileTree) (path : Path) : Except FileError Source := do
  match ← tree.stat path with
  | .file contents _ => .ok ⟨contents, none⟩
  | .directory => .ok ⟨[], some .isDirectory⟩
  | .socket | .link _ => .error .noSuchDevice

/-- The contents of a file. -/
def read (tree : FileTree) (path : Path) : Except FileError (List UInt8) := do
  let source ← tree.openSource path
  match source.failure with
  | none => .ok source.bytes
  | some failure => .error failure

/-! ## Making -/

/-- Writes a file, new or in place of what it held. A file stays executable. -/
def write (tree : FileTree) (path : Path) (contents : List UInt8) :
    Except FileError FileTree := do
  match ← tree.resolve .newFile path with
  | .vacancy location => .ok (tree.put location (.file contents false))
  | .entry location (.file _ executable) => .ok (tree.put location (.file contents executable))
  | .entry _ .directory => .error .isDirectory
  | .entry _ .socket | .entry _ (.link _) => .error .noSuchDevice

/-- Makes a file executable. -/
def makeExecutable (tree : FileTree) (path : Path) : Except FileError FileTree := do
  match ← tree.find .target path with
  | (location, .file contents _) => .ok (tree.put location (.file contents true))
  | _ => .ok tree

/-- Puts a new entry where nothing stands. -/
def make (tree : FileTree) (path : Path) (entry : Entry) : Except FileError FileTree := do
  match ← tree.resolve .entryName path with
  | .vacancy location => .ok (tree.put location entry)
  | .entry .. => .error .exists

/-- Makes a directory. -/
def makeDirectory (tree : FileTree) (path : Path) : Except FileError FileTree :=
  tree.make path .directory

/-- A path and the directory parts of it, up to the empty one or the root; `steps` bounds their
number. -/
def lineage : (steps : Nat) → Path → List Path
  | 0, _ => []
  | steps + 1, path =>
    path ::
      match path.parent? with
      | some parent => lineage steps parent
      | none => []

/-- Makes the first of some directories, after those that come later if they are missing. A
directory that is there already is fine. -/
def makeLineage (tree : FileTree) : List Path → Except FileError Unit × FileTree
  | [] => (.error .noParent, tree)
  | path :: above =>
    if path.text = "" then (.ok (), tree)
    else
      match tree.makeDirectory path with
      | .ok tree => (.ok (), tree)
      | .error .notFound =>
        match makeLineage tree above with
        | (.error error, tree) => (.error error, tree)
        | (.ok (), tree) =>
          match tree.makeDirectory path with
          | .ok tree => (.ok (), tree)
          | .error error =>
            if tree.isDirectory path then (.ok (), tree) else (.error error, tree)
      | .error error => if tree.isDirectory path then (.ok (), tree) else (.error error, tree)

/-- After any failure but that something is missing, it counts whether the directory is there. -/
theorem makeLineage_of_error {tree : FileTree} {path : Path} {above : List Path} {error : FileError}
    (nonempty : path.text ≠ "") (fails : tree.makeDirectory path = .error error)
    (other : error ≠ .notFound) :
    tree.makeLineage (path :: above) =
      if tree.isDirectory path then (.ok (), tree) else (.error error, tree) := by
  unfold makeLineage
  rw [if_neg nonempty, fails]
  cases error with
  | notFound => exact absurd rfl other
  | _ => rfl

/-- Makes a directory and those above it as needed. -/
def makeDirectories (tree : FileTree) (path : Path) : Except FileError Unit × FileTree :=
  tree.makeLineage (lineage (path.text.length + 1) path)

/-! ## Copying -/

/-- Puts at a location what stands at another, with all that is below it. -/
def graft (tree : FileTree) (source target : Location) (entry : Entry) : FileTree :=
  (tree.below source).foldl (fun tree (names, entry) => tree.put (target ++ names) entry)
    (tree.put target entry)

/-! ## Removing -/

/-- The name that removal of a directory goes by. -/
def removalName (path : Path) : Option String :=
  (path.names.filter (· != "")).getLast?

/-- Removes an empty directory, which must be called by its own name. -/
def removeDirectory (tree : FileTree) (path : Path) : Except FileError FileTree := do
  let found ← tree.find .entryName path
  match removalName path with
  | none => .error .busy
  | some "." => .error .invalid
  | some ".." => .error .notEmpty
  | some _ =>
    match found with
    | (location, .directory) =>
      if tree.isEmptyBelow location then .ok (tree.erase location) else .error .notEmpty
    | _ => .error .notDirectory

/-- Removes an entry that is no directory. -/
def removeFile (tree : FileTree) (path : Path) : Except FileError FileTree := do
  match ← tree.find .itself path with
  | (_, .directory) => .error .isDirectory
  | (location, _) => .ok (tree.erase location)

/-- Removes a directory with all that is in it. Links are removed and not followed; a path that
ends at a link removes the link alone.

A path that leads through what it removes leads nowhere once the directory is emptied; then the
emptied directory stays. -/
def removeAll (tree : FileTree) (path : Path) : Except FileError Unit × FileTree :=
  match tree.find .itself path with
  | .error error => (.error error, tree)
  | .ok (location, .link _) => (.ok (), tree.erase location)
  | .ok (location, .directory) =>
    let emptied := tree.eraseBelow location
    match emptied.removeDirectory path with
    | .ok tree => (.ok (), tree)
    | .error .notFound => (.ok (), emptied)
    | .error error => (.error error, emptied)
  | .ok _ => (.error .notDirectory, tree)

end FaultDrill.FileTree
