import FaultDrill.Shell.Printing

/-!
Utilities about files.

Owns: showing, making, removing, copying, moving and listing.

Every utility goes through its operands one after the other; one that fails does not keep it from
the next.
-/

namespace FaultDrill.Shell.State

/-- Options and operands. -/
def options (arguments : List String) : List Char × List String :=
  let (options, operands) := arguments.partition fun argument => argument.startsWith "-"
  (options.flatMap fun option => option.toList.tail, operands)

/-! ## Showing, making and removing -/

/-- Prints files one after the other; a dash is the standard input. -/
def cat (state : State) (arguments : List String) : State :=
  state.forEach (if arguments.isEmpty then ["-"] else arguments) fun state path =>
    if path = "-" then { state.print (String.ofList state.input) with input := [] }
    else
      match state.tree.read ⟨path⟩ with
      | .ok contents => state.print (Text.Utf8.replacedText contents)
      | .error error => state.fault ("cat: " ++ path ++ ": " ++ error.reason)

/-- Makes files that are missing. -/
def touch (state : State) (arguments : List String) : State :=
  state.forEach arguments fun state path =>
    if state.tree.exists? ⟨path⟩ then state
    else
      match state.tree.write ⟨path⟩ [] with
      | .ok tree => { state with tree }
      | .error error =>
        state.fault ("touch: cannot touch '" ++ path ++ "': " ++ error.reason)

/-- Removes files, and directories if asked to. -/
def rm (state : State) (arguments : List String) : State :=
  let (options, operands) := options arguments
  let recursive := options.contains 'r' || options.contains 'R'
  let force := options.contains 'f'
  state.forEach operands fun state path =>
    let refuse (error : FileError) :=
      if force && error == .notFound then state
      else state.fault ("rm: cannot remove '" ++ path ++ "': " ++ error.reason)
    match state.tree.find .itself ⟨path⟩ with
    | .error error => refuse error
    | .ok (_, .directory) =>
      if recursive then
        match state.tree.removeAll ⟨path⟩ with
        | (.ok (), tree) => { state with tree }
        | (.error error, tree) => { refuse error with tree }
      else refuse .isDirectory
    | .ok _ =>
      match state.tree.removeFile ⟨path⟩ with
      | .ok tree => { state with tree }
      | .error error => refuse error

/-- Makes directories, with those above them if asked to. -/
def mkdir (state : State) (arguments : List String) : State :=
  let (options, operands) := options arguments
  state.forEach operands fun state path =>
    let refuse (error : FileError) :=
      state.fault ("mkdir: cannot create directory ‘" ++ path ++ "’: " ++ error.reason)
    if options.contains 'p' then
      match state.tree.makeDirectories ⟨path⟩ with
      | (.ok (), tree) => { state with tree }
      | (.error error, tree) => { refuse error with tree }
    else
      match state.tree.makeDirectory ⟨path⟩ with
      | .ok tree => { state with tree }
      | .error error => refuse error

/-- Removes empty directories. -/
def rmdir (state : State) (arguments : List String) : State :=
  state.forEach arguments fun state path =>
    match state.tree.removeDirectory ⟨path⟩ with
    | .ok tree => { state with tree }
    | .error error =>
      state.fault ("rmdir: failed to remove '" ++ path ++ "': " ++ error.reason)

/-! ## Copying and moving -/

/-- Where something goes that is put at a path: into the directory there, or to the path itself. -/
def destination (state : State) (path source : String) : String :=
  if state.tree.isDirectory ⟨path⟩ then
    let name := ((source.splitOn "/").filter (· != "")).getLastD ""
    if path.endsWith "/" then path ++ name else path ++ "/" ++ name
  else path

/-- Does something with each of some paths and where it goes, which the last path says. -/
def forEachPlaced
    (state : State)
    (name : String)
    (operands : List String)
    (action : State → String → String → State) :
    State :=
  match operands.getLast? with
  | none => state.fault (name ++ ": missing file operand")
  | some last =>
    if operands.length < 2 then
      state.fault (name ++ ": missing destination file operand after '" ++ last ++ "'")
    else if 2 < operands.length ∧ ¬ state.tree.isDirectory ⟨last⟩ then
      state.fault (name ++ ": target '" ++ last ++ "': Not a directory")
    else
      state.forEach operands.dropLast fun state source =>
        action state source (state.destination last source)

/-- Copies files, and directories if asked to. -/
def cp (state : State) (arguments : List String) : State :=
  let (options, operands) := options arguments
  let recursive := ['r', 'R', 'a'].any options.contains
  state.forEachPlaced "cp" operands fun state source target =>
    match state.tree.find (if recursive then .itself else .target) ⟨source⟩ with
    | .error error => state.fault ("cp: cannot stat '" ++ source ++ "': " ++ error.reason)
    | .ok (location, entry) =>
      if entry = .directory ∧ ¬ recursive then
        state.fault ("cp: -r not specified; omitting directory '" ++ source ++ "'")
      else
        match state.tree.resolve .newFile ⟨target⟩, entry with
        | .error error, _ =>
          state.fault ("cp: cannot create regular file '" ++ target ++ "': " ++ error.reason)
        | .ok (.vacancy place), _ =>
          { state with tree := state.tree.graft location place entry }
        | .ok (.entry place (.file _ executable)), .file contents _ =>
          if place = location then
            state.fault ("cp: '" ++ source ++ "' and '" ++ target ++ "' are the same file")
          else { state with tree := state.tree.put place (.file contents executable) }
        | .ok (.entry place .directory), .directory =>
          { state with tree := state.tree.graft location place entry }
        | .ok (.entry ..), .directory =>
          state.fault
            ("cp: cannot overwrite non-directory '" ++ target ++ "' with directory '" ++
              source ++ "'")
        | .ok (.entry ..), _ =>
          state.fault ("cp: cannot overwrite directory '" ++ target ++ "' with non-directory")

/-- Moves entries. -/
def mv (state : State) (arguments : List String) : State :=
  let (_, operands) := options arguments
  state.forEachPlaced "mv" operands fun state source target =>
    match state.tree.find .itself ⟨source⟩ with
    | .error error => state.fault ("mv: cannot stat '" ++ source ++ "': " ++ error.reason)
    | .ok (location, entry) =>
      match state.tree.resolve .entryName ⟨target⟩ with
      | .error error =>
        state.fault
          ("mv: cannot move '" ++ source ++ "' to '" ++ target ++ "': " ++ error.reason)
      | .ok place =>
        let (place, former) :=
          match place with
          | .vacancy place => (place, none)
          | .entry place entry => (place, some entry)
        if place = location then
          state.fault ("mv: '" ++ source ++ "' and '" ++ target ++ "' are the same file")
        else if entry = .directory ∧ location.isPrefixOf place then
          state.fault
            ("mv: cannot move '" ++ source ++ "' to a subdirectory of itself, '" ++ target ++ "'")
        else if former = some .directory ∧ entry ≠ .directory then
          state.fault ("mv: cannot overwrite directory '" ++ target ++ "' with non-directory")
        else if former = some .directory ∧ ¬ state.tree.isEmptyBelow place then
          state.fault ("mv: cannot overwrite '" ++ target ++ "': Directory not empty")
        else if former.isSome ∧ former ≠ some .directory ∧ entry = .directory then
          state.fault
            ("mv: cannot overwrite non-directory '" ++ target ++ "' with directory '" ++ source ++
              "'")
        else { state with tree := (state.tree.graft location place entry).erase location }

/-- Makes symbolic links. -/
def ln (state : State) (arguments : List String) : State :=
  let (options, operands) := options arguments
  if !options.contains 's' then state.withStatus 1
  else
    let operands :=
      match operands with
      | [target] => [target, "."]
      | _ => operands
    state.forEachPlaced "ln" operands fun state target path =>
      let cleared :=
        if options.contains 'f' then
          match state.tree.removeFile ⟨path⟩ with
          | .ok tree => tree
          | .error _ => state.tree
        else state.tree
      match cleared.make ⟨path⟩ (.link ⟨target⟩) with
      | .ok tree => { state with tree }
      | .error error =>
        state.fault ("ln: failed to create symbolic link '" ++ path ++ "': " ++ error.reason)

/-- Whether a mode lets the owner execute, if it says so. -/
def executableBy? (mode : String) : Option Bool :=
  if mode.toList.all Char.isDigit then
    mode.toNat?.map fun digits => (digits / 100) % 2 == 1
  else if mode.toList.contains 'x' then some (mode.toList.contains '+' || mode.toList.contains '=')
  else none

/-- Lets files be executed, or not. -/
def chmod (state : State) (arguments : List String) : State :=
  match arguments with
  | "-R" :: mode :: operands | mode :: operands =>
    state.forEach operands fun state path =>
      match state.tree.find .target ⟨path⟩, executableBy? mode with
      | .ok (location, .file contents _), some executable =>
        { state with tree := state.tree.put location (.file contents executable) }
      | .ok _, _ => state
      | .error error, _ =>
        state.fault ("chmod: cannot access '" ++ path ++ "': " ++ error.reason)
  | [] => state.fault "chmod: missing operand"

/-! ## Listing -/

/-- The names in a directory, in order, without those that start with a dot. -/
def namesIn (tree : FileTree) (location : Location) : List (String × Entry) :=
  let children := (tree.below location).filterMap fun
    | ([name], entry) => if name.startsWith "." then none else some (name, entry)
    | _ => none
  children.mergeSort fun left right => left.1 ≤ right.1

/-- The sections about a directory and those below it; `steps` bounds the depth. -/
def sections (tree : FileTree) : (steps : Nat) → String → Location → List String
  | 0, _, _ => []
  | steps + 1, path, location =>
    let names := namesIn tree location
    (path ++ ":\n" ++ String.join (names.map fun (name, _) => name ++ "\n")) ::
      names.flatMap fun (name, entry) =>
        match entry with
        | .directory => sections tree steps (path ++ "/" ++ name) (location ++ [name])
        | _ => []

/-- Lists directories. -/
def ls (state : State) (arguments : List String) : State :=
  let (options, operands) := options arguments
  let operands := if operands.isEmpty then ["."] else operands
  state.forEach operands fun state path =>
    match state.tree.find .target ⟨path⟩ with
    | .error error =>
      state.fault ("ls: cannot access '" ++ path ++ "': " ++ error.reason) 2
    | .ok (location, .directory) =>
      if options.contains 'R' then
        state.print (String.intercalate "\n"
          (sections state.tree (state.tree.entries.length + 1) path location))
      else
        let names := (namesIn state.tree location).map fun (name, _) => name ++ "\n"
        state.print (if operands.length = 1 then String.join names
          else path ++ ":\n" ++ String.join names)
    | .ok _ => state.print (path ++ "\n")

end FaultDrill.Shell.State
