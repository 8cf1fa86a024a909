import FaultDrill.FileTree.Operations
import FaultDrill.Proofs.FileTree.Walk

/-!
What a path is looked up by.

Owns:
- entries without the contents of files;
- the locations that are visited on the way along a path, through links.

Main statement: whether a path leads anywhere depends on nothing but the entries at the locations
visited on its way, and there not on the contents of files (`exists?_of_sameOutline`).
-/

namespace FaultDrill

/-- An entry without the contents and the mode of a file. -/
def Entry.outline : Entry → Entry
  | .file _ _ => .file [] false
  | entry => entry

theorem Entry.outline_eq_directory_iff {entry : Entry} :
    entry.outline = .directory ↔ entry = .directory := by
  cases entry with
  | directory => exact Iff.rfl
  | file contents executable => exact ⟨nofun, nofun⟩
  | link target => exact Iff.rfl
  | socket => exact Iff.rfl

namespace FileTree

/-- The same stands at a location in two trees, but for what files hold. -/
def SameOutline (first second : FileTree) (location : Location) : Prop :=
  (second.get? location).map Entry.outline = (first.get? location).map Entry.outline

instance (first second : FileTree) (location : Location) :
    Decidable (SameOutline first second location) :=
  inferInstanceAs (Decidable (_ = _))

theorem SameOutline.directory_iff {first second : FileTree} {location : Location}
    (same : SameOutline first second location) :
    second.get? location = some .directory ↔ first.get? location = some .directory := by
  have alike : (∃ entry, second.get? location = some entry ∧ entry.outline = .directory) ↔
      ∃ entry, first.get? location = some entry ∧ entry.outline = .directory := by
    rw [← Option.map_eq_some_iff, ← Option.map_eq_some_iff]
    exact iff_of_eq (congrArg (· = some Entry.directory) same)
  simpa only [Entry.outline_eq_directory_iff, exists_eq_right] using alike

/-! ## The way along a path -/

/-- The locations visited along names from a directory on; `onLink` goes on at a link, given the
directory that holds it, its target and the names that follow. -/
def visitedAlong (tree : FileTree) (onLink : Location → Path → List String → List Location) :
    Location → List String → List Location
  | _, [] => []
  | directory, name :: rest =>
    if name = "" ∨ name = "." then visitedAlong tree onLink directory rest
    else if name = ".." then visitedAlong tree onLink directory.dropLast rest
    else
      (directory ++ [name]) ::
        match tree.get? (directory ++ [name]) with
        | some .directory => visitedAlong tree onLink (directory ++ [name]) rest
        | some (.link target) => onLink directory target rest
        | _ => []

/-- The locations visited along names through a number of links at most. -/
def visitedWithin (tree : FileTree) : (links : Nat) → Location → List String → List Location
  | 0 => tree.visitedAlong fun _ _ _ => []
  | links + 1 => tree.visitedAlong fun directory target rest =>
    visitedWithin tree links (start target directory) (target.names ++ rest)

/-- The locations visited on the way along a path. -/
def visited (tree : FileTree) (path : Path) : List Location :=
  tree.visitedWithin linkLimit (start path tree.base) path.names

/-! ## What a path depends on -/

/-- Whether an answer is an entry. -/
def isEntry (answer : Except FileError Place) : Bool := (found answer).isOk

theorem exists?_eq (tree : FileTree) (path : Path) :
    tree.exists? path = isEntry (tree.resolve .target path) := by
  unfold exists? stat isEntry
  rw [find_eq_found]
  cases found (tree.resolve .target path) with
  | error error => rfl
  | ok entry => rfl

theorem isEntry_vacancy (last : Bool) (location : Location) :
    isEntry (if last then .ok (.vacancy location) else .error .notFound) = false := by
  cases last with
  | true => rfl
  | false => rfl

section Walks

variable {first second : FileTree}

private theorem walkNames_sameOutline
    {onFirst onSecond : Location → Path → List String → Except FileError Place}
    {onLink : Location → Path → List String → List Location}
    (links : ∀ directory target rest,
      (∀ location ∈ onLink directory target rest, SameOutline first second location) →
        isEntry (onSecond directory target rest) = isEntry (onFirst directory target rest))
    {directory : Location} {names : List String}
    (same : ∀ location ∈ first.visitedAlong onLink directory names,
      SameOutline first second location) :
    isEntry (second.walkNames .target onSecond directory names) =
      isEntry (first.walkNames .target onFirst directory names) := by
  induction names generalizing directory with
  | nil => rfl
  | cons name rest inductionHypothesis =>
      unfold visitedAlong at same
      by_cases blank : name = "" ∨ name = "."
      · rw [if_pos blank] at same
        rw [walkNames, walkNames, if_pos blank, if_pos blank]
        exact inductionHypothesis same
      by_cases up : name = ".."
      · rw [if_neg blank, if_pos up] at same
        rw [walkNames, walkNames, if_neg blank, if_neg blank, if_pos up, if_pos up]
        exact inductionHypothesis same
      by_cases long : nameLimit < name.utf8ByteSize
      · simp [walkNames, blank, up, long]
      have ordinary : Ordinary .target name rest := ⟨blank, up, by simp, long⟩
      rw [if_neg blank, if_neg up, List.forall_mem_cons] at same
      obtain ⟨here, onwards⟩ := same
      unfold SameOutline at here
      rw [ordinary.walkNames_eq, ordinary.walkNames_eq]
      -- The entry at the name is of the same sort in both trees.
      cases standing : first.get? (directory ++ [name]) with
      | none =>
          rw [standing, Option.map_none, Option.map_eq_none_iff] at here
          rw [here]
          dsimp only
          rw [isEntry_vacancy, isEntry_vacancy]
      | some entry =>
          rw [standing] at here onwards
          obtain ⟨other, otherStanding, alike⟩ := Option.map_eq_some_iff.mp here
          rw [otherStanding]
          cases entry with
          | directory =>
              cases other with
              | directory => exact inductionHypothesis onwards
              | _ => cases alike
          | link target =>
              cases other with
              | link otherTarget =>
                  cases alike
                  have unwanted : (isLast .target rest && wantsLink .target) = false := by
                    rw [Bool.and_eq_false_iff]
                    exact Or.inr rfl
                  dsimp only
                  rw [unwanted]
                  exact links directory target rest onwards
              | _ => cases alike
          | file contents executable =>
              cases other with
              | file otherContents otherMode =>
                  dsimp only
                  cases isLast .target rest with
                  | true => rfl
                  | false => rfl
              | _ => cases alike
          | socket =>
              cases other with
              | socket => rfl
              | _ => cases alike

private theorem walk_sameOutline {links : Nat} {directory : Location} {names : List String}
    (same : ∀ location ∈ first.visitedWithin links directory names,
      SameOutline first second location) :
    isEntry (second.walk .target links directory names) =
      isEntry (first.walk .target links directory names) := by
  induction links generalizing directory names with
  | zero => exact walkNames_sameOutline (fun _ _ _ _ => rfl) same
  | succ links inductionHypothesis =>
      apply walkNames_sameOutline _ same
      intro directory target rest onwards
      exact inductionHypothesis onwards

/-- A path leads somewhere in both of two trees or in none, if the same stands on its way. -/
theorem exists?_of_sameOutline {path : Path} (base : second.base = first.base)
    (same : ∀ location ∈ first.visited path, SameOutline first second location) :
    second.exists? path = first.exists? path := by
  rw [exists?_eq, exists?_eq]
  unfold resolve
  split
  · rfl
  split
  · rfl
  split
  · rfl
  · rw [base]
    exact walk_sameOutline same

end Walks

end FileTree

end FaultDrill
