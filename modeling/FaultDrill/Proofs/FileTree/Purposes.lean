import FaultDrill.Proofs.FileTree.Enclosure

/-!
Where one path leads for several purposes.

Owns:
- purposes of which one takes a name for the last, or a link for what is wanted, whenever another
  does;
- paths that do not end in a separator;
- entries that stand where a path leads, and vacancies.

Main statements: a path that leads nowhere for one purpose leads nowhere for a stricter one
(`find_notFound_of_stricter`); without a separator at its end it leads to the same entry, whether
or not its name is asked for (`find_entryName_eq`); where it leads to something other than a link,
it leads there through all links (`resolve_target_of_resolve`).
-/

namespace FaultDrill.FileTree

/-! ## Purposes that differ only at the end of a path -/

/-- Wherever one purpose takes a name for the last, or a link for what is wanted, another does. -/
structure Stricter (strict loose : Purpose) : Prop where
  notNewFile : strict ≠ .newFile ∧ loose ≠ .newFile
  last : ∀ rest, isLast strict rest = true → isLast loose rest = true
  link : wantsLink strict = true → wantsLink loose = true

theorem itself_stricter_entryName : Stricter .itself .entryName where
  notNewFile := by decide
  last := by
    intro rest last
    cases rest with
    | nil => rfl
    | cons name rest => simp [isLast] at last
  link := by decide

theorem target_stricter_itself : Stricter .target .itself where
  notNewFile := by decide
  last := fun _ last => last
  link := by decide

/-- An answer that is not about a directory. -/
def NotDirectory (answer : Except FileError Place) : Prop :=
  ∃ location entry, answer = .ok (.entry location entry) ∧ entry ≠ .directory

private theorem walkNames_stricter (tree : FileTree) {strict loose : Purpose}
    (stricter : Stricter strict loose)
    {onStrict onLoose : Location → Path → List String → Except FileError Place}
    (linkStricter : ∀ directory target rest,
      found (onStrict directory target rest) = found (onLoose directory target rest) ∨
        NotDirectory (onLoose directory target rest))
    (directory : Location) (names : List String) :
    found (tree.walkNames strict onStrict directory names) =
        found (tree.walkNames loose onLoose directory names) ∨
      NotDirectory (tree.walkNames loose onLoose directory names) := by
  induction names generalizing directory with
  | nil => exact Or.inl rfl
  | cons name rest inductionHypothesis =>
      unfold walkNames
      by_cases blank : name = "" ∨ name = "."
      · rw [if_pos blank, if_pos blank]
        exact inductionHypothesis directory
      rw [if_neg blank, if_neg blank]
      by_cases up : name = ".."
      · rw [if_pos up, if_pos up]
        exact inductionHypothesis directory.dropLast
      have strictUnslashed : ¬ (strict = .newFile ∧ rest = [""]) :=
        fun slashed => stricter.notNewFile.1 slashed.1
      have looseUnslashed : ¬ (loose = .newFile ∧ rest = [""]) :=
        fun slashed => stricter.notNewFile.2 slashed.1
      rw [if_neg up, if_neg up, if_neg strictUnslashed, if_neg looseUnslashed]
      by_cases long : nameLimit < name.utf8ByteSize
      · rw [if_pos long, if_pos long]
        exact Or.inl rfl
      rw [if_neg long, if_neg long]
      have last := stricter.last rest
      cases standing : tree.get? (directory ++ [name]) with
      | none =>
          left
          dsimp only
          split <;> split <;> rfl
      | some entry =>
          cases entry with
          | directory => exact inductionHypothesis (directory ++ [name])
          | file contents executable =>
              dsimp only
              by_cases lastLoose : isLast loose rest = true
              · right
                rw [if_pos lastLoose]
                exact ⟨_, _, rfl, by simp⟩
              · left
                rw [if_neg lastLoose, if_neg (fun lastStrict => lastLoose (last lastStrict))]
          | socket =>
              dsimp only
              by_cases lastLoose : isLast loose rest = true
              · right
                rw [if_pos lastLoose]
                exact ⟨_, _, rfl, by simp⟩
              · left
                rw [if_neg lastLoose, if_neg (fun lastStrict => lastLoose (last lastStrict))]
          | link target =>
              dsimp only
              by_cases wanted : (isLast loose rest && wantsLink loose) = true
              · right
                rw [if_pos wanted]
                exact ⟨_, _, rfl, by simp⟩
              · have unwanted : ¬ (isLast strict rest && wantsLink strict) = true := by
                  intro both
                  rw [Bool.and_eq_true] at both wanted
                  exact wanted ⟨last both.1, stricter.link both.2⟩
                rw [if_neg wanted, if_neg unwanted]
                exact linkStricter directory target rest

private theorem walk_stricter (tree : FileTree) {strict loose : Purpose}
    (stricter : Stricter strict loose)
    (links : Nat) (directory : Location) (names : List String) :
    found (tree.walk strict links directory names) =
        found (tree.walk loose links directory names) ∨
      NotDirectory (tree.walk loose links directory names) := by
  induction links generalizing directory names with
  | zero =>
      exact walkNames_stricter tree stricter (fun _ _ _ => Or.inl rfl) directory names
  | succ links inductionHypothesis =>
      exact walkNames_stricter tree stricter
        (fun directory target rest =>
          inductionHypothesis (start target directory) (target.names ++ rest))
        directory names

/-- For a stricter purpose a path leads to the same, unless it leads to something other than a
directory for the looser one. -/
theorem find_stricter (tree : FileTree) {strict loose : Purpose}
    (stricter : Stricter strict loose) (path : Path) :
    tree.find strict path = tree.find loose path ∨
      ∃ location entry, tree.find loose path = .ok (location, entry) ∧ entry ≠ .directory := by
  rw [find_eq_found, find_eq_found]
  unfold resolve
  split
  · exact Or.inl rfl
  · split
    · exact Or.inl rfl
    · split
      · exact Or.inl rfl
      · rcases walk_stricter tree stricter linkLimit (start path tree.base) path.names with
          same | ⟨location, entry, answer, other⟩
        · exact Or.inl same
        · exact Or.inr ⟨location, entry, by rw [answer]; rfl, other⟩

theorem find_notFound_of_stricter {tree : FileTree} {strict loose : Purpose}
    (stricter : Stricter strict loose) {path : Path}
    (nowhere : tree.find loose path = .error .notFound) :
    tree.find strict path = .error .notFound := by
  rcases find_stricter tree stricter path with same | ⟨location, entry, answer, -⟩
  · rw [same, nowhere]
  · rw [nowhere] at answer
    cases answer

theorem find_directory_of_stricter {tree : FileTree} {strict loose : Purpose}
    (stricter : Stricter strict loose) {path : Path} {location : Location}
    (leads : tree.find loose path = .ok (location, .directory)) :
    tree.find strict path = .ok (location, .directory) := by
  rcases find_stricter tree stricter path with same | ⟨place, entry, answer, other⟩
  · rw [same, leads]
  · rw [leads] at answer
    cases answer
    exact absurd rfl other

/-! ## Paths that do not end in a separator -/

/-- Whether the last of some names is no mark of a separator at the end of a path. -/
def Unslashed (names : List String) : Prop := names.getLast? ≠ some ""

instance (names : List String) : Decidable (Unslashed names) :=
  inferInstanceAs (Decidable (names.getLast? ≠ some ""))

theorem Unslashed.tail {name : String} {rest : List String} (unslashed : Unslashed (name :: rest)) :
    Unslashed rest := by
  intro slash
  apply unslashed
  rw [List.getLast?_cons, slash]
  rfl

theorem Unslashed.isLast_eq {name : String} {rest : List String}
    (unslashed : Unslashed (name :: rest)) : isLast .entryName rest = isLast .itself rest := by
  have noMark : (rest == [""]) = false := by
    rw [beq_eq_false_iff_ne]
    rintro rfl
    exact unslashed rfl
  unfold isLast
  rw [noMark, Bool.and_false, Bool.and_false]

private theorem walkNames_unslashed (tree : FileTree)
    {onName onItself : Location → Path → List String → Except FileError Place}
    (linkAlike : ∀ directory target rest, rest ≠ [] → Unslashed rest →
      onName directory target rest = onItself directory target rest)
    (directory : Location) {names : List String} (unslashed : Unslashed names) :
    tree.walkNames .entryName onName directory names =
      tree.walkNames .itself onItself directory names := by
  induction names generalizing directory with
  | nil => rfl
  | cons name rest inductionHypothesis =>
      have further := fun directory => inductionHypothesis directory unslashed.tail
      unfold walkNames
      rw [unslashed.isLast_eq, further directory, further directory.dropLast,
        further (directory ++ [name])]
      simp only [reduceCtorEq, false_and, if_false]
      by_cases last : isLast .itself rest = true
      · simp [last, wantsLink]
      · have goesOn : rest ≠ [] := by
          rintro rfl
          exact last rfl
        simp [last, linkAlike directory _ rest goesOn unslashed.tail]

private theorem walk_unslashed (tree : FileTree) (links : Nat) (directory : Location)
    {names : List String} (unslashed : Unslashed names) :
    tree.walk .entryName links directory names = tree.walk .itself links directory names := by
  induction links generalizing directory names with
  | zero => exact walkNames_unslashed tree (fun _ _ _ _ _ => rfl) directory unslashed
  | succ links inductionHypothesis =>
      apply walkNames_unslashed tree _ directory unslashed
      intro directory target rest goesOn restUnslashed
      apply inductionHypothesis
      unfold Unslashed
      rw [List.getLast?_append, List.getLast?_eq_some_getLast goesOn, Option.some_or,
        ← List.getLast?_eq_some_getLast goesOn]
      exact restUnslashed

/-- Without a separator at the end a path leads to the same entry for both purposes. -/
theorem find_entryName_eq (tree : FileTree) {path : Path} (unslashed : Unslashed path.names) :
    tree.find .entryName path = tree.find .itself path := by
  rw [find_eq_found, find_eq_found]
  unfold resolve
  rw [walk_unslashed tree linkLimit (start path tree.base) unslashed]

/-! ## Ways through all links -/

private theorem isLast_target_eq {purpose : Purpose} (notName : purpose ≠ .entryName)
    (rest : List String) : isLast .target rest = isLast purpose rest := by
  cases purpose with
  | entryName => exact absurd rfl notName
  | target => rfl
  | itself => rfl
  | newFile => rfl

private theorem walkNames_target (tree : FileTree) {purpose : Purpose}
    (notName : purpose ≠ .entryName)
    {onPurpose onTarget : Location → Path → List String → Except FileError Place} {place : Place}
    (noLink : wantsLink purpose = true → ∀ location target, place ≠ .entry location (.link target))
    (linkTarget : ∀ directory target rest,
      onPurpose directory target rest = .ok place → onTarget directory target rest = .ok place)
    {directory : Location} {names : List String}
    (walked : tree.walkNames purpose onPurpose directory names = .ok place) :
    tree.walkNames .target onTarget directory names = .ok place := by
  induction names generalizing directory with
  | nil => exact walked
  | cons name rest inductionHypothesis =>
      have forTarget (ordinary : Ordinary purpose name rest) : Ordinary .target name rest :=
        ⟨ordinary.notBlank, ordinary.notUp, by simp, ordinary.short⟩
      rw [walkNames_cons_ok_iff]
      cases walkNames_cons_ok_iff.mp walked with
      | blank isBlank onwards => exact .blank isBlank (inductionHypothesis onwards)
      | up isUp onwards => exact .up isUp (inductionHypothesis onwards)
      | into ordinary standing onwards =>
          exact .into (forTarget ordinary) standing (inductionHypothesis onwards)
      | through ordinary target standing unwanted onwards =>
          exact .through (forTarget ordinary) target standing (by simp [wantsLink])
            (linkTarget _ _ _ onwards)
      | vacancy ordinary vacant last here =>
          rw [← isLast_target_eq notName] at last
          exact .vacancy (forTarget ordinary) vacant last here
      | entry ordinary entry standing other last wanted here =>
          rw [← isLast_target_eq notName] at last
          refine .entry (forTarget ordinary) entry standing other last ?_ here
          rintro target rfl
          exact absurd here (noLink (wanted target rfl) _ target)

private theorem walk_target (tree : FileTree) {purpose : Purpose}
    (notName : purpose ≠ .entryName) {links : Nat} {directory : Location} {names : List String}
    {place : Place}
    (noLink : wantsLink purpose = true → ∀ location target, place ≠ .entry location (.link target))
    (walked : tree.walk purpose links directory names = .ok place) :
    tree.walk .target links directory names = .ok place := by
  induction links generalizing directory names with
  | zero =>
      exact walkNames_target tree notName noLink (fun _ _ _ answer => by cases answer) walked
  | succ links inductionHypothesis =>
      exact walkNames_target tree notName noLink (fun _ _ _ answer => inductionHypothesis answer)
        walked

/-- Where a path leads to anything but a link that is itself wanted, it leads there through all
links. -/
theorem resolve_target_of_resolve {tree : FileTree} {purpose : Purpose} {path : Path}
    {place : Place} (notName : purpose ≠ .entryName)
    (noLink : wantsLink purpose = true → ∀ location target, place ≠ .entry location (.link target))
    (resolved : tree.resolve purpose path = .ok place) :
    tree.resolve .target path = .ok place :=
  resolve_of_walks rfl (walk_target tree notName noLink) resolved

/-- Through all links a path leads to what it leads to, unless that is a link. -/
theorem find_target_of_itself {tree : FileTree} {path : Path} {location : Location} {entry : Entry}
    (leads : tree.find .itself path = .ok (location, entry))
    (noLink : ∀ target, entry ≠ .link target) :
    tree.find .target path = .ok (location, entry) := by
  rw [find_eq_found, found_eq_ok_iff] at leads ⊢
  apply resolve_target_of_resolve (by decide) _ leads
  intro _ place target same
  exact noLink target (Place.entry.inj same).2

/-! ## What a path leads to stands there -/

/-- A place is as the tree has it. Directories on the way up need not stand. -/
def Stands (tree : FileTree) : Place → Prop
  | .entry location entry => entry ≠ .directory → tree.get? location = some entry
  | .vacancy location => tree.get? location = none

private theorem walkNames_stands (tree : FileTree) {purpose : Purpose}
    {onLink : Location → Path → List String → Except FileError Place}
    (linkStands : ∀ directory target rest place,
      onLink directory target rest = .ok place → tree.Stands place)
    {directory : Location} {names : List String} {place : Place}
    (walked : tree.walkNames purpose onLink directory names = .ok place) :
    tree.Stands place := by
  induction names generalizing directory with
  | nil =>
      rw [walkNames] at walked
      cases walked
      exact fun other => absurd rfl other
  | cons name rest inductionHypothesis =>
      cases walkNames_cons_ok_iff.mp walked with
      | blank _ onwards => exact inductionHypothesis onwards
      | up _ onwards => exact inductionHypothesis onwards
      | into _ _ onwards => exact inductionHypothesis onwards
      | through _ target _ _ onwards => exact linkStands _ _ _ _ onwards
      | vacancy _ vacant _ here => rwa [here]
      | entry _ entry standing _ _ _ here =>
          rw [here]
          exact fun _ => standing

theorem stands_of_walk (tree : FileTree) {purpose : Purpose} {links : Nat}
    {directory : Location} {names : List String} {place : Place}
    (walked : tree.walk purpose links directory names = .ok place) : tree.Stands place := by
  induction links generalizing directory names place with
  | zero => exact walkNames_stands tree (fun _ _ _ _ answer => by cases answer) walked
  | succ links inductionHypothesis =>
      exact walkNames_stands tree (fun _ _ _ _ answer => inductionHypothesis answer) walked

theorem stands_of_resolve {tree : FileTree} {purpose : Purpose} {path : Path} {place : Place}
    (resolved : tree.resolve purpose path = .ok place) : tree.Stands place :=
  stands_of_walk tree (walk_of_resolve resolved).2

/-- What a path leads to stands there, if it is no directory. -/
theorem get?_of_find {tree : FileTree} {purpose : Purpose} {path : Path} {location : Location}
    {entry : Entry} (leads : tree.find purpose path = .ok (location, entry))
    (other : entry ≠ .directory) : tree.get? location = some entry := by
  rw [find_eq_found, found_eq_ok_iff] at leads
  exact stands_of_resolve leads other

end FaultDrill.FileTree
