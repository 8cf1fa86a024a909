import FaultDrill.Proofs.FileTree.Purposes

/-!
Well-formed trees stay well formed.

Owns: what an entry may be put in the place of, and the making of directories and the writing of
files in well-formed trees.

Main statements: every vacancy that a path leads to is in a directory (`vacancy_of_resolve`), so
neither the making of directories nor the writing of a file leaves an entry without a directory,
however they end (`WellFormed.makeDirectories`, `WellFormed.write`, `WellFormed.makeExecutable`).
-/

namespace FaultDrill.FileTree

/-! ## Vacancies -/

/-- A vacancy is the place of a name in a directory. -/
def InDirectory (tree : FileTree) : Place → Prop
  | .entry _ _ => True
  | .vacancy location =>
    ∃ directory name, location = directory ++ [name] ∧ tree.get? directory = some .directory

private theorem walkNames_inDirectory (tree : FileTree) {purpose : Purpose}
    {onLink : Location → Path → List String → Except FileError Place}
    (linkInDirectory : ∀ directory target rest place,
      onLink directory target rest = .ok place → tree.InDirectory place)
    {directory : Location} {names : List String} {place : Place}
    (walked : tree.walkNames purpose onLink directory names = .ok place) :
    tree.InDirectory place := by
  induction names generalizing directory with
  | nil =>
      rw [walkNames] at walked
      cases walked
      trivial
  | cons name rest inductionHypothesis =>
      cases walkNames_cons_ok_iff.mp walked with
      | blank _ onwards => exact inductionHypothesis onwards
      | up _ onwards => exact inductionHypothesis onwards
      | into _ _ onwards => exact inductionHypothesis onwards
      | through _ target _ _ onwards => exact linkInDirectory _ _ _ _ onwards
      | vacancy _ _ last here =>
          rw [Bool.and_eq_true, beq_iff_eq] at last
          rw [here]
          exact ⟨directory, name, rfl, last.2⟩
      | entry _ _ _ _ _ _ here =>
          rw [here]
          trivial

private theorem walk_inDirectory (tree : FileTree) {purpose : Purpose} {links : Nat}
    {directory : Location} {names : List String} {place : Place}
    (walked : tree.walk purpose links directory names = .ok place) : tree.InDirectory place := by
  induction links generalizing directory names place with
  | zero => exact walkNames_inDirectory tree (fun _ _ _ _ answer => by cases answer) walked
  | succ links inductionHypothesis =>
      exact walkNames_inDirectory tree (fun _ _ _ _ answer => inductionHypothesis answer) walked

/-- Where a path leads to a vacancy, a directory stands that has no such name. -/
theorem vacancy_of_resolve {tree : FileTree} {purpose : Purpose} {path : Path}
    {location : Location} (resolved : tree.resolve purpose path = .ok (.vacancy location)) :
    ∃ directory name, location = directory ++ [name] ∧
      tree.get? directory = some .directory ∧ tree.get? location = none := by
  obtain ⟨directory, name, rfl, standing⟩ := walk_inDirectory tree (walk_of_resolve resolved).2
  exact ⟨directory, name, rfl, standing, stands_of_resolve resolved⟩

namespace WellFormed

variable {tree after : FileTree}

/-! ## Entries -/

/-- A name in a directory may get an entry, unless a directory makes way for something else. -/
theorem put (wellFormed : tree.WellFormed) {directory : Location} {name : String} {entry : Entry}
    (standing : tree.get? directory = some .directory)
    (free : entry = .directory ∨ tree.get? (directory ++ [name]) ≠ some .directory) :
    (tree.put (directory ++ [name]) entry).WellFormed := by
  have proper : directory ++ [name] ≠ [] := by simp
  have notItself : directory ≠ directory ++ [name] := fun same => by
    have lengths := congrArg List.length same
    simp at lengths
  intro above last found isFound
  by_cases here : above ++ [last] = directory ++ [name]
  · obtain ⟨rfl, -⟩ := List.append_inj' here rfl
    rw [get?_put_of_ne tree entry notItself, standing]
  · rw [get?_put_of_ne tree entry here] at isFound
    have stood := wellFormed above last found isFound
    by_cases replaced : above = directory ++ [name]
    · subst replaced
      rcases free with rfl | notDirectory
      · exact get?_put_self tree _ proper
      · exact absurd stood notDirectory
    · rw [get?_put_of_ne tree entry replaced, stood]

/-- An entry that is no directory may get other contents. -/
theorem put_of_found (wellFormed : tree.WellFormed) {location : Location} {old entry : Entry}
    (standing : tree.get? location = some old) (other : old ≠ .directory) :
    (tree.put location entry).WellFormed := by
  rcases List.eq_nil_or_concat location with rfl | ⟨directory, name, rfl⟩
  · rw [get?_root] at standing
    exact absurd (Option.some.inj standing).symm other
  · rw [List.concat_eq_append] at standing ⊢
    refine wellFormed.put (wellFormed directory name old standing) (Or.inr ?_)
    rw [standing]
    exact fun same => other (Option.some.inj same)

/-! ## Files -/

theorem write (wellFormed : tree.WellFormed) {path : Path} {contents : List UInt8}
    (written : tree.write path contents = .ok after) : after.WellFormed := by
  unfold FileTree.write at written
  cases resolved : tree.resolve .newFile path with
  | error error =>
      rw [resolved] at written
      cases written
  | ok place =>
      rw [resolved] at written
      cases place with
      | vacancy location =>
          cases written
          obtain ⟨directory, name, rfl, standing, vacant⟩ := vacancy_of_resolve resolved
          refine wellFormed.put standing (Or.inr ?_)
          rw [vacant]
          simp
      | entry location entry =>
          cases entry with
          | directory => cases written
          | link target => cases written
          | socket => cases written
          | file old executable =>
              cases written
              have other : Entry.file old executable ≠ .directory := by simp
              exact wellFormed.put_of_found (stands_of_resolve resolved other) other

theorem makeExecutable (wellFormed : tree.WellFormed) {path : Path}
    (made : tree.makeExecutable path = .ok after) : after.WellFormed := by
  unfold FileTree.makeExecutable at made
  cases found : tree.find .target path with
  | error error =>
      rw [found] at made
      cases made
  | ok item =>
      obtain ⟨location, entry⟩ := item
      rw [found] at made
      cases entry with
      | directory =>
          cases made
          exact wellFormed
      | link target =>
          cases made
          exact wellFormed
      | socket =>
          cases made
          exact wellFormed
      | file contents executable =>
          cases made
          have other : Entry.file contents executable ≠ .directory := by simp
          exact wellFormed.put_of_found (get?_of_find found other) other

/-! ## Directories -/

theorem makeDirectory (wellFormed : tree.WellFormed) {path : Path}
    (made : tree.makeDirectory path = .ok after) : after.WellFormed := by
  unfold FileTree.makeDirectory make at made
  cases resolved : tree.resolve .entryName path with
  | error error =>
      rw [resolved] at made
      cases made
  | ok place =>
      rw [resolved] at made
      cases place with
      | entry location entry => cases made
      | vacancy location =>
          cases made
          obtain ⟨directory, name, rfl, standing, -⟩ := vacancy_of_resolve resolved
          exact wellFormed.put standing (Or.inl rfl)

theorem makeLineage (wellFormed : tree.WellFormed) (paths : List Path) :
    (tree.makeLineage paths).2.WellFormed := by
  have checked {between : FileTree} (kept : between.WellFormed) (path : Path) (error : FileError) :
      (if between.isDirectory path then (.ok (), between) else (.error error, between) :
        Except FileError Unit × FileTree).2.WellFormed := by
    split
    · exact kept
    · exact kept
  induction paths with
  | nil => exact wellFormed
  | cons path above inductionHypothesis =>
      unfold FileTree.makeLineage
      split
      · exact wellFormed
      · split
        · next made => exact wellFormed.makeDirectory made
        · generalize tree.makeLineage above = outcome at inductionHypothesis ⊢
          obtain ⟨result, between⟩ := outcome
          cases result with
          | error error => exact inductionHypothesis
          | ok done =>
              dsimp only at inductionHypothesis ⊢
              split
              · next made => exact inductionHypothesis.makeDirectory made
              · exact checked inductionHypothesis path _
        · exact checked wellFormed path _

theorem makeDirectories (wellFormed : tree.WellFormed) (path : Path) :
    (tree.makeDirectories path).2.WellFormed :=
  wellFormed.makeLineage _

/-! ## Ways -/

/-- Whatever stands, the way to it leads through directories. -/
theorem get?_of_prefix (wellFormed : tree.WellFormed) {location place : Location} {entry : Entry}
    (standing : tree.get? place = some entry) (before : location <+: place)
    (proper : location ≠ place) : tree.get? location = some .directory := by
  obtain ⟨names, rfl⟩ := before
  induction names using List.reverseRecOn generalizing entry with
  | nil => exact absurd (List.append_nil location).symm proper
  | append_singleton names name inductionHypothesis =>
      rw [← List.append_assoc] at standing
      have above := wellFormed _ _ _ standing
      by_cases direct : names = []
      · rwa [direct, List.append_nil] at above
      · exact inductionHypothesis above (by simpa using direct)

/-- Only directories are on the way to a directory. -/
theorem get?_of_front (wellFormed : tree.WellFormed) {location : Location}
    {names front : List String} (standing : tree.get? (location ++ names) = some .directory)
    (before : front <+: names) : tree.get? (location ++ front) = some .directory := by
  by_cases whole : front = names
  · rw [whole]
    exact standing
  · apply wellFormed.get?_of_prefix standing ((List.prefix_append_right_inj _).mpr before)
    exact fun same => whole (List.append_cancel_left same)

end WellFormed

end FaultDrill.FileTree
