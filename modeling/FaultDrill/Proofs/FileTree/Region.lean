import FaultDrill.Proofs.FileTree.Rewriting

/-!
What is done below a directory that no links stand in, by any path that goes down from there.

Owns:
- what the making of directories along some names leaves (`Paved`);
- regions: directories that a path leads to and that no links stand in, however deep;
- where paths lead that go down from such a directory, and what the making of directories and the
  writing of a file do there.

Main statements: a path that goes down leads nowhere but to the location that its components spell
(`Region.place_of_resolve`); directories are made along these and nowhere else, however the making
ends (`Region.pavedTo_makeDirectories`); a file is written there and keeps its mode
(`Region.write_ok`).

The text of a path may hold separators and dots that lead nowhere. Whether a lookup succeeds
depends on them, and where it leads does not.

Does not own: when these operations succeed (`Proofs.FileTree.Passage`).
-/

namespace FaultDrill.FileTree

/-! ## Directories along some names -/

/-- A directory stands where nothing stood, on the way from a location along some names. -/
def Added (location : Location) (names : List String) (tree after : FileTree)
    (place : Location) : Prop :=
  tree.get? place = none ∧ after.get? place = some .directory ∧
    ∃ front, front ≠ [] ∧ front <+: names ∧ place = location ++ front

/-- Directories have been made along some names, and nothing else has changed. -/
structure Paved (location : Location) (names : List String) (tree after : FileTree) : Prop where
  base : after.base = tree.base
  get? : ∀ place, after.get? place = tree.get? place ∨ Added location names tree after place

namespace Paved

variable {location : Location} {names more : List String} {tree between after : FileTree}

theorem refl (location : Location) (names : List String) (tree : FileTree) :
    Paved location names tree tree :=
  ⟨rfl, fun _ => Or.inl rfl⟩

theorem mono (paved : Paved location names tree after) (front : names <+: more) :
    Paved location more tree after := by
  refine ⟨paved.base, fun place => ?_⟩
  rcases paved.get? place with same | ⟨vacant, made, first, nonempty, isFront, rfl⟩
  · exact Or.inl same
  · exact Or.inr ⟨vacant, made, first, nonempty, isFront.trans front, rfl⟩

theorem trans (one : Paved location names tree between) (two : Paved location names between after) :
    Paved location names tree after := by
  refine ⟨two.base.trans one.base, fun place => ?_⟩
  rcases two.get? place with same | ⟨vacant, made, onTheWay⟩
  · rcases one.get? place with sameBefore | ⟨vacant, made, onTheWay⟩
    · exact Or.inl (same.trans sameBefore)
    · exact Or.inr ⟨vacant, same.trans made, onTheWay⟩
  · rcases one.get? place with sameBefore | ⟨-, madeBefore, -⟩
    · exact Or.inr ⟨sameBefore.symm.trans vacant, made, onTheWay⟩
    · rw [madeBefore] at vacant
      cases vacant

end Paved

/-- However the making of a directory ends, directories have been made on the way to it and
nothing else has changed; if it succeeds, the directory is there. -/
structure PavedTo (location : Location) (names : List String) (tree : FileTree)
    (outcome : Except FileError Unit × FileTree) : Prop where
  paved : Paved location names tree outcome.2
  done : outcome.1 = .ok () → outcome.2.get? (location ++ names) = some .directory

theorem paved_put {location : Location} {names : List String} (tree : FileTree)
    (below : names ≠ []) (vacant : tree.get? (location ++ names) = none) :
    Paved location names tree (tree.put (location ++ names) .directory) := by
  have proper : location ++ names ≠ [] := by simp [below]
  refine ⟨rfl, fun place => ?_⟩
  by_cases here : place = location ++ names
  · subst here
    exact Or.inr ⟨vacant, get?_put_self tree _ proper, names, below, List.prefix_rfl, rfl⟩
  · exact Or.inl (get?_put_of_ne tree _ here)

namespace Paved

variable {location : Location} {names : List String} {tree after : FileTree}

theorem kept (paved : Paved location names tree after) : Kept tree after := by
  refine ⟨paved.base, fun place entry standing => ?_⟩
  rcases paved.get? place with same | ⟨vacant, -, -⟩
  · exact ⟨entry, same.trans standing, .same entry⟩
  · rw [vacant] at standing
    cases standing

/-- Directories above a place do not reach the place itself. -/
theorem get?_last (below : names ≠ []) (paved : Paved location names.dropLast tree after) :
    after.get? (location ++ names) = tree.get? (location ++ names) := by
  rcases paved.get? (location ++ names) with same | ⟨-, -, front, -, isFront, same⟩
  · exact same
  · have long := isFront.length_le
    rw [← List.append_cancel_left same, List.length_dropLast] at long
    have positive := List.length_pos_iff.mpr below
    omega

theorem linkless (paved : Paved location names tree after) {region : Location}
    (linkless : tree.Linkless region) : after.Linkless region := by
  intro place target inside
  rcases paved.get? place with same | ⟨-, made, -⟩
  · rw [same]
    exact linkless place target inside
  · rw [made]
    simp

end Paved

theorem linkless_put {tree : FileTree} {location place : Location} {entry : Entry}
    (linkless : tree.Linkless location) (proper : place ≠ [])
    (notLink : ∀ target, entry ≠ .link target) : (tree.put place entry).Linkless location := by
  intro other target inside
  by_cases here : other = place
  · rw [here, get?_put_self tree entry proper]
    exact fun same => notLink target (Option.some.inj same)
  · rw [get?_put_of_ne tree entry here]
    exact linkless other target inside

/-! ## Directories that are there -/

/-- What a path leads to, or what keeps it from leading anywhere but its absence, keeps a directory
from being made there. -/
theorem makeDirectory_of_stat {tree : FileTree} {path : Path}
    (somewhere : tree.find .target path ≠ .error .notFound) :
    ∃ error, tree.makeDirectory path = .error error ∧ error ≠ .notFound := by
  have found : tree.find .entryName path ≠ .error .notFound := by
    intro nowhere
    exact somewhere (find_notFound_of_stricter target_stricter_itself
      (find_notFound_of_stricter itself_stricter_entryName nowhere))
  rw [find_eq_found] at found
  unfold makeDirectory make
  cases resolved : tree.resolve .entryName path with
  | error error =>
      rw [resolved] at found
      refine ⟨error, rfl, ?_⟩
      rintro rfl
      exact found rfl
  | ok place =>
      rw [resolved] at found
      cases place with
      | vacancy place => exact absurd rfl found
      | entry place entry => exact ⟨.exists, rfl, by decide⟩

theorem find_of_isDirectory {tree : FileTree} {path : Path}
    (isDirectory : tree.isDirectory path = true) :
    ∃ location, tree.find .target path = .ok (location, .directory) := by
  unfold FileTree.isDirectory stat at isDirectory
  cases leads : tree.find .target path with
  | error error =>
      rw [leads] at isDirectory
      cases isDirectory
  | ok found =>
      obtain ⟨location, entry⟩ := found
      rw [leads] at isDirectory
      cases entry with
      | directory => exact ⟨location, rfl⟩
      | file contents executable => cases isDirectory
      | link target => cases isDirectory
      | socket => cases isDirectory

/-- To make a directory that is there, with those above it, does nothing. -/
theorem makeDirectories_of_isDirectory {tree : FileTree} {path : Path}
    (there : path.text = "" ∨ tree.isDirectory path = true) :
    tree.makeDirectories path = (.ok (), tree) := by
  unfold makeDirectories lineage
  by_cases empty : path.text = ""
  · unfold makeLineage
    rw [if_pos empty]
  have isDirectory := there.resolve_left empty
  obtain ⟨location, leads⟩ := find_of_isDirectory isDirectory
  have somewhere : tree.find .target path ≠ .error .notFound := by simp [leads]
  obtain ⟨error, fails, other⟩ := makeDirectory_of_stat somewhere
  rw [makeLineage_of_error empty fails other, if_pos isDirectory]

/-- A path that leads somewhere has its directory part, which leads to a directory. -/
theorem isDirectory_parent {tree : FileTree} {path : Path} {names : List String} {last : String}
    (components : path.components = names ++ [last]) {purpose : Purpose} {place : Place}
    (resolved : tree.resolve purpose path = .ok place) :
    ∃ parent, path.parent? = some parent ∧
      (parent.text = "" ∨ tree.isDirectory parent = true) := by
  obtain ⟨parent, isParent, above, absolute, isFront⟩ := Path.parent?_of_components components
  refine ⟨parent, isParent, or_iff_not_imp_left.mpr fun nonempty => ?_⟩
  obtain ⟨free, walked⟩ := walk_of_resolve resolved
  obtain ⟨front, back, split, frontBare, backBare⟩ :=
    List.filter_eq_append_iff.mp ((Path.bare_names path).trans components)
  change Path.bare front = names at frontBare
  change Path.bare back = [last] at backBare
  rw [split] at walked
  obtain ⟨directory, -, leads, -⟩ := leads_of_walk_append (.of_bare (by simp [backBare])) walked
  rw [walk_bare, frontBare, ← above, ← Path.bare_names, ← walk_bare] at leads
  rw [← start_eq absolute] at leads
  obtain ⟨more, text⟩ := isFront
  have shorter : parent.text.utf8ByteSize ≤ path.text.utf8ByteSize := by
    have whole : path.text = parent.text ++ String.ofList more := by
      rw [← String.toList_inj, String.toList_append, String.toList_ofList, text]
    rw [whole, String.utf8ByteSize_append]
    omega
  have freeParent : parent.NulFree := by
    intro nul
    apply free
    rw [← text]
    exact List.mem_append_left more nul
  have short : ¬ pathLimit ≤ parent.text.utf8ByteSize :=
    fun long => short_of_resolve resolved (Nat.le_trans long shorter)
  have found : tree.find .target parent = .ok (directory, .directory) := by
    rw [find_eq_found, found_eq_ok_iff, resolve_eq tree .target freeParent nonempty, if_neg short,
      leads]
  unfold FileTree.isDirectory stat
  rw [found]
  rfl

/-! ## Regions -/

/-- A path leads to a directory that no links stand in. -/
structure Region (tree : FileTree) (root : Path) (location : Location) : Prop where
  leads : tree.find .target root = .ok (location, .directory)
  standing : tree.get? location = some .directory
  linkless : tree.Linkless location

namespace Region

variable {tree after : FileTree} {root path : Path} {location : Location} {names : List String}

/-! ### Changes that keep a region -/

theorem kept (region : Region tree root location) (kept : Kept tree after)
    (linkless : after.Linkless location) : Region after root location where
  leads := kept.find_directory region.leads
  standing := kept.get?_of_standing region.standing (by simp)
  linkless := linkless

theorem paved (region : Region tree root location) {directory : Location}
    (paved : Paved directory names tree after) : Region after root location :=
  region.kept paved.kept (paved.linkless region.linkless)

/-- A file may be put where nothing or a file stands. -/
theorem put_file (region : Region tree root location) {place : Location} {executable : Bool}
    (free : tree.get? place = none ∨ ∃ old mode, tree.get? place = some (.file old mode))
    (stays : tree.isExecutableAt place = true → executable = true) (contents : List UInt8) :
    Region (tree.put place (.file contents executable)) root location :=
  region.kept (kept_put free stays contents)
    (linkless_put region.linkless (proper_of_free free) (by simp))

/-! ### Where paths lead -/

/-- Names lead to the directory if those of them that lead somewhere are those of the root. -/
theorem walk_eq_directory (region : Region tree root location)
    (absolute : path.isAbsolute = root.isAbsolute) {front : List String}
    (bare : Path.bare front = root.components) :
    tree.walk .target linkLimit (start path tree.base) front =
      .ok (.entry location .directory) := by
  have leads := region.leads
  rw [find_eq_found, found_eq_ok_iff] at leads
  obtain ⟨-, walked⟩ := walk_of_resolve leads
  rwa [start_eq absolute, walk_bare, bare, ← Path.bare_names, ← walk_bare]

/-- A path that goes down leads to the location that its components spell. -/
theorem place_of_resolve (region : Region tree root location)
    (below : Path.Below root names path) (proper : names ≠ []) (level : ".." ∉ names)
    {purpose : Purpose} {place : Place} (resolved : tree.resolve purpose path = .ok place) :
    place = tree.placeAt (location ++ names) := by
  obtain ⟨-, walked⟩ := walk_of_resolve resolved
  obtain ⟨front, back, split, frontBare, backBare⟩ :=
    List.filter_eq_append_iff.mp ((Path.bare_names path).trans below.components)
  change Path.bare back = names at backBare
  -- The first names lead to the directory, and the others go on from there.
  obtain ⟨fewer, onwards⟩ :=
    walk_append_of_leads (region.walk_eq_directory below.isAbsolute frontBare)
  have onward : Onward purpose back := .of_bare (by rwa [backBare])
  rw [split, onwards purpose back onward, walk_eq] at walked
  have levelBack : ".." ∉ back := Path.level_of_bare (by rwa [backBare])
  have here := walkNames_location region.linkless levelBack
    (enters_of_under List.prefix_rfl _) region.standing walked
  rwa [backBare] at here

/-- The directory of a region is not missing, by whatever path. -/
theorem find_root (region : Region tree root location) (below : Path.Below root [] path)
    (nonempty : path.text ≠ "") : tree.find .target path ≠ .error .notFound := by
  have bare := (Path.bare_names path).trans (below.components.trans (List.append_nil _))
  have walked := region.walk_eq_directory below.isAbsolute bare
  rw [find_eq_found, resolve, if_neg nonempty, walked]
  split
  · simp [found]
  · split <;> simp [found]

theorem get?_of_isDirectory (region : Region tree root location)
    (below : Path.Below root names path) (level : ".." ∉ names)
    (isDirectory : tree.isDirectory path = true) :
    tree.get? (location ++ names) = some .directory := by
  by_cases proper : names = []
  · rw [proper, List.append_nil]
    exact region.standing
  · obtain ⟨place, leads⟩ := find_of_isDirectory isDirectory
    rw [find_eq_found, found_eq_ok_iff] at leads
    exact (placeAt_eq_entry_iff.mp (region.place_of_resolve below proper level leads).symm).2

/-! ### Directories -/

theorem makeDirectory_ok (region : Region tree root location)
    (below : Path.Below root names path) (level : ".." ∉ names) (nonempty : path.text ≠ "")
    (made : tree.makeDirectory path = .ok after) :
    Paved location names tree after ∧ after.get? (location ++ names) = some .directory := by
  have proper : names ≠ [] := by
    rintro rfl
    obtain ⟨error, fails, -⟩ := makeDirectory_of_stat (region.find_root below nonempty)
    rw [fails] at made
    cases made
  have properLocation : location ++ names ≠ [] := by simp [proper]
  unfold makeDirectory make at made
  cases resolved : tree.resolve .entryName path with
  | error error =>
      rw [resolved] at made
      cases made
  | ok place =>
      have here := region.place_of_resolve below proper level resolved
      rw [resolved, here] at made
      cases standing : tree.get? (location ++ names) with
      | some entry =>
          rw [placeAt_of_some standing] at made
          cases made
      | none =>
          rw [placeAt_of_none standing] at made
          cases made
          exact ⟨paved_put tree proper standing, get?_put_self tree _ properLocation⟩

/-- After a failure to make a directory, it counts whether there is one. -/
theorem pavedTo_isDirectory (region : Region tree root location)
    (below : Path.Below root names path) (level : ".." ∉ names) (error : FileError) :
    PavedTo location names tree
      (if tree.isDirectory path then (.ok (), tree) else (.error error, tree)) := by
  split
  · next isDirectory =>
      exact ⟨.refl location names tree,
        fun _ => region.get?_of_isDirectory below level isDirectory⟩
  · exact ⟨.refl location names tree, fun done => by cases done⟩

theorem pavedTo_makeLineage (region : Region tree root location) (steps : Nat)
    (below : Path.Below root names path) (level : ".." ∉ names) :
    PavedTo location names tree (tree.makeLineage (lineage steps path)) := by
  induction steps generalizing path names with
  | zero => exact ⟨.refl location names tree, fun done => by cases done⟩
  | succ steps inductionHypothesis =>
      unfold lineage
      by_cases empty : path.text = ""
      · unfold makeLineage
        rw [if_pos empty]
        refine ⟨.refl location names tree, fun _ => ?_⟩
        have nowhere : root.components ++ names = [] := by
          rw [← below.components, Path.components_eq, empty]
          rfl
        rw [(List.append_eq_nil_iff.mp nowhere).2, List.append_nil]
        exact region.standing
      cases made : tree.makeDirectory path with
      | ok after =>
          unfold makeLineage
          rw [if_neg empty, made]
          obtain ⟨paved, done⟩ := region.makeDirectory_ok below level empty made
          exact ⟨paved, fun _ => done⟩
      | error error =>
          by_cases missing : error = .notFound
          · subst missing
            -- The directory of the region is not missing, so the way up goes on within it.
            rcases List.eq_nil_or_concat names with rfl | ⟨front, last, rfl⟩
            · obtain ⟨error, fails, other⟩ :=
                makeDirectory_of_stat (region.find_root below empty)
              rw [fails] at made
              cases made
              exact absurd rfl other
            · unfold makeLineage
              rw [if_neg empty, made]
              rw [List.concat_eq_append] at below level ⊢
              have levelFront : ".." ∉ front := fun up => level (List.mem_append_left [last] up)
              obtain ⟨parent, isParent, belowParent⟩ := below.parent?
              have above := inductionHypothesis belowParent levelFront
              rw [isParent]
              dsimp only
              generalize tree.makeLineage (lineage steps parent) = outcome at above ⊢
              obtain ⟨result, between⟩ := outcome
              have pavedAbove := above.paved.mono (List.prefix_append front [last])
              have regionAbove := region.paved above.paved
              cases result with
              | error error => exact ⟨pavedAbove, fun done => by cases done⟩
              | ok done =>
                  dsimp only at pavedAbove regionAbove ⊢
                  cases again : between.makeDirectory path with
                  | ok after =>
                      obtain ⟨paved, done⟩ := regionAbove.makeDirectory_ok below level empty again
                      exact ⟨pavedAbove.trans paved, fun _ => done⟩
                  | error error =>
                      have checked := regionAbove.pavedTo_isDirectory below level error
                      exact ⟨pavedAbove.trans checked.paved, checked.done⟩
          · rw [makeLineage_of_error empty made missing]
            exact region.pavedTo_isDirectory below level error

theorem pavedTo_makeDirectories (region : Region tree root location)
    (below : Path.Below root names path) (level : ".." ∉ names) :
    PavedTo location names tree (tree.makeDirectories path) :=
  region.pavedTo_makeLineage _ below level

/-! ### Files -/

/-- A file is written where the components of its path lead, and keeps its mode. -/
theorem written_eq (region : Region tree root location) (below : Path.Below root names path)
    (proper : names ≠ []) (level : ".." ∉ names) {place : Location} {executable : Bool}
    {contents : List UInt8} (written : Written path place executable contents tree after) :
    place = location ++ names ∧ executable = tree.isExecutableAt (location ++ names) := by
  have here := region.place_of_resolve below proper level written.leads
  obtain rfl := placeAt_inj here
  exact ⟨rfl, written.rewritten.isExecutableAt_eq.symm⟩

theorem write_ok (region : Region tree root location) (below : Path.Below root names path)
    (proper : names ≠ []) (level : ".." ∉ names) {contents : List UInt8}
    (written : tree.write path contents = .ok after) :
    Written path (location ++ names) (tree.isExecutableAt (location ++ names)) contents tree
      after := by
  obtain ⟨place, executable, wrote⟩ := written_of_write written
  obtain ⟨rfl, rfl⟩ := region.written_eq below proper level wrote
  exact wrote

end Region

end FaultDrill.FileTree
