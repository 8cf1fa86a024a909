import FaultDrill.Proofs.FileTree.Making
import FaultDrill.Proofs.FileTree.Region

/-!
What is written along plain names below a directory that another tree has already.

Owns:
- areas: regions of a tree that has grown from another, in which a path already leads there;
- what the making of directories and the writing of a file there leave of an area.

Main statements: directories are made along the names that lead to them and nowhere else, however
the making ends (`Area.pavedTo_makeDirectories`); a file that is written holds what was written and
keeps its mode (`Area.write_ok`).

Does not own: paths that are not of plain names (`Proofs.FileTree.Region`); operations in two trees
side by side (`Proofs.FileTree.Making`).
-/

namespace FaultDrill.FileTree

open Path (PlainName)

/-! ## Areas -/

/-- A path leads to a directory that no links stand in. What leads there is the ground, which the
tree has grown from; no file of the ground stands in the directory, so files there may change and
the path still leads to it. -/
structure Area (ground tree : FileTree) (root : Path) (location : Location) : Prop where
  leads : ground.find .target root = .ok (location, .directory)
  named : root.EndsInName
  fileless : ∀ place contents executable, location <+: place →
    ground.get? place ≠ some (.file contents executable)
  grown : PartOf ground tree
  standing : tree.get? location = some .directory
  linkless : tree.Linkless location

namespace Area

variable {ground tree after : FileTree} {root : Path} {location : Location} {names : List String}

/-! ### Changes that keep an area -/

theorem paved (area : Area ground tree root location) (paved : Paved location names tree after) :
    Area ground after root location where
  leads := area.leads
  named := area.named
  fileless := area.fileless
  grown := by
    refine ⟨area.grown.base.trans paved.base.symm, fun place entry standing => ?_⟩
    have standingHere := area.grown.get? place entry standing
    rcases paved.get? place with same | ⟨vacant, -, -⟩
    · rw [same, standingHere]
    · rw [standingHere] at vacant
      cases vacant
  standing := paved.kept.get?_of_standing area.standing (by simp)
  linkless := paved.linkless area.linkless

/-- A file may be put where nothing or a file stands. -/
theorem put_file (area : Area ground tree root location) (below : names ≠ [])
    (free : tree.get? (location ++ names) = none ∨
      ∃ old mode, tree.get? (location ++ names) = some (.file old mode))
    (contents : List UInt8) (executable : Bool) :
    Area ground (tree.put (location ++ names) (.file contents executable)) root location := by
  have proper : location ++ names ≠ [] := by simp [below]
  refine ⟨area.leads, area.named, area.fileless, ⟨area.grown.base, ?_⟩, ?_, ?_⟩
  · intro place entry standing
    have standingHere := area.grown.get? place entry standing
    have elsewhere : place ≠ location ++ names := by
      rintro rfl
      rcases free with vacant | ⟨old, mode, isFile⟩
      · rw [vacant] at standingHere
        cases standingHere
      · rw [isFile] at standingHere
        cases standingHere
        exact area.fileless _ old mode (List.prefix_append location names) standing
    rw [get?_put_of_ne tree _ elsewhere, standingHere]
  · have elsewhere : location ≠ location ++ names := by
      intro same
      exact below (List.append_right_eq_self.mp same.symm)
    rw [get?_put_of_ne tree _ elsewhere, area.standing]
  · exact linkless_put area.linkless proper (by simp)

/-! ### Where paths lead -/

theorem find_root (area : Area ground tree root location) :
    tree.find .target root = .ok (location, .directory) :=
  find_eq_of_partOf area.grown area.leads

/-- An area is a region of its tree. -/
theorem region (area : Area ground tree root location) : Region tree root location :=
  ⟨area.find_root, area.standing, area.linkless⟩

/-- The directory of an area is not missing. -/
theorem makeDirectory_root (area : Area ground tree root location) :
    ∃ error, tree.makeDirectory root = .error error ∧ error ≠ .notFound :=
  makeDirectory_of_stat (by rw [area.find_root]; simp)

/-! ### Directories -/

theorem pavedTo_makeLineage (area : Area ground tree root location) (steps : Nat)
    (plain : ∀ step ∈ names, PlainName step) :
    PavedTo location names tree (tree.makeLineage (lineage steps (root.descend names))) :=
  area.region.pavedTo_makeLineage steps (Path.below_descend root plain) (Path.level_of_plain plain)

theorem pavedTo_makeDirectories (area : Area ground tree root location)
    (plain : ∀ step ∈ names, PlainName step) :
    PavedTo location names tree (tree.makeDirectories (root.descend names)) :=
  area.pavedTo_makeLineage _ plain

/-! ### Files -/

theorem write_ok (area : Area ground tree root location) (below : names ≠ [])
    (plain : ∀ step ∈ names, PlainName step) {contents : List UInt8}
    (written : tree.write (root.descend names) contents = .ok after) :
    after = tree.put (location ++ names)
        (.file contents (tree.isExecutableAt (location ++ names))) ∧
      Area ground after root location := by
  have wrote := area.region.write_ok (Path.below_descend root plain) below
    (Path.level_of_plain plain) written
  have put := wrote.write_before contents
  rw [written, Except.ok.injEq] at put
  rw [put]
  exact ⟨rfl, area.put_file below wrote.rewritten.free contents _⟩

end Area

end FaultDrill.FileTree
