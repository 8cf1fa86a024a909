import FaultDrill.Proofs.FileTree.Removal
import FaultDrill.Proofs.FileTree.Site

/-!
Looking at a site and clearing it.

Owns: the lookup, the status and the removal of the path to a site.

Main statements: a site can always be cleared by its path, and then nothing stands there
(`Site.removeAll_place`); a cleared site is known to be absent (`Site.stat_of_vacant`).
-/

namespace FaultDrill.FileTree.Site

open Path (PlainName)

variable {ground tree : FileTree} {root : Path} {directory : Location} {name : String}

/-- The path to a site leads to the directory there, whether or not links are wanted. -/
theorem find_of_inhabited (site : Site ground root directory name) (grown : PartOf ground tree)
    (inhabited : tree.get? (directory ++ [name]) = some .directory) (purpose : Purpose) :
    tree.find purpose (root.joinName name) =
      if TooLong root name then .error .nameTooLong
      else .ok (directory ++ [name], .directory) := by
  have noLink : ∀ target, tree.get? (directory ++ [name]) ≠ some (.link target) := by
    rw [inhabited]
    simp
  rw [find_eq_found, site.resolve_place grown (Or.inr noLink), placeAt_of_some inhabited]
  split <;> rfl

theorem find_of_vacant (site : Site ground root directory name) (grown : PartOf ground tree)
    (vacant : tree.get? (directory ++ [name]) = none) (purpose : Purpose) :
    tree.find purpose (root.joinName name) =
      if TooLong root name then .error .nameTooLong else .error .notFound := by
  have noLink : ∀ target, tree.get? (directory ++ [name]) ≠ some (.link target) := by
    rw [vacant]
    simp
  rw [find_eq_found, site.resolve_place grown (Or.inr noLink), placeAt_of_none vacant]
  split <;> rfl

theorem stat_of_inhabited (site : Site ground root directory name) (grown : PartOf ground tree)
    (inhabited : tree.get? (directory ++ [name]) = some .directory)
    (fits : ¬ TooLong root name) : tree.stat (root.joinName name) = .ok .directory := by
  unfold stat
  rw [site.find_of_inhabited grown inhabited, if_neg fits]
  rfl

theorem stat_of_vacant (site : Site ground root directory name) (grown : PartOf ground tree)
    (vacant : tree.get? (directory ++ [name]) = none)
    (fits : ¬ TooLong root name) : tree.stat (root.joinName name) = .error .notFound := by
  unfold stat
  rw [site.find_of_vacant grown vacant, if_neg fits]
  rfl

private theorem removalName_joinName (root : Path) (plain : PlainName name) :
    removalName (root.joinName name) = some name ∧ Unslashed (root.joinName name).names := by
  unfold removalName Unslashed
  rw [Path.names_joinName root plain]
  simp [plain.nonempty]

/-- A site is cleared by its path, with all that stands in it. -/
theorem removeAll_place (site : Site ground root directory name) (grown : PartOf ground tree)
    (inhabited : tree.get? (directory ++ [name]) = some .directory)
    (fits : ¬ TooLong root name) :
    tree.removeAll (root.joinName name) = (.ok (), tree.erase (directory ++ [name])) := by
  have leads : tree.find .itself (root.joinName name) =
      .ok (directory ++ [name], .directory) := by
    rw [site.find_of_inhabited grown inhabited, if_neg fits]
  have grownEmptied : PartOf ground (tree.eraseBelow (directory ++ [name])) :=
    site.grows grown (sameOutside_eraseBelow tree _)
  have inhabitedEmptied :
      (tree.eraseBelow (directory ++ [name])).get? (directory ++ [name]) = some .directory := by
    rw [get?_eraseBelow, if_neg (by simp)]
    exact inhabited
  have direct : (tree.eraseBelow (directory ++ [name])).find .itself (root.joinName name) ≠
      .error .notFound := by
    rw [site.find_of_inhabited grownEmptied inhabitedEmptied, if_neg fits]
    simp
  obtain ⟨called, unslashed⟩ := removalName_joinName root site.plain
  have succeeded := removeAll_ok_of_name unslashed called site.plain.notDot site.plain.notDots
    leads (Or.inl rfl)
  exact removeAll_of_direct leads succeeded direct

end FaultDrill.FileTree.Site
