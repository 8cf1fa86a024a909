import Mathlib.Data.List.Induction
import FaultDrill.FileTree.Basic

/-!
How two trees compare.

Owns:
- well-formed trees, in which every entry stands in a directory;
- trees that hold the same outside a location, or at and below it;
- trees of which one holds all that the other holds.

Main statements: in a well-formed tree nothing stands below a vacant place
(`WellFormed.vacantFrom`); `put`, `erase` and `eraseBelow` change nothing outside their location
(`sameOutside_put`, `sameOutside_erase`, `sameOutside_eraseBelow`).
-/

namespace FaultDrill.FileTree

/-! ## Lookups after emptying -/

theorem get?_eraseBelow (tree : FileTree) (location place : Location) :
    (tree.eraseBelow location).get? place =
      if location <+: place ∧ place ≠ location ∧ place ≠ [] then none else tree.get? place := by
  unfold get? eraseBelow
  by_cases root : place = []
  · simp [root]
  · rw [if_neg root, if_neg root,
      lookup_filter (fun place => !(location.isPrefixOf place && place != location))]
    have underIff : location.isPrefixOf place = true ↔ location <+: place :=
      List.isPrefixOf_iff_prefix
    by_cases under : location <+: place
    · simp [underIff.mpr under, under, root]
    · have apart := Bool.eq_false_iff.mpr (mt underIff.mp under)
      simp [apart, under]

theorem get?_erase (tree : FileTree) (location place : Location) :
    (tree.erase location).get? place =
      if location <+: place ∧ place ≠ [] then none else tree.get? place := by
  unfold get? erase
  by_cases root : place = []
  · simp [root]
  · rw [if_neg root, if_neg root, lookup_filter (fun place => !location.isPrefixOf place)]
    have underIff : location.isPrefixOf place = true ↔ location <+: place :=
      List.isPrefixOf_iff_prefix
    by_cases under : location <+: place
    · simp [underIff.mpr under, under, root]
    · have apart := Bool.eq_false_iff.mpr (mt underIff.mp under)
      simp [apart, under]

theorem isEmptyBelow_iff (tree : FileTree) (location : Location) :
    tree.isEmptyBelow location = true ↔
      ∀ item ∈ tree.entries, ¬ (location <+: item.1 ∧ item.1 ≠ location) := by
  simp [isEmptyBelow, below, List.isEmpty_iff, List.filter_eq_nil_iff]

theorem isEmptyBelow_eraseBelow (tree : FileTree) (location : Location) :
    (tree.eraseBelow location).isEmptyBelow location = true := by
  rw [isEmptyBelow_iff]
  intro item member under
  have kept := (List.mem_filter.mp member).2
  simp [List.isPrefixOf_iff_prefix.mpr under.1, under.2] at kept

/-! ## Well-formed trees -/

/-- Every entry stands in a directory. -/
def WellFormed (tree : FileTree) : Prop :=
  ∀ directory name entry,
    tree.get? (directory ++ [name]) = some entry → tree.get? directory = some .directory

theorem mem_of_lookup {location : Location} {entry : Entry}
    {entries : List (Location × Entry)} (standing : lookup location entries = some entry) :
    (location, entry) ∈ entries := by
  induction entries with
  | nil => cases standing
  | cons item rest inductionHypothesis =>
      obtain ⟨other, old⟩ := item
      unfold lookup at standing
      split at standing
      · next here =>
          cases standing
          rw [here]
          exact List.mem_cons_self
      · exact List.mem_cons_of_mem _ (inductionHypothesis standing)

/-- Whether a tree is well formed is seen at its entries. -/
theorem wellFormed_of_entries {tree : FileTree}
    (entries : ∀ item ∈ tree.entries, tree.get? item.1.dropLast = some .directory) :
    tree.WellFormed := by
  intro directory name entry standing
  unfold get? at standing
  rw [if_neg (by simp)] at standing
  have above := entries _ (mem_of_lookup standing)
  rwa [List.dropLast_concat] at above

/-- Nothing stands at a location or below it. -/
def VacantFrom (tree : FileTree) (location : Location) : Prop :=
  ∀ place, location <+: place → tree.get? place = none

theorem WellFormed.vacantFrom {tree : FileTree} {location : Location}
    (wellFormed : tree.WellFormed) (vacant : tree.get? location = none) :
    tree.VacantFrom location := by
  rintro place ⟨names, rfl⟩
  induction names using List.reverseRecOn with
  | nil => simpa using vacant
  | append_singleton names name inductionHypothesis =>
      cases found : tree.get? (location ++ (names ++ [name])) with
      | none => rfl
      | some entry =>
          rw [← List.append_assoc] at found
          have above := wellFormed _ _ _ found
          rw [inductionHypothesis] at above
          cases above

/-! ## Trees that agree in part -/

/-- Two trees, seen from the same directory, hold the same except at and below a location. -/
structure SameOutside (location : Location) (first second : FileTree) : Prop where
  base : first.base = second.base
  get? : ∀ place, ¬ location <+: place → first.get? place = second.get? place

/-- Two trees hold the same at and below a location. -/
def SameInside (location : Location) (first second : FileTree) : Prop :=
  ∀ place, location <+: place → first.get? place = second.get? place

namespace SameOutside

variable {location : Location} {first second third : FileTree}

theorem refl (location : Location) (tree : FileTree) : SameOutside location tree tree :=
  ⟨rfl, fun _ _ => rfl⟩

theorem trans (one : SameOutside location first second) (two : SameOutside location second third) :
    SameOutside location first third :=
  ⟨one.base.trans two.base,
    fun place outside => (one.get? place outside).trans (two.get? place outside)⟩

end SameOutside

theorem sameOutside_put (tree : FileTree) {location place : Location} (entry : Entry)
    (inside : location <+: place) : SameOutside location (tree.put place entry) tree := by
  refine ⟨rfl, fun other outside => ?_⟩
  apply get?_put_of_ne
  rintro rfl
  exact outside inside

theorem sameOutside_erase (tree : FileTree) {location place : Location}
    (inside : location <+: place) : SameOutside location (tree.erase place) tree := by
  refine ⟨rfl, fun other outside => ?_⟩
  apply get?_erase_of_outside
  intro under
  exact outside (inside.trans under)

theorem sameOutside_eraseBelow (tree : FileTree) (location : Location) :
    SameOutside location (tree.eraseBelow location) tree := by
  refine ⟨rfl, fun other outside => ?_⟩
  rw [get?_eraseBelow, if_neg (fun under => outside under.1)]

/-! ## Trees that hold another -/

/-- Two trees are seen from the same directory, and one holds all that the other holds. -/
structure PartOf (part whole : FileTree) : Prop where
  base : part.base = whole.base
  get? : ∀ place entry, part.get? place = some entry → whole.get? place = some entry

theorem PartOf.refl (tree : FileTree) : PartOf tree tree := ⟨rfl, fun _ _ standing => standing⟩

theorem partOf_erase (tree : FileTree) (location : Location) :
    PartOf (tree.erase location) tree := by
  refine ⟨rfl, fun place entry found => ?_⟩
  rw [get?_erase] at found
  split at found
  · cases found
  · exact found

theorem partOf_eraseBelow (tree : FileTree) (location : Location) :
    PartOf (tree.eraseBelow location) tree := by
  refine ⟨rfl, fun place entry found => ?_⟩
  rw [get?_eraseBelow] at found
  split at found
  · cases found
  · exact found

end FaultDrill.FileTree
