import FaultDrill.Proofs.FileTree.Enclosure

/-!
Sites: vacant places of a tree, in a directory that some path leads to.

Owns:
- sites, and the trees that have grown from the tree of a site, which hold all that it holds;
- where paths lead that go through a site, in any such tree;
- pairs of such trees that hold the same at a site, and operations that do the same to both.

Main statements: whether a path leads to a site is seen at the site alone (`Site.resolve_place`);
paths through it lead to locations in it (`Site.resolve_location`), and to the same in trees that
hold the same there (`Site.resolve_congr`).

Does not own: which operations there are (`Proofs.FileTree.Making`).
-/

namespace FaultDrill.FileTree

open Path (PlainName)

/-- Nothing stands at a plain name in a directory that a path leads to. -/
structure Site (ground : FileTree) (root : Path) (directory : Location) (name : String) :
    Prop where
  leads : ground.LeadsInto root directory
  standing : ground.get? directory = some .directory
  plain : PlainName name
  vacant : ground.VacantFrom (directory ++ [name])

/-- A tree grows within a location where it held nothing. -/
theorem PartOf.of_sameOutside {ground tree after : FileTree} {location : Location}
    (grown : PartOf ground tree) (vacant : ground.VacantFrom location)
    (same : SameOutside location after tree) : PartOf ground after := by
  refine ⟨grown.base.trans same.base.symm, fun place entry standing => ?_⟩
  by_cases inside : location <+: place
  · rw [vacant place inside] at standing
    cases standing
  · rw [same.get? place inside]
    exact grown.get? place entry standing

/-- A path to a name is too long to be looked up, or the name is. -/
def TooLong (root : Path) (name : String) : Prop :=
  pathLimit ≤ (root.joinName name).text.utf8ByteSize ∨ nameLimit < name.utf8ByteSize

instance (root : Path) (name : String) : Decidable (TooLong root name) :=
  inferInstanceAs (Decidable (_ ∨ _))

/-- A name in a directory is looked up in that directory, and a link there is not followed. -/
theorem resolve_joinName {tree : FileTree} {root : Path} {directory : Location} {name : String}
    (leads : tree.LeadsInto root directory) (standing : tree.get? directory = some .directory)
    (plain : PlainName name) {purpose : Purpose}
    (direct : wantsLink purpose = true ∨
      ∀ target, tree.get? (directory ++ [name]) ≠ some (.link target)) :
    tree.resolve purpose (root.joinName name) =
      if TooLong root name then .error .nameTooLong
      else .ok (tree.placeAt (directory ++ [name])) := by
  have plainAll : ∀ step ∈ [name], PlainName step := by
    intro step member
    rw [List.mem_singleton.mp member]
    exact plain
  obtain ⟨links, resolved⟩ := resolve_descend leads
  have here := resolved purpose name [] plainAll
  rw [Path.descend_cons, Path.descend_nil, walk_eq,
    walkNames_cons_plain tree purpose _ directory plainAll] at here
  rw [here]
  by_cases longPath : pathLimit ≤ (root.joinName name).text.utf8ByteSize
  · have tooLong : TooLong root name := Or.inl longPath
    rw [if_pos longPath, if_pos tooLong]
  · rw [if_neg longPath]
    by_cases longName : nameLimit < name.utf8ByteSize
    · have tooLong : TooLong root name := Or.inr longName
      rw [if_pos longName, if_pos tooLong]
    · have fits : ¬ TooLong root name := by
        rintro (tooLong | tooLong)
        · exact longPath tooLong
        · exact longName tooLong
      rw [if_neg longName, if_neg fits]
      cases found : tree.get? (directory ++ [name]) with
      | none =>
          rw [placeAt_of_none found]
          simp [standing]
      | some entry =>
          rw [placeAt_of_some found]
          cases entry with
          | directory => rfl
          | file contents executable => rfl
          | socket => rfl
          | link target =>
              rcases direct with wanted | noLink
              · simp [wanted]
              · exact absurd found (noLink target)

/-- A name that could be made in a directory shows that the directory is there and the name is
not; in a well-formed tree it is a site. -/
theorem site_of_vacancy {tree : FileTree} {root : Path} {name : String} {location : Location}
    (wellFormed : tree.WellFormed) (plain : PlainName name)
    (resolved : tree.resolve .entryName (root.joinName name) = .ok (.vacancy location)) :
    ∃ directory, location = directory ++ [name] ∧ Site tree root directory name ∧
      ¬ TooLong root name := by
  have plainAll : ∀ step ∈ [name], PlainName step := by
    intro step member
    rw [List.mem_singleton.mp member]
    exact plain
  obtain ⟨free, walked⟩ := walk_of_resolve resolved
  rw [Path.names_joinName root plain] at walked
  obtain ⟨directory, fewer, leads, here⟩ := leads_of_walk_append (.of_plain plain) walked
  rw [start_eq (Path.isAbsolute_joinName root plain)] at leads
  rw [walk_eq, walkNames_cons_plain tree .entryName _ directory plainAll] at here
  split at here
  · cases here
  · next shortName =>
      cases found : tree.get? (directory ++ [name]) with
      | some entry =>
          rw [found] at here
          cases entry <;> cases here
      | none =>
          rw [found] at here
          dsimp only at here
          split at here
          · next last =>
              cases here
              have standing : tree.get? directory = some .directory := by
                simpa using last
              refine ⟨directory, rfl, ⟨⟨(Path.nulFree_joinName plain).mp free, leads⟩, standing,
                plain, wellFormed.vacantFrom found⟩, ?_⟩
              rintro (long | long)
              · exact short_of_resolve resolved long
              · exact shortName long
          · cases here

namespace Site

variable {ground tree first second : FileTree} {root : Path} {directory : Location}
  {name : String}

/-! ## Trees that have grown from the ground -/

theorem leadsInto (site : Site ground root directory name) (grown : PartOf ground tree) :
    tree.LeadsInto root directory := site.leads.of_partOf grown

theorem get?_directory (site : Site ground root directory name) (grown : PartOf ground tree) :
    tree.get? directory = some .directory := grown.get? _ _ site.standing

theorem grows (site : Site ground root directory name) (grown : PartOf ground tree)
    {after : FileTree} (same : SameOutside (directory ++ [name]) after tree) :
    PartOf ground after := grown.of_sameOutside site.vacant same

/-- Where the path to the site leads. -/
theorem resolve_place (site : Site ground root directory name) (grown : PartOf ground tree)
    {purpose : Purpose}
    (direct : wantsLink purpose = true ∨
      ∀ target, tree.get? (directory ++ [name]) ≠ some (.link target)) :
    tree.resolve purpose (root.joinName name) =
      if TooLong root name then .error .nameTooLong
      else .ok (tree.placeAt (directory ++ [name])) :=
  resolve_joinName (site.leadsInto grown) (site.get?_directory grown) site.plain direct

/-- The path of the directory that the site is in leads there, unless it is empty. -/
theorem find_root (site : Site ground root directory name) (text : root.text ≠ "")
    (fits : ¬ TooLong root name) : ground.find .target root = .ok (directory, .directory) := by
  refine site.leads.find_eq text fun long => fits (Or.inl ?_)
  exact Nat.le_trans long (Path.utf8ByteSize_le_joinName root site.plain)

/-! ## Paths through the site -/

variable {names : List String}

/-- A path through the site leads to the location that its names spell. -/
theorem resolve_location (site : Site ground root directory name) (grown : PartOf ground tree)
    (linkless : tree.Linkless (directory ++ [name]))
    (plain : ∀ step ∈ names, PlainName step) {purpose : Purpose} {place : Place}
    (resolved : tree.resolve purpose (root.descend (name :: names)) = .ok place) :
    place = tree.placeAt (directory ++ name :: names) := by
  have plainAll : ∀ step ∈ name :: names, PlainName step := by
    intro step member
    rcases List.mem_cons.mp member with rfl | later
    · exact site.plain
    · exact plain step later
  obtain ⟨links, here⟩ := resolve_descend (site.leadsInto grown)
  rw [here purpose name names plainAll, walk_eq] at resolved
  split at resolved
  · cases resolved
  · have enters : Enters directory (name :: names) (directory ++ [name]) := by
      intro first rest same
      cases same
      exact List.prefix_rfl
    rw [← Path.bare_of_plain plainAll] at enters
    have here := walkNames_location linkless (Path.level_of_plain plainAll) enters
      (site.get?_directory grown) resolved
    rwa [Path.bare_of_plain plainAll] at here

/-- A path through the site leads to the same in trees that hold the same there. -/
theorem resolve_congr (site : Site ground root directory name)
    (grownFirst : PartOf ground first) (grownSecond : PartOf ground second)
    (same : SameInside (directory ++ [name]) first second)
    (linkless : first.Linkless (directory ++ [name]))
    (plain : ∀ step ∈ names, PlainName step) (purpose : Purpose) :
    first.resolve purpose (root.descend (name :: names)) =
      second.resolve purpose (root.descend (name :: names)) := by
  have plainAll : ∀ step ∈ name :: names, PlainName step := by
    intro step member
    rcases List.mem_cons.mp member with rfl | later
    · exact site.plain
    · exact plain step later
  obtain ⟨links, inFirst⟩ := resolve_descend (site.leadsInto grownFirst)
  obtain ⟨otherLinks, inSecond⟩ := resolve_descend (site.leadsInto grownSecond)
  rw [inFirst purpose name names plainAll, inSecond purpose name names plainAll, walk_eq, walk_eq]
  have enters : Enters directory (name :: names) (directory ++ [name]) := by
    intro head rest same
    cases same
    exact List.prefix_rfl
  have alike : first.get? directory = second.get? directory := by
    rw [site.get?_directory grownFirst, site.get?_directory grownSecond]
  rw [walkNames_congr same linkless purpose _ _ plainAll enters alike]

end Site

end FaultDrill.FileTree
