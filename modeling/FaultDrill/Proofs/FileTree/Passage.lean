import FaultDrill.Proofs.FileTree.Upkeep
import FaultDrill.Proofs.FileTree.Writing

/-!
Writing below a directory succeeds unless something stands in the way.

Owns:
- names that are short enough to be looked up (`ShortEnough`);
- ways on which nothing stands but directories (`Passable`), and places where a file may be written
  (`Free`).

Main statements: where a way is passable, the directories on it can be made
(`Area.makeDirectories_succeeds`); in a directory, a file can be written unless another directory
stands in its place (`Area.write_succeeds`).
-/

namespace FaultDrill.FileTree

open Path (PlainName)

/-! ## Lengths -/

/-- Neither the path from another along some names nor any of the names is too long. -/
structure ShortEnough (root : Path) (names : List String) : Prop where
  path : ¬ pathLimit ≤ (root.descend names).text.utf8ByteSize
  each : ∀ name ∈ names, ¬ nameLimit < name.utf8ByteSize

instance (root : Path) (names : List String) : Decidable (ShortEnough root names) :=
  decidable_of_iff
    (¬ pathLimit ≤ (root.descend names).text.utf8ByteSize ∧
      ∀ name ∈ names, ¬ nameLimit < name.utf8ByteSize)
    ⟨fun ⟨path, each⟩ => ⟨path, each⟩, fun fits => ⟨fits.path, fits.each⟩⟩

theorem ShortEnough.of_append {root : Path} {front names : List String}
    (plain : ∀ step ∈ front ++ names, PlainName step)
    (fits : ShortEnough root (front ++ names)) : ShortEnough root front := by
  induction names using List.reverseRecOn with
  | nil => rwa [List.append_nil] at fits
  | append_singleton names name inductionHypothesis =>
      rw [← List.append_assoc] at plain fits
      have shorter := Path.utf8ByteSize_le_joinName (root.descend (front ++ names))
        (plain name (by simp))
      have path := fits.path
      rw [Path.descend_append] at path
      refine inductionHypothesis (fun step member => plain step (List.mem_append_left _ member))
        ⟨fun long => path (Nat.le_trans long shorter), fun step member => ?_⟩
      exact fits.each step (List.mem_append_left _ member)

/-- A path has at least as many characters as names that it goes down along. -/
theorem length_le_length_descend {root : Path} (named : root.EndsInName) {names : List String}
    (plain : ∀ step ∈ names, PlainName step) :
    names.length ≤ (root.descend names).text.length := by
  induction names using List.reverseRecOn with
  | nil => exact Nat.zero_le _
  | append_singleton names name inductionHypothesis =>
      have plainNames : ∀ step ∈ names, PlainName step :=
        fun step member => plain step (List.mem_append_left _ member)
      have shorter := inductionHypothesis plainNames
      have text := Path.text_joinName_of_endsInName (Path.endsInName_descend named plainNames)
        (plain name (by simp))
      rw [Path.descend_append, Path.descend_cons, Path.descend_nil, text]
      simp only [List.length_append, List.length_singleton, String.length_append]
      have separator : "/".length = 1 := rfl
      omega

/-! ## Ways -/

/-- Nothing but directories stands on the way from a location along some names, its end included. -/
def Passable (tree : FileTree) (location : Location) (names : List String) : Prop :=
  ∀ front, front <+: names →
    tree.get? (location ++ front) = none ∨ tree.get? (location ++ front) = some .directory

theorem Passable.mono {tree : FileTree} {location : Location} {names front : List String}
    (passable : Passable tree location names) (before : front <+: names) :
    Passable tree location front :=
  fun first isFirst => passable first (isFirst.trans before)

/-- A file may be written along some names from a location: nothing but directories stands on the
way to it, and nothing or another file in its place. -/
structure Free (tree : FileTree) (location : Location) (names : List String) : Prop where
  way : Passable tree location names.dropLast
  last : tree.get? (location ++ names) = none ∨
    ∃ contents executable, tree.get? (location ++ names) = some (.file contents executable)

/-- Where a way is passable, its names lead to what they spell if the directory before the last name
stands, and nowhere if it does not. -/
theorem walkNames_passable {tree : FileTree} {location : Location} (wellFormed : tree.WellFormed)
    (linkless : tree.Linkless location) {purpose : Purpose}
    {onLink : Location → Path → List String → Except FileError Place}
    {directory : Location} {names : List String} (below : names ≠ [])
    (plain : ∀ name ∈ names, PlainName name)
    (short : ∀ name ∈ names, ¬ nameLimit < name.utf8ByteSize)
    (under : location <+: directory) (standing : tree.get? directory = some .directory)
    (passable : Passable tree directory names.dropLast) :
    tree.walkNames purpose onLink directory names =
      if tree.get? (directory ++ names.dropLast) = some .directory then
        .ok (tree.placeAt (directory ++ names))
      else .error .notFound := by
  induction names generalizing directory with
  | nil => exact absurd rfl below
  | cons name rest inductionHypothesis =>
      have inside : location <+: directory ++ [name] := under.trans (List.prefix_append _ _)
      rw [walkNames_cons_plain tree purpose onLink directory plain,
        if_neg (short name List.mem_cons_self)]
      by_cases last : rest = []
      · subst last
        have stands : tree.get? (directory ++ [name].dropLast) = some .directory := by
          simpa using standing
        rw [if_pos stands]
        cases found : tree.get? (directory ++ [name]) with
        | none =>
            rw [placeAt_of_none found]
            simp [standing]
        | some entry =>
            rw [placeAt_of_some found]
            cases entry with
            | directory => rfl
            | file contents executable => rfl
            | socket => rfl
            | link target => exact absurd found (linkless _ target inside)
      · have front : (name :: rest).dropLast = name :: rest.dropLast :=
          List.dropLast_cons_of_ne_nil last
        have onward : rest.isEmpty = false := by simpa using last
        rw [front] at passable ⊢
        have split : directory ++ name :: rest.dropLast = directory ++ [name] ++ rest.dropLast := by
          simp
        rcases passable [name] ⟨rest.dropLast, rfl⟩ with vacant | found
        · -- What is below a vacancy is vacant too.
          have nowhere : ¬ tree.get? (directory ++ name :: rest.dropLast) = some .directory := by
            intro found
            rw [split] at found
            rw [wellFormed.vacantFrom vacant _ (List.prefix_append _ _)] at found
            cases found
          rw [vacant, if_neg nowhere, onward]
          rfl
        · have further := inductionHypothesis last
            (fun step member => plain step (List.mem_cons_of_mem name member))
            (fun step member => short step (List.mem_cons_of_mem name member)) inside found
            (fun first isFirst => by
              have way := passable (name :: first) (List.cons_prefix_cons.mpr ⟨rfl, isFirst⟩)
              rwa [List.append_cons] at way)
          rw [found]
          dsimp only
          rw [further, split, List.append_cons directory name rest]

/-- A walk that comes to an end has come by no name that is too long. -/
theorem short_of_walkNames {tree : FileTree} {location : Location}
    (linkless : tree.Linkless location) {purpose : Purpose}
    {onLink : Location → Path → List String → Except FileError Place}
    {directory : Location} {names : List String} {place : Place}
    (plain : ∀ name ∈ names, PlainName name) (under : location <+: directory)
    (walked : tree.walkNames purpose onLink directory names = .ok place) :
    ∀ name ∈ names, ¬ nameLimit < name.utf8ByteSize := by
  induction names generalizing directory with
  | nil => exact fun name member => absurd member List.not_mem_nil
  | cons name rest inductionHypothesis =>
      have inside : location <+: directory ++ [name] := under.trans (List.prefix_append _ _)
      rw [walkNames_cons_plain tree purpose onLink directory plain] at walked
      split at walked
      · cases walked
      · next short =>
          rw [List.forall_mem_cons]
          refine ⟨short, ?_⟩
          -- Unless the walk goes on through a directory, there is nothing left of it.
          have finished : rest.isEmpty = true → ∀ name ∈ rest, ¬ nameLimit < name.utf8ByteSize := by
            intro empty
            rw [List.isEmpty_iff.mp empty]
            exact fun name member => absurd member List.not_mem_nil
          split at walked
          · split at walked
            · next last => exact finished (Bool.and_eq_true _ _ ▸ last).1
            · cases walked
          · exact inductionHypothesis
              (fun step member => plain step (List.mem_cons_of_mem name member)) inside walked
          · next target found => exact absurd found (linkless _ target inside)
          · split at walked
            · next last => exact finished last
            · cases walked

namespace Area

variable {ground tree after : FileTree} {root : Path} {location : Location} {names : List String}

/-! ## Lookups -/

/-- Where paths lead in an area whose ways are passable. -/
theorem resolve_passable (area : Area ground tree root location) (wellFormed : tree.WellFormed)
    (below : names ≠ []) (plain : ∀ step ∈ names, PlainName step) (fits : ShortEnough root names)
    (passable : Passable tree location names.dropLast) (purpose : Purpose) :
    tree.resolve purpose (root.descend names) =
      if tree.get? (location ++ names.dropLast) = some .directory then
        .ok (tree.placeAt (location ++ names))
      else .error .notFound := by
  obtain ⟨name, rest, rfl⟩ := List.exists_cons_of_ne_nil below
  obtain ⟨links, here⟩ := resolve_descend (leadsInto_of_find area.find_root)
  rw [here purpose name rest plain, if_neg fits.path, walk_eq]
  exact walkNames_passable wellFormed area.linkless below plain fits.each List.prefix_rfl
    area.standing passable

/-- A path that could be looked up is short enough. -/
theorem shortEnough_of_resolve (area : Area ground tree root location) (below : names ≠ [])
    (plain : ∀ step ∈ names, PlainName step) {purpose : Purpose} {place : Place}
    (resolved : tree.resolve purpose (root.descend names) = .ok place) :
    ShortEnough root names := by
  obtain ⟨name, rest, rfl⟩ := List.exists_cons_of_ne_nil below
  obtain ⟨links, here⟩ := resolve_descend (leadsInto_of_find area.find_root)
  rw [here purpose name rest plain, walk_eq] at resolved
  split at resolved
  · cases resolved
  · next short =>
      exact ⟨short, short_of_walkNames area.linkless plain List.prefix_rfl resolved⟩

/-- The steps of a path that goes down to a directory lead there. -/
theorem leadsInto (area : Area ground tree root location) (wellFormed : tree.WellFormed)
    {path : Path} (below : names ≠ []) (plain : ∀ step ∈ names, PlainName step)
    (short : ∀ name ∈ names, ¬ nameLimit < name.utf8ByteSize)
    (standing : tree.get? (location ++ names) = some .directory)
    (absolute : path.isAbsolute = root.isAbsolute) (free : path.NulFree)
    (steps : path.steps = root.steps ++ names) : tree.LeadsInto path (location ++ names) := by
  have leads := leadsInto_of_find area.find_root
  have above := wellFormed.get?_of_front standing (List.dropLast_prefix names)
  have passable : Passable tree location names.dropLast := by
    intro front before
    right
    exact wellFormed.get?_of_front above before
  obtain ⟨name, rest, rfl⟩ := List.exists_cons_of_ne_nil below
  obtain ⟨fewer, onwards⟩ := walk_append_of_leads leads.2
  refine ⟨free, ?_⟩
  rw [start_eq absolute, steps, onwards .target _ (.of_plain (plain name List.mem_cons_self)), walk_eq,
    walkNames_passable wellFormed area.linkless below plain short List.prefix_rfl area.standing
      passable, if_pos above, placeAt_of_some standing]

/-- What stands below a directory can be looked up. -/
theorem resolve_standing (area : Area ground tree root location) (wellFormed : tree.WellFormed)
    (below : names ≠ []) (plain : ∀ step ∈ names, PlainName step) (fits : ShortEnough root names)
    (above : tree.get? (location ++ names.dropLast) = some .directory) (purpose : Purpose) :
    tree.resolve purpose (root.descend names) = .ok (tree.placeAt (location ++ names)) := by
  have passable : Passable tree location names.dropLast := by
    intro front before
    right
    exact wellFormed.get?_of_front above before
  rw [area.resolve_passable wellFormed below plain fits passable, if_pos above]

theorem isDirectory_of_get? (area : Area ground tree root location) (wellFormed : tree.WellFormed)
    (plain : ∀ step ∈ names, PlainName step) (fits : ShortEnough root names)
    (standing : tree.get? (location ++ names) = some .directory) :
    tree.isDirectory (root.descend names) = true := by
  unfold FileTree.isDirectory stat
  rcases List.eq_nil_or_concat names with rfl | ⟨front, last, rfl⟩
  · rw [Path.descend_nil, area.find_root]
    rfl
  · rw [List.concat_eq_append] at plain fits standing ⊢
    have above : tree.get? (location ++ (front ++ [last]).dropLast) = some .directory := by
      rw [List.dropLast_concat]
      rw [← List.append_assoc] at standing
      exact wellFormed _ _ _ standing
    rw [find_eq_found, area.resolve_standing wellFormed (by simp) plain fits above,
      placeAt_of_some standing]
    rfl

/-! ## Directories -/

/-- The way stays passable, and can be gone one step further, once all before it is there. -/
theorem makeDirectory_succeeds (area : Area ground tree root location)
    (wellFormed : tree.WellFormed) {front : List String} {last : String}
    (plain : ∀ step ∈ front ++ [last], PlainName step) (fits : ShortEnough root (front ++ [last]))
    (above : tree.get? (location ++ front) = some .directory)
    (passable : Passable tree location (front ++ [last])) :
    (∃ after, tree.makeDirectory (root.descend (front ++ [last])) = .ok after) ∨
      tree.makeDirectory (root.descend (front ++ [last])) = .error .exists ∧
        tree.isDirectory (root.descend (front ++ [last])) = true := by
  have aboveLast : tree.get? (location ++ (front ++ [last]).dropLast) = some .directory := by
    rwa [List.dropLast_concat]
  unfold FileTree.makeDirectory make
  rw [area.resolve_standing wellFormed (by simp) plain fits aboveLast]
  rcases passable _ List.prefix_rfl with vacant | standing
  · left
    rw [placeAt_of_none vacant]
    exact ⟨_, rfl⟩
  · right
    rw [placeAt_of_some standing]
    exact ⟨rfl, area.isDirectory_of_get? wellFormed plain fits standing⟩

theorem makeLineage_succeeds (area : Area ground tree root location)
    (wellFormed : tree.WellFormed) {steps : Nat} (enough : names.length < steps)
    (plain : ∀ step ∈ names, PlainName step) (fits : ShortEnough root names)
    (passable : Passable tree location names) :
    (tree.makeLineage (lineage steps (root.descend names))).1 = .ok () := by
  induction names using List.reverseRecOn generalizing steps with
  | nil =>
      obtain ⟨steps, rfl⟩ : ∃ fewer, steps = fewer + 1 := ⟨steps - 1, by omega⟩
      obtain ⟨error, fails, other⟩ := area.makeDirectory_root
      have isDirectory := area.isDirectory_of_get? wellFormed plain fits
        (by rw [List.append_nil]; exact area.standing)
      rw [Path.descend_nil] at isDirectory ⊢
      unfold lineage
      rw [makeLineage_of_error area.named.text_ne_empty fails other, if_pos isDirectory]
  | append_singleton front last inductionHypothesis =>
      obtain ⟨steps, rfl⟩ : ∃ fewer, steps = fewer + 1 := ⟨steps - 1, by omega⟩
      have nonempty := (Path.endsInName_descend area.named plain).text_ne_empty
      have plainFront : ∀ step ∈ front, PlainName step :=
        fun step member => plain step (List.mem_append_left [last] member)
      unfold lineage makeLineage
      rw [if_neg nonempty]
      by_cases above : tree.get? (location ++ front) = some .directory
      · rcases area.makeDirectory_succeeds wellFormed plain fits above passable with
          ⟨after, made⟩ | ⟨fails, isDirectory⟩
        · rw [made]
        · rw [fails]
          simp only [isDirectory, if_true]
      · -- The directory above is missing and made first; then the way goes on from there.
        have missing : tree.makeDirectory (root.descend (front ++ [last])) = .error .notFound := by
          have way := passable.mono (List.prefix_append front [last])
          have resolved := area.resolve_passable wellFormed (by simp) plain fits
            (by rwa [List.dropLast_concat]) .entryName
          rw [List.dropLast_concat, if_neg above] at resolved
          unfold FileTree.makeDirectory make
          rw [resolved]
          rfl
        have made := inductionHypothesis (by simp at enough; omega) plainFront
          (fits.of_append plain) (passable.mono (List.prefix_append front [last]))
        have paved := area.pavedTo_makeLineage steps plainFront
        have kept := wellFormed.makeLineage (lineage steps (root.descend front))
        rw [missing, Path.parent?_descend area.named plain]
        dsimp only
        generalize tree.makeLineage (lineage steps (root.descend front)) = outcome
          at made paved kept ⊢
        obtain ⟨result, between⟩ := outcome
        dsimp only at made kept
        subst made
        have aboveNow := paved.done rfl
        have passableNow : Passable between location (front ++ [last]) := by
          intro first before
          rcases paved.paved.get? (location ++ first) with same | ⟨-, isMade, -⟩
          · rw [same]
            exact passable first before
          · exact Or.inr isMade
        dsimp only
        rcases (area.paved paved.paved).makeDirectory_succeeds kept plain fits aboveNow passableNow
          with ⟨after, again⟩ | ⟨fails, isDirectory⟩
        · rw [again]
        · rw [fails]
          simp only [isDirectory, if_true]

theorem makeDirectories_succeeds (area : Area ground tree root location)
    (wellFormed : tree.WellFormed) (plain : ∀ step ∈ names, PlainName step)
    (fits : ShortEnough root names) (passable : Passable tree location names) :
    (tree.makeDirectories (root.descend names)).1 = .ok () :=
  area.makeLineage_succeeds wellFormed
    (Nat.lt_succ_of_le (length_le_length_descend area.named plain)) plain fits passable

/-! ## Files -/

theorem write_succeeds (area : Area ground tree root location) (wellFormed : tree.WellFormed)
    (below : names ≠ []) (plain : ∀ step ∈ names, PlainName step) (fits : ShortEnough root names)
    (above : tree.get? (location ++ names.dropLast) = some .directory)
    (free : tree.get? (location ++ names) = none ∨
      ∃ old mode, tree.get? (location ++ names) = some (.file old mode))
    (contents : List UInt8) : ∃ after, tree.write (root.descend names) contents = .ok after := by
  unfold FileTree.write
  rw [area.resolve_standing wellFormed below plain fits above]
  rcases free with vacant | ⟨old, mode, isFile⟩
  · rw [placeAt_of_none vacant]
    exact ⟨_, rfl⟩
  · rw [placeAt_of_some isFile]
    exact ⟨_, rfl⟩

end Area

end FaultDrill.FileTree
