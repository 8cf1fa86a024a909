import FaultDrill.FileTree.Operations
import FaultDrill.Proofs.FileTree.Walk
import FaultDrill.Proofs.Path.Components

/-!
Places that are reached from a directory along plain names.

Owns:
- names that lead nowhere, which a walk to a directory may leave out;
- where the steps of a path lead, before any name that follows;
- what stands at a location, as a walk that ends there finds it;
- walks where no links stand, along plain names or any that do not lead up.

Main statements: a path that goes down from another along plain names is looked up from where the
other leads (`resolve_descend`); where no links stand, names lead exactly to the location that they
spell (`walkNames_location`), and trees that agree there answer alike about plain names
(`walkNames_congr`).
-/

namespace FaultDrill.FileTree

open Path (PlainName)

/-! ## Names that lead nowhere -/

private theorem walkNames_bare (tree : FileTree)
    {onNames onBare : Location → Path → List String → Except FileError Place} {reached : Location}
    (linkAlike : ∀ directory target rest,
      onNames directory target rest = .ok (.entry reached .directory) ↔
        onBare directory target (Path.bare rest) = .ok (.entry reached .directory))
    (directory : Location) (names : List String) :
    tree.walkNames .target onNames directory names = .ok (.entry reached .directory) ↔
      tree.walkNames .target onBare directory (Path.bare names) =
        .ok (.entry reached .directory) := by
  induction names generalizing directory with
  | nil => exact Iff.rfl
  | cons name rest inductionHypothesis =>
      by_cases blank : name = "" ∨ name = "."
      · rw [Path.bare_cons_of_blank blank, walkNames, if_pos blank]
        exact inductionHypothesis directory
      have ordinaryWith {rest : List String} (other : List String)
          (ordinary : Ordinary .target name rest) : Ordinary .target name other :=
        ⟨ordinary.notBlank, ordinary.notUp, by simp, ordinary.short⟩
      rw [Path.bare_cons_of_not_blank blank, walkNames_cons_ok_iff, walkNames_cons_ok_iff]
      -- What a walk to a directory comes by are directories and links, whatever follows.
      constructor
      · intro steps
        cases steps with
        | blank isBlank _ => exact absurd isBlank blank
        | up isUp onwards => exact .up isUp ((inductionHypothesis _).mp onwards)
        | into ordinary standing onwards =>
            exact .into (ordinaryWith _ ordinary) standing ((inductionHypothesis _).mp onwards)
        | through ordinary target standing _ onwards =>
            exact .through (ordinaryWith _ ordinary) target standing (by simp [wantsLink])
              ((linkAlike _ _ _).mp onwards)
        | vacancy _ _ _ here => cases here
        | entry _ _ _ other _ _ here => exact absurd (Place.entry.inj here).2.symm other
      · intro steps
        cases steps with
        | blank isBlank _ => exact absurd isBlank blank
        | up isUp onwards => exact .up isUp ((inductionHypothesis _).mpr onwards)
        | into ordinary standing onwards =>
            exact .into (ordinaryWith _ ordinary) standing ((inductionHypothesis _).mpr onwards)
        | through ordinary target standing _ onwards =>
            exact .through (ordinaryWith _ ordinary) target standing (by simp [wantsLink])
              ((linkAlike _ _ _).mpr onwards)
        | vacancy _ _ _ here => cases here
        | entry _ _ _ other _ _ here => exact absurd (Place.entry.inj here).2.symm other

/-- On the way to a directory the names that lead nowhere can be left out. -/
theorem walk_bare {tree : FileTree} {links : Nat} {origin reached : Location}
    {names : List String} :
    tree.walk .target links origin names = .ok (.entry reached .directory) ↔
      tree.walk .target links origin (Path.bare names) = .ok (.entry reached .directory) := by
  induction links generalizing origin names with
  | zero => exact walkNames_bare tree (fun _ _ _ => by simp) origin names
  | succ links inductionHypothesis =>
      apply walkNames_bare tree
      intro directory target rest
      have leftOut (more : List String) :
          tree.walk .target links (start target directory) (target.names ++ more) =
              .ok (.entry reached .directory) ↔
            tree.walk .target links (start target directory)
                (Path.bare target.names ++ Path.bare more) = .ok (.entry reached .directory) := by
        rw [← Path.bare_append]
        exact inductionHypothesis
      have alike := leftOut (Path.bare rest)
      rw [Path.bare_bare] at alike
      exact (leftOut rest).trans alike.symm

/-! ## Steps to a directory -/

/-- The steps of a path lead to a directory. -/
def LeadsInto (tree : FileTree) (path : Path) (directory : Location) : Prop :=
  path.NulFree ∧
    tree.walk .target linkLimit (start path tree.base) path.steps =
      .ok (.entry directory .directory)

/-- The lookup of a path that a lookup can be tried for. -/
theorem resolve_eq (tree : FileTree) (purpose : Purpose) {path : Path}
    (free : path.NulFree) (text : path.text ≠ "") :
    tree.resolve purpose path =
      if pathLimit ≤ path.text.utf8ByteSize then .error .nameTooLong
      else tree.walk purpose linkLimit (start path tree.base) path.names := by
  have nul : path.text.toList.contains '\x00' = false := by
    simpa [Path.NulFree] using free
  unfold resolve
  rw [nul, if_neg Bool.false_ne_true, if_neg text]

/-- A path that leads somewhere is looked up along its names. -/
theorem walk_of_resolve {tree : FileTree} {purpose : Purpose} {path : Path} {place : Place}
    (resolved : tree.resolve purpose path = .ok place) :
    path.NulFree ∧ tree.walk purpose linkLimit (start path tree.base) path.names = .ok place := by
  unfold resolve at resolved
  split at resolved
  · cases resolved
  · next free =>
      split at resolved
      · cases resolved
      · split at resolved
        · cases resolved
        · refine ⟨?_, resolved⟩
          simpa [Path.NulFree] using free

theorem short_of_resolve {tree : FileTree} {purpose : Purpose} {path : Path} {place : Place}
    (resolved : tree.resolve purpose path = .ok place) :
    ¬ pathLimit ≤ path.text.utf8ByteSize := by
  unfold resolve at resolved
  split at resolved
  · cases resolved
  split at resolved
  · cases resolved
  split at resolved
  · cases resolved
  · next short => exact short

/-- To a directory the steps of a path lead as its names do, and as its components do. -/
theorem walk_names_iff {tree : FileTree} {links : Nat} {origin reached : Location} (path : Path) :
    tree.walk .target links origin path.names = .ok (.entry reached .directory) ↔
      tree.walk .target links origin path.steps = .ok (.entry reached .directory) := by
  rw [walk_bare, Path.bare_names, ← Path.bare_steps, ← walk_bare]

/-- A path to a directory has steps that lead there. -/
theorem leadsInto_of_find {tree : FileTree} {path : Path} {directory : Location}
    (found : tree.find .target path = .ok (directory, .directory)) :
    tree.LeadsInto path directory := by
  rw [find_eq_found, found_eq_ok_iff] at found
  obtain ⟨free, walked⟩ := walk_of_resolve found
  exact ⟨free, (walk_names_iff path).mp walked⟩

/-- A path whose steps lead to a directory is the path of that directory, if it can be looked
up. -/
theorem LeadsInto.find_eq {tree : FileTree} {path : Path} {directory : Location}
    (leads : tree.LeadsInto path directory) (text : path.text ≠ "")
    (short : ¬ pathLimit ≤ path.text.utf8ByteSize) :
    tree.find .target path = .ok (directory, .directory) := by
  rw [find_eq_found, resolve_eq tree .target leads.1 text, if_neg short, found_eq_ok_iff]
  exact (walk_names_iff path).mpr leads.2

theorem LeadsInto.unique {tree : FileTree} {path : Path} {directory other : Location}
    (leads : tree.LeadsInto path directory) (leadsOther : tree.LeadsInto path other) :
    directory = other := by
  have walked := leads.2
  rw [leadsOther.2] at walked
  cases walked
  rfl

/-- Steps lead to the same directory in a tree that holds more. -/
theorem LeadsInto.of_partOf {part whole : FileTree} {path : Path} {directory : Location}
    (leads : part.LeadsInto path directory) (holds : PartOf part whole) :
    whole.LeadsInto path directory := by
  refine ⟨leads.1, ?_⟩
  rw [← holds.base, ← found_eq_ok_iff]
  rcases walk_fits holds .target linkLimit (start path part.base) path.steps with same | nowhere
  · rw [← same, leads.2]
    rfl
  · rw [leads.2] at nowhere
    cases nowhere

/-- A path that goes down from another is looked up from where the other leads. -/
theorem resolve_descend {tree : FileTree} {path : Path} {directory : Location}
    (leads : tree.LeadsInto path directory) :
    ∃ links, ∀ purpose name names, (∀ step ∈ name :: names, PlainName step) →
      tree.resolve purpose (path.descend (name :: names)) =
        if pathLimit ≤ (path.descend (name :: names)).text.utf8ByteSize then .error .nameTooLong
        else tree.walk purpose links directory (name :: names) := by
  obtain ⟨links, onwards⟩ := walk_append_of_leads leads.2
  refine ⟨links, fun purpose name names plain => ?_⟩
  have named := Path.endsInName_descend
    (Path.endsInName_joinName path (plain name (by simp)))
    (fun step member => plain step (List.mem_cons_of_mem name member))
  rw [resolve_eq tree purpose ((Path.nulFree_descend plain).mpr leads.1) named.text_ne_empty,
    Path.names_descend plain, start_eq (Path.isAbsolute_descend path plain),
    onwards purpose (name :: names) (Onward.of_plain (plain name (by simp)))]

theorem Onward.of_bare {purpose : Purpose} {rest : List String} (some : Path.bare rest ≠ []) :
    Onward purpose rest := by
  constructor
  · rintro rfl
    exact some rfl
  · rintro rfl
    exact absurd rfl some

/-! ## Plain names -/

theorem isLast_of_plain (purpose : Purpose) {names : List String}
    (plain : ∀ name ∈ names, PlainName name) : isLast purpose names = names.isEmpty := by
  cases names with
  | nil => rfl
  | cons name rest => exact (Onward.of_plain (plain name (by simp))).isLast_eq_false

/-- One step of a walk along plain names. -/
theorem walkNames_cons_plain (tree : FileTree) (purpose : Purpose)
    (onLink : Location → Path → List String → Except FileError Place)
    (directory : Location) {name : String} {rest : List String}
    (plain : ∀ step ∈ name :: rest, PlainName step) :
    tree.walkNames purpose onLink directory (name :: rest) =
      if nameLimit < name.utf8ByteSize then .error .nameTooLong
      else
        match tree.get? (directory ++ [name]) with
        | none =>
          if rest.isEmpty && tree.get? directory == some .directory then
            .ok (.vacancy (directory ++ [name]))
          else .error .notFound
        | some .directory => tree.walkNames purpose onLink (directory ++ [name]) rest
        | some (.link target) =>
          if rest.isEmpty && wantsLink purpose then
            .ok (.entry (directory ++ [name]) (.link target))
          else onLink directory target rest
        | some entry =>
          if rest.isEmpty then .ok (.entry (directory ++ [name]) entry)
          else .error .notDirectory := by
  have headPlain := plain name (by simp)
  have restPlain : ∀ step ∈ rest, PlainName step :=
    fun step member => plain step (List.mem_cons_of_mem name member)
  have unslashed : ¬ (purpose = .newFile ∧ rest = [""]) := by
    rintro ⟨-, slash⟩
    exact (restPlain "" (by simp [slash])).nonempty rfl
  have ordinary : ¬ (name = "" ∨ name = ".") := by
    simp [headPlain.nonempty, headPlain.notDot]
  rw [← isLast_of_plain purpose restPlain, walkNames]
  exact (if_neg ordinary).trans ((if_neg headPlain.notDots).trans (if_neg unslashed))

/-- Nothing at a location or below it is a link. -/
def Linkless (tree : FileTree) (location : Location) : Prop :=
  ∀ place target, location <+: place → tree.get? place ≠ some (.link target)

theorem linkless_of_entries {tree : FileTree} {location : Location}
    (outside : ∀ item ∈ tree.entries, ∀ target, item.2 = .link target → ¬ location <+: item.1) :
    tree.Linkless location := by
  intro place target inside standing
  unfold get? at standing
  split at standing
  · cases standing
  · exact outside _ (mem_of_lookup standing) target rfl inside

/-- The first of some names, if there is one, leads from a directory into a location. -/
def Enters (directory : Location) (names : List String) (location : Location) : Prop :=
  ∀ name rest, names = name :: rest → location <+: directory ++ [name]

theorem enters_of_under {directory location : Location} (under : location <+: directory)
    (names : List String) : Enters directory names location :=
  fun name _ _ => under.trans (List.prefix_append directory [name])

/-- What stands at a location, or that it is vacant. -/
def placeAt (tree : FileTree) (location : Location) : Place :=
  match tree.get? location with
  | some entry => .entry location entry
  | none => .vacancy location

theorem placeAt_of_some {tree : FileTree} {location : Location} {entry : Entry}
    (standing : tree.get? location = some entry) :
    tree.placeAt location = .entry location entry := by
  unfold placeAt
  rw [standing]

theorem placeAt_of_none {tree : FileTree} {location : Location}
    (vacant : tree.get? location = none) : tree.placeAt location = .vacancy location := by
  unfold placeAt
  rw [vacant]

theorem placeAt_inj {tree : FileTree} {first second : Location}
    (same : tree.placeAt first = tree.placeAt second) : first = second := by
  unfold placeAt at same
  split at same <;> split at same <;> cases same <;> rfl

theorem placeAt_eq_entry_iff {tree : FileTree} {location place : Location} {entry : Entry} :
    tree.placeAt location = .entry place entry ↔
      location = place ∧ tree.get? location = some entry := by
  unfold placeAt
  split
  · next standing => simp [standing]
  · next vacant => simp [vacant]

theorem placeAt_eq_vacancy_iff {tree : FileTree} {location place : Location} :
    tree.placeAt location = .vacancy place ↔ location = place ∧ tree.get? location = none := by
  unfold placeAt
  split
  · next standing => simp [standing]
  · next vacant => simp [vacant]

/-- Names that do not lead up lead to the location that they spell where no links stand. -/
theorem walkNames_location {tree : FileTree} {location : Location}
    (linkless : tree.Linkless location)
    {purpose : Purpose} {onLink : Location → Path → List String → Except FileError Place}
    {directory : Location} {names : List String}
    (level : ".." ∉ names)
    (enters : Enters directory (Path.bare names) location)
    (standing : tree.get? directory = some .directory)
    {place : Place}
    (walked : tree.walkNames purpose onLink directory names = .ok place) :
    place = tree.placeAt (directory ++ Path.bare names) := by
  induction names generalizing directory with
  | nil =>
      rw [walkNames, Except.ok.injEq] at walked
      rw [Path.bare, List.filter_nil, List.append_nil, placeAt_of_some standing, walked]
  | cons name rest inductionHypothesis =>
      have restLevel : ".." ∉ rest := fun up => level (List.mem_cons_of_mem name up)
      have bareEnd : isLast purpose rest = true → Path.bare rest = [] := by
        unfold isLast
        rw [Bool.or_eq_true, Bool.and_eq_true, List.isEmpty_iff, beq_iff_eq]
        rintro (rfl | ⟨-, slash⟩)
        · rfl
        · rw [eq_of_beq slash]
          rfl
      cases walkNames_cons_ok_iff.mp walked with
      | blank isBlank onwards =>
          rw [Path.bare_cons_of_blank isBlank] at enters ⊢
          exact inductionHypothesis restLevel enters standing onwards
      | up isUp _ => exact absurd List.mem_cons_self (isUp ▸ level)
      | into ordinary found onwards =>
          rw [Path.bare_cons_of_not_blank ordinary.notBlank] at enters ⊢
          have further := inductionHypothesis restLevel
            (enters_of_under (enters name _ rfl) _) found onwards
          rwa [List.append_assoc] at further
      | through ordinary target found _ _ =>
          rw [Path.bare_cons_of_not_blank ordinary.notBlank] at enters
          exact absurd found (linkless _ target (enters name _ rfl))
      | vacancy ordinary vacant last here =>
          rw [Bool.and_eq_true] at last
          rw [Path.bare_cons_of_not_blank ordinary.notBlank, bareEnd last.1, here,
            placeAt_of_none vacant]
      | entry ordinary entry found _ last _ here =>
          rw [Path.bare_cons_of_not_blank ordinary.notBlank, bareEnd last, here,
            placeAt_of_some found]

/-- Trees that agree at a location and below it answer alike about plain names that lead there. -/
theorem walkNames_congr {first second : FileTree} {location : Location}
    (same : SameInside location first second) (linkless : first.Linkless location)
    (purpose : Purpose)
    (onFirst onSecond : Location → Path → List String → Except FileError Place)
    {directory : Location} {names : List String}
    (plain : ∀ name ∈ names, PlainName name)
    (enters : Enters directory names location)
    (alike : first.get? directory = second.get? directory) :
    first.walkNames purpose onFirst directory names =
      second.walkNames purpose onSecond directory names := by
  induction names generalizing directory with
  | nil => rfl
  | cons name rest inductionHypothesis =>
      have inside := enters name rest rfl
      rw [walkNames_cons_plain first purpose onFirst directory plain,
        walkNames_cons_plain second purpose onSecond directory plain, ← same _ inside, ← alike]
      have further := inductionHypothesis
        (fun step member => plain step (List.mem_cons_of_mem name member))
        (enters_of_under inside rest) (same _ inside)
      split
      · rfl
      · split
        · rfl
        · exact further
        · next target found => exact absurd found (linkless _ target inside)
        · rfl

end FaultDrill.FileTree
