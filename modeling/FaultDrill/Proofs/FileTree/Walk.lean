import FaultDrill.Proofs.FileTree.Comparison
import FaultDrill.Proofs.Path.Descent

/-!
Where paths lead, in one tree and in another.

Owns:
- walks through a part of a tree and through the whole of it;
- the first step of a walk that comes to a place;
- walks along names one after the other: first to a directory, then on from there.

Main statements: a path leads to the same entry in a part as in the whole, or nowhere
(`find_partOf`); a walk along some names and then others fails on the first, whatever the others
are, or goes on from where the first lead (`walk_append`).
-/

namespace FaultDrill.FileTree

/-! ## Parts of trees -/

/-- The entry at a place. A vacancy has none. -/
def found : Except FileError Place → Except FileError (Location × Entry)
  | .ok (.entry location entry) => .ok (location, entry)
  | .ok (.vacancy _) => .error .notFound
  | .error error => .error error

theorem find_eq_found (tree : FileTree) (purpose : Purpose) (path : Path) :
    tree.find purpose path = found (tree.resolve purpose path) := by
  unfold find found
  cases tree.resolve purpose path with
  | error error => rfl
  | ok place => cases place <;> rfl

theorem found_eq_ok_iff {answer : Except FileError Place} {location : Location} {entry : Entry} :
    found answer = .ok (location, entry) ↔ answer = .ok (.entry location entry) := by
  unfold found
  split <;> simp

/-- Where a path starts depends only on whether it is absolute. -/
theorem start_eq {path other : Path} (absolute : path.isAbsolute = other.isAbsolute)
    (base : Location) : start path base = start other base := by
  unfold start
  rw [absolute]

/-- An answer about a part of a tree that fits the answer about the whole: it is the same, or
nothing is found. -/
def Fits (part whole : Except FileError Place) : Prop :=
  found part = found whole ∨ found part = .error .notFound

private theorem walkNames_fits {part whole : FileTree} (holds : PartOf part whole)
    (purpose : Purpose)
    {onPart onWhole : Location → Path → List String → Except FileError Place}
    (linkFits : ∀ directory target rest,
      Fits (onPart directory target rest) (onWhole directory target rest))
    (directory : Location) (names : List String) :
    Fits (part.walkNames purpose onPart directory names)
      (whole.walkNames purpose onWhole directory names) := by
  induction names generalizing directory with
  | nil => exact Or.inl rfl
  | cons name rest inductionHypothesis =>
      unfold walkNames
      by_cases blank : name = "" ∨ name = "."
      · rw [if_pos blank, if_pos blank]
        exact inductionHypothesis directory
      rw [if_neg blank, if_neg blank]
      by_cases up : name = ".."
      · rw [if_pos up, if_pos up]
        exact inductionHypothesis directory.dropLast
      rw [if_neg up, if_neg up]
      by_cases slashed : purpose = .newFile ∧ rest = [""]
      · rw [if_pos slashed, if_pos slashed]
        exact Or.inl rfl
      rw [if_neg slashed, if_neg slashed]
      by_cases long : nameLimit < name.utf8ByteSize
      · rw [if_pos long, if_pos long]
        exact Or.inl rfl
      rw [if_neg long, if_neg long]
      cases standing : part.get? (directory ++ [name]) with
      | none =>
          right
          dsimp only
          split <;> rfl
      | some entry =>
          rw [holds.get? _ _ standing]
          cases entry with
          | directory => exact inductionHypothesis (directory ++ [name])
          | file contents executable => exact Or.inl rfl
          | socket => exact Or.inl rfl
          | link target =>
              dsimp only
              split
              · exact Or.inl rfl
              · exact linkFits directory target rest

/-- Along the same names the answer about a part fits the answer about the whole. -/
theorem walk_fits {part whole : FileTree} (holds : PartOf part whole)
    (purpose : Purpose) (links : Nat) (directory : Location) (names : List String) :
    Fits (part.walk purpose links directory names)
      (whole.walk purpose links directory names) := by
  induction links generalizing directory names with
  | zero => exact walkNames_fits holds purpose (fun _ _ _ => Or.inl rfl) directory names
  | succ links inductionHypothesis =>
      exact walkNames_fits holds purpose
        (fun directory target rest =>
          inductionHypothesis (start target directory) (target.names ++ rest))
        directory names

/-- A path leads to the same entry in a part of a tree as in the whole, or nowhere. -/
theorem find_partOf {part whole : FileTree} (holds : PartOf part whole)
    (purpose : Purpose) (path : Path) :
    part.find purpose path = whole.find purpose path ∨
      part.find purpose path = .error .notFound := by
  rw [find_eq_found, find_eq_found]
  unfold resolve
  split
  · exact Or.inl rfl
  · split
    · exact Or.inl rfl
    · split
      · exact Or.inl rfl
      · rw [holds.base]
        exact walk_fits holds purpose linkLimit _ _

theorem find_eq_of_partOf {part whole : FileTree} (holds : PartOf part whole)
    {purpose : Purpose} {path : Path} {location : Location} {entry : Entry}
    (inPart : part.find purpose path = .ok (location, entry)) :
    whole.find purpose path = .ok (location, entry) := by
  rcases find_partOf holds purpose path with same | nowhere
  · rw [← same, inPart]
  · rw [nowhere] at inPart
    cases inPart

theorem find_notFound_of_partOf {part whole : FileTree} (holds : PartOf part whole)
    {purpose : Purpose} {path : Path} (nowhere : whole.find purpose path = .error .notFound) :
    part.find purpose path = .error .notFound := by
  rcases find_partOf holds purpose path with same | nowhereInPart
  · rw [same, nowhere]
  · exact nowhereInPart

/-! ## Walks that come to a place -/

/-- Where all walks to one place come to another in a second tree, so do paths. -/
theorem resolve_of_walks {first second : FileTree} (base : second.base = first.base)
    {purpose other : Purpose} {path : Path} {place reached : Place}
    (walks : ∀ {directory names}, first.walk purpose linkLimit directory names = .ok place →
      second.walk other linkLimit directory names = .ok reached)
    (resolved : first.resolve purpose path = .ok place) :
    second.resolve other path = .ok reached := by
  unfold resolve at resolved ⊢
  split at resolved
  · cases resolved
  split at resolved
  · cases resolved
  split at resolved
  · cases resolved
  · next free nonempty short =>
      rw [if_neg free, if_neg nonempty, if_neg short, base]
      exact walks resolved

/-- A name of an entry, which a walk for some purpose can take. -/
structure Ordinary (purpose : Purpose) (name : String) (rest : List String) : Prop where
  notBlank : ¬ (name = "" ∨ name = ".")
  notUp : name ≠ ".."
  unslashed : ¬ (purpose = .newFile ∧ rest = [""])
  short : ¬ nameLimit < name.utf8ByteSize

/-- How a walk that comes to a place takes its first name. -/
inductive StepsTo (tree : FileTree) (purpose : Purpose)
    (onLink : Location → Path → List String → Except FileError Place) (directory : Location)
    (name : String) (rest : List String) (place : Place) : Prop where
  | blank (isBlank : name = "" ∨ name = ".")
      (onwards : tree.walkNames purpose onLink directory rest = .ok place)
  | up (isUp : name = "..")
      (onwards : tree.walkNames purpose onLink directory.dropLast rest = .ok place)
  | into (ordinary : Ordinary purpose name rest)
      (standing : tree.get? (directory ++ [name]) = some .directory)
      (onwards : tree.walkNames purpose onLink (directory ++ [name]) rest = .ok place)
  | through (ordinary : Ordinary purpose name rest) (target : Path)
      (standing : tree.get? (directory ++ [name]) = some (.link target))
      (unwanted : ¬ (isLast purpose rest && wantsLink purpose) = true)
      (onwards : onLink directory target rest = .ok place)
  | vacancy (ordinary : Ordinary purpose name rest)
      (vacant : tree.get? (directory ++ [name]) = none)
      (last : (isLast purpose rest && tree.get? directory == some .directory) = true)
      (here : place = .vacancy (directory ++ [name]))
  | entry (ordinary : Ordinary purpose name rest) (entry : Entry)
      (standing : tree.get? (directory ++ [name]) = some entry) (other : entry ≠ .directory)
      (last : isLast purpose rest = true)
      (wanted : ∀ target, entry = .link target → wantsLink purpose = true)
      (here : place = .entry (directory ++ [name]) entry)

theorem Ordinary.walkNames_eq {purpose : Purpose} {name : String} {rest : List String}
    (ordinary : Ordinary purpose name rest) (tree : FileTree)
    (onLink : Location → Path → List String → Except FileError Place) (directory : Location) :
    tree.walkNames purpose onLink directory (name :: rest) =
      match tree.get? (directory ++ [name]) with
      | none =>
        if isLast purpose rest && tree.get? directory == some .directory then
          .ok (.vacancy (directory ++ [name]))
        else .error .notFound
      | some .directory => tree.walkNames purpose onLink (directory ++ [name]) rest
      | some (.link target) =>
        if isLast purpose rest && wantsLink purpose then
          .ok (.entry (directory ++ [name]) (.link target))
        else onLink directory target rest
      | some entry =>
        if isLast purpose rest then .ok (.entry (directory ++ [name]) entry)
        else .error .notDirectory := by
  rw [walkNames]
  exact (if_neg ordinary.notBlank).trans ((if_neg ordinary.notUp).trans
    ((if_neg ordinary.unslashed).trans (if_neg ordinary.short)))

theorem walkNames_cons_ok_iff {tree : FileTree} {purpose : Purpose}
    {onLink : Location → Path → List String → Except FileError Place} {directory : Location}
    {name : String} {rest : List String} {place : Place} :
    tree.walkNames purpose onLink directory (name :: rest) = .ok place ↔
      StepsTo tree purpose onLink directory name rest place := by
  constructor
  · intro walked
    by_cases blank : name = "" ∨ name = "."
    · rw [walkNames, if_pos blank] at walked
      exact .blank blank walked
    by_cases up : name = ".."
    · rw [walkNames, if_neg blank, if_pos up] at walked
      exact .up up walked
    by_cases slashed : purpose = .newFile ∧ rest = [""]
    · rw [walkNames, if_neg blank, if_neg up, if_pos slashed] at walked
      cases walked
    by_cases long : nameLimit < name.utf8ByteSize
    · rw [walkNames, if_neg blank, if_neg up, if_neg slashed, if_pos long] at walked
      cases walked
    have ordinary : Ordinary purpose name rest := ⟨blank, up, slashed, long⟩
    rw [ordinary.walkNames_eq] at walked
    split at walked
    · next vacant =>
        split at walked
        · next last => exact .vacancy ordinary vacant last (Except.ok.inj walked).symm
        · cases walked
    · next standing => exact .into ordinary standing walked
    · next target standing =>
        split at walked
        · next last =>
            rw [Bool.and_eq_true] at last
            exact .entry ordinary _ standing (by simp) last.1 (fun _ _ => last.2)
              (Except.ok.inj walked).symm
        · next unwanted => exact .through ordinary target standing unwanted walked
    · next entry notDirectory notLink standing =>
        split at walked
        · next last =>
            refine .entry ordinary entry standing notDirectory last (fun target isLink => ?_)
              (Except.ok.inj walked).symm
            exact absurd isLink (notLink target)
        · cases walked
  · intro steps
    cases steps with
    | blank isBlank onwards => rw [walkNames, if_pos isBlank, onwards]
    | up isUp onwards =>
        subst isUp
        rw [walkNames, if_neg (by decide), if_pos rfl, onwards]
    | into ordinary standing onwards => rw [ordinary.walkNames_eq, standing, onwards]
    | through ordinary target standing unwanted onwards =>
        rw [ordinary.walkNames_eq, standing]
        exact (if_neg unwanted).trans onwards
    | vacancy ordinary vacant last here =>
        rw [ordinary.walkNames_eq, vacant, here]
        exact if_pos last
    | entry ordinary entry standing other last wanted here =>
        rw [ordinary.walkNames_eq, standing, here]
        cases entry with
        | directory => exact absurd rfl other
        | file contents executable => exact if_pos last
        | socket => exact if_pos last
        | link target =>
            have taken := wanted target rfl
            exact if_pos (by rw [last, taken]; rfl)

/-! ## Names one after the other -/

/-- How a walk goes on at a link when it may follow a number of them. -/
def atLink (tree : FileTree) (purpose : Purpose) :
    (links : Nat) → Location → Path → List String → Except FileError Place
  | 0 => fun _ _ _ => .error .tooManyLinks
  | links + 1 => fun directory target rest =>
    tree.walk purpose links (start target directory) (target.names ++ rest)

theorem walk_eq (tree : FileTree) (purpose : Purpose) (links : Nat) :
    tree.walk purpose links = tree.walkNames purpose (tree.atLink purpose links) := by
  cases links <;> rfl

/-- Names that go on from a directory, so that what comes before them is not yet the end. -/
def Onward (purpose : Purpose) (rest : List String) : Prop :=
  rest ≠ [] ∧ (rest = [""] → purpose = .target ∨ purpose = .itself)

namespace Onward

variable {purpose : Purpose} {rest : List String}

theorem append (onward : Onward purpose rest) (names : List String) :
    Onward purpose (names ++ rest) := by
  refine ⟨by simp [onward.1], fun single => ?_⟩
  rcases List.append_eq_singleton_iff.mp single with ⟨-, alone⟩ | ⟨-, none⟩
  · exact onward.2 alone
  · exact absurd none onward.1

theorem not_slashed (onward : Onward purpose rest) : ¬ (purpose = .newFile ∧ rest = [""]) := by
  rintro ⟨newFile, slash⟩
  rcases onward.2 slash with target | itself
  · rw [newFile] at target
    cases target
  · rw [newFile] at itself
    cases itself

theorem isLast_eq_false (onward : Onward purpose rest) : isLast purpose rest = false := by
  unfold isLast
  have nonempty : rest.isEmpty = false := by simp [onward.1]
  rw [nonempty, Bool.false_or]
  by_cases slash : rest = [""]
  · rcases onward.2 slash with rfl | rfl <;> rfl
  · simp [slash]

theorem of_plain {name : String} {names : List String} (plain : Path.PlainName name) :
    Onward purpose (name :: names) := by
  refine ⟨by simp, fun single => ?_⟩
  have blank : name = "" := by simpa using (List.cons.inj single).1
  exact absurd blank plain.nonempty

end Onward

/-- Either some names lead to a directory, and a walk along these and others goes on from there;
or they lead to none, and the walk fails whatever the others are. -/
def Divides (tree : FileTree) (links : Nat) (origin : Location) (names : List String) : Prop :=
  (∃ directory fewer,
    tree.walk .target links origin names = .ok (.entry directory .directory) ∧
      ∀ purpose rest, Onward purpose rest →
        tree.walk purpose links origin (names ++ rest) = tree.walk purpose fewer directory rest) ∨
  ((∀ directory, tree.walk .target links origin names ≠ .ok (.entry directory .directory)) ∧
    ∃ error, ∀ purpose rest, Onward purpose rest →
      tree.walk purpose links origin (names ++ rest) = .error error)

/-- The same for what comes after a link. -/
private def DividesAtLink (tree : FileTree) (links : Nat) (directory : Location) (target : Path)
    (names : List String) : Prop :=
  (∃ reached fewer,
    tree.atLink .target links directory target names = .ok (.entry reached .directory) ∧
      ∀ purpose rest, Onward purpose rest →
        tree.atLink purpose links directory target (names ++ rest) =
          tree.walk purpose fewer reached rest) ∨
  ((∀ reached,
    tree.atLink .target links directory target names ≠ .ok (.entry reached .directory)) ∧
    ∃ error, ∀ purpose rest, Onward purpose rest →
      tree.atLink purpose links directory target (names ++ rest) = .error error)

private theorem walkNames_divides (tree : FileTree) (links : Nat)
    (divided : ∀ directory target names, DividesAtLink tree links directory target names)
    (origin : Location) (names : List String) : Divides tree links origin names := by
  unfold Divides
  simp only [walk_eq tree _ links]
  induction names generalizing origin with
  | nil => exact Or.inl ⟨origin, links, rfl, fun purpose rest _ => by rw [walk_eq]; rfl⟩
  | cons name names inductionHypothesis =>
      have slashed : ∀ purpose rest, Onward purpose rest →
          ¬ (purpose = .newFile ∧ names ++ rest = [""]) := fun purpose rest onward =>
        (onward.append names).not_slashed
      have last : ∀ purpose rest, Onward purpose rest → isLast purpose (names ++ rest) = false :=
        fun purpose rest onward => (onward.append names).isLast_eq_false
      simp only [List.cons_append, walkNames]
      by_cases blank : name = "" ∨ name = "."
      · simp only [if_pos blank]
        exact inductionHypothesis origin
      simp only [if_neg blank]
      by_cases up : name = ".."
      · simp only [if_pos up]
        exact inductionHypothesis origin.dropLast
      simp only [if_neg up]
      by_cases long : nameLimit < name.utf8ByteSize
      · right
        refine ⟨by simp [long], .nameTooLong, fun purpose rest onward => ?_⟩
        rw [if_neg (slashed purpose rest onward), if_pos long]
      simp only [if_neg long]
      cases standing : tree.get? (origin ++ [name]) with
      | none =>
          right
          refine ⟨fun directory => ?_, .notFound, fun purpose rest onward => ?_⟩
          · simp only [reduceCtorEq, false_and, if_false]
            split <;> simp
          · simp [slashed purpose rest onward, last purpose rest onward]
      | some entry =>
          cases entry with
          | directory =>
              rcases inductionHypothesis (origin ++ [name]) with
                ⟨directory, fewer, reached, onwards⟩ | ⟨elsewhere, error, fails⟩
              · left
                refine ⟨directory, fewer, by simpa using reached, fun purpose rest onward => ?_⟩
                rw [if_neg (slashed purpose rest onward)]
                exact onwards purpose rest onward
              · right
                refine ⟨by simpa using elsewhere, error, fun purpose rest onward => ?_⟩
                rw [if_neg (slashed purpose rest onward)]
                exact fails purpose rest onward
          | file contents executable =>
              right
              refine ⟨fun directory => ?_, .notDirectory, fun purpose rest onward => ?_⟩
              · simp only [reduceCtorEq, false_and, if_false]
                split <;> simp
              · simp [slashed purpose rest onward, last purpose rest onward]
          | socket =>
              right
              refine ⟨fun directory => ?_, .notDirectory, fun purpose rest onward => ?_⟩
              · simp only [reduceCtorEq, false_and, if_false]
                split <;> simp
              · simp [slashed purpose rest onward, last purpose rest onward]
          | link target =>
              rcases divided origin target names with
                ⟨directory, fewer, reached, onwards⟩ | ⟨elsewhere, error, fails⟩
              · left
                refine ⟨directory, fewer, by simpa [wantsLink] using reached,
                  fun purpose rest onward => ?_⟩
                simpa [slashed purpose rest onward, last purpose rest onward] using
                  onwards purpose rest onward
              · right
                refine ⟨by simpa [wantsLink] using elsewhere, error,
                  fun purpose rest onward => ?_⟩
                simpa [slashed purpose rest onward, last purpose rest onward] using
                  fails purpose rest onward

/-- A walk along some names and then others fails on the first, or goes on from where they lead. -/
theorem walk_append (tree : FileTree) (links : Nat) (origin : Location) (names : List String) :
    Divides tree links origin names := by
  induction links generalizing origin names with
  | zero =>
      apply walkNames_divides
      intro directory target names
      exact Or.inr ⟨fun _ => by simp [atLink], .tooManyLinks, fun _ _ _ => rfl⟩
  | succ links inductionHypothesis =>
      apply walkNames_divides
      intro directory target names
      rcases inductionHypothesis (start target directory) (target.names ++ names) with
        ⟨reached, fewer, leads, onwards⟩ | ⟨elsewhere, error, fails⟩
      · refine Or.inl ⟨reached, fewer, leads, fun purpose rest onward => ?_⟩
        rw [← onwards purpose rest onward, List.append_assoc]
        rfl
      · refine Or.inr ⟨elsewhere, error, fun purpose rest onward => ?_⟩
        rw [← fails purpose rest onward, List.append_assoc]
        rfl

/-- From a directory that some names lead to, a walk along these and others goes on. -/
theorem walk_append_of_leads {tree : FileTree} {links : Nat} {origin directory : Location}
    {names : List String}
    (leads : tree.walk .target links origin names = .ok (.entry directory .directory)) :
    ∃ fewer, ∀ purpose rest, Onward purpose rest →
      tree.walk purpose links origin (names ++ rest) = tree.walk purpose fewer directory rest := by
  rcases walk_append tree links origin names with
    ⟨reached, fewer, reaches, onwards⟩ | ⟨elsewhere, -⟩
  · rw [leads] at reaches
    cases reaches
    exact ⟨fewer, onwards⟩
  · exact absurd leads (elsewhere directory)

/-- A walk along some names and then others that does not fail comes by a directory. -/
theorem leads_of_walk_append {tree : FileTree} {purpose : Purpose} {links : Nat}
    {origin : Location} {names rest : List String} {place : Place}
    (onward : Onward purpose rest)
    (walked : tree.walk purpose links origin (names ++ rest) = .ok place) :
    ∃ directory fewer,
      tree.walk .target links origin names = .ok (.entry directory .directory) ∧
        tree.walk purpose fewer directory rest = .ok place := by
  rcases walk_append tree links origin names with
    ⟨directory, fewer, reaches, onwards⟩ | ⟨-, error, fails⟩
  · exact ⟨directory, fewer, reaches, by rw [← onwards purpose rest onward, walked]⟩
  · rw [fails purpose rest onward] at walked
    cases walked

end FaultDrill.FileTree
