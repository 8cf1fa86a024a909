import FaultDrill.Proofs.FileTree.Purposes

/-!
Trees that hold what stood in another, but for the contents of files.

Owns:
- entries of which one may stand in the place of the other;
- trees in which everything still stands that stood in another, and where paths then lead.

Main statement: a path that led to an entry leads to what now stands there, and so does one that
led to a vacancy where a file now stands (`Kept.resolve_after`).

Does not own: which operations keep what stands (`Proofs.FileTree.Region`).
-/

namespace FaultDrill.FileTree

/-- Whether an executable file stands at a place. -/
def isExecutableAt (tree : FileTree) (place : Location) : Bool :=
  match tree.get? place with
  | some (.file _ executable) => executable
  | _ => false

theorem isExecutableAt_of_file {tree : FileTree} {place : Location} {contents : List UInt8}
    {executable : Bool} (standing : tree.get? place = some (.file contents executable)) :
    tree.isExecutableAt place = executable := by
  rw [isExecutableAt, standing]

/-- An entry may stand in the place of another: it is the same, or both are files, of which the
later is executable if the earlier is. -/
inductive Alike : Entry → Entry → Prop where
  | same (entry : Entry) : Alike entry entry
  | file (contents more : List UInt8) (executable mode : Bool)
      (stays : executable = true → mode = true) :
      Alike (.file contents executable) (.file more mode)

theorem Alike.eq_of_not_file {entry other : Entry} (alike : Alike entry other)
    (notFile : ∀ contents executable, entry ≠ .file contents executable) : other = entry := by
  cases alike with
  | same => rfl
  | file contents more executable mode stays =>
      exact absurd rfl (notFile contents executable)

theorem Alike.exists_file {contents : List UInt8} {executable : Bool} {other : Entry}
    (alike : Alike (.file contents executable) other) :
    ∃ more mode, other = .file more mode ∧ (executable = true → mode = true) := by
  cases alike with
  | same => exact ⟨contents, executable, rfl, id⟩
  | file _ more _ mode stays => exact ⟨more, mode, rfl, stays⟩

theorem Alike.trans {first second third : Entry} (one : Alike first second)
    (two : Alike second third) : Alike first third := by
  cases one with
  | same => exact two
  | file contents more executable mode stays =>
      obtain ⟨last, lastMode, rfl, staysLast⟩ := two.exists_file
      exact .file contents last executable lastMode fun marked => staysLast (stays marked)

/-- Everything that stands in one tree stands in another, but the files may have changed. Those that
are executable stay so. -/
structure Kept (before after : FileTree) : Prop where
  base : after.base = before.base
  get? : ∀ place entry, before.get? place = some entry →
    ∃ other, after.get? place = some other ∧ Alike entry other

/-- What stands in a tree where a walk has come to a place of another. Directories on the way up
need not stand. -/
def now (tree : FileTree) : Place → Place
  | .entry location .directory => .entry location .directory
  | .entry location _ => tree.placeAt location
  | .vacancy location => tree.placeAt location

theorem now_of_entry {tree : FileTree} {location : Location} {entry other : Entry}
    (standing : tree.get? location = some other) (alike : Alike entry other) :
    tree.now (.entry location entry) = .entry location other := by
  cases entry with
  | directory =>
      rw [alike.eq_of_not_file (by simp)]
      rfl
  | file contents executable => exact placeAt_of_some standing
  | link target => exact placeAt_of_some standing
  | socket => exact placeAt_of_some standing

namespace Kept

variable {before between after : FileTree}

theorem refl (tree : FileTree) : Kept tree tree :=
  ⟨rfl, fun _ entry standing => ⟨entry, standing, .same entry⟩⟩

theorem trans (one : Kept before between) (two : Kept between after) : Kept before after := by
  refine ⟨two.base.trans one.base, fun place entry standing => ?_⟩
  obtain ⟨other, standingBetween, alike⟩ := one.get? place entry standing
  obtain ⟨last, standingAfter, alikeAfter⟩ := two.get? place other standingBetween
  exact ⟨last, standingAfter, alike.trans alikeAfter⟩

/-- Directories and links are where they were. -/
theorem get?_of_standing (kept : Kept before after) {place : Location} {entry : Entry}
    (standing : before.get? place = some entry)
    (notFile : ∀ contents executable, entry ≠ .file contents executable) :
    after.get? place = some entry := by
  obtain ⟨other, standingAfter, alike⟩ := kept.get? place entry standing
  rw [standingAfter, alike.eq_of_not_file notFile]

private theorem walkNames_kept (kept : Kept before after) {purpose : Purpose}
    {onBefore onAfter : Location → Path → List String → Except FileError Place} {place : Place}
    (filled : ∀ location, place = .vacancy location →
      ∃ contents executable, after.get? location = some (.file contents executable))
    (linkKept : ∀ directory target rest,
      onBefore directory target rest = .ok place →
        onAfter directory target rest = .ok (after.now place))
    {directory : Location} {names : List String}
    (walked : before.walkNames purpose onBefore directory names = .ok place) :
    after.walkNames purpose onAfter directory names = .ok (after.now place) := by
  induction names generalizing directory with
  | nil =>
      cases walked
      rfl
  | cons name rest inductionHypothesis =>
      rw [walkNames_cons_ok_iff]
      cases walkNames_cons_ok_iff.mp walked with
      | blank isBlank onwards => exact .blank isBlank (inductionHypothesis onwards)
      | up isUp onwards => exact .up isUp (inductionHypothesis onwards)
      | into ordinary standing onwards =>
          have still := kept.get?_of_standing standing (by simp)
          exact .into ordinary still (inductionHypothesis onwards)
      | through ordinary target standing unwanted onwards =>
          have still := kept.get?_of_standing standing (by simp)
          exact .through ordinary target still unwanted (linkKept _ _ _ onwards)
      | vacancy ordinary vacant last here =>
          obtain ⟨contents, executable, standing⟩ := filled _ here
          rw [Bool.and_eq_true] at last
          rw [here]
          exact .entry ordinary _ standing (by simp) last.1 (by simp) (placeAt_of_some standing)
      | entry ordinary entry standing notDirectory last wanted here =>
          obtain ⟨other, still, alike⟩ := kept.get? _ entry standing
          rw [here]
          refine .entry ordinary other still ?_ last ?_ (now_of_entry still alike)
          · cases alike with
            | same => exact notDirectory
            | file => simp
          · rintro target rfl
            cases alike with
            | same => exact wanted target rfl

private theorem walk_kept (kept : Kept before after) {purpose : Purpose} {links : Nat}
    {place : Place}
    (filled : ∀ location, place = .vacancy location →
      ∃ contents executable, after.get? location = some (.file contents executable))
    {directory : Location} {names : List String}
    (walked : before.walk purpose links directory names = .ok place) :
    after.walk purpose links directory names = .ok (after.now place) := by
  induction links generalizing directory names with
  | zero => exact kept.walkNames_kept filled (fun _ _ _ answer => by cases answer) walked
  | succ links inductionHypothesis =>
      exact kept.walkNames_kept filled (fun _ _ _ answer => inductionHypothesis answer) walked

/-- A path leads to what now stands where it led, if that was an entry or is a file now. -/
theorem resolve_after (kept : Kept before after) {purpose : Purpose} {path : Path} {place : Place}
    (filled : ∀ location, place = .vacancy location →
      ∃ contents executable, after.get? location = some (.file contents executable))
    (resolved : before.resolve purpose path = .ok place) :
    after.resolve purpose path = .ok (after.now place) :=
  resolve_of_walks kept.base (kept.walk_kept filled) resolved

/-- A path to a directory leads there still. -/
theorem find_directory (kept : Kept before after) {purpose : Purpose} {path : Path}
    {location : Location} (leads : before.find purpose path = .ok (location, .directory)) :
    after.find purpose path = .ok (location, .directory) := by
  rw [find_eq_found, found_eq_ok_iff] at leads ⊢
  exact kept.resolve_after (fun _ vacancy => by cases vacancy) leads

/-- A path to a file leads to a file in the same place. -/
theorem resolve_file (kept : Kept before after) {purpose : Purpose} {path : Path}
    {location : Location} {contents : List UInt8} {executable : Bool}
    (leads : before.resolve purpose path = .ok (.entry location (.file contents executable))) :
    ∃ more mode, after.resolve purpose path = .ok (.entry location (.file more mode)) ∧
      (executable = true → mode = true) := by
  have standing : before.get? location = some (.file contents executable) :=
    stands_of_resolve leads (by simp)
  obtain ⟨other, still, alike⟩ := kept.get? _ _ standing
  have leadsStill := kept.resolve_after (fun _ vacancy => by cases vacancy) leads
  rw [now_of_entry still alike] at leadsStill
  obtain ⟨more, mode, rfl, stays⟩ := alike.exists_file
  exact ⟨more, mode, leadsStill, stays⟩

/-- A path leads to a file that stands where it led before, in place of another file or of
nothing. -/
theorem resolve_file_at (kept : Kept before after) {purpose : Purpose} {path : Path}
    {location : Location} {contents : List UInt8} {executable : Bool}
    (later : after.get? location = some (.file contents executable))
    (free : before.get? location = none ∨
      ∃ old mode, before.get? location = some (.file old mode))
    (resolved : before.resolve purpose path = .ok (before.placeAt location)) :
    after.resolve purpose path = .ok (.entry location (.file contents executable)) := by
  have filled : ∀ place, before.placeAt location = .vacancy place →
      ∃ contents executable, after.get? place = some (.file contents executable) := by
    intro place vacancy
    rw [← (placeAt_eq_vacancy_iff.mp vacancy).1]
    exact ⟨contents, executable, later⟩
  have leads := kept.resolve_after filled resolved
  rcases free with vacant | ⟨old, mode, isFile⟩
  · rw [placeAt_of_none vacant] at leads
    exact leads.trans (congrArg Except.ok (placeAt_of_some later))
  · obtain ⟨other, still, alike⟩ := kept.get? _ _ isFile
    rw [later] at still
    cases still
    rwa [placeAt_of_some isFile, now_of_entry later alike] at leads

end Kept

/-- A file may stand where nothing or a file stood. -/
theorem kept_of_file {before after : FileTree} {location : Location} {contents : List UInt8}
    {executable : Bool} (base : after.base = before.base)
    (free : before.get? location = none ∨
      ∃ old mode, before.get? location = some (.file old mode))
    (stays : before.isExecutableAt location = true → executable = true)
    (later : after.get? location = some (.file contents executable))
    (elsewhere : ∀ place, place ≠ location → after.get? place = before.get? place) :
    Kept before after := by
  refine ⟨base, fun place entry standing => ?_⟩
  by_cases here : place = location
  · subst here
    rcases free with vacant | ⟨old, mode, isFile⟩
    · rw [vacant] at standing
      cases standing
    · rw [isExecutableAt_of_file isFile] at stays
      rw [isFile] at standing
      cases standing
      exact ⟨_, later, .file old contents mode executable stays⟩
  · exact ⟨entry, (elsewhere place here).trans standing, .same entry⟩

theorem proper_of_free {tree : FileTree} {location : Location}
    (free : tree.get? location = none ∨ ∃ old mode, tree.get? location = some (.file old mode)) :
    location ≠ [] := by
  rintro rfl
  rcases free with vacant | ⟨old, mode, isFile⟩
  · cases vacant
  · cases isFile

theorem kept_put {tree : FileTree} {location : Location} {executable : Bool}
    (free : tree.get? location = none ∨ ∃ old mode, tree.get? location = some (.file old mode))
    (stays : tree.isExecutableAt location = true → executable = true) (contents : List UInt8) :
    Kept tree (tree.put location (.file contents executable)) :=
  kept_of_file rfl free stays (get?_put_self tree _ (proper_of_free free))
    fun _ other => get?_put_of_ne tree _ other

end FaultDrill.FileTree
