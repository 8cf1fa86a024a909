import FaultDrill.Proofs.FileTree.Keeping
import FaultDrill.Proofs.FileTree.Site

/-!
Files that are written over, wherever their path leads.

Owns:
- trees that differ in one file only, which one of them may lack;
- where a path leads before and after the file at its end is written;
- what is left when files are written over, each any number of times.

Main statements: a file is written at the one place that its path leads to, through whatever links
(`written_of_write`); the path leads to it afterwards, where it is read as it was written
(`Written.openSource_eq`) and may be written over (`write_write`); files that are written over, and
at last with what they hold, stay as they are (`overwriteAll_self`).

Does not own: files in directories without links (`Proofs.FileTree.Region`).
-/

namespace FaultDrill.FileTree

/-! ## Trees that differ in one file -/

/-- A file stands at a location in one tree, in place of a file of the same mode or of nothing in
another. All else is the same. -/
structure Rewritten (location : Location) (executable : Bool) (contents : List UInt8)
    (before after : FileTree) : Prop where
  base : after.base = before.base
  earlier : (∃ old, before.get? location = some (.file old executable)) ∨
    (before.get? location = none ∧ executable = false)
  later : after.get? location = some (.file contents executable)
  elsewhere : ∀ place, place ≠ location → after.get? place = before.get? place

theorem rewritten_put {tree : FileTree} {location : Location} {executable : Bool}
    (earlier : (∃ old, tree.get? location = some (.file old executable)) ∨
      (tree.get? location = none ∧ executable = false)) (contents : List UInt8) :
    Rewritten location executable contents tree
      (tree.put location (.file contents executable)) := by
  have proper : location ≠ [] := by
    rcases earlier with ⟨old, isFile⟩ | ⟨vacant, -⟩
    · exact proper_of_free (Or.inr ⟨old, executable, isFile⟩)
    · exact proper_of_free (Or.inl vacant)
  exact ⟨rfl, earlier, get?_put_self tree _ proper, fun place other => get?_put_of_ne tree _ other⟩

namespace Rewritten

variable {location : Location} {executable : Bool} {contents : List UInt8}
  {before after : FileTree}

/-- Nothing or a file stood where the file stands. -/
theorem free (rewritten : Rewritten location executable contents before after) :
    before.get? location = none ∨ ∃ old mode, before.get? location = some (.file old mode) := by
  rcases rewritten.earlier with ⟨old, isFile⟩ | ⟨vacant, -⟩
  · exact Or.inr ⟨old, executable, isFile⟩
  · exact Or.inl vacant

/-- Whether an executable file stands where one is written over tells its mode. -/
theorem isExecutableAt_eq (rewritten : Rewritten location executable contents before after) :
    before.isExecutableAt location = executable := by
  unfold isExecutableAt
  rcases rewritten.earlier with ⟨old, isFile⟩ | ⟨vacant, notExecutable⟩
  · rw [isFile]
  · rw [vacant, notExecutable]

theorem kept (rewritten : Rewritten location executable contents before after) :
    Kept before after :=
  kept_of_file rewritten.base rewritten.free (by rw [rewritten.isExecutableAt_eq]; exact id)
    rewritten.later rewritten.elsewhere

/-- A path that led to the place of the file leads to the file. -/
theorem resolve_after (rewritten : Rewritten location executable contents before after)
    {purpose : Purpose} {path : Path}
    (resolved : before.resolve purpose path = .ok (before.placeAt location)) :
    after.resolve purpose path = .ok (.entry location (.file contents executable)) :=
  rewritten.kept.resolve_file_at rewritten.later rewritten.free resolved

end Rewritten

/-- Where a file may be made, the path leads there for any other purpose that follows links. -/
theorem resolve_target_of_newFile {tree : FileTree} {path : Path} {place : Place}
    (resolved : tree.resolve .newFile path = .ok place) :
    tree.resolve .target path = .ok place :=
  resolve_target_of_resolve (by decide) (fun wanted => absurd wanted (by decide)) resolved

/-! ## Writing -/

/-- A file has been written at the place that a path leads to. -/
structure Written (path : Path) (location : Location) (executable : Bool) (contents : List UInt8)
    (before after : FileTree) : Prop where
  leads : before.resolve .newFile path = .ok (before.placeAt location)
  rewritten : Rewritten location executable contents before after

theorem written_of_write {tree after : FileTree} {path : Path} {contents : List UInt8}
    (written : tree.write path contents = .ok after) :
    ∃ location executable, Written path location executable contents tree after := by
  unfold write at written
  cases resolved : tree.resolve .newFile path with
  | error error =>
      rw [resolved] at written
      cases written
  | ok place =>
      have stands := stands_of_resolve resolved
      rw [resolved] at written
      cases place with
      | vacancy location =>
          cases written
          have leads := resolved.trans (congrArg Except.ok (placeAt_of_none stands).symm)
          exact ⟨location, false, leads, rewritten_put (Or.inr ⟨stands, rfl⟩) contents⟩
      | entry location entry =>
          cases entry with
          | directory => cases written
          | socket => cases written
          | link target => cases written
          | file old executable =>
              cases written
              have standing := stands (by simp)
              have leads := resolved.trans (congrArg Except.ok (placeAt_of_some standing).symm)
              exact ⟨location, executable, leads, rewritten_put (Or.inl ⟨old, standing⟩) contents⟩

-- A link to a name that is still missing: the file is made where the link points.
example :
    write { entries := [(["dir"], .directory), (["link"], .link ⟨"dir/new"⟩)] } ⟨"link"⟩ [1] =
      .ok { entries := [(["dir"], .directory), (["link"], .link ⟨"dir/new"⟩),
        (["dir", "new"], .file [1] false)] } := by
  decide

/-- Whether a file can be written does not depend on what is written. -/
theorem write_fails {tree : FileTree} {path : Path} {contents : List UInt8} {error : FileError}
    (fails : tree.write path contents = .error error) (other : List UInt8) :
    tree.write path other = .error error := by
  unfold write at fails ⊢
  cases resolved : tree.resolve .newFile path with
  | error cause =>
      rw [resolved] at fails
      exact fails
  | ok place =>
      rw [resolved] at fails
      cases place with
      | vacancy location => cases fails
      | entry location entry =>
          cases entry with
          | file old executable => cases fails
          | directory => exact fails
          | socket => exact fails
          | link target => exact fails

/-- What is put last at a location stays. -/
theorem put_put (tree : FileTree) (location : Location) (first second : Entry) :
    (tree.put location first).put location second = tree.put location second := by
  have inEntries : ∀ entries, putEntry location second (putEntry location first entries) =
      putEntry location second entries := by
    intro entries
    induction entries with
    | nil => simp [putEntry]
    | cons head rest inductionHypothesis =>
        by_cases here : head.1 = location
        · simp [putEntry, here]
        · simp [putEntry, here, inductionHypothesis]
  unfold put
  rw [inEntries]

/-- To put what stands at a location there does nothing. -/
theorem put_self {tree : FileTree} {location : Location} {entry : Entry}
    (standing : tree.get? location = some entry) (proper : location ≠ []) :
    tree.put location entry = tree := by
  have inEntries : ∀ entries, lookup location entries = some entry →
      putEntry location entry entries = entries := by
    intro entries found
    induction entries with
    | nil => cases found
    | cons head rest inductionHypothesis => grind [putEntry, lookup]
  rw [get?, if_neg proper] at standing
  rw [put, inEntries _ standing]

/-- What is put at two locations may be put in any order if something stands at one of them. -/
theorem put_comm {tree : FileTree} {location other : Location} {old : Entry}
    (different : location ≠ other) (standing : tree.get? location = some old)
    (proper : location ≠ []) (entry more : Entry) :
    (tree.put location entry).put other more = (tree.put other more).put location entry := by
  have inEntries : ∀ entries, lookup location entries = some old →
      putEntry other more (putEntry location entry entries) =
        putEntry location entry (putEntry other more entries) := by
    intro entries found
    induction entries with
    | nil => cases found
    | cons head rest inductionHypothesis => grind [putEntry, lookup]
  rw [get?, if_neg proper] at standing
  simp only [put, inEntries _ standing]

namespace Written

variable {path : Path} {location : Location} {executable : Bool} {contents : List UInt8}
  {before after : FileTree}

theorem find_eq (written : Written path location executable contents before after) :
    after.find .target path = .ok (location, .file contents executable) := by
  have leads := written.rewritten.resolve_after (resolve_target_of_newFile written.leads)
  rw [find_eq_found, leads]
  rfl

theorem stat_eq (written : Written path location executable contents before after) :
    after.stat path = .ok (.file contents executable) := by
  unfold stat
  rw [written.find_eq]
  rfl

/-- What was written is read. -/
theorem openSource_eq (written : Written path location executable contents before after) :
    after.openSource path = .ok ⟨contents, none⟩ := by
  unfold openSource
  rw [written.stat_eq]
  rfl

theorem write_before (written : Written path location executable contents before after)
    (other : List UInt8) :
    before.write path other = .ok (before.put location (.file other executable)) := by
  unfold write
  rw [written.leads]
  rcases written.rewritten.earlier with ⟨old, standing⟩ | ⟨vacant, rfl⟩
  · rw [placeAt_of_some standing]
    rfl
  · rw [placeAt_of_none vacant]
    rfl

theorem write_after (written : Written path location executable contents before after)
    (other : List UInt8) :
    after.write path other = .ok (after.put location (.file other executable)) := by
  unfold write
  rw [written.rewritten.resolve_after written.leads]
  rfl

end Written

/-- Of two contents that are written one after the other, nothing is left of the first. -/
theorem write_write {tree between : FileTree} {path : Path} {first : List UInt8}
    (wrote : tree.write path first = .ok between) (second : List UInt8) :
    between.write path second = tree.write path second := by
  obtain ⟨location, executable, written⟩ := written_of_write wrote
  have put := written.write_before first
  rw [wrote, Except.ok.injEq] at put
  rw [written.write_after second, written.write_before second, put, put_put]

/-! ## Files written over and over -/

/-- The tree with the contents of a file written over. The file keeps its mode. -/
def overwrite (tree : FileTree) (location : Location) (contents : List UInt8) : FileTree :=
  tree.put location (.file contents (tree.isExecutableAt location))

section Overwrite

variable {tree : FileTree} {location place : Location} {contents more old : List UInt8}
  {executable : Bool}

theorem isExecutableAt_overwrite (tree : FileTree) (proper : location ≠ [])
    (contents : List UInt8) (place : Location) :
    (tree.overwrite location contents).isExecutableAt place = tree.isExecutableAt place := by
  by_cases here : place = location
  · subst here
    exact isExecutableAt_of_file (get?_put_self tree _ proper)
  · rw [isExecutableAt, overwrite, get?_put_of_ne tree _ here]
    rfl

theorem exists_file_overwrite (proper : location ≠ []) (contents : List UInt8)
    (standing : tree.get? place = some (.file old executable)) :
    ∃ new mode, (tree.overwrite location contents).get? place = some (.file new mode) := by
  by_cases here : place = location
  · subst here
    exact ⟨_, _, get?_put_self tree _ proper⟩
  · exact ⟨old, executable, (get?_put_of_ne tree _ here).trans standing⟩

/-- Of two contents that are written one after the other, the later stay. -/
theorem overwrite_overwrite (tree : FileTree) (proper : location ≠ [])
    (contents more : List UInt8) :
    (tree.overwrite location contents).overwrite location more = tree.overwrite location more := by
  rw [overwrite, isExecutableAt_overwrite tree proper, overwrite, put_put]
  rfl

/-- Files in different places may be written over in any order. -/
theorem overwrite_comm (different : location ≠ place) (proper : place ≠ [])
    (standing : tree.get? location = some (.file old executable)) (contents more : List UInt8) :
    (tree.overwrite location contents).overwrite place more =
      (tree.overwrite place more).overwrite location contents := by
  have properHere := proper_of_free (Or.inr ⟨old, executable, standing⟩)
  rw [overwrite, isExecutableAt_overwrite tree properHere, overwrite,
    put_comm different standing properHere, overwrite, isExecutableAt_overwrite tree proper]
  rfl

/-- A file that is written over with what it holds stays as it is. -/
theorem overwrite_self (standing : tree.get? location = some (.file contents executable)) :
    tree.overwrite location contents = tree := by
  have proper := proper_of_free (Or.inr ⟨contents, executable, standing⟩)
  rw [overwrite, isExecutableAt_of_file standing, put_self standing proper]

end Overwrite

/-- The tree with files written over, one after the other. -/
def overwriteAll (tree : FileTree) (writes : List (Location × List UInt8)) : FileTree :=
  writes.foldl (fun tree write => tree.overwrite write.1 write.2) tree

/-- What is written to a place is of no effect if something is written there later. -/
theorem overwriteAll_overwrite {tree : FileTree} {writes : List (Location × List UInt8)}
    {place : Location} {old : List UInt8} {executable : Bool}
    (proper : ∀ write ∈ writes, write.1 ≠ []) (later : place ∈ writes.map Prod.fst)
    (standing : tree.get? place = some (.file old executable)) (contents : List UInt8) :
    (tree.overwrite place contents).overwriteAll writes = tree.overwriteAll writes := by
  induction writes generalizing tree old executable with
  | nil => exact absurd later List.not_mem_nil
  | cons write writes inductionHypothesis =>
      rw [List.forall_mem_cons] at proper
      unfold overwriteAll
      rw [List.foldl_cons, List.foldl_cons]
      by_cases here : place = write.1
      · subst here
        rw [overwrite_overwrite tree proper.1]
      · have still : place ∈ writes.map Prod.fst := (List.mem_cons.mp later).resolve_left here
        obtain ⟨new, mode, standingStill⟩ := exists_file_overwrite proper.1 write.2 standing
        rw [overwrite_comm here proper.1 standing]
        exact inductionHypothesis proper.2 still standingStill

/-- Files that are written over, each at last with what it holds, stay as they are. -/
theorem overwriteAll_self {tree : FileTree} {writes : List (Location × List UInt8)}
    (standing : ∀ write ∈ writes, ∃ old executable,
      tree.get? write.1 = some (.file old executable))
    (last : ∀ earlier write later, writes = earlier ++ write :: later →
      write.1 ∉ later.map Prod.fst →
      ∃ executable, tree.get? write.1 = some (.file write.2 executable)) :
    tree.overwriteAll writes = tree := by
  induction writes with
  | nil => rfl
  | cons write writes inductionHypothesis =>
      rw [List.forall_mem_cons] at standing
      obtain ⟨old, executable, here⟩ := standing.1
      have rest := inductionHypothesis standing.2 fun earlier other later split =>
        last (write :: earlier) other later (by rw [split]; rfl)
      have first : tree.overwriteAll (write :: writes) =
          (tree.overwrite write.1 write.2).overwriteAll writes := rfl
      rw [first]
      by_cases again : write.1 ∈ writes.map Prod.fst
      · have proper : ∀ other ∈ writes, other.1 ≠ [] := by
          intro other member
          obtain ⟨contents, mode, isFile⟩ := standing.2 other member
          exact proper_of_free (Or.inr ⟨contents, mode, isFile⟩)
        rw [overwriteAll_overwrite proper again here, rest]
      · obtain ⟨mode, holds⟩ := last [] write writes rfl again
        rw [overwrite_self holds, rest]

end FaultDrill.FileTree
