import FaultDrill.Compile
import FaultDrill.Proofs.FileTree.Writing
import FaultDrill.Proofs.Plan

/-!
What stands in a directory once files have been written there, one after the other.

Owns:
- what the writing of a file does, by whatever path that goes down from the directory;
- what the writing of a list of files by plain names does, some of which may go to the same place.

Main statement: if all files can be written, each place holds what the last file that goes there
brings, and is executable if it was or if any file that goes there is to be; at all other places
nothing has changed but for new directories on the way to a file (`writeAll_ok`).
-/

namespace FaultDrill.Artifact

open FileTree
open Path (PlainName)

/-- The bytes of a file. -/
def bytes (artifact : Artifact) : List UInt8 := Text.Utf8.encode artifact.contents.toList

/-- A file has been written below a location, with the directories above it as needed, and nothing
else has changed. -/
structure Wrote (location : Location) (artifact : Artifact) (tree after : FileTree) : Prop where
  base : after.base = tree.base
  file : after.get? (location ++ artifact.path.steps) =
    some (.file artifact.bytes
      (tree.isExecutableAt (location ++ artifact.path.steps) || artifact.executable))
  elsewhere : ∀ place, place ≠ location ++ artifact.path.steps →
    after.get? place = tree.get? place ∨ Added location artifact.path.steps tree after place

section Single

variable {ground tree between after : FileTree} {root path : Path} {location : Location}
  {names : List String}

/-- However the making of its directory ends, directories have been made on the way to a file and
nothing else has changed. -/
theorem paved_makeParent (region : Region tree root location)
    (below : Path.Below root names path) (proper : names ≠ []) (level : ".." ∉ names) :
    Paved location names.dropLast tree (makeParent tree path).2 := by
  obtain ⟨front, last, rfl⟩ : ∃ front last, names = front ++ [last] :=
    ⟨names.dropLast, names.getLast proper, (List.dropLast_concat_getLast proper).symm⟩
  obtain ⟨parent, isParent, belowParent⟩ := below.parent?
  have levelFront : ".." ∉ front := fun up => level (List.mem_append_left [last] up)
  have paved := (region.pavedTo_makeDirectories belowParent levelFront).paved
  unfold makeParent
  rw [isParent, List.dropLast_concat]
  dsimp only
  generalize tree.makeDirectories parent = outcome at paved ⊢
  obtain ⟨result, between⟩ := outcome
  cases result <;> exact paved

theorem makeParent_ok (area : Area ground tree root location) (below : names ≠ [])
    (plain : ∀ step ∈ names, PlainName step)
    (made : makeParent tree (root.descend names) = (.ok (), after)) :
    Paved location names.dropLast tree after := by
  have paved := paved_makeParent area.region (Path.below_descend root plain) below
    (Path.level_of_plain plain)
  rwa [made] at paved

/-- If the contents of a file cannot be written, nothing is written; else a file stands where its
path leads. -/
theorem writeContents_outcome (artifact : Artifact) (tree : FileTree) (path : Path) :
    (∃ cause, tree.write path artifact.bytes = .error cause ∧
      artifact.writeContents tree path = (.error (.file path cause), tree)) ∨
    ∃ place executable between, Written path place executable artifact.bytes tree between ∧
      artifact.writeContents tree path = (.ok (),
        tree.put place (.file artifact.bytes (executable || artifact.executable))) := by
  unfold writeContents
  rw [← bytes]
  cases wrote : tree.write path artifact.bytes with
  | error cause => exact Or.inl ⟨cause, rfl, rfl⟩
  | ok between =>
      obtain ⟨place, executable, written⟩ := written_of_write wrote
      have put := written.write_before artifact.bytes
      rw [wrote, Except.ok.injEq] at put
      refine Or.inr ⟨place, executable, between, written, ?_⟩
      dsimp only
      by_cases marked : artifact.executable = true
      · have made : between.makeExecutable path =
            .ok (between.put place (.file artifact.bytes true)) := by
          unfold FileTree.makeExecutable
          rw [written.find_eq]
          rfl
        rw [if_pos marked, made, marked, Bool.or_true, put, put_put]
      · rw [if_neg marked, Bool.eq_false_iff.mpr marked, Bool.or_false, put]

/-- The contents of a file are written where the components of its path lead. -/
theorem writeContents_in_region (artifact : Artifact) (region : Region tree root location)
    (below : Path.Below root names path) (proper : names ≠ []) (level : ".." ∉ names)
    (written : artifact.writeContents tree path = (.ok (), after)) :
    after = tree.put (location ++ names)
        (.file artifact.bytes
          (tree.isExecutableAt (location ++ names) || artifact.executable)) ∧
      ∃ between, Written path (location ++ names) (tree.isExecutableAt (location ++ names))
        artifact.bytes tree between := by
  rcases artifact.writeContents_outcome tree path with
    ⟨cause, -, fails⟩ | ⟨place, executable, between, wrote, succeeds⟩
  · rw [fails] at written
    cases written
  · obtain ⟨rfl, rfl⟩ := region.written_eq below proper level wrote
    rw [succeeds] at written
    cases written
    exact ⟨rfl, between, wrote⟩

theorem writeContents_ok (artifact : Artifact) (area : Area ground tree root location)
    (below : names ≠ []) (plain : ∀ step ∈ names, PlainName step)
    (written : artifact.writeContents tree (root.descend names) = (.ok (), after)) :
    Area ground after root location ∧
      after = tree.put (location ++ names)
        (.file artifact.bytes
          (tree.isExecutableAt (location ++ names) || artifact.executable)) := by
  obtain ⟨rfl, between, wrote⟩ := artifact.writeContents_in_region area.region
    (Path.below_descend root plain) below (Path.level_of_plain plain) written
  exact ⟨area.put_file below wrote.rewritten.free _ _, rfl⟩

/-- A file is put in a directory, which has been made with those above it as needed. -/
theorem wrote_of_paved (artifact : Artifact) (below : artifact.path.steps ≠ [])
    (paved : Paved location artifact.path.steps.dropLast tree between) :
    Wrote location artifact tree
      (between.put (location ++ artifact.path.steps)
        (.file artifact.bytes
          (between.isExecutableAt (location ++ artifact.path.steps) || artifact.executable))) where
  base := paved.base
  file := by
    rw [get?_put_self between _ (by simp [below])]
    unfold isExecutableAt
    rw [paved.get?_last below]
  elsewhere := by
    intro place apart
    rw [get?_put_of_ne between _ apart]
    rcases (paved.mono (List.dropLast_prefix artifact.path.steps)).get? place with
      same | ⟨vacant, made, onTheWay⟩
    · exact Or.inl same
    · exact Or.inr ⟨vacant, (get?_put_of_ne between _ apart).trans made, onTheWay⟩

theorem write_ok (artifact : Artifact) (area : Area ground tree root location)
    (inner : Inner artifact.path) (written : artifact.write tree root = (.ok (), after)) :
    Area ground after root location ∧ Wrote location artifact tree after := by
  have below := inner.steps_ne_nil
  have plain := inner.plain
  obtain ⟨between, parent, contents⟩ := write_ok_iff.mp written
  rw [inner.join_eq root] at parent contents
  have paved := makeParent_ok area below plain parent
  obtain ⟨areaAfter, rfl⟩ := writeContents_ok artifact (area.paved paved) below plain contents
  exact ⟨areaAfter, artifact.wrote_of_paved below paved⟩

end Single

/-! ## Many files -/

/-- Files have been written below a location, one after the other. -/
structure Filled (location : Location) (artifacts : List Artifact) (tree after : FileTree) :
    Prop where
  base : after.base = tree.base
  /-- The last file that goes to a place says what the place holds. -/
  file : ∀ earlier artifact later, artifacts = earlier ++ artifact :: later →
    (∀ other ∈ later, other.path.steps ≠ artifact.path.steps) →
    after.get? (location ++ artifact.path.steps) =
      some (.file artifact.bytes
        (tree.isExecutableAt (location ++ artifact.path.steps) ||
          artifacts.any fun other =>
            other.path.steps = artifact.path.steps && other.executable))
  elsewhere : ∀ place, (∀ artifact ∈ artifacts, place ≠ location ++ artifact.path.steps) →
    after.get? place = tree.get? place ∨
      ∃ artifact ∈ artifacts, Added location artifact.path.steps tree after place

/-- A file is executable if it was, or if a file that was written in its place is. -/
theorem Wrote.isExecutableAt {location : Location} {artifact : Artifact} {tree after : FileTree}
    (wrote : Wrote location artifact tree after) (names : List String) :
    after.isExecutableAt (location ++ names) =
      (tree.isExecutableAt (location ++ names) ||
        (artifact.path.steps = names && artifact.executable)) := by
  by_cases here : artifact.path.steps = names
  · subst here
    rw [FileTree.isExecutableAt, wrote.file]
    simp
  · have apart : location ++ names ≠ location ++ artifact.path.steps :=
      fun same => here (List.append_cancel_left same).symm
    unfold FileTree.isExecutableAt
    rcases wrote.elsewhere _ apart with same | ⟨vacant, made, -⟩
    · simp [same, here]
    · simp [vacant, made, here]

namespace Filled

variable {location : Location} {artifact : Artifact} {artifacts : List Artifact}
  {tree between after : FileTree}

theorem nil (location : Location) (tree : FileTree) : Filled location [] tree tree where
  base := rfl
  file := fun earlier artifact later split => by simp at split
  elsewhere := fun _ _ => Or.inl rfl

theorem cons (wrote : Wrote location artifact tree between)
    (filled : Filled location artifacts between after) :
    Filled location (artifact :: artifacts) tree after where
  base := filled.base.trans wrote.base
  file := by
    intro earlier last later split none
    rcases List.append_eq_cons_iff.mp split.symm with ⟨rfl, here⟩ | ⟨between, rfl, rest⟩
    · -- The file is the last that goes to its place: what comes later leaves it as it is.
      cases here
      have kept : after.get? (location ++ artifact.path.steps) =
          between.get? (location ++ artifact.path.steps) := by
        rcases filled.elsewhere _ fun other member same =>
          none other member (List.append_cancel_left same).symm with same | ⟨_, -, vacant, -, -⟩
        · exact same
        · rw [wrote.file] at vacant
          cases vacant
      have alone : (artifacts.any fun other =>
          other.path.steps = artifact.path.steps && other.executable) = false := by
        rw [List.any_eq_false]
        intro other member
        simp [none other member]
      rw [kept, wrote.file, List.any_cons, alone, Bool.or_false]
      simp
    · rw [filled.file _ last later rest none, wrote.isExecutableAt, List.any_cons]
      simp [eq_comm, Bool.or_assoc]
  elsewhere := by
    intro place apart
    rcases filled.elsewhere place fun other member =>
      apart other (List.mem_cons_of_mem artifact member) with
      same | ⟨other, member, vacant, made, onTheWay⟩
    · rcases wrote.elsewhere place (apart artifact List.mem_cons_self) with
        sameBefore | ⟨vacant, made, onTheWay⟩
      · exact Or.inl (same.trans sameBefore)
      · exact Or.inr ⟨artifact, List.mem_cons_self, vacant, same.trans made, onTheWay⟩
    · rcases wrote.elsewhere place (apart artifact List.mem_cons_self) with
        sameBefore | ⟨-, madeBefore, -⟩
      · exact Or.inr ⟨other, List.mem_cons_of_mem artifact member,
          sameBefore.symm.trans vacant, made, onTheWay⟩
      · rw [madeBefore] at vacant
        cases vacant

end Filled

/-- What the writing of files does when it succeeds. -/
theorem writeAll_ok {ground tree after : FileTree} {root : Path} {location : Location}
    {artifacts : List Artifact} (area : Area ground tree root location)
    (inner : ∀ artifact ∈ artifacts, Inner artifact.path)
    (written : writeAll tree root artifacts = (.ok (), after)) :
    Area ground after root location ∧ Filled location artifacts tree after := by
  induction artifacts generalizing tree with
  | nil =>
      cases written
      exact ⟨area, .nil location _⟩
  | cons artifact artifacts inductionHypothesis =>
      rw [List.forall_mem_cons] at inner
      obtain ⟨between, first, rest⟩ := writeAll_cons_ok_iff.mp written
      obtain ⟨areaBetween, wrote⟩ := artifact.write_ok area inner.1 first
      obtain ⟨areaAfter, filled⟩ := inductionHypothesis areaBetween inner.2 rest
      exact ⟨areaAfter, filled.cons wrote⟩

end FaultDrill.Artifact
