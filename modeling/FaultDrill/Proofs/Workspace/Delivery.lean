import FaultDrill.Proofs.Workspace.Writing

/-!
Files written one after the other below a directory, by whatever relative paths.

Owns:
- what the writing of one file does, whether it succeeds or fails;
- what the writing of many files leaves, up to the first that cannot be written;
- the writing of files that have been written before.

Main statement: files that are written are as the last of each path brings them, and executable if
they were or if one of the path is to be; after a failure the tree is as the files before it have
left it, but for directories; and to write the same files again changes nothing
(`writeAll_delivers`).

Two paths are the same if their components are. Where the paths lead is settled in
`Proofs.FileTree.Region`.
-/

namespace FaultDrill.Artifact

open FileTree

/-- The file with the plainest path that has the same components. -/
def normalized (artifact : Artifact) : Artifact :=
  { artifact with path := artifact.path.normalized }

@[simp] theorem steps_normalized (artifact : Artifact) :
    artifact.normalized.path.steps = artifact.path.components := artifact.path.steps_normalized

@[simp] theorem bytes_normalized (artifact : Artifact) :
    artifact.normalized.bytes = artifact.bytes := rfl

@[simp] theorem executable_normalized (artifact : Artifact) :
    artifact.normalized.executable = artifact.executable := rfl

/-! ## One file -/

/-- The path of a file leads to a file, which is executable if it is to be. -/
def Settled (tree : FileTree) (root : Path) (location : Location) (artifact : Artifact) : Prop :=
  ∃ contents executable,
    tree.resolve .newFile (root.join artifact.path) =
      .ok (.entry (location ++ artifact.path.components) (.file contents executable)) ∧
    (artifact.executable = true → executable = true)

section Single

variable {tree after : FileTree} {root : Path} {location : Location} {artifact : Artifact}

theorem Settled.kept (settled : Settled tree root location artifact) (kept : Kept tree after) :
    Settled after root location artifact := by
  obtain ⟨contents, executable, leads, marked⟩ := settled
  obtain ⟨more, mode, leadsStill, stays⟩ := kept.resolve_file leads
  exact ⟨more, mode, leadsStill, fun toBe => stays (marked toBe)⟩

theorem Settled.standing (settled : Settled tree root location artifact) :
    ∃ contents, tree.get? (location ++ artifact.path.components) =
      some (.file contents (tree.isExecutableAt (location ++ artifact.path.components))) := by
  obtain ⟨contents, executable, leads, -⟩ := settled
  have standing : tree.get? (location ++ artifact.path.components) =
      some (.file contents executable) := stands_of_resolve leads (by simp)
  exact ⟨contents, by rw [standing, isExecutableAt_of_file standing]⟩

theorem Settled.stat_eq (settled : Settled tree root location artifact) {entry : Entry}
    (standing : tree.get? (location ++ artifact.path.components) = some entry) :
    tree.stat (root.join artifact.path) = .ok entry := by
  obtain ⟨contents, executable, leads, -⟩ := settled
  have isFile : tree.get? (location ++ artifact.path.components) =
      some (.file contents executable) := stands_of_resolve leads (by simp)
  rw [isFile] at standing
  cases standing
  unfold stat
  rw [find_eq_found, resolve_target_of_newFile leads]
  rfl

/-- A file that is written stands where the components of its path lead; all else is as it was,
but for directories above it. -/
theorem write_ok_of_normal (region : Region tree root location) (normal : artifact.path.Normal)
    (written : artifact.write tree root = (.ok (), after)) :
    Region after root location ∧ Kept tree after ∧ Wrote location artifact.normalized tree after ∧
      Settled after root location artifact := by
  have below := Path.below_join root normal.relative
  obtain ⟨between, parent, contents⟩ := write_ok_iff.mp written
  have paved := paved_makeParent region below normal.somewhere normal.level
  rw [parent] at paved
  dsimp only at paved
  have regionBetween := region.paved paved
  obtain ⟨rfl, last, wrote⟩ := artifact.writeContents_in_region regionBetween below
    normal.somewhere normal.level contents
  have free := wrote.rewritten.free
  have stays : between.isExecutableAt (location ++ artifact.path.components) = true →
      (between.isExecutableAt (location ++ artifact.path.components) ||
        artifact.executable) = true := by
    intro marked
    rw [marked, Bool.true_or]
  have kept := kept_put free stays artifact.bytes
  have wroteNormalized := artifact.normalized.wrote_of_paved
    (by rw [steps_normalized]; exact normal.somewhere) (by rw [steps_normalized]; exact paved)
  simp only [steps_normalized, bytes_normalized, executable_normalized] at wroteNormalized
  have leads := kept.resolve_file_at (get?_put_self between _ (proper_of_free free)) free
    wrote.leads
  have settled : Settled _ root location artifact :=
    ⟨_, _, leads, fun toBe => by rw [toBe, Bool.or_true]⟩
  exact ⟨regionBetween.put_file free stays artifact.bytes, paved.kept.trans kept,
    wroteNormalized, settled⟩

/-- After a failure to write a file, only directories on the way to it are new. -/
theorem paved_of_write_error (region : Region tree root location) (normal : artifact.path.Normal)
    {error : ComposeError} (failed : artifact.write tree root = (.error error, after)) :
    Paved location artifact.path.components.dropLast tree after := by
  unfold write at failed
  dsimp only at failed
  have paved := paved_makeParent region (Path.below_join root normal.relative) normal.somewhere
    normal.level
  rcases parent : makeParent tree (root.join artifact.path) with ⟨result, between⟩
  rw [parent] at paved failed
  dsimp only at paved
  cases result with
  | error cause =>
      cases failed
      exact paved
  | ok done =>
      dsimp only at failed
      rcases artifact.writeContents_outcome between (root.join artifact.path) with
        ⟨cause, -, fails⟩ | ⟨place, executable, last, wrote, succeeds⟩
      · rw [fails] at failed
        cases failed
        exact paved
      · rw [succeeds] at failed
        cases failed

/-- A file that its path leads to is written over, and nothing else happens. -/
theorem write_of_settled (normal : artifact.path.Normal)
    (settled : Settled tree root location artifact) :
    artifact.write tree root =
      (.ok (), tree.overwrite (location ++ artifact.path.components) artifact.bytes) := by
  obtain ⟨contents, mode, leads, marked⟩ := settled
  have components : (root.join artifact.path).components =
      (root.components ++ artifact.path.components.dropLast) ++
        [artifact.path.components.getLast normal.somewhere] := by
    rw [Path.components_join root normal.relative, List.append_assoc,
      List.dropLast_concat_getLast]
  obtain ⟨parent, isParent, there⟩ := isDirectory_parent components leads
  have parentMade : makeParent tree (root.join artifact.path) = (.ok (), tree) := by
    unfold makeParent
    rw [isParent]
    dsimp only
    rw [makeDirectories_of_isDirectory there]
  refine write_ok_iff.mpr ⟨tree, parentMade, ?_⟩
  rcases artifact.writeContents_outcome tree (root.join artifact.path) with
    ⟨cause, fails, -⟩ | ⟨place, executable, last, wrote, succeeds⟩
  · unfold FileTree.write at fails
    rw [leads] at fails
    cases fails
  · have here := wrote.leads
    rw [leads, Except.ok.injEq] at here
    obtain ⟨rfl, standing⟩ := placeAt_eq_entry_iff.mp here.symm
    have modeEq := isExecutableAt_of_file standing
    rw [wrote.rewritten.isExecutableAt_eq] at modeEq
    subst modeEq
    have same : (executable || artifact.executable) = executable := by
      cases executable with
      | true => rfl
      | false => exact Bool.eq_false_iff.mpr fun toBe => absurd (marked toBe) (by simp)
    rw [succeeds, same, overwrite, wrote.rewritten.isExecutableAt_eq]

end Single

/-! ## Many files -/

section Many

variable {tree after : FileTree} {root : Path} {location : Location} {artifacts : List Artifact}

theorem writeAll_ok_of_normal (region : Region tree root location)
    (normal : ∀ artifact ∈ artifacts, artifact.path.Normal)
    (written : writeAll tree root artifacts = (.ok (), after)) :
    Region after root location ∧ Kept tree after ∧
      Filled location (artifacts.map normalized) tree after ∧
      ∀ artifact ∈ artifacts, Settled after root location artifact := by
  induction artifacts generalizing tree with
  | nil =>
      cases written
      exact ⟨region, .refl _, .nil location _, fun _ member => absurd member List.not_mem_nil⟩
  | cons artifact artifacts inductionHypothesis =>
      rw [List.forall_mem_cons] at normal
      obtain ⟨between, first, rest⟩ := writeAll_cons_ok_iff.mp written
      obtain ⟨regionBetween, keptFirst, wrote, settled⟩ :=
        write_ok_of_normal region normal.1 first
      obtain ⟨regionAfter, kept, filled, allSettled⟩ :=
        inductionHypothesis regionBetween normal.2 rest
      refine ⟨regionAfter, keptFirst.trans kept, filled.cons wrote, ?_⟩
      rw [List.forall_mem_cons]
      exact ⟨settled.kept kept, allSettled⟩

/-- A failure is that of the first file that cannot be written. -/
theorem exists_of_writeAll_error {error : ComposeError}
    (failed : writeAll tree root artifacts = (.error error, after)) :
    ∃ earlier failing later between, artifacts = earlier ++ failing :: later ∧
      writeAll tree root earlier = (.ok (), between) ∧
      failing.write between root = (.error error, after) := by
  induction artifacts generalizing tree with
  | nil => cases failed
  | cons artifact artifacts inductionHypothesis =>
      unfold writeAll at failed
      rcases first : artifact.write tree root with ⟨result, between⟩
      rw [first] at failed
      cases result with
      | error cause =>
          cases failed
          exact ⟨[], artifact, artifacts, tree, rfl, rfl, first⟩
      | ok done =>
          obtain ⟨earlier, failing, later, last, rfl, written, fails⟩ := inductionHypothesis failed
          have writtenAll := writeAll_cons_ok_iff.mpr ⟨between, first, written⟩
          exact ⟨artifact :: earlier, failing, later, last, rfl, writtenAll, fails⟩

/-- What the files write, and where. -/
def writes (location : Location) (artifacts : List Artifact) : List (Location × List UInt8) :=
  artifacts.map fun artifact => (location ++ artifact.path.components, artifact.bytes)

/-- Files that are there are written over, and nothing else happens. -/
theorem writeAll_of_settled (normal : ∀ artifact ∈ artifacts, artifact.path.Normal)
    (settled : ∀ artifact ∈ artifacts, Settled tree root location artifact) :
    writeAll tree root artifacts = (.ok (), tree.overwriteAll (writes location artifacts)) := by
  induction artifacts generalizing tree with
  | nil => rfl
  | cons artifact artifacts inductionHypothesis =>
      rw [List.forall_mem_cons] at normal settled
      obtain ⟨contents, standing⟩ := settled.1.standing
      have kept := kept_put (Or.inr ⟨contents, _, standing⟩) id artifact.bytes
      have rest := inductionHypothesis normal.2 fun other member =>
        (settled.2 other member).kept kept
      exact writeAll_cons_ok_iff.mpr ⟨_, write_of_settled normal.1 settled.1, rest⟩

end Many

/-! ## Deliveries -/

/-- Files have been written below a location, one after the other, by paths from a root that leads
there. -/
structure Delivered (root : Path) (location : Location) (artifacts : List Artifact)
    (before after : FileTree) : Prop where
  base : after.base = before.base
  /-- Each path leads to what stands where its components lead. -/
  leads : ∀ artifact ∈ artifacts, ∃ entry,
    after.get? (location ++ artifact.path.components) = some entry ∧
      after.stat (root.join artifact.path) = .ok entry
  /-- The last file with a path says what stands there; it is executable if one was before or if
  any file with this path is to be. -/
  file : ∀ earlier artifact later, artifacts = earlier ++ artifact :: later →
    (∀ other ∈ later, other.path.components ≠ artifact.path.components) →
    after.get? (location ++ artifact.path.components) =
      some (.file artifact.bytes
        (before.isExecutableAt (location ++ artifact.path.components) ||
          artifacts.any fun other =>
            other.path.components = artifact.path.components && other.executable))
  /-- Elsewhere nothing has changed but for new directories above the files. -/
  elsewhere : ∀ place, (∀ artifact ∈ artifacts, place ≠ location ++ artifact.path.components) →
    after.get? place = before.get? place ∨
      ∃ artifact ∈ artifacts, Added location artifact.path.components before after place

theorem delivered_of_writeAll {tree after : FileTree} {root : Path} {location : Location}
    {artifacts : List Artifact} (region : Region tree root location)
    (normal : ∀ artifact ∈ artifacts, artifact.path.Normal)
    (written : writeAll tree root artifacts = (.ok (), after)) :
    Delivered root location artifacts tree after := by
  obtain ⟨-, -, filled, settled⟩ := writeAll_ok_of_normal region normal written
  refine ⟨filled.base, fun artifact member => ?_, ?_, fun place apart => ?_⟩
  · obtain ⟨contents, standing⟩ := (settled artifact member).standing
    exact ⟨_, standing, (settled artifact member).stat_eq standing⟩
  · intro earlier artifact later split last
    have file := filled.file (earlier.map normalized) artifact.normalized (later.map normalized)
      (by rw [split, List.map_append, List.map_cons])
      (by simpa using last)
    simpa [List.any_map, Function.comp_def] using file
  · have others := filled.elsewhere place (by simpa using apart)
    simpa using others

/-- To write the same files again changes nothing. -/
theorem writeAll_again {tree after : FileTree} {root : Path} {location : Location}
    {artifacts : List Artifact} (region : Region tree root location)
    (normal : ∀ artifact ∈ artifacts, artifact.path.Normal)
    (written : writeAll tree root artifacts = (.ok (), after)) :
    writeAll after root artifacts = (.ok (), after) := by
  obtain ⟨-, -, -, settled⟩ := writeAll_ok_of_normal region normal written
  have delivered := delivered_of_writeAll region normal written
  rw [writeAll_of_settled normal settled, overwriteAll_self]
  · intro write member
    obtain ⟨artifact, isArtifact, rfl⟩ := List.mem_map.mp member
    obtain ⟨contents, standing⟩ := (settled artifact isArtifact).standing
    exact ⟨contents, _, standing⟩
  · intro earlier write later split last
    obtain ⟨front, back, rfl, rfl, backMap⟩ := List.map_eq_append_iff.mp split
    obtain ⟨artifact, rest, rfl, rfl, rfl⟩ := List.map_eq_cons_iff.mp backMap
    refine ⟨_, delivered.file front artifact rest rfl fun other member same => last ?_⟩
    rw [List.map_map]
    exact List.mem_map.mpr ⟨other, member, by simp [same]⟩

/-- Files that can all be written below a directory are delivered, and writing them again succeeds
and changes nothing. If one cannot be written, those before it are delivered, none after it is
written, and all else that is new are directories above it. -/
theorem writeAll_delivers (tree : FileTree) (root : Path) (location : Location)
    (artifacts : List Artifact) (region : Region tree root location)
    (normal : ∀ artifact ∈ artifacts, artifact.path.Normal) :
    (∀ after, writeAll tree root artifacts = (.ok (), after) →
      Delivered root location artifacts tree after ∧
        writeAll after root artifacts = (.ok (), after)) ∧
    ∀ error after, writeAll tree root artifacts = (.error error, after) →
      ∃ earlier failing later between, artifacts = earlier ++ failing :: later ∧
        writeAll tree root earlier = (.ok (), between) ∧
        Delivered root location earlier tree between ∧
        failing.write between root = (.error error, after) ∧
        Paved location failing.path.components.dropLast between after := by
  constructor
  · intro after written
    exact ⟨delivered_of_writeAll region normal written, writeAll_again region normal written⟩
  · intro error after failed
    obtain ⟨earlier, failing, later, between, rfl, written, fails⟩ :=
      exists_of_writeAll_error failed
    have normalEarlier : ∀ artifact ∈ earlier, artifact.path.Normal :=
      fun artifact member => normal artifact (List.mem_append_left _ member)
    obtain ⟨regionBetween, -⟩ := writeAll_ok_of_normal region normalEarlier written
    exact ⟨earlier, failing, later, between, rfl, written,
      delivered_of_writeAll region normalEarlier written, fails,
      paved_of_write_error regionBetween (normal failing (by simp)) fails⟩

/-- Into a directory behind a link, which holds an executable file, that file and two versions of
another are written. Of two more files the first cannot be written, and the second is not. -/
theorem writeAll_delivers_of_versions :
    let tree : FileTree := { entries := [
      (["ws"], .directory), (["ws", "run"], .file [0] true), (["link"], .link ⟨"./ws/"⟩)] }
    let root : Path := ⟨"link"⟩
    let artifacts : List Artifact := [
      ⟨⟨"run"⟩, "1", false⟩, ⟨⟨"bin//go"⟩, "2", true⟩, ⟨⟨"bin/./go"⟩, "3", false⟩]
    let more : List Artifact := [⟨⟨"new/dir/"⟩, "4", false⟩, ⟨⟨"last"⟩, "5", false⟩]
    let after := (writeAll tree root artifacts).2
    let failed := writeAll tree root (artifacts ++ more)
    (Delivered root ["ws"] artifacts tree after ∧
      writeAll after root artifacts = (.ok (), after) ∧
      after.get? ["ws", "run"] = some (.file [49] true) ∧
      after.get? ["ws", "bin", "go"] = some (.file [51] true)) ∧
    (∃ earlier failing later between, artifacts ++ more = earlier ++ failing :: later ∧
      Delivered root ["ws"] earlier tree between ∧
      Paved ["ws"] failing.path.components.dropLast between failed.2) ∧
    failed = (.error (.file ⟨"link/new/dir/"⟩ .isDirectory), after.put ["ws", "new"] .directory) := by
  intro tree root artifacts more after failed
  have region : Region tree root ["ws"] :=
    ⟨by decide +kernel, by decide +kernel, linkless_of_entries (by simp [tree])⟩
  have succeeds : writeAll tree root artifacts = (.ok (), after) := by decide +kernel
  have fails : failed = (.error (.file ⟨"link/new/dir/"⟩ .isDirectory),
      after.put ["ws", "new"] .directory) := by decide +kernel
  obtain ⟨delivered, again⟩ :=
    (writeAll_delivers tree root ["ws"] artifacts region (by decide +kernel)).1 after succeeds
  obtain ⟨earlier, failing, later, between, split, -, deliveredEarlier, -, paved⟩ :=
    (writeAll_delivers tree root ["ws"] (artifacts ++ more) region (by decide +kernel)).2 _ _ fails
  rw [fails]
  exact ⟨⟨delivered, again, by decide +kernel, by decide +kernel⟩,
    ⟨earlier, failing, later, between, split, deliveredEarlier, paved⟩, rfl⟩

end FaultDrill.Artifact
