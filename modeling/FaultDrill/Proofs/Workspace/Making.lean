import FaultDrill.Proofs.FileTree.Passage
import FaultDrill.Proofs.Workspace.Contents

/-!
The tree that a compilation leaves.

Owns:
- the shape of the ways to the files of a workspace;
- well-formed trees, which files that are written keep well formed;
- paths of files that have been written, which are short enough;
- all that is known of a tree once a workspace has been made in it (`Compiled`).

Main statements: every entry of the tree that a compilation leaves is in a directory, however it
ends (`WellFormed.compileTree`), and a compilation that succeeds has filled its new directory
(`compile_ok_compiled`).
-/

namespace FaultDrill

open FileTree

/-! ## Places of files -/

namespace Scenario

variable {scenario : Scenario} {run : RunId}

/-- Apart from the manifest, every file is in a context. -/
theorem steps_of_mem {artifact : Artifact} (member : artifact ∈ scenario.artifacts run) :
    artifact.path.steps = [Naming.manifestFile] ∨
      ∃ context file, artifact.path.steps = Naming.journeysDirectory :: (context ++ [file]) ∧
        (file = Naming.recipeFile ∨ file = Naming.scriptFile) ∧
        (context = [Naming.baseDirectory] ∨
          ∃ journey ∈ scenario.journeys, context = Naming.contextNames journey.name) := by
  rcases mem_artifacts_iff.mp member with rfl | ⟨journey, isJourney, rfl | rfl⟩ | rfl
  · right
    exact ⟨[Naming.baseDirectory], Naming.recipeFile, Artifact.steps_base, Or.inl rfl, Or.inl rfl⟩
  · right
    exact ⟨_, _, Artifact.steps_recipe run journey.name, Or.inl rfl,
      Or.inr ⟨journey, isJourney, rfl⟩⟩
  · right
    exact ⟨_, _, Artifact.steps_script journey, Or.inr rfl, Or.inr ⟨journey, isJourney, rfl⟩⟩
  · left
    exact Artifact.steps_manifest scenario run

theorem length_context_le {context : List String}
    (inContext : context = [Naming.baseDirectory] ∨
      ∃ journey ∈ scenario.journeys, context = Naming.contextNames journey.name) :
    context.length ≤ 1 := by
  rcases inContext with rfl | ⟨journey, -, rfl⟩
  · exact Nat.le_refl 1
  · unfold Naming.contextNames
    split
    · exact Nat.zero_le 1
    · exact Nat.le_refl 1

theorem length_steps_le {artifact : Artifact} (member : artifact ∈ scenario.artifacts run) :
    artifact.path.steps.length ≤ 3 := by
  rcases steps_of_mem member with manifest | ⟨context, file, steps, -, inContext⟩
  · rw [manifest]
    decide
  · have single := length_context_le inContext
    rw [steps]
    simp only [List.length_cons, List.length_append, List.length_nil]
    omega

end Scenario

/-! ## Well-formed trees -/

namespace FileTree.WellFormed

variable {tree : FileTree} (wellFormed : tree.WellFormed)
include wellFormed

theorem makeParent (path : Path) : (Artifact.makeParent tree path).2.WellFormed := by
  unfold Artifact.makeParent
  split
  · exact wellFormed
  · next parent _ =>
      have made := wellFormed.makeDirectories parent
      generalize tree.makeDirectories parent = outcome at made ⊢
      obtain ⟨result, after⟩ := outcome
      cases result with
      | error cause => exact made
      | ok done => exact made

theorem writeContents (artifact : Artifact) (path : Path) :
    (artifact.writeContents tree path).2.WellFormed := by
  unfold Artifact.writeContents
  split
  · exact wellFormed
  · next after written =>
      have kept := wellFormed.write written
      split
      · split
        · exact kept
        · next made => exact kept.makeExecutable made
      · exact kept

theorem writeArtifact (artifact : Artifact) (root : Path) :
    (artifact.write tree root).2.WellFormed := by
  have parent := wellFormed.makeParent (root.join artifact.path)
  unfold Artifact.write
  dsimp only
  generalize Artifact.makeParent tree (root.join artifact.path) = outcome at parent ⊢
  obtain ⟨result, after⟩ := outcome
  cases result with
  | error error => exact parent
  | ok done => exact parent.writeContents artifact _

theorem writeAll (root : Path) (artifacts : List Artifact) :
    (Artifact.writeAll tree root artifacts).2.WellFormed := by
  induction artifacts generalizing tree with
  | nil => exact wellFormed
  | cons artifact artifacts inductionHypothesis =>
      have first := wellFormed.writeArtifact artifact root
      unfold Artifact.writeAll
      generalize artifact.write tree root = outcome at first ⊢
      obtain ⟨result, after⟩ := outcome
      cases result with
      | error error => exact first
      | ok done => exact inductionHypothesis first

theorem compileTree (scenario : Scenario) (root : Path) (run : RunId) :
    (scenario.compileTree tree root run).2.WellFormed := by
  unfold Scenario.compileTree
  dsimp only
  split
  · exact wellFormed
  · next new made =>
      have written := (wellFormed.makeDirectory made).writeAll (Workspace.under root run).path
        (scenario.artifacts run)
      generalize Artifact.writeAll new _ _ = outcome at written ⊢
      obtain ⟨result, after⟩ := outcome
      cases result with
      | error error => exact written
      | ok done => exact written

end FileTree.WellFormed

/-! ## Lengths -/

namespace Artifact

variable {ground tree after : FileTree} {root : Path} {location : Location}

/-- A file could only be written if its path is short enough. -/
theorem shortEnough_of_write (artifact : Artifact) (area : Area ground tree root location)
    (inner : Inner artifact.path) (written : artifact.write tree root = (.ok (), after)) :
    ShortEnough root artifact.path.steps := by
  have below := inner.steps_ne_nil
  have plain := inner.plain
  obtain ⟨between, parent, contents⟩ := write_ok_iff.mp written
  rw [inner.join_eq root] at parent contents
  have areaBetween := area.paved (makeParent_ok area below plain parent)
  rcases artifact.writeContents_outcome between (root.descend artifact.path.steps) with
    ⟨cause, -, fails⟩ | ⟨place, executable, last, wrote, -⟩
  · rw [fails] at contents
    cases contents
  · exact areaBetween.shortEnough_of_resolve below plain wrote.leads

theorem shortEnough_of_writeAll {artifacts : List Artifact}
    (area : Area ground tree root location) (inner : ∀ artifact ∈ artifacts, Inner artifact.path)
    (written : writeAll tree root artifacts = (.ok (), after)) :
    ∀ artifact ∈ artifacts, ShortEnough root artifact.path.steps := by
  induction artifacts generalizing tree with
  | nil => exact fun artifact member => absurd member List.not_mem_nil
  | cons artifact artifacts inductionHypothesis =>
      rw [List.forall_mem_cons] at inner
      obtain ⟨between, first, rest⟩ := writeAll_cons_ok_iff.mp written
      obtain ⟨areaBetween, -⟩ := artifact.write_ok area inner.1 first
      rw [List.forall_mem_cons]
      exact ⟨artifact.shortEnough_of_write area inner.1 first,
        inductionHypothesis areaBetween inner.2 rest⟩

end Artifact

/-! ## Trees with a workspace -/

/-- A workspace has been made in a directory of a tree. -/
structure Compiled (scenario : Scenario) (run : RunId) (root : Path) (directory : Location)
    (before made : FileTree) : Prop where
  site : Site before root directory (Naming.workspaceDirectory run)
  fits : ¬ TooLong root (Naming.workspaceDirectory run)
  wellFormed : made.WellFormed
  short : ∀ artifact ∈ scenario.artifacts run,
    ShortEnough (Workspace.under root run).path artifact.path.steps
  /-- The directory of the workspace is new, and no links stand in it. -/
  area : Area (before.put (directory ++ [Naming.workspaceDirectory run]) .directory) made
    (Workspace.under root run).path (directory ++ [Naming.workspaceDirectory run])
  filled : Artifact.Filled (directory ++ [Naming.workspaceDirectory run])
    (scenario.artifacts run)
    (before.put (directory ++ [Naming.workspaceDirectory run]) .directory) made

namespace Compiled

variable {scenario : Scenario} {run : RunId} {root : Path} {directory : Location}
  {before made : FileTree} (compiled : Compiled scenario run root directory before made)
include compiled

/-- The new directory is all that there is before the files are written. -/
theorem get?_new {names : List String} (below : names ≠ []) :
    (before.put (directory ++ [Naming.workspaceDirectory run]) .directory).get?
      (directory ++ [Naming.workspaceDirectory run] ++ names) = none := by
  rw [get?_put_of_ne before _ (by simpa using below),
    compiled.site.vacant _ (List.prefix_append _ names)]

theorem get?_of_fileOf {names : List String} {text : String} {executable : Bool}
    (file : FileOf scenario run names text executable) :
    made.get? (directory ++ [Naming.workspaceDirectory run] ++ names) =
      some (.file (Text.Utf8.encode text.toList) executable) :=
  compiled.filled.get?_of_fileOf (fun names contents executable =>
    compiled.area.fileless _ contents executable (List.prefix_append _ names)) file

/-- Whatever is in the workspace is a file or a directory on the way to one. -/
theorem fileOf_or_directory {names : List String} {entry : Entry} (below : names ≠ [])
    (standing : made.get? (directory ++ [Naming.workspaceDirectory run] ++ names) = some entry) :
    (∃ text executable, FileOf scenario run names text executable ∧
      entry = .file (Text.Utf8.encode text.toList) executable) ∨
    entry = .directory ∧
      ∃ artifact ∈ scenario.artifacts run,
        names <+: artifact.path.steps ∧ names ≠ artifact.path.steps := by
  by_cases goes : ∃ artifact ∈ scenario.artifacts run, artifact.path.steps = names
  · obtain ⟨artifact, member, rfl⟩ := goes
    obtain ⟨text, executable, file⟩ := FileOf.exists_of_mem member
    rw [compiled.get?_of_fileOf file] at standing
    exact Or.inl ⟨text, executable, file, (Option.some.inj standing).symm⟩
  · have apart : ∀ artifact ∈ scenario.artifacts run,
        directory ++ [Naming.workspaceDirectory run] ++ names ≠
          directory ++ [Naming.workspaceDirectory run] ++ artifact.path.steps :=
      fun artifact member same => goes ⟨artifact, member, (List.append_cancel_left same).symm⟩
    rcases compiled.filled.elsewhere _ apart with
      same | ⟨artifact, member, -, new, front, -, isFront, same⟩
    · rw [same, compiled.get?_new below] at standing
      cases standing
    · rw [new] at standing
      rw [List.append_cancel_left same] at goes ⊢
      refine Or.inr ⟨(Option.some.inj standing).symm, artifact, member, isFront, ?_⟩
      exact fun whole => goes ⟨artifact, member, whole.symm⟩

end Compiled

namespace Scenario

variable {host made : Host} {root : Path} {run : RunId} {workspace : Workspace}

/-- A compilation that succeeds has made its workspace in a directory. -/
theorem compile_ok_compiled (scenario : Scenario) (wellFormed : host.tree.WellFormed)
    (compiled : scenario.compile host root run = (.ok workspace, made)) :
    workspace = Workspace.under root run ∧
      ∃ directory, Compiled scenario run root directory host.tree made.tree := by
  rw [compile_eq] at compiled
  have kept := wellFormed.compileTree scenario root run
  rcases outcome : scenario.compileTree host.tree root run with ⟨result, tree⟩
  rw [outcome] at compiled kept
  cases compiled
  obtain ⟨rfl, directory, site, fits, -, -⟩ := scenario.compileTree_ok wellFormed outcome
  have ground := area_workspace site fits
  have inner := scenario.inner_artifacts run
  have written := scenario.compileTree_written site fits outcome
  obtain ⟨area, filled⟩ := Artifact.writeAll_ok ground inner written
  have short := Artifact.shortEnough_of_writeAll ground inner written
  exact ⟨rfl, directory, site, fits, kept, short, area, filled⟩

end Scenario

end FaultDrill
