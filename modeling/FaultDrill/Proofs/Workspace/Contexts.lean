import Mathlib.Data.List.Nodup
import FaultDrill.Proofs.Collisions
import FaultDrill.Proofs.Workspace.Agreement
import FaultDrill.Proofs.Workspace.Obstruction

/-!
What is in the build context of a journey.

Owns: contexts that hold the files of a single journey (`HoldsOnly`), and when they do.

Main statement: in a workspace that has been made without collisions, the context that the manifest
gives to a journey holds the two files of this journey and nothing else exactly if the journey has a
name (`compile_isolates_contexts`).
-/

namespace FaultDrill

open FileTree
open Path (PlainName)

/-- All that is below a directory are the two files of a journey. -/
def HoldsOnly (tree : FileTree) (directory : Location) (run : RunId) (journey : Journey) : Prop :=
  ∀ names entry, names ≠ [] →
    (tree.get? (directory ++ names) = some entry ↔
      names = [Naming.recipeFile] ∧
          entry = .file (Text.Utf8.encode (Recipe.journey run).toList) false ∨
        names = [Naming.scriptFile] ∧
          entry = .file (Text.Utf8.encode (Recipe.script journey).toList) true)

namespace Compiled

variable {scenario : Scenario} {run : RunId} {root : Path} {directory : Location}
  {before made : FileTree} (compiled : Compiled scenario run root directory before made)
  {journey : Journey} (member : journey ∈ scenario.journeys)

/-- The place of the context of a journey. -/
def contextPlace (directory : Location) (run : RunId) (journey : Journey) : Location :=
  directory ++ [Naming.workspaceDirectory run] ++
    Naming.journeysDirectory :: Naming.contextNames journey.name

section Place

include compiled member

theorem get?_contextPlace : made.get? (contextPlace directory run journey) = some .directory := by
  have file := compiled.get?_of_fileOf (.recipe journey member)
  unfold Artifact.contextFile at file
  rw [← List.cons_append, ← List.append_assoc] at file
  exact compiled.wellFormed _ _ _ file

/-- What the manifest says about a context leads to its place. -/
theorem leadsInto_context :
    made.LeadsInto ((Workspace.under root run).path.join
        ⟨"./" ++ Naming.journeysDirectory ++ "/" ++ Naming.sanitize journey.name⟩)
      (contextPlace directory run journey) := by
  have named := compiled.area.named
  rw [(Workspace.under root run).sameDirectory_build named journey.name made]
  have plain : ∀ name ∈ Naming.journeysDirectory :: Naming.contextNames journey.name,
      PlainName name := by
    rw [List.forall_mem_cons]
    exact ⟨by decide, fun name => Naming.plainName_of_mem_contextNames⟩
  have isRecipe : Artifact.recipe run journey.name ∈ scenario.artifacts run :=
    Scenario.mem_artifacts_iff.mpr (Or.inr (Or.inl ⟨journey, member, Or.inl rfl⟩))
  have short := (compiled.short _ isRecipe).each
  rw [Artifact.steps_recipe, Artifact.contextFile, ← List.cons_append] at short
  have text := Workspace.text_journeyContext named journey.name
  generalize (Workspace.under root run).journeyContext journey.name = context at text ⊢
  obtain ⟨contextText⟩ := context
  dsimp only at text
  subst text
  refine compiled.area.leadsInto compiled.wellFormed (List.cons_ne_nil _ _) plain
    (fun name inside => short name (List.mem_append_left _ inside))
    (compiled.get?_contextPlace member) ?_ ?_ ?_
  · exact Path.isAbsolute_separated named.text_ne_empty _
  · have sanitized : (Path.mk (Naming.sanitize journey.name)).NulFree := fun nul =>
      absurd (Naming.isNameChar_of_mem_sanitize journey.name nul) (by decide)
    have fixed : (Path.mk "_journeys").NulFree := by
      unfold Path.NulFree
      decide
    rw [Path.nulFree_separated, Path.nulFree_separated]
    exact ⟨(leadsInto_of_find compiled.area.find_root).1, fixed, sanitized⟩
  · have fixed : (Path.mk "_journeys").steps = [Naming.journeysDirectory] := by decide
    rw [Path.steps_separated, Path.steps_separated, fixed, Naming.steps_sanitize]
    rfl

end Place

end Compiled

/-! ## Files in a context -/

namespace Naming

theorem sanitize_ne_empty {journey : String} (named : journey ≠ "") : sanitize journey ≠ "" := by
  rw [ne_eq, sanitize_eq_iff (by decide) (by decide)]
  exact named

theorem contextNames_of_named {journey : String} (named : journey ≠ "") :
    contextNames journey = [sanitize journey] := by
  unfold contextNames
  rw [if_neg (sanitize_ne_empty named)]

/-- A file below the context of a journey with a name is in that context. -/
theorem context_of_file {journey other file : String} {names : List String}
    (named : journey ≠ "") (below : names ≠ [])
    (same : contextNames journey ++ names = contextNames other ++ [file]) :
    sanitize other = sanitize journey ∧ names = [file] := by
  rw [contextNames_of_named named] at same
  unfold contextNames at same
  split at same
  · have none := (List.cons.inj same).2
    exact absurd none below
  · obtain ⟨head, tail⟩ := List.cons.inj same
    exact ⟨head.symm, tail⟩

end Naming

namespace Scenario

variable {scenario : Scenario} {run : RunId} {journey : Journey}
  (apart : scenario.collisions = []) (member : journey ∈ scenario.journeys)
include apart member


/-- Without collisions, a journey is told from all others by its context. -/
theorem eq_of_sanitize {other : Journey} (isOther : other ∈ scenario.journeys)
    (same : Naming.sanitize other.name = Naming.sanitize journey.name) : other = journey := by
  obtain ⟨-, nodup, -⟩ := scenario.collisions_eq_nil_iff.mp apart
  exact List.inj_on_of_nodup_map nodup isOther member same

theorem fileOf_script :
    FileOf scenario run (Artifact.contextFile journey.name Naming.scriptFile)
      (Recipe.script journey) true := by
  obtain ⟨earlier, last, later, journeys, same, none⟩ := exists_last_journey member
  have isLast : last ∈ scenario.journeys := by simp [journeys]
  have last_eq := eq_of_sanitize apart member isLast same
  subst last_eq
  exact .script earlier last later journeys none

/-- The files of a scenario that are in the context of a journey with a name are those of this
journey. -/
theorem fileOf_context_iff (named : journey.name ≠ "") {names : List String} {text : String}
    {executable : Bool} (below : names ≠ []) :
    FileOf scenario run
        (Naming.journeysDirectory :: (Naming.contextNames journey.name ++ names)) text executable ↔
      names = [Naming.recipeFile] ∧ text = Recipe.journey run ∧ executable = false ∨
        names = [Naming.scriptFile] ∧ text = Recipe.script journey ∧ executable = true := by
  have apartFromBase := (scenario.collisions_eq_nil_iff.mp apart).2.2 journey member
  constructor
  · intro file
    generalize steps : Naming.journeysDirectory :: _ = place at file
    cases file with
    | manifest =>
        have differ : Naming.journeysDirectory ≠ Naming.manifestFile := by decide
        exact absurd (List.cons.inj steps).1 differ
    | base free =>
        rw [Naming.contextNames_of_named named] at steps
        exact absurd (List.cons.inj (List.cons.inj steps).2).1 apartFromBase
    | recipe other isOther =>
        left
        have inContext := Naming.context_of_file named below (List.cons.inj steps).2
        exact ⟨inContext.2, rfl, rfl⟩
    | script earlier other later journeys last =>
        right
        have inContext := Naming.context_of_file named below (List.cons.inj steps).2
        have isOther : other ∈ scenario.journeys := by simp [journeys]
        rw [eq_of_sanitize apart member isOther inContext.1]
        exact ⟨inContext.2, rfl, rfl⟩
  · rintro (⟨rfl, rfl, rfl⟩ | ⟨rfl, rfl, rfl⟩)
    · exact .recipe journey member
    · exact fileOf_script apart member

end Scenario

/-! ## Contexts in a workspace -/

namespace Compiled

variable {scenario : Scenario} {run : RunId} {root : Path} {directory : Location}
  {before made : FileTree} (compiled : Compiled scenario run root directory before made)
  (apart : scenario.collisions = []) {journey : Journey}
include compiled apart

/-- The context of a journey without a name holds the context of the base image too. -/
theorem not_holdsOnly_of_nameless (nameless : journey.name = "") :
    ¬ HoldsOnly made (contextPlace directory run journey) run journey := by
  intro holds
  have apartFromBase := (scenario.collisions_eq_nil_iff.mp apart).2.2
  have standing := compiled.get?_of_fileOf (.base apartFromBase)
  have place : contextPlace directory run journey ++ [Naming.baseDirectory, Naming.recipeFile] =
      directory ++ [Naming.workspaceDirectory run] ++ Artifact.baseNames := by
    have empty : Naming.contextNames "" = [] := by decide
    unfold contextPlace Artifact.baseNames
    rw [nameless, empty, List.append_assoc]
    rfl
  rw [← place] at standing
  rcases (holds _ _ (List.cons_ne_nil _ _)).mp standing with ⟨names, -⟩ | ⟨names, -⟩
  · exact absurd names (by decide)
  · exact absurd names (by decide)

variable (member : journey ∈ scenario.journeys)
include member

theorem holdsOnly_of_named (named : journey.name ≠ "") :
    HoldsOnly made (contextPlace directory run journey) run journey := by
  intro names entry below
  have place : contextPlace directory run journey ++ names =
      directory ++ [Naming.workspaceDirectory run] ++
        Naming.journeysDirectory :: (Naming.contextNames journey.name ++ names) := by
    unfold contextPlace
    rw [List.append_assoc _ (Naming.journeysDirectory :: _), List.cons_append]
  have fileOf_iff := @Scenario.fileOf_context_iff scenario run journey apart member named names
  rw [place]
  constructor
  · intro standing
    rcases compiled.fileOf_or_directory (List.cons_ne_nil _ _) standing with
      ⟨text, executable, file, rfl⟩ | ⟨-, artifact, isArtifact, inTheWay, differ⟩
    · rcases (fileOf_iff below).mp file with ⟨here, rfl, rfl⟩ | ⟨here, rfl, rfl⟩
      · exact Or.inl ⟨here, rfl⟩
      · exact Or.inr ⟨here, rfl⟩
    · -- No way to a file is longer than the way to one in this context.
      have longest := Scenario.length_steps_le isArtifact
      have short := inTheWay.length_le
      have positive := List.length_pos_iff.mpr below
      have single := congrArg List.length (Naming.contextNames_of_named named)
      refine absurd (inTheWay.eq_of_length ?_) differ
      simp only [List.length_cons, List.length_append, List.length_nil] at short single ⊢
      omega
  · rintro (⟨here, rfl⟩ | ⟨here, rfl⟩)
    · exact compiled.get?_of_fileOf ((fileOf_iff below).mpr (Or.inl ⟨here, rfl, rfl⟩))
    · exact compiled.get?_of_fileOf ((fileOf_iff below).mpr (Or.inr ⟨here, rfl, rfl⟩))

end Compiled

namespace Scenario

/-- Without collisions, the context of each journey that has a name holds its own two files and
nothing else; that of one without a name does not. -/
theorem compile_isolates_contexts (scenario : Scenario) {host made : Host} {root : Path}
    {run : RunId} {workspace : Workspace} (wellFormed : host.tree.WellFormed)
    (apart : scenario.collisions = [])
    (compiled : scenario.compile host root run = (.ok workspace, made)) :
    ∀ journey ∈ scenario.journeys, ∃ context directory,
      ⟨Naming.journeyNode journey.name, .build context⟩ ∈
        (Manifest.ofScenario scenario run).nodes ∧
      made.tree.LeadsInto (workspace.path.join ⟨context⟩) directory ∧
      (HoldsOnly made.tree directory run journey ↔ journey.name ≠ "") := by
  intro journey member
  obtain ⟨rfl, above, inside⟩ := scenario.compile_ok_compiled wellFormed compiled
  refine ⟨_, Compiled.contextPlace above run journey, ?_, inside.leadsInto_context member, ?_⟩
  · exact List.mem_append_right _ (List.mem_map_of_mem member)
  · constructor
    · intro holds nameless
      exact inside.not_holdsOnly_of_nameless apart nameless holds
    · exact inside.holdsOnly_of_named apart member

private theorem exists_compile (scenario : Scenario)
    (named : ¬ ((∃ journey ∈ scenario.journeys, journey.name = "") ∧
      ∃ journey ∈ scenario.journeys, journey.name = Naming.recipeFile))
    (contexts : ∀ journey ∈ scenario.journeys, ∀ file ∈ [Naming.recipeFile, Naming.scriptFile],
      ShortEnough ⟨"w"⟩
        (Naming.workspaceDirectory 7 :: Artifact.contextFile journey.name file)) :
    ∃ made, scenario.compile emptyHost ⟨"w"⟩ 7 = (.ok (Workspace.under ⟨"w"⟩ 7), made) := by
  obtain ⟨wellFormed, site⟩ := site_emptyHost
  apply exists_of_fst
  apply compile_of_unobstructed wellFormed site
  case short =>
    exact shortEnough_of_contexts (by decide +kernel) contexts (by decide +kernel)
  case apart =>
    intro first isFirst second isSecond obstructs
    exact named (obstructs_iff.mp ⟨first, isFirst, second, isSecond, obstructs⟩)

/-- A scenario with journeys whose contexts lie close to that of the base image. -/
def adjacentScenario : Scenario where
  services := []
  journeys := [{ name := "/", steps := ["true"] }, { name := "base" }]
  stages := []

/-- Contexts are told apart where a name holds nothing but what is replaced. -/
theorem compile_isolates_adjacent_contexts :
    (emptyHost.tree.WellFormed ∧ adjacentScenario.collisions = []) ∧
      ∃ made directory,
        adjacentScenario.compile emptyHost ⟨"w"⟩ 7 = (.ok (Workspace.under ⟨"w"⟩ 7), made) ∧
          HoldsOnly made.tree directory 7 { name := "/", steps := ["true"] } := by
  have wellFormed := site_emptyHost.1
  have apart : adjacentScenario.collisions = [] := by decide
  obtain ⟨made, compiled⟩ := exists_compile adjacentScenario (by decide) (by decide +kernel)
  have member : { name := "/", steps := ["true"] } ∈ adjacentScenario.journeys :=
    List.mem_cons_self
  obtain ⟨context, directory, -, -, holds⟩ :=
    compile_isolates_contexts adjacentScenario wellFormed apart compiled _ member
  exact ⟨⟨wellFormed, apart⟩, made, directory, compiled, holds.mpr (by decide)⟩

/-- A scenario with a single journey, which has no name. -/
def loneScenario : Scenario where
  services := []
  journeys := [{ name := "" }]
  stages := []

/-- Without any collision, the context of a journey without a name holds more than its files. -/
theorem not_isolated_of_nameless :
    loneScenario.collisions = [] ∧ emptyHost.tree.WellFormed ∧
      ∃ made directory,
        loneScenario.compile emptyHost ⟨"w"⟩ 7 = (.ok (Workspace.under ⟨"w"⟩ 7), made) ∧
          ⟨"journey__", .build "./_journeys/"⟩ ∈ (Manifest.ofScenario loneScenario 7).nodes ∧
          made.tree.LeadsInto ((Workspace.under ⟨"w"⟩ 7).path.join ⟨"./_journeys/"⟩) directory ∧
          ¬ HoldsOnly made.tree directory 7 { name := "" } := by
  have wellFormed := site_emptyHost.1
  have apart : loneScenario.collisions = [] := by decide
  obtain ⟨made, compiled⟩ := exists_compile loneScenario (by decide) (by decide +kernel)
  have member : { name := "" } ∈ loneScenario.journeys := List.mem_cons_self
  obtain ⟨-, above, inside⟩ := loneScenario.compile_ok_compiled wellFormed compiled
  have leads := inside.leadsInto_context member
  have context : "./" ++ Naming.journeysDirectory ++ "/" ++ Naming.sanitize "" =
      "./_journeys/" := by decide
  dsimp only at leads
  rw [context] at leads
  exact ⟨apart, wellFormed, made, Compiled.contextPlace above 7 { name := "" }, compiled,
    by decide, leads, inside.not_holdsOnly_of_nameless apart rfl⟩

end Scenario

end FaultDrill
