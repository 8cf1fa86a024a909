import FaultDrill.Proofs.Workspace.Making

/-!
When the files of a scenario can be written.

Owns:
- files that stand in the way of others (`Artifact.Obstructs`);
- which names of journeys bring this about.

Main statement: where nothing stands in its place, a workspace is made unless one of its files is in
the way of another, and this is so exactly if one journey has no name and another is called like the
file that describes an image (`compile_ok_iff_unobstructed`).
-/

namespace FaultDrill

open FileTree
open Path (PlainName)

namespace Artifact

/-- The way to a file leads through the place of another. -/
def Obstructs (first second : Artifact) : Prop :=
  first.path.steps <+: second.path.steps ∧ first.path.steps ≠ second.path.steps

section Places

variable {tree after : FileTree} {location : Location} {names : List String}

/-! ## Free places -/

theorem free_of_vacant (vacant : ∀ names, names ≠ [] → tree.get? (location ++ names) = none)
    (standing : tree.get? location = some .directory) (below : names ≠ []) :
    Free tree location names where
  way := by
    intro front before
    by_cases here : front = []
    · right
      rw [here, List.append_nil]
      exact standing
    · left
      exact vacant front here
  last := Or.inl (vacant names below)

/-- A file that is written leaves another place free if neither is in the way of the other. -/
theorem Wrote.free {artifact : Artifact} (wrote : Wrote location artifact tree after)
    (below : names ≠ []) (free : Free tree location names)
    (clear : artifact.path.steps <+: names → artifact.path.steps = names)
    (beyond : names <+: artifact.path.steps → names = artifact.path.steps) :
    Free after location names where
  way := by
    intro front before
    have apart : location ++ front ≠ location ++ artifact.path.steps := by
      intro same
      rw [List.append_cancel_left same] at before
      have whole := clear (before.trans (List.dropLast_prefix names))
      have length := before.length_le
      have positive := List.length_pos_iff.mpr below
      rw [whole, List.length_dropLast] at length
      omega
    rcases wrote.elsewhere _ apart with same | ⟨-, made, -⟩
    · rw [same]
      exact free.way front before
    · right
      exact made
  last := by
    by_cases here : names = artifact.path.steps
    · right
      rw [here]
      exact ⟨_, _, wrote.file⟩
    · have apart : location ++ names ≠ location ++ artifact.path.steps :=
        fun same => here (List.append_cancel_left same)
      rcases wrote.elsewhere _ apart with same | ⟨-, -, front, -, isFront, same⟩
      · rw [same]
        exact free.last
      · rw [List.append_cancel_left same] at here beyond
        exact absurd (beyond isFront) here

end Places

/-! ## Writing -/

section Single

variable {ground tree : FileTree} {root : Path} {location : Location} {names : List String}

theorem makeParent_succeeds (area : Area ground tree root location)
    (wellFormed : tree.WellFormed) (below : names ≠ [])
    (plain : ∀ step ∈ names, PlainName step) (short : ShortEnough root names)
    (passable : Passable tree location names.dropLast) :
    ∃ after, makeParent tree (root.descend names) = (.ok (), after) ∧
      Paved location names.dropLast tree after ∧
      after.get? (location ++ names.dropLast) = some .directory := by
  obtain ⟨front, last, rfl⟩ : ∃ front last, names = front ++ [last] :=
    ⟨names.dropLast, names.getLast below, (List.dropLast_concat_getLast below).symm⟩
  rw [List.dropLast_concat] at passable ⊢
  have plainFront : ∀ step ∈ front, PlainName step := by
    intro step member
    exact plain step (List.mem_append_left [last] member)
  have made := area.makeDirectories_succeeds wellFormed plainFront (short.of_append plain) passable
  have paved := area.pavedTo_makeDirectories plainFront
  unfold makeParent
  rw [Path.parent?_descend area.named plain]
  dsimp only
  generalize tree.makeDirectories (root.descend front) = outcome at made paved ⊢
  obtain ⟨result, after⟩ := outcome
  dsimp only at made
  subst made
  exact ⟨after, rfl, paved.paved, paved.done rfl⟩

theorem writeContents_succeeds (artifact : Artifact) (area : Area ground tree root location)
    (wellFormed : tree.WellFormed) (below : names ≠ [])
    (plain : ∀ step ∈ names, PlainName step) (short : ShortEnough root names)
    (above : tree.get? (location ++ names.dropLast) = some .directory)
    (last : tree.get? (location ++ names) = none ∨
      ∃ old mode, tree.get? (location ++ names) = some (.file old mode)) :
    ∃ after, artifact.writeContents tree (root.descend names) = (.ok (), after) := by
  obtain ⟨between, written⟩ := area.write_succeeds wellFormed below plain short above last
    artifact.bytes
  rcases artifact.writeContents_outcome tree (root.descend names) with
    ⟨cause, fails, -⟩ | ⟨place, executable, last, -, succeeds⟩
  · rw [written] at fails
    cases fails
  · exact ⟨_, succeeds⟩

theorem write_succeeds (artifact : Artifact) (area : Area ground tree root location)
    (wellFormed : tree.WellFormed) (inner : Inner artifact.path)
    (short : ShortEnough root artifact.path.steps)
    (free : Free tree location artifact.path.steps) :
    ∃ after, artifact.write tree root = (.ok (), after) := by
  have below := inner.steps_ne_nil
  have plain := inner.plain
  obtain ⟨between, parent, paved, above⟩ :=
    makeParent_succeeds area wellFormed below plain short free.way
  have kept := wellFormed.makeParent (root.descend artifact.path.steps)
  rw [parent] at kept
  have free := free.last
  rw [← paved.get?_last below] at free
  obtain ⟨after, contents⟩ :=
    artifact.writeContents_succeeds (area.paved paved) kept below plain short above free
  refine ⟨after, write_ok_iff.mpr ⟨between, ?_, ?_⟩⟩
  · rw [inner.join_eq root]
    exact parent
  · rw [inner.join_eq root]
    exact contents

end Single

/-- Files that are not in the way of each other can be written one after the other. -/
theorem writeAll_succeeds {ground tree : FileTree} {root : Path} {location : Location}
    {artifacts : List Artifact} (area : Area ground tree root location)
    (wellFormed : tree.WellFormed) (inner : ∀ artifact ∈ artifacts, Inner artifact.path)
    (short : ∀ artifact ∈ artifacts, ShortEnough root artifact.path.steps)
    (free : ∀ artifact ∈ artifacts, Free tree location artifact.path.steps)
    (apart : ∀ first ∈ artifacts, ∀ second ∈ artifacts, ¬ first.Obstructs second) :
    (writeAll tree root artifacts).1 = .ok () := by
  -- The invariant is that the places of all files that are still to be written are free.
  induction artifacts generalizing tree with
  | nil => rfl
  | cons artifact artifacts inductionHypothesis =>
      have innerFirst := inner artifact List.mem_cons_self
      obtain ⟨after, written⟩ := artifact.write_succeeds area wellFormed innerFirst
        (short artifact List.mem_cons_self) (free artifact List.mem_cons_self)
      have kept := wellFormed.writeArtifact artifact root
      rw [written] at kept
      obtain ⟨areaAfter, wrote⟩ := artifact.write_ok area innerFirst written
      unfold writeAll
      rw [written]
      apply inductionHypothesis areaAfter kept
      case inner => exact fun other member => inner other (List.mem_cons_of_mem artifact member)
      case short => exact fun other member => short other (List.mem_cons_of_mem artifact member)
      case apart =>
        intro first isFirst second isSecond
        exact apart first (List.mem_cons_of_mem artifact isFirst) second
          (List.mem_cons_of_mem artifact isSecond)
      case free =>
        intro other member
        have later := List.mem_cons_of_mem artifact member
        apply wrote.free (inner other later).steps_ne_nil (free other later)
        · intro inTheWay
          by_contra differ
          exact apart artifact List.mem_cons_self other later ⟨inTheWay, differ⟩
        · intro inTheWay
          by_contra differ
          exact apart other later artifact List.mem_cons_self ⟨inTheWay, differ⟩

end Artifact

/-! ## Names that bring files in the way of others -/

namespace Scenario

variable {scenario : Scenario} {run : RunId}

theorem shortEnough_of_contexts {root : Path}
    (base : ShortEnough root (Naming.workspaceDirectory run :: Artifact.baseNames))
    (contexts : ∀ journey ∈ scenario.journeys, ∀ file ∈ [Naming.recipeFile, Naming.scriptFile],
      ShortEnough root (Naming.workspaceDirectory run :: Artifact.contextFile journey.name file))
    (manifest : ShortEnough root (Naming.workspaceDirectory run :: [Naming.manifestFile])) :
    ∀ artifact ∈ scenario.artifacts run,
      ShortEnough root (Naming.workspaceDirectory run :: artifact.path.steps) := by
  intro artifact member
  rcases mem_artifacts_iff.mp member with rfl | ⟨journey, isJourney, rfl | rfl⟩ | rfl
  · rwa [Artifact.steps_base]
  · rw [Artifact.steps_recipe]
    exact contexts journey isJourney _ (by simp)
  · rw [Artifact.steps_script]
    exact contexts journey isJourney _ (by simp)
  · rwa [Artifact.steps_manifest]

/-- A file in the way of another is among the contexts, and the context of the other is called like
it. -/
theorem contexts_of_obstructs {first second : Artifact} (isFirst : first ∈ scenario.artifacts run)
    (isSecond : second ∈ scenario.artifacts run) (obstructs : first.Obstructs second) :
    (∃ journey ∈ scenario.journeys, Naming.contextNames journey.name = []) ∧
      ∃ journey ∈ scenario.journeys, ∃ file, (file = Naming.recipeFile ∨ file = Naming.scriptFile) ∧
        Naming.contextNames journey.name = [file] := by
  have differ : Naming.manifestFile ≠ Naming.journeysDirectory := by decide
  have notBase : ∀ file, file = Naming.recipeFile ∨ file = Naming.scriptFile →
      file ≠ Naming.baseDirectory := by
    rintro file (rfl | rfl)
    · decide
    · decide
  obtain ⟨inTheWay, apart⟩ := obstructs
  rcases steps_of_mem isFirst with manifest | ⟨context, file, steps, isFile, inContext⟩
  · rcases steps_of_mem isSecond with otherManifest | ⟨other, otherFile, otherSteps, -, -⟩
    · exact absurd (manifest.trans otherManifest.symm) apart
    · rw [manifest, otherSteps, List.cons_prefix_cons] at inTheWay
      exact absurd inTheWay.1 differ
  · rcases steps_of_mem isSecond with
      otherManifest | ⟨other, otherFile, otherSteps, -, inOther⟩
    · rw [steps, otherManifest, List.cons_prefix_cons] at inTheWay
      exact absurd inTheWay.1.symm differ
    · rw [steps, otherSteps, List.cons_prefix_cons, List.prefix_concat_iff] at inTheWay
      rw [steps, otherSteps] at apart
      have within : context ++ [file] <+: other := by
        rcases inTheWay.2 with same | within
        · exact absurd (congrArg (Naming.journeysDirectory :: ·) same) apart
        · exact within
      -- A context is one name at most, so the file is all that there is of the way.
      have short := within.length_le
      have single := length_context_le inOther
      rw [List.length_append, List.length_singleton] at short
      have empty : context = [] := List.eq_nil_of_length_eq_zero (by omega)
      subst empty
      have whole : [file] = other := within.eq_of_length (by simp at short ⊢; omega)
      subst whole
      constructor
      · rcases inContext with isBase | ⟨journey, member, same⟩
        · cases isBase
        · exact ⟨journey, member, same.symm⟩
      · rcases inOther with isBase | ⟨journey, member, same⟩
        · exact absurd (List.singleton_inj.mp isBase) (notBase file isFile)
        · exact ⟨journey, member, file, isFile, same.symm⟩

/-- One file is in the way of another exactly if a journey without a name has its files among the
contexts and the context of another journey is called like one of them. -/
theorem obstructs_iff :
    (∃ first ∈ scenario.artifacts run, ∃ second ∈ scenario.artifacts run,
        first.Obstructs second) ↔
      (∃ journey ∈ scenario.journeys, journey.name = "") ∧
        ∃ journey ∈ scenario.journeys, journey.name = Naming.recipeFile := by
  have noName {text : String} : Naming.sanitize text = "" ↔ text = "" :=
    Naming.sanitize_eq_iff (by decide) (by decide)
  have likeRecipe {text : String} :
      Naming.sanitize text = Naming.recipeFile ↔ text = Naming.recipeFile :=
    Naming.sanitize_eq_iff (by decide) (by decide)
  constructor
  · rintro ⟨first, isFirst, second, isSecond, obstructs⟩
    obtain ⟨⟨nameless, isNameless, empty⟩, ⟨named, isNamed, file, isFile, same⟩⟩ :=
      contexts_of_obstructs isFirst isSecond obstructs
    refine ⟨⟨nameless, isNameless, ?_⟩, ⟨named, isNamed, ?_⟩⟩
    · apply noName.mp
      by_contra nonempty
      rw [Naming.contextNames, if_neg nonempty] at empty
      cases empty
    · rcases isFile with rfl | rfl
      · exact likeRecipe.mp ((Naming.contextNames_eq_singleton_iff (by decide)).mp same)
      · -- The name of a script holds a full stop, which no context does.
        have allowed := Naming.isNameChar_of_mem_contextNames
          (same ▸ List.mem_singleton_self Naming.scriptFile) '.' (by decide)
        exact absurd allowed (by decide)
  · rintro ⟨⟨nameless, isNameless, empty⟩, ⟨named, isNamed, recipe⟩⟩
    refine ⟨.recipe run nameless.name, ?_, .recipe run named.name, ?_, ?_⟩
    · exact mem_artifacts_iff.mpr (Or.inr (Or.inl ⟨nameless, isNameless, Or.inl rfl⟩))
    · exact mem_artifacts_iff.mpr (Or.inr (Or.inl ⟨named, isNamed, Or.inl rfl⟩))
    · unfold Artifact.Obstructs
      rw [Artifact.steps_recipe, Artifact.steps_recipe, empty, recipe]
      decide

/-! ## Compilations -/

variable {host : Host} {root : Path} {directory : Location}

/-- No file of a workspace that has been made is in the way of another. -/
theorem not_obstructs_of_compiled {before made : FileTree}
    (compiled : Compiled scenario run root directory before made) {first second : Artifact}
    (isFirst : first ∈ scenario.artifacts run) (isSecond : second ∈ scenario.artifacts run) :
    ¬ first.Obstructs second := by
  rintro ⟨inTheWay, differ⟩
  obtain ⟨text, mode, file⟩ := FileOf.exists_of_mem isFirst
  obtain ⟨otherText, otherMode, otherFile⟩ := FileOf.exists_of_mem isSecond
  have directoryThere := compiled.wellFormed.get?_of_prefix (compiled.get?_of_fileOf otherFile)
    ((List.prefix_append_right_inj _).mpr inTheWay)
    (fun same => differ (List.append_cancel_left same))
  rw [compiled.get?_of_fileOf file] at directoryThere
  cases directoryThere

/-- Where nothing stands in its place, a workspace is made if none of its files is in the way of
another. -/
theorem compile_of_unobstructed (wellFormed : host.tree.WellFormed)
    (site : Site host.tree root directory (Naming.workspaceDirectory run))
    (short : ∀ artifact ∈ scenario.artifacts run,
      ShortEnough root (Naming.workspaceDirectory run :: artifact.path.steps))
    (apart : ∀ first ∈ scenario.artifacts run, ∀ second ∈ scenario.artifacts run,
      ¬ first.Obstructs second) :
    (scenario.compile host root run).1 = .ok (Workspace.under root run) := by
  have inner := scenario.inner_artifacts run
  have fits : ¬ TooLong root (Naming.workspaceDirectory run) := by
    have isBase : Artifact.base ∈ scenario.artifacts run := mem_artifacts_iff.mpr (Or.inl rfl)
    have front : ShortEnough root [Naming.workspaceDirectory run] := .of_append
      (List.forall_mem_cons.mpr ⟨site.plain, (inner _ isBase).plain⟩) (short _ isBase)
    rintro (long | long)
    · exact front.path long
    · exact front.each _ (List.mem_singleton_self _) long
  have new := makeDirectory_workspace site.leads site.standing fits
    (site.vacant _ List.prefix_rfl)
  have area := area_workspace site fits
  have written := Artifact.writeAll_succeeds area (wellFormed.makeDirectory new) inner
    (fun artifact member =>
      ⟨(short artifact member).path,
        fun name inside => (short artifact member).each name (List.mem_cons_of_mem _ inside)⟩)
    (fun artifact member => Artifact.free_of_vacant
      (fun names below => by
        rw [get?_put_of_ne host.tree _ (by simpa using below),
          site.vacant _ (List.prefix_append _ names)])
      area.standing (inner artifact member).steps_ne_nil)
    apart
  rw [compile_eq]
  unfold compileTree
  dsimp only
  rw [new]
  dsimp only
  generalize Artifact.writeAll _ (Workspace.under root run).path _ = outcome at written ⊢
  obtain ⟨result, after⟩ := outcome
  dsimp only at written
  subst written
  rfl

theorem site_emptyHost :
    emptyHost.tree.WellFormed ∧
      Site emptyHost.tree ⟨"w"⟩ ["w"] (Naming.workspaceDirectory 7) := by
  have wellFormed : emptyHost.tree.WellFormed := FileTree.wellFormed_of_entries (by decide +kernel)
  exact ⟨wellFormed, leadsInto_of_find (by decide +kernel), by decide +kernel,
    Naming.plainName_workspaceDirectory 7, wellFormed.vacantFrom (by decide +kernel)⟩

/-- Where nothing stands in its place, a workspace is made unless a journey without a name has the
description of its image where another journey has its context. -/
theorem compile_ok_iff_unobstructed (scenario : Scenario) (host : Host) (root : Path) (run : RunId)
    (directory : Location) (wellFormed : host.tree.WellFormed)
    (leads : host.tree.LeadsInto root directory)
    (standing : host.tree.get? directory = some .directory)
    (vacant : host.tree.get? (directory ++ [Naming.workspaceDirectory run]) = none)
    (short : ∀ artifact ∈ scenario.artifacts run,
      ShortEnough root (Naming.workspaceDirectory run :: artifact.path.steps)) :
    ((scenario.compile host root run).1 = .ok (Workspace.under root run) ↔
      ¬ ∃ first ∈ scenario.artifacts run, ∃ second ∈ scenario.artifacts run,
        first.Obstructs second) ∧
    ((∃ first ∈ scenario.artifacts run, ∃ second ∈ scenario.artifacts run,
        first.Obstructs second) ↔
      (∃ journey ∈ scenario.journeys, journey.name = "") ∧
        ∃ journey ∈ scenario.journeys, journey.name = Naming.recipeFile) := by
  refine ⟨⟨?_, ?_⟩, obstructs_iff⟩
  · rintro made ⟨first, isFirst, second, isSecond, obstructs⟩
    obtain ⟨after, outcome⟩ := exists_of_fst made
    obtain ⟨-, other, compiled⟩ := scenario.compile_ok_compiled wellFormed outcome
    exact not_obstructs_of_compiled compiled isFirst isSecond obstructs
  · intro none
    refine compile_of_unobstructed wellFormed
      ⟨leads, standing, Naming.plainName_workspaceDirectory run, wellFormed.vacantFrom vacant⟩
      short fun first isFirst second isSecond obstructs => ?_
    exact none ⟨first, isFirst, second, isSecond, obstructs⟩

/-- A scenario with journeys that are called like the directories and files of a workspace. -/
def wordyScenario : Scenario where
  services := [{ name := "docker-compose.yml" }]
  journeys := [{ name := "Dockerfile" }, { name := "entrypoint.sh", steps := ["true"] }]
  stages := []

/-- Names like those of directories and files do no harm if every journey has one. -/
theorem compile_ok_of_words :
    (emptyHost.tree.WellFormed ∧ emptyHost.tree.LeadsInto ⟨"w"⟩ ["w"] ∧
      emptyHost.tree.get? ["w"] = some .directory ∧
      emptyHost.tree.get? (["w"] ++ [Naming.workspaceDirectory 7]) = none ∧
      ∀ artifact ∈ wordyScenario.artifacts 7,
        ShortEnough ⟨"w"⟩ (Naming.workspaceDirectory 7 :: artifact.path.steps)) ∧
    (wordyScenario.compile emptyHost ⟨"w"⟩ 7).1 = .ok (Workspace.under ⟨"w"⟩ 7) := by
  obtain ⟨wellFormed, leads, standing, -, vacantFrom⟩ := site_emptyHost
  have vacant := vacantFrom _ List.prefix_rfl
  have short : ∀ artifact ∈ wordyScenario.artifacts 7,
      ShortEnough ⟨"w"⟩ (Naming.workspaceDirectory 7 :: artifact.path.steps) :=
    shortEnough_of_contexts (by decide +kernel)
      (by decide +kernel) (by decide +kernel)
  obtain ⟨made, obstructed⟩ := compile_ok_iff_unobstructed wordyScenario emptyHost ⟨"w"⟩ 7 ["w"]
    wellFormed leads standing vacant short
  refine ⟨⟨wellFormed, leads, standing, vacant, short⟩, made.mpr fun any => ?_⟩
  obtain ⟨⟨journey, member, nameless⟩, -⟩ := obstructed.mp any
  have named : ∀ journey ∈ wordyScenario.journeys, journey.name ≠ "" := by decide
  exact named journey member nameless

/-- A scenario with a journey that has no name, and one whose context takes the place of its
files. -/
def obstructedScenario : Scenario where
  services := []
  journeys := [{ name := "" }, { name := "Dockerfile" }]
  stages := []

/-- No name collides with another, and still the workspace cannot be made. -/
theorem compile_fails_of_obstructed :
    obstructedScenario.collisions = [] ∧ emptyHost.tree.WellFormed ∧
      emptyHost.tree.LeadsInto ⟨"w"⟩ ["w"] ∧ emptyHost.tree.get? ["w"] = some .directory ∧
      emptyHost.tree.get? (["w"] ++ [Naming.workspaceDirectory 7]) = none ∧
      (∀ artifact ∈ obstructedScenario.artifacts 7,
        ShortEnough ⟨"w"⟩ (Naming.workspaceDirectory 7 :: artifact.path.steps)) ∧
      (obstructedScenario.compile emptyHost ⟨"w"⟩ 7).1 =
        .error (.directory ⟨"w/chaosflow_compose_7/_journeys/Dockerfile"⟩ .exists) := by
  obtain ⟨wellFormed, leads, standing, -, vacantFrom⟩ := site_emptyHost
  refine ⟨by decide, wellFormed, leads, standing, vacantFrom _ List.prefix_rfl,
    shortEnough_of_contexts (by decide +kernel) (by decide +kernel) (by decide +kernel),
    by decide +kernel⟩

end Scenario

end FaultDrill
