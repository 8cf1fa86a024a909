import FaultDrill.Proofs.FileTree.Clearing
import FaultDrill.Proofs.Compile
import FaultDrill.Proofs.Text.Utf8
import FaultDrill.Proofs.Workspace.Writing

/-!
The files of a workspace that has been made.

Owns: which files there are, what they hold and which are executable, also where names collide.

Main statement: once a compilation has succeeded, these are the files in the workspace, and there
is nothing else in it but directories (`compile_furnished`).
-/

namespace FaultDrill

open FileTree
open Path (PlainName)

/-! ## The files of a scenario -/

/-- The names that lead to a file of a workspace, its text and whether it is executable. Of
journeys whose names become the same, the last one has its script there; a journey whose name
becomes that of the base image's directory has its description in the place of the other. -/
inductive FileOf (scenario : Scenario) (run : RunId) : List String → String → Bool → Prop where
  | manifest :
      FileOf scenario run [Naming.manifestFile] (Manifest.ofScenario scenario run).text false
  | base
      (free : ∀ journey ∈ scenario.journeys,
        Naming.sanitize journey.name ≠ Naming.baseDirectory) :
      FileOf scenario run Artifact.baseNames Recipe.base false
  | recipe (journey : Journey) (member : journey ∈ scenario.journeys) :
      FileOf scenario run (Artifact.contextFile journey.name Naming.recipeFile)
        (Recipe.journey run) false
  | script (earlier : List Journey) (journey : Journey) (later : List Journey)
      (journeys : scenario.journeys = earlier ++ journey :: later)
      (last : ∀ other ∈ later, Naming.sanitize other.name ≠ Naming.sanitize journey.name) :
      FileOf scenario run (Artifact.contextFile journey.name Naming.scriptFile)
        (Recipe.script journey) true

namespace Artifact

theorem contextFile_inj {first second file other : String} :
    contextFile first file = contextFile second other ↔
      Naming.sanitize first = Naming.sanitize second ∧ file = other := by
  unfold contextFile
  rw [List.cons.injEq, List.append_singleton_inj, Naming.contextNames_inj]
  simp

theorem contextFile_eq_baseNames_iff {journey file : String} :
    contextFile journey file = baseNames ↔
      Naming.sanitize journey = Naming.baseDirectory ∧ file = Naming.recipeFile := by
  unfold contextFile baseNames
  have ends : [Naming.baseDirectory, Naming.recipeFile] =
      [Naming.baseDirectory] ++ [Naming.recipeFile] := rfl
  rw [List.cons.injEq, ends, List.append_singleton_inj,
    Naming.contextNames_eq_singleton_iff (by decide)]
  simp

theorem contextFile_ne_manifest (journey file : String) :
    contextFile journey file ≠ [Naming.manifestFile] := by
  unfold contextFile
  simp

theorem executable_eq_false {scenario : Scenario} {run : RunId} {names : List String}
    (none : ∀ journey ∈ scenario.journeys, contextFile journey.name Naming.scriptFile ≠ names) :
    ((scenario.artifacts run).any fun other =>
      other.path.steps = names && other.executable) = false := by
  rw [List.any_eq_false]
  intro artifact member
  rcases Scenario.mem_artifacts_iff.mp member with rfl | ⟨journey, isJourney, rfl | rfl⟩ | rfl
  · simp [base]
  · simp [recipe]
  · simp [none journey isJourney]
  · simp [manifest]

end Artifact

/-- If some items are of a kind, one of them is the last. -/
private theorem exists_last {α : Type} (kind : α → Prop) [DecidablePred kind] {items : List α}
    (any : ∃ item ∈ items, kind item) :
    ∃ earlier item later, items = earlier ++ item :: later ∧ kind item ∧
      ∀ other ∈ later, ¬ kind other := by
  induction items using List.reverseRecOn with
  | nil => simp at any
  | append_singleton items last inductionHypothesis =>
      by_cases lastIs : kind last
      · exact ⟨items, last, [], rfl, lastIs, by simp⟩
      · obtain ⟨item, member, isKind⟩ := any
        have among : item ∈ items := by
          rcases List.mem_append.mp member with among | isLast
          · exact among
          · rw [List.mem_singleton.mp isLast] at isKind
            exact absurd isKind lastIs
        obtain ⟨earlier, found, later, rfl, foundIs, rest⟩ :=
          inductionHypothesis ⟨item, among, isKind⟩
        refine ⟨earlier, found, later ++ [last], by simp, foundIs, fun other member => ?_⟩
        rcases List.mem_append.mp member with inLater | isLast
        · exact rest other inLater
        · rw [List.mem_singleton.mp isLast]
          exact lastIs

namespace Scenario

/-- The last journey of those with which it shares a context. -/
theorem exists_last_journey {scenario : Scenario} {journey : Journey}
    (member : journey ∈ scenario.journeys) :
    ∃ earlier last later, scenario.journeys = earlier ++ last :: later ∧
      Naming.sanitize last.name = Naming.sanitize journey.name ∧
      ∀ other ∈ later, Naming.sanitize other.name ≠ Naming.sanitize last.name := by
  have any : ∃ other ∈ scenario.journeys,
      Naming.sanitize other.name = Naming.sanitize journey.name := ⟨journey, member, Eq.refl _⟩
  obtain ⟨earlier, last, later, journeys, same, none⟩ := exists_last _ any
  exact ⟨earlier, last, later, journeys, same, fun other inLater => same ▸ none other inLater⟩

/-- The files of one journey among those of a workspace; if no later journey shares its context,
nothing that is written later goes there. -/
theorem artifacts_eq_of_journeys {scenario : Scenario} (run : RunId) {earlier later : List Journey}
    {journey : Journey} (journeys : scenario.journeys = earlier ++ journey :: later)
    (last : ∀ other ∈ later, Naming.sanitize other.name ≠ Naming.sanitize journey.name) :
    ∃ before after,
      scenario.artifacts run = before ++ .recipe run journey.name :: .script journey :: after ∧
        ∀ other ∈ after, ∀ file, other.path.steps ≠ Artifact.contextFile journey.name file := by
  refine ⟨.base :: earlier.flatMap (fun journey => [.recipe run journey.name, .script journey]),
    later.flatMap (fun journey => [.recipe run journey.name, .script journey]) ++
      [.manifest scenario run], by simp [artifacts_eq, journeys], ?_⟩
  intro artifact member file same
  rw [List.mem_append, List.mem_flatMap, List.mem_singleton] at member
  rcases member with ⟨other, inLater, isFile⟩ | rfl
  · rw [List.mem_cons, List.mem_singleton] at isFile
    rcases isFile with rfl | rfl
    · rw [Artifact.steps_recipe, Artifact.contextFile_inj] at same
      exact last other inLater same.1
    · rw [Artifact.steps_script, Artifact.contextFile_inj] at same
      exact last other inLater same.1
  · rw [Artifact.steps_manifest] at same
    exact Artifact.contextFile_ne_manifest _ _ same.symm

end Scenario

namespace FileOf

variable {scenario : Scenario} {run : RunId} {names : List String} {text : String}
  {executable : Bool}

/-- A file of a workspace is the last that is written to its place. -/
theorem written_last (file : FileOf scenario run names text executable) :
    ∃ earlier artifact later, scenario.artifacts run = earlier ++ artifact :: later ∧
      artifact.path.steps = names ∧ artifact.contents = text ∧
      (∀ other ∈ later, other.path.steps ≠ names) ∧
      ((scenario.artifacts run).any fun other =>
        other.path.steps = names && other.executable) = executable := by
  have differ : Naming.scriptFile ≠ Naming.recipeFile := by decide
  cases file with
  | manifest =>
      refine ⟨_, .manifest scenario run, [], scenario.artifacts_eq run, by simp, rfl, by simp, ?_⟩
      exact Artifact.executable_eq_false fun journey _ => Artifact.contextFile_ne_manifest _ _
  | base free =>
      refine ⟨[], .base, scenario.journeys.flatMap (fun journey =>
          [Artifact.recipe run journey.name, .script journey]) ++
          [Artifact.manifest scenario run],
        scenario.artifacts_eq run, by simp, rfl, ?_, ?_⟩
      · intro artifact member
        rw [List.mem_append, List.mem_flatMap, List.mem_singleton] at member
        rcases member with ⟨journey, isJourney, isFile⟩ | rfl
        · rw [List.mem_cons, List.mem_singleton] at isFile
          rcases isFile with rfl | rfl
          · rw [Artifact.steps_recipe, ne_eq, Artifact.contextFile_eq_baseNames_iff]
            exact fun same => free journey isJourney same.1
          · rw [Artifact.steps_script, ne_eq, Artifact.contextFile_eq_baseNames_iff]
            exact fun same => differ same.2
        · rw [Artifact.steps_manifest]
          decide
      · refine Artifact.executable_eq_false fun journey _ => ?_
        rw [ne_eq, Artifact.contextFile_eq_baseNames_iff]
        exact fun same => differ same.2
  | recipe journey member =>
      obtain ⟨earlier, last, later, journeys, same, none⟩ := Scenario.exists_last_journey member
      obtain ⟨before, after, artifacts, apart⟩ :=
        Scenario.artifacts_eq_of_journeys run journeys none
      have names : Artifact.contextFile last.name Naming.recipeFile =
          Artifact.contextFile journey.name Naming.recipeFile :=
        Artifact.contextFile_inj.mpr ⟨same, rfl⟩
      refine ⟨before, .recipe run last.name, .script last :: after, artifacts, by simp [names],
        rfl, ?_, ?_⟩
      · intro other inside
        rw [← names]
        rcases List.mem_cons.mp inside with rfl | inAfter
        · rw [Artifact.steps_script, ne_eq, Artifact.contextFile_inj]
          exact fun equal => differ equal.2
        · exact apart other inAfter Naming.recipeFile
      · refine Artifact.executable_eq_false fun other _ => ?_
        rw [ne_eq, Artifact.contextFile_inj]
        exact fun equal => differ equal.2
  | script earlier journey later journeys last =>
      obtain ⟨before, after, artifacts, apart⟩ :=
        Scenario.artifacts_eq_of_journeys run journeys last
      refine ⟨before ++ [.recipe run journey.name], .script journey, after, by simp [artifacts],
        by simp, rfl, fun other inAfter => apart other inAfter Naming.scriptFile, ?_⟩
      rw [List.any_eq_true]
      refine ⟨.script journey, by simp [artifacts], ?_⟩
      rw [Artifact.steps_script]
      simp [Artifact.script]

/-- To every place that a file is written to belongs a file of the workspace. -/
theorem exists_of_mem {artifact : Artifact} (member : artifact ∈ scenario.artifacts run) :
    ∃ text executable, FileOf scenario run artifact.path.steps text executable := by
  rcases Scenario.mem_artifacts_iff.mp member with rfl | ⟨journey, isJourney, rfl | rfl⟩ | rfl
  · rw [Artifact.steps_base]
    by_cases free : ∀ journey ∈ scenario.journeys,
        Naming.sanitize journey.name ≠ Naming.baseDirectory
    · exact ⟨_, _, .base free⟩
    · -- A journey has taken the place of the base image.
      push Not at free
      obtain ⟨journey, isJourney, same⟩ := free
      rw [← Artifact.contextFile_eq_baseNames_iff.mpr ⟨same, rfl⟩]
      exact ⟨_, _, .recipe journey isJourney⟩
  · rw [Artifact.steps_recipe]
    exact ⟨_, _, .recipe journey isJourney⟩
  · obtain ⟨earlier, last, later, journeys, same, none⟩ := Scenario.exists_last_journey isJourney
    have names : Artifact.contextFile last.name Naming.scriptFile =
        Artifact.contextFile journey.name Naming.scriptFile :=
      Artifact.contextFile_inj.mpr ⟨same, rfl⟩
    rw [Artifact.steps_script, ← names]
    exact ⟨_, _, .script earlier last later journeys none⟩
  · rw [Artifact.steps_manifest]
    exact ⟨_, _, .manifest⟩

theorem executable_iff (file : FileOf scenario run names text executable) :
    executable = true ↔ names.getLast? = some Naming.scriptFile := by
  cases file with
  | manifest => decide
  | base free => decide
  | recipe journey member =>
      have differ : Naming.recipeFile ≠ Naming.scriptFile := by decide
      simp [Artifact.contextFile, List.getLast?_cons, differ]
  | script earlier journey later journeys last => simp [Artifact.contextFile, List.getLast?_cons]

end FileOf

/-! ## The files of a workspace -/

/-- What a workspace holds once it has been made at a location. -/
structure Furnished (scenario : Scenario) (run : RunId) (location : Location) (tree : FileTree) :
    Prop where
  /-- There are no files in the workspace but these, and they hold what they should. -/
  files : ∀ names contents executable,
    tree.get? (location ++ names) = some (.file contents executable) ↔
      ∃ text, FileOf scenario run names text executable ∧
        contents = Text.Utf8.encode text.toList
  /-- Every journey has a script, which may be that of a later one. -/
  script : ∀ journey ∈ scenario.journeys, ∃ contents,
    tree.get? (location ++ Artifact.contextFile journey.name Naming.scriptFile) =
      some (.file contents true)
  others : ∀ names entry, tree.get? (location ++ names) = some entry →
    entry = .directory ∨ ∃ contents executable, entry = .file contents executable
  /-- The base image has its own description unless a journey has taken the place of it. -/
  base : tree.get? (location ++ Artifact.baseNames) =
      some (.file (Text.Utf8.encode Recipe.base.toList) false) ↔
    ∀ journey ∈ scenario.journeys, Naming.sanitize journey.name ≠ Naming.baseDirectory
  executable : ∀ names contents executable,
    tree.get? (location ++ names) = some (.file contents executable) →
      (executable = true ↔ names.getLast? = some Naming.scriptFile)

namespace Scenario

variable {tree made : FileTree} {root : Path} {directory : Location} {run : RunId}

/-- A compilation that succeeds writes all files of the workspace into its new directory. -/
theorem compileTree_written (scenario : Scenario) {workspace : Workspace}
    (site : Site tree root directory (Naming.workspaceDirectory run))
    (fits : ¬ TooLong root (Naming.workspaceDirectory run))
    (compiled : scenario.compileTree tree root run = (.ok workspace, made)) :
    Artifact.writeAll (tree.put (directory ++ [Naming.workspaceDirectory run]) .directory)
      (Workspace.under root run).path (scenario.artifacts run) = (.ok (), made) := by
  have new := makeDirectory_workspace (site.leadsInto (.refl tree))
    (site.get?_directory (.refl tree)) fits (site.vacant _ List.prefix_rfl)
  unfold compileTree at compiled
  dsimp only at compiled
  rw [new] at compiled
  dsimp only at compiled
  generalize Artifact.writeAll _ _ _ = outcome at compiled ⊢
  obtain ⟨result, after⟩ := outcome
  cases result with
  | error error => cases compiled
  | ok done =>
      cases compiled
      rfl

theorem area_workspace (site : Site tree root directory (Naming.workspaceDirectory run))
    (fits : ¬ TooLong root (Naming.workspaceDirectory run)) :
    let location := directory ++ [Naming.workspaceDirectory run]
    Area (tree.put location .directory) (tree.put location .directory)
      (Workspace.under root run).path location := by
  intro location
  have proper : location ≠ [] := by simp [location]
  have outside := sameOutside_put tree .directory (List.prefix_refl location)
  have alongside := alongside_put proper site.vacant (.refl tree) (.refl tree) site.vacant
    site.vacant
  have found := site.find_of_inhabited (site.grows (.refl tree) outside) alongside.inhabited .target
  rw [if_neg fits] at found
  refine ⟨found, Path.endsInName_joinName root site.plain, ?_, .refl _, alongside.inhabited,
    alongside.linkless⟩
  intro place contents executable inside
  rw [get?_put tree proper]
  split
  · simp
  · rw [site.vacant place inside]
    simp

end Scenario

/-! ## Files by their places -/

theorem recipe_base_ne_journey (run : RunId) : Recipe.base ≠ Recipe.journey run := by
  intro same
  have letters : Recipe.base.toList.take 6 = (Recipe.journey run).toList.take 6 := by rw [same]
  have alpine : Recipe.base.toList.take 6 = "FROM a".toList := by decide +kernel
  have image : (Recipe.journey run).toList.take 6 = "FROM c".toList := by
    have front : "FROM ".toList ++ "chaosflow_journey_base_".toList =
        "FROM c".toList ++ "haosflow_journey_base_".toList := by decide
    unfold Recipe.journey Naming.baseImage
    rw [String.toList_append, String.toList_append, String.toList_append, ← List.append_assoc,
      front, List.append_assoc, List.append_assoc, List.take_left']
    rfl
  rw [alpine, image] at letters
  exact absurd letters (by decide)

section Filled

variable {scenario : Scenario} {run : RunId} {location : Location} {tree made : FileTree}
  (filled : Artifact.Filled location (scenario.artifacts run) tree made)
include filled

/-- Where no file of the scenario belongs, there is no new file. -/
theorem Artifact.Filled.fileOf_or_kept (names : List String) :
    (∃ text executable, FileOf scenario run names text executable) ∨
      made.get? (location ++ names) = tree.get? (location ++ names) ∨
      made.get? (location ++ names) = some .directory := by
  by_cases goes : ∃ artifact ∈ scenario.artifacts run, artifact.path.steps = names
  · obtain ⟨artifact, member, rfl⟩ := goes
    exact Or.inl (FileOf.exists_of_mem member)
  · right
    rcases filled.elsewhere (location ++ names) fun artifact member same =>
      goes ⟨artifact, member, (List.append_cancel_left same).symm⟩ with
      same | ⟨artifact, member, -, new, -⟩
    · exact Or.inl same
    · exact Or.inr new

variable (bare : ∀ names contents executable,
    tree.get? (location ++ names) ≠ some (.file contents executable))
include bare

theorem Artifact.Filled.get?_of_fileOf {names : List String} {text : String} {executable : Bool}
    (file : FileOf scenario run names text executable) :
    made.get? (location ++ names) =
      some (.file (Text.Utf8.encode text.toList) executable) := by
  obtain ⟨earlier, artifact, later, split, rfl, rfl, last, mode⟩ := file.written_last
  have unmarked : tree.isExecutableAt (location ++ artifact.path.steps) = false := by
    unfold isExecutableAt
    split
    · next contents executable standing => exact absurd standing (bare _ contents executable)
    · rfl
  rw [filled.file earlier artifact later split last, mode, unmarked, Bool.false_or]
  rfl

theorem Artifact.Filled.file_iff {names : List String} {contents : List UInt8}
    {executable : Bool} :
    made.get? (location ++ names) = some (.file contents executable) ↔
      ∃ text, FileOf scenario run names text executable ∧
        contents = Text.Utf8.encode text.toList := by
  constructor
  · intro standing
    rcases filled.fileOf_or_kept names with ⟨text, mode, file⟩ | kept | directory
    · rw [filled.get?_of_fileOf bare file] at standing
      cases standing
      exact ⟨text, file, rfl⟩
    · rw [kept] at standing
      exact absurd standing (bare names contents executable)
    · rw [directory] at standing
      cases standing
  · rintro ⟨text, file, rfl⟩
    exact filled.get?_of_fileOf bare file

theorem Artifact.Filled.base_iff :
    made.get? (location ++ Artifact.baseNames) =
        some (.file (Text.Utf8.encode Recipe.base.toList) false) ↔
      ∀ journey ∈ scenario.journeys, Naming.sanitize journey.name ≠ Naming.baseDirectory := by
  constructor
  · intro standing journey member same
    have names : Artifact.contextFile journey.name Naming.recipeFile = Artifact.baseNames :=
      Artifact.contextFile_eq_baseNames_iff.mpr ⟨same, rfl⟩
    have taken := filled.get?_of_fileOf bare (.recipe journey member)
    rw [names, standing] at taken
    injection taken with entries
    injection entries with texts
    exact recipe_base_ne_journey run (String.toList_injective (Text.Utf8.encode_injective texts))
  · exact fun free => filled.get?_of_fileOf bare (.base free)

end Filled

/-! ## Compilations -/

namespace Scenario

/-- A compilation that succeeds leaves the files of the scenario in its new directory, and no
others. -/
theorem compile_furnished (scenario : Scenario) {host made : Host} {root : Path} {run : RunId}
    {workspace : Workspace} (wellFormed : host.tree.WellFormed)
    (compiled : scenario.compile host root run = (.ok workspace, made)) :
    ∃ location, made.tree.find .itself workspace.path = .ok (location, .directory) ∧
      Furnished scenario run location made.tree := by
  rw [compile_eq] at compiled
  rcases outcome : scenario.compileTree host.tree root run with ⟨result, tree⟩
  rw [outcome] at compiled
  cases compiled
  obtain ⟨rfl, directory, site, fits, outside, standing⟩ :=
    scenario.compileTree_ok wellFormed outcome
  have written := scenario.compileTree_written site fits outcome
  obtain ⟨-, filled⟩ := Artifact.writeAll_ok (area_workspace site fits)
    (scenario.inner_artifacts run) written
  have proper : directory ++ [Naming.workspaceDirectory run] ≠ [] := by simp
  -- The new directory is all that there is before the files are written.
  have empty : ∀ names entry, (host.tree.put (directory ++ [Naming.workspaceDirectory run])
      .directory).get? (directory ++ [Naming.workspaceDirectory run] ++ names) = some entry →
      entry = .directory := by
    intro names entry here
    rw [get?_put host.tree proper] at here
    split at here
    · exact (Option.some.inj here).symm
    · rw [site.vacant _ (List.prefix_append _ names)] at here
      cases here
  have bare : ∀ names contents executable,
      (host.tree.put (directory ++ [Naming.workspaceDirectory run]) .directory).get?
        (directory ++ [Naming.workspaceDirectory run] ++ names) ≠
          some (.file contents executable) := by
    intro names contents executable here
    cases empty names _ here
  refine ⟨directory ++ [Naming.workspaceDirectory run], ?_, ?_⟩
  · have found := site.find_of_inhabited (site.grows (.refl host.tree) outside) standing .itself
    rwa [if_neg fits] at found
  constructor
  case files => exact fun names contents executable => filled.file_iff bare
  case script =>
    intro journey member
    obtain ⟨earlier, last, later, journeys, same, none⟩ := exists_last_journey member
    rw [← Artifact.contextFile_inj.mpr ⟨same, rfl⟩]
    exact ⟨_, filled.get?_of_fileOf bare (.script earlier last later journeys none)⟩
  case others =>
    intro names entry here
    rcases filled.fileOf_or_kept names with ⟨text, mode, file⟩ | kept | isDirectory
    · rw [filled.get?_of_fileOf bare file] at here
      exact Or.inr ⟨_, _, (Option.some.inj here).symm⟩
    · exact Or.inl (empty names entry (kept.symm.trans here))
    · rw [isDirectory] at here
      exact Or.inl (Option.some.inj here).symm
  case base => exact filled.base_iff bare
  case executable =>
    intro names contents executable here
    obtain ⟨text, file, -⟩ := (filled.file_iff bare).mp here
    exact file.executable_iff

/-- A scenario with two journeys whose names become that of the directory of the base image. -/
def crowdedScenario : Scenario where
  services := []
  journeys := [{ name := "-base" }, { name := "/base", steps := ["true"] }]
  stages := []

/-- A host with an empty directory. -/
def emptyHost : Host where
  tree.entries := [(["w"], .directory)]

private theorem compile_crowded :
    (crowdedScenario.compile emptyHost ⟨"w"⟩ 7).1 =
      .ok (Workspace.under ⟨"w"⟩ 7) := by
  decide +kernel

/-- Only the first part of an outcome needs to be computed. -/
theorem exists_of_fst {α β : Type} {outcome : α × β} {result : α}
    (first : outcome.1 = result) : ∃ second, outcome = (result, second) :=
  ⟨outcome.2, Prod.ext first rfl⟩

/-- Of journeys with colliding names the last has its script in the workspace, and the base image
has lost its description. -/
theorem compile_furnished_of_collisions :
    emptyHost.tree.WellFormed ∧
      ∃ workspace made location,
        crowdedScenario.compile emptyHost ⟨"w"⟩ 7 = (.ok workspace, made) ∧
          made.tree.find .itself workspace.path = .ok (location, .directory) ∧
          made.tree.get? (location ++ Artifact.contextFile "/base" Naming.scriptFile) =
            some (.file (Text.Utf8.encode
              (Recipe.script { name := "/base", steps := ["true"] }).toList) true) ∧
          made.tree.get? (location ++ Artifact.baseNames) ≠
            some (.file (Text.Utf8.encode Recipe.base.toList) false) := by
  have wellFormed : emptyHost.tree.WellFormed := FileTree.wellFormed_of_entries (by decide +kernel)
  obtain ⟨made, compiled⟩ := exists_of_fst compile_crowded
  obtain ⟨location, found, furnished⟩ := compile_furnished crowdedScenario wellFormed compiled
  refine ⟨wellFormed, _, made, location, compiled, found, ?_, ?_⟩
  · refine (furnished.files _ _ _).mpr ⟨_, ?_, rfl⟩
    exact .script [{ name := "-base" }] { name := "/base", steps := ["true"] } [] rfl (by simp)
  · intro described
    have free := furnished.base.mp described { name := "-base" } (by simp [crowdedScenario])
    exact absurd free (by decide)

end Scenario

end FaultDrill
