import Mathlib.Data.List.Induction
import FaultDrill.Plan
import FaultDrill.Proofs.Naming

/-!
Where the files of a workspace lie.

Owns:
- paths that are joined to a directory and go down from it along plain names;
- the names that lead to the build context of a journey, and to every file of a workspace.

Main statements: whatever the names in a scenario, every file of its workspace is below the
workspace (`inner_artifacts`), and each piece of its path is one of a few fixed names or a
sanitized one (`isComponent_of_mem_pieces`).
-/

namespace FaultDrill

open Path (PlainName)

/-! ## Joined paths -/

namespace Path

theorem endsInName_mk {name : String} (plain : PlainName name) : (Path.mk name).EndsInName :=
  ⟨[], name, plain, rfl, Or.inl rfl⟩

/-- To go down from a joined path is to join a path that goes down. -/
theorem join_joinName (directory : Path) {part : Path} {name : String}
    (relative : part.isAbsolute = false) (named : part.EndsInName)
    (joinedNamed : (directory.join part).EndsInName) (plain : PlainName name) :
    directory.join (part.joinName name) = (directory.join part).joinName name := by
  have partText := text_joinName_of_endsInName named plain
  have joinedText := text_joinName_of_endsInName joinedNamed plain
  have relativeStep : (part.joinName name).isAbsolute = false := by
    rw [isAbsolute_joinName part plain, relative]
  have texts : (directory.join (part.joinName name)).text =
      (directory.join part).text ++ "/" ++ name := by
    unfold join
    simp only [relativeStep, relative, Bool.false_eq_true, if_false, partText]
    split
    · simp only [String.append_assoc]
    · simp only [String.append_assoc]
  cases joined : directory.join (part.joinName name)
  cases stepped : (directory.join part).joinName name
  rw [joined] at texts
  rw [stepped] at joinedText
  exact congrArg Path.mk (texts.trans joinedText.symm)

theorem join_descend (directory : Path) {name : String} {names : List String}
    (plain : ∀ step ∈ name :: names, PlainName step) :
    directory.join ((Path.mk name).descend names) = directory.descend (name :: names) := by
  have headPlain := plain name (by simp)
  induction names using List.reverseRecOn with
  | nil => rfl
  | append_singleton names last inductionHypothesis =>
      have frontPlain : ∀ step ∈ names, PlainName step :=
        fun step member => plain step (by simp [member])
      have front := inductionHypothesis fun step member => by
        rcases List.mem_cons.mp member with rfl | later
        · exact headPlain
        · exact frontPlain step later
      have relative : ((Path.mk name).descend names).isAbsolute = false := by
        rw [isAbsolute_descend _ frontPlain, headPlain.not_isAbsolute]
      have named := endsInName_descend (endsInName_mk headPlain) frontPlain
      have joinedNamed : (directory.join ((Path.mk name).descend names)).EndsInName := by
        rw [front, descend_cons]
        exact endsInName_descend (endsInName_joinName directory headPlain) frontPlain
      rw [descend_append, descend_cons, descend_nil,
        join_joinName directory relative named joinedNamed (plain last (by simp)), front,
        ← List.cons_append, descend_append, descend_cons _ last, descend_nil]

/-- An empty name leaves a separator, which leads nowhere. -/
theorem joinName_empty {directory : Path} {name : String} (named : directory.EndsInName)
    (plain : PlainName name) :
    (directory.joinName "").joinName name = directory.joinName name := by
  have relative : (Path.mk "").isAbsolute = false := rfl
  have relativeName := plain.not_isAbsolute
  have nonempty := named.text_ne_empty
  have unslashed := named.getLast?_ne_separator
  have slashed : (directory.text ++ "/").toList.getLast? = some '/' := by simp
  unfold joinName join
  simp only [relative, relativeName, Bool.false_eq_true, if_false, nonempty, unslashed,
    false_or, slashed, or_true, if_true, String.append_empty]

theorem pieces_descend {path : Path} {names : List String} (named : path.EndsInName)
    (plain : ∀ name ∈ names, PlainName name) :
    (path.descend names).pieces = path.pieces ++ names.map String.toList := by
  induction names generalizing path with
  | nil => simp
  | cons name names inductionHypothesis =>
      have headPlain := plain name (by simp)
      have stepped : (path.joinName name).pieces = path.pieces ++ [name.toList] := by
        have text : (path.joinName name).text.toList = path.text.toList ++ '/' :: name.toList := by
          rw [text_joinName_of_endsInName named headPlain]
          simp
        unfold pieces
        rw [text, split_append_separator, headPlain.split_eq]
      rw [descend_cons, inductionHypothesis (endsInName_joinName path headPlain)
        (fun other member => plain other (by simp [member])), stepped]
      simp

theorem steps_descend (path : Path) {names : List String}
    (plain : ∀ name ∈ names, PlainName name) :
    (path.descend names).steps = path.steps ++ names := by
  induction names generalizing path with
  | nil => simp
  | cons name names inductionHypothesis =>
      rw [descend_cons, inductionHypothesis _ (fun other member => plain other (by simp [member])),
        steps_joinName path (plain name (by simp)), List.append_assoc, List.singleton_append]

end Path

/-! ## Files of a workspace -/

/-- A relative path that goes down along plain names. -/
def Inner (path : Path) : Prop :=
  ∃ name names, (∀ step ∈ name :: names, PlainName step) ∧ path = (Path.mk name).descend names

theorem Path.steps_descend_mk {name : String} {names : List String}
    (plain : ∀ step ∈ name :: names, PlainName step) :
    ((Path.mk name).descend names).steps = name :: names := by
  have headPlain := plain name (by simp)
  have single : (Path.mk name).steps = [name] := by
    unfold steps pieces
    rw [headPlain.split_eq]
    simp [headPlain.nonempty]
  rw [steps_descend _ fun step member => plain step (List.mem_cons_of_mem name member), single]
  rfl

namespace Inner

variable {path : Path}

theorem plain (inner : Inner path) : ∀ step ∈ path.steps, PlainName step := by
  obtain ⟨name, names, plain, rfl⟩ := inner
  rwa [Path.steps_descend_mk plain]

theorem steps_ne_nil (inner : Inner path) : path.steps ≠ [] := by
  obtain ⟨name, names, plain, rfl⟩ := inner
  rw [Path.steps_descend_mk plain]
  simp

/-- To join the path is to go down along its steps. -/
theorem join_eq (inner : Inner path) (root : Path) : root.join path = root.descend path.steps := by
  obtain ⟨name, names, plain, rfl⟩ := inner
  rw [Path.steps_descend_mk plain, Path.join_descend root plain]

theorem not_isAbsolute (inner : Inner path) : path.isAbsolute = false := by
  obtain ⟨name, names, plain, rfl⟩ := inner
  rw [Path.isAbsolute_descend _ fun step member => plain step (List.mem_cons_of_mem name member)]
  exact (plain name (by simp)).not_isAbsolute

theorem pieces_eq (inner : Inner path) : path.pieces = path.steps.map String.toList := by
  obtain ⟨name, names, plain, rfl⟩ := inner
  have headPlain := plain name (by simp)
  have single : (Path.mk name).pieces = [name.toList] := headPlain.split_eq
  rw [Path.pieces_descend (Path.endsInName_mk headPlain)
    fun step member => plain step (List.mem_cons_of_mem name member),
    Path.steps_descend_mk plain, single]
  rfl

end Inner

namespace Naming

/-- The names that lead to the build context of a journey from the directory of all contexts: a
journey without a name has its files among the contexts. -/
def contextNames (journey : String) : List String :=
  if sanitize journey = "" then [] else [sanitize journey]

/-- Contexts are told apart by what the names of their journeys become. -/
theorem contextNames_inj {first second : String} :
    contextNames first = contextNames second ↔ sanitize first = sanitize second := by
  unfold contextNames
  grind

theorem contextNames_eq_singleton_iff {journey name : String} (nonempty : name ≠ "") :
    contextNames journey = [name] ↔ sanitize journey = name := by
  unfold contextNames
  grind

theorem plainName_of_mem_contextNames {journey name : String}
    (member : name ∈ contextNames journey) : PlainName name := by
  unfold contextNames at member
  split at member
  · cases member
  · next nonempty =>
      rw [List.mem_singleton.mp member]
      exact (plainName_sanitize journey).resolve_left nonempty

theorem isNameChar_of_mem_contextNames {journey name : String}
    (member : name ∈ contextNames journey) : ∀ char ∈ name.toList, isNameChar char = true := by
  unfold contextNames at member
  split at member
  · cases member
  · rw [List.mem_singleton.mp member]
    exact fun _ => isNameChar_of_mem_sanitize journey

/-- A name that may stand between separators in the path of a file of a workspace. -/
def IsComponent (name : String) : Prop :=
  name = manifestFile ∨ name = recipeFile ∨ name = scriptFile ∨
    name ≠ "" ∧ ∀ char ∈ name.toList, isNameChar char = true

theorem isComponent_of_all {name : String} (nonempty : name ≠ "")
    (allowed : name.toList.all isNameChar = true) : IsComponent name :=
  Or.inr (Or.inr (Or.inr ⟨nonempty, List.all_eq_true.mp allowed⟩))

end Naming

namespace Artifact

/-- The names that lead from the workspace to the description of the base image. -/
def baseNames : List String :=
  [Naming.journeysDirectory, Naming.baseDirectory, Naming.recipeFile]

/-- The names that lead from the workspace to a file in the build context of a journey. -/
def contextFile (journey file : String) : List String :=
  Naming.journeysDirectory :: (Naming.contextNames journey ++ [file])

/-- The file that describes the base image. -/
def base : Artifact where
  path := (Path.mk Naming.journeysDirectory).descend [Naming.baseDirectory, Naming.recipeFile]
  contents := Recipe.base

/-- The file that describes the image of a journey. -/
def recipe (run : RunId) (journey : String) : Artifact where
  path := (Path.mk Naming.journeysDirectory).descend
    (Naming.contextNames journey ++ [Naming.recipeFile])
  contents := Recipe.journey run

/-- The file with the script of a journey. -/
def script (journey : Journey) : Artifact where
  path := (Path.mk Naming.journeysDirectory).descend
    (Naming.contextNames journey.name ++ [Naming.scriptFile])
  contents := Recipe.script journey
  executable := true

/-- The file that describes all nodes. -/
def manifest (scenario : Scenario) (run : RunId) : Artifact where
  path := ⟨Naming.manifestFile⟩
  contents := (Manifest.ofScenario scenario run).text

end Artifact

namespace Scenario

private theorem path_contextFile (journey : String) {file : String} (plainFile : PlainName file) :
    (journeysPath.joinName (Naming.sanitize journey)).joinName file =
      (Path.mk Naming.journeysDirectory).descend (Naming.contextNames journey ++ [file]) := by
  have plainDirectory : PlainName Naming.journeysDirectory := by decide
  unfold Naming.contextNames
  split
  · next empty =>
      rw [empty, journeysPath, Path.joinName_empty (Path.endsInName_mk plainDirectory) plainFile]
      rfl
  · rfl

theorem journeyArtifacts_eq (run : RunId) (journey : Journey) :
    journeyArtifacts run journey = [.recipe run journey.name, .script journey] := by
  have plainRecipe : PlainName Naming.recipeFile := by decide
  have plainScript : PlainName Naming.scriptFile := by decide
  unfold journeyArtifacts Artifact.recipe Artifact.script
  rw [← path_contextFile journey.name plainRecipe, ← path_contextFile journey.name plainScript]

theorem artifacts_eq (scenario : Scenario) (run : RunId) :
    scenario.artifacts run =
      .base :: scenario.journeys.flatMap (fun journey =>
        [.recipe run journey.name, .script journey]) ++ [.manifest scenario run] := by
  unfold artifacts
  rw [funext (journeyArtifacts_eq run)]
  rfl

end Scenario

/-- What a file of a workspace is. -/
theorem Scenario.mem_artifacts_iff {scenario : Scenario} {run : RunId} {artifact : Artifact} :
    artifact ∈ scenario.artifacts run ↔
      artifact = .base ∨
      (∃ journey ∈ scenario.journeys,
        artifact = .recipe run journey.name ∨ artifact = .script journey) ∨
      artifact = .manifest scenario run := by
  rw [artifacts_eq]
  simp [List.mem_flatMap]

/-! ## Their paths -/

namespace Artifact

private theorem plain_contextFile (journey : String) {file : String} (plainFile : PlainName file) :
    ∀ name ∈ contextFile journey file, PlainName name := by
  have plainDirectory : PlainName Naming.journeysDirectory := by decide
  intro name member
  unfold contextFile at member
  rw [List.mem_cons, List.mem_append, List.mem_singleton] at member
  rcases member with rfl | inContext | rfl
  · exact plainDirectory
  · exact Naming.plainName_of_mem_contextNames inContext
  · exact plainFile

@[simp] theorem steps_base : base.path.steps = baseNames :=
  Path.steps_descend_mk (by decide)

@[simp] theorem steps_recipe (run : RunId) (journey : String) :
    (recipe run journey).path.steps = contextFile journey Naming.recipeFile :=
  Path.steps_descend_mk (plain_contextFile journey (by decide))

@[simp] theorem steps_script (journey : Journey) :
    (script journey).path.steps = contextFile journey.name Naming.scriptFile :=
  Path.steps_descend_mk (plain_contextFile journey.name (by decide))

@[simp] theorem steps_manifest (scenario : Scenario) (run : RunId) :
    (manifest scenario run).path.steps = [Naming.manifestFile] := by
  have plain : ∀ step ∈ [Naming.manifestFile], PlainName step := by decide
  have steps := Path.steps_descend_mk plain
  rwa [Path.descend_nil] at steps

end Artifact

namespace Scenario

/-- Every file of a workspace is below it, whatever the names of the journeys. -/
theorem inner_artifacts (scenario : Scenario) (run : RunId) :
    ∀ artifact ∈ scenario.artifacts run, Inner artifact.path := by
  intro artifact member
  rcases mem_artifacts_iff.mp member with rfl | ⟨journey, -, rfl | rfl⟩ | rfl
  · exact ⟨_, _, by decide, rfl⟩
  · exact ⟨_, _, Artifact.plain_contextFile journey.name (by decide), rfl⟩
  · exact ⟨_, _, Artifact.plain_contextFile journey.name (by decide), rfl⟩
  · exact ⟨_, [], by decide, rfl⟩

private theorem isComponent_of_mem_contextFile {journey file name : String}
    (isFile : file = Naming.recipeFile ∨ file = Naming.scriptFile)
    (member : name ∈ Artifact.contextFile journey file) : Naming.IsComponent name := by
  unfold Artifact.contextFile at member
  rw [List.mem_cons, List.mem_append, List.mem_singleton] at member
  rcases member with rfl | inContext | rfl
  · exact Naming.isComponent_of_all (by decide) (by decide)
  · exact Or.inr (Or.inr (Or.inr ⟨(Naming.plainName_of_mem_contextNames inContext).nonempty,
      Naming.isNameChar_of_mem_contextNames inContext⟩))
  · rcases isFile with rfl | rfl
    · exact Or.inr (Or.inl rfl)
    · exact Or.inr (Or.inr (Or.inl rfl))

/-- Between the separators in the path of a file stand fixed and sanitized names alone. -/
theorem isComponent_of_mem_pieces {scenario : Scenario} {run : RunId} {artifact : Artifact}
    (member : artifact ∈ scenario.artifacts run) {piece : List Char}
    (inside : piece ∈ artifact.path.pieces) : Naming.IsComponent (String.ofList piece) := by
  rw [(scenario.inner_artifacts run artifact member).pieces_eq, List.mem_map] at inside
  obtain ⟨step, isStep, rfl⟩ := inside
  rw [String.ofList_toList]
  rcases mem_artifacts_iff.mp member with rfl | ⟨journey, -, rfl | rfl⟩ | rfl
  · rw [Artifact.steps_base] at isStep
    simp only [Artifact.baseNames, List.mem_cons, List.not_mem_nil, or_false] at isStep
    rcases isStep with rfl | rfl | rfl
    · exact Naming.isComponent_of_all (by decide) (by decide)
    · exact Naming.isComponent_of_all (by decide) (by decide)
    · exact Or.inr (Or.inl rfl)
  · rw [Artifact.steps_recipe] at isStep
    exact isComponent_of_mem_contextFile (Or.inl rfl) isStep
  · rw [Artifact.steps_script] at isStep
    exact isComponent_of_mem_contextFile (Or.inr rfl) isStep
  · rw [Artifact.steps_manifest, List.mem_singleton] at isStep
    exact Or.inl isStep

end Scenario

end FaultDrill
