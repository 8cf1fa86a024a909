import Mathlib.Data.List.Forall2
import FaultDrill.Lifecycle
import FaultDrill.Proofs.Lifecycle.Stop
import FaultDrill.Proofs.Workspace.Contents

/-!
The names on which the files of a workspace and the calls about it agree.

Owns:
- paths that lead to the same directory in every tree;
- the image that a description of an image starts from;
- the lines of a manifest about a node;
- all places where an image, a directory, the network or the manifest of a run is named.

Main statement: in a workspace that has been made, each of these is named alike in the files and in
the calls (`compile_agrees`).
-/

namespace FaultDrill

open FileTree
open Path (PlainName)

/-! ## Directories under several paths -/

/-- Two paths lead to the same directory, or both to none, whatever files there are. -/
def Path.SameDirectory (first second : Path) : Prop :=
  ∀ (tree : FileTree) (directory : Location),
    tree.LeadsInto first directory ↔ tree.LeadsInto second directory

namespace Path

/-- Paths with the same components lead to the same directory. -/
theorem sameDirectory_of_components {first second : Path}
    (absolute : first.isAbsolute = second.isAbsolute)
    (free : first.NulFree ↔ second.NulFree) (same : first.components = second.components) :
    first.SameDirectory second := by
  intro tree directory
  unfold LeadsInto
  rw [start_eq absolute, walk_bare, bare_steps, same, ← bare_steps, ← walk_bare, free]

/-! ### Texts with a separator -/

theorem text_join {directory part : Path} (named : directory.EndsInName)
    (relative : part.isAbsolute = false) :
    (directory.join part).text = directory.text ++ "/" ++ part.text := by
  unfold join
  rw [relative, if_neg Bool.false_ne_true,
    if_neg (by simp [named.text_ne_empty, named.getLast?_ne_separator])]

theorem steps_separated (first rest : String) :
    (Path.mk (first ++ "/" ++ rest)).steps = (Path.mk first).steps ++ (Path.mk rest).steps := by
  have letters : (first ++ "/" ++ rest).toList = first.toList ++ '/' :: rest.toList := by simp
  unfold steps pieces
  rw [letters, split_append_separator, List.filter_append, List.map_append]

theorem components_separated (first rest : String) :
    (Path.mk (first ++ "/" ++ rest)).components =
      (Path.mk first).components ++ (Path.mk rest).components := by
  rw [← bare_steps, steps_separated, bare_append, bare_steps, bare_steps]

theorem isAbsolute_separated {first : String} (nonempty : first ≠ "") (rest : String) :
    (Path.mk (first ++ "/" ++ rest)).isAbsolute = (Path.mk first).isAbsolute := by
  have letters : first.toList ≠ [] := fun none =>
    nonempty (String.toList_injective none)
  obtain ⟨char, more, parts⟩ := List.exists_cons_of_ne_nil letters
  unfold isAbsolute
  simp [parts]

theorem nulFree_separated (first rest : String) :
    (Path.mk (first ++ "/" ++ rest)).NulFree ↔
      (Path.mk first).NulFree ∧ (Path.mk rest).NulFree := by
  unfold NulFree
  simp

end Path

/-! ## Build contexts -/

namespace Naming

theorem steps_sanitize (journey : String) :
    (Path.mk (sanitize journey)).steps = contextNames journey := by
  unfold contextNames Path.steps Path.pieces
  rcases plainName_sanitize journey with empty | plain
  · rw [empty]
    rfl
  · rw [if_neg plain.nonempty, plain.split_eq]
    simp [plain.nonempty]

theorem not_isAbsolute_sanitize (journey : String) :
    (Path.mk (sanitize journey)).isAbsolute = false := by
  rcases plainName_sanitize journey with empty | plain
  · rw [empty]
    rfl
  · exact plain.not_isAbsolute

end Naming

namespace Workspace

variable {workspace : Workspace} (named : workspace.path.EndsInName)
include named

theorem text_journeyContext (journey : String) :
    (workspace.journeyContext journey).text =
      workspace.path.text ++ "/" ++ ("_journeys" ++ "/" ++ Naming.sanitize journey) := by
  have plain : PlainName Naming.journeysDirectory := by decide
  unfold journeyContext
  rw [Path.joinName, Path.text_join (Path.endsInName_joinName _ plain)
    (Naming.not_isAbsolute_sanitize journey), Path.text_joinName_of_endsInName named plain]
  simp only [String.append_assoc]
  rfl

/-- What a manifest says about the build context of a journey, seen from the workspace, is this
context. -/
theorem sameDirectory_build (journey : String) :
    (workspace.path.join
      ⟨"./" ++ Naming.journeysDirectory ++ "/" ++ Naming.sanitize journey⟩).SameDirectory
      (workspace.journeyContext journey) := by
  have direct := text_journeyContext named journey
  have dotted : (workspace.path.join
      ⟨"./" ++ Naming.journeysDirectory ++ "/" ++ Naming.sanitize journey⟩).text =
        workspace.path.text ++ "/" ++
          ("." ++ "/" ++ ("_journeys" ++ "/" ++ Naming.sanitize journey)) := by
    have relative : (Path.mk ("./" ++ Naming.journeysDirectory ++ "/" ++
        Naming.sanitize journey)).isAbsolute = false := by
      simp [Path.isAbsolute]
    rw [Path.text_join named relative]
    simp only [String.append_assoc]
    rfl
  generalize workspace.path.join _ = first at dotted ⊢
  generalize workspace.journeyContext journey = second at direct ⊢
  obtain ⟨firstText⟩ := first
  obtain ⟨secondText⟩ := second
  dsimp only at dotted direct
  subst dotted direct
  refine Path.sameDirectory_of_components ?_ ?_ ?_
  · have nonempty := named.text_ne_empty
    rw [Path.isAbsolute_separated nonempty, Path.isAbsolute_separated nonempty]
  · have free : (Path.mk ".").NulFree := by simp [Path.NulFree]
    simp only [Path.nulFree_separated, free, true_and]
  · have dot : (Path.mk ".").components = [] := by decide
    simp only [Path.components_separated, dot, List.nil_append]

end Workspace

namespace Workspace

variable (workspace : Workspace)

theorem join_base : workspace.path.join Artifact.base.path =
    workspace.baseContext.joinName Naming.recipeFile :=
  Path.join_descend workspace.path (by decide)

/-- The files of a journey lie in its build context. -/
theorem join_contextFile (journey : String) {file : String} (plain : PlainName file) :
    workspace.path.join
        ((Path.mk Naming.journeysDirectory).descend (Naming.contextNames journey ++ [file])) =
      (workspace.journeyContext journey).joinName file := by
  have plainDirectory : PlainName Naming.journeysDirectory := by decide
  have plainAll : ∀ name ∈ Naming.journeysDirectory :: (Naming.contextNames journey ++ [file]),
      PlainName name := by
    intro name member
    rw [List.mem_cons, List.mem_append, List.mem_singleton] at member
    rcases member with rfl | inContext | rfl
    · exact plainDirectory
    · exact Naming.plainName_of_mem_contextNames inContext
    · exact plain
  rw [Path.join_descend workspace.path plainAll]
  unfold journeyContext Naming.contextNames
  split
  · next empty =>
      rw [empty, Path.joinName_empty (Path.endsInName_joinName _ plainDirectory) plain]
      rfl
  · rfl

end Workspace

/-! ## Images -/

namespace Recipe

/-- The image that a description starts from, if its first line names one. -/
def startingImage? (text : String) : Option String :=
  let line := text.toList.takeWhile (· != '\n')
  if "FROM ".toList.isPrefixOf line then some (String.ofList (line.drop 5)) else none

theorem startingImage?_journey (run : RunId) :
    startingImage? (journey run) = some (Naming.baseImage run) := by
  have stem : "FROM chaosflow_journey_base_".toList.all (· != '\n') = true := by decide
  have inside : ∀ char ∈ ("FROM " ++ Naming.baseImage run).toList, (char != '\n') = true := by
    intro char member
    unfold Naming.baseImage at member
    rw [← String.append_assoc, String.toList_append, List.mem_append] at member
    rcases member with inStem | inNumber
    · exact List.all_eq_true.mp stem char inStem
    · have allowed := Naming.isNameChar_of_mem_decimalText run.toNat inNumber
      rw [bne_iff_ne]
      rintro rfl
      exact absurd allowed (by decide)
  have line : (journey run).toList.takeWhile (· != '\n') =
      ("FROM " ++ Naming.baseImage run).toList := by
    unfold journey
    rw [String.toList_append, List.takeWhile_append_of_pos inside]
    simp
  unfold startingImage?
  rw [line]
  simp

end Recipe

/-! ## Calls -/

namespace Workspace

/-- A start builds the base image, and perhaps starts the topology after that. -/
theorem calls_up_begins (workspace : Workspace) (runtime : Runtime) (host : Host) :
    ∃ calls, (workspace.up runtime host).2.calls = host.calls ++ workspace.buildCall :: calls ∧
      calls <+: [workspace.upCall] := by
  obtain ⟨events, started, history⟩ := workspace.up_events runtime host
  unfold Host.calls
  rw [history, List.filterMap_append]
  generalize (workspace.up runtime host).1 = startup at started
  cases started with
  | buildInterrupted => exact ⟨[], rfl, List.nil_prefix⟩
  | buildFailed cause => exact ⟨[], rfl, List.nil_prefix⟩
  | upInterrupted => exact ⟨[workspace.upCall], rfl, List.prefix_rfl⟩
  | upFailed cause => exact ⟨[workspace.upCall], rfl, List.prefix_rfl⟩
  | completed => exact ⟨[workspace.upCall], rfl, List.prefix_rfl⟩

/-- A stop of a workspace that is there makes its two calls. -/
theorem calls_down_of_present {workspace : Workspace} (runtime : Runtime) {host : Host}
    (present : host.tree.stat workspace.path ≠ .error .notFound) :
    (workspace.down runtime host).2.calls =
      host.calls ++ [workspace.downCall, workspace.removeImageCall] := by
  have there : isAbsent host.tree workspace.path = false := by
    rw [Bool.eq_false_iff]
    exact mt (isAbsent_iff _ _).mp present
  rw [down_of_present runtime there]
  simp [Host.calls, Event.call?]

end Workspace

/-! ## Manifests -/

/-- The lines of a manifest about a node, which is on the network of the run; the image of a
journey's node is built in the build context of the journey. -/
inductive BlockOf (workspace : Workspace) : Service ⊕ Journey → List String → Prop where
  | service (service : Service) :
      BlockOf workspace (.inl service) [
        "  " ++ Naming.sanitize service.name ++ ":",
        "    image: " ++ Json.textLiteral service.image,
        "    networks:",
        "      - " ++ workspace.network]
  | journey (journey : Journey) (context : String)
      (same : (workspace.path.join ⟨context⟩).SameDirectory
        (workspace.journeyContext journey.name)) :
      BlockOf workspace (.inr journey) [
        "  " ++ Naming.journeyNode journey.name ++ ":",
        "    build: " ++ context,
        "    networks:",
        "      - " ++ workspace.network]

namespace Manifest

/-- The text of a manifest whose lines about nodes are given. -/
def textOf (blocks : List (List String)) (network : String) : String :=
  let services :=
    if blocks.isEmpty then ["services: \x7b\x7d"] else "services:" :: blocks.flatten
  String.join ((services ++ ["networks:", "  " ++ network ++ ":"]).map (· ++ "\n"))

theorem text_eq_textOf (manifest : Manifest) :
    manifest.text = textOf (manifest.nodes.map (Node.lines manifest.network)) manifest.network := by
  unfold text lines textOf
  rw [List.isEmpty_map, List.flatMap_def]

end Manifest

/-- The blocks of a scenario's manifest, for services and then for journeys. -/
theorem blocks_ofScenario (scenario : Scenario) {workspace : Workspace}
    (named : workspace.path.EndsInName) :
    List.Forall₂ (BlockOf workspace)
      (scenario.services.map Sum.inl ++ scenario.journeys.map Sum.inr)
      ((Manifest.ofScenario scenario workspace.runId).nodes.map
        (Node.lines workspace.network)) := by
  unfold Manifest.ofScenario
  rw [List.map_append, List.map_map, List.map_map]
  refine List.rel_append ?_ ?_
  · rw [List.forall₂_map_left_iff, List.forall₂_map_right_iff, List.forall₂_same]
    exact fun service _ => .service service
  · rw [List.forall₂_map_left_iff, List.forall₂_map_right_iff, List.forall₂_same]
    exact fun journey _ => .journey journey _ (workspace.sameDirectory_build named journey.name)

/-! ## Workspaces that have been made -/

/-- What is named alike in the files of a workspace, at a location of a tree, and in the calls
about it. -/
structure Agreement (scenario : Scenario) (workspace : Workspace) (location : Location)
    (tree : FileTree) : Prop where
  /-- A start builds this image in this context, and starts the topology in this directory. -/
  starts : ∀ runtime host, ∃ calls,
    (workspace.up runtime host).2.calls =
      host.calls ++ .buildImage workspace.baseImage workspace.baseContext :: calls ∧
    calls <+: [.composeUp workspace.path]
  /-- A stop, unless there is nothing to stop, is about the same directory and image. -/
  stops : ∀ runtime host, host.tree.stat workspace.path ≠ .error .notFound →
    (workspace.down runtime host).2.calls =
      host.calls ++
        [.composeDown workspace.path, .removeImage workspace.baseImage workspace.path]
  /-- The image of every journey starts from this image. -/
  recipes : ∀ journey ∈ scenario.journeys, ∃ text,
    tree.get? (location ++ Artifact.contextFile journey.name Naming.recipeFile) =
      some (.file (Text.Utf8.encode text.toList) false) ∧
    Recipe.startingImage? text = some workspace.baseImage
  /-- The description of the base image is planned for the context in which it is built. -/
  base : ∃ artifact ∈ scenario.artifacts workspace.runId,
    artifact.contents = Recipe.base ∧
      workspace.path.join artifact.path = workspace.baseContext.joinName Naming.recipeFile
  /-- Both files of a journey are planned for its context. -/
  contexts : ∀ journey ∈ scenario.journeys,
    ∃ recipe ∈ scenario.artifacts workspace.runId, ∃ script ∈ scenario.artifacts workspace.runId,
      recipe.contents = Recipe.journey workspace.runId ∧
      script.contents = Recipe.script journey ∧
      workspace.path.join recipe.path =
        (workspace.journeyContext journey.name).joinName Naming.recipeFile ∧
      workspace.path.join script.path =
        (workspace.journeyContext journey.name).joinName Naming.scriptFile
  /-- The manifest is in the directory itself; it puts every node on the network of the run, which
  is the only one, and builds every journey in its context. -/
  manifest : ∃ blocks,
    List.Forall₂ (BlockOf workspace)
      (scenario.services.map Sum.inl ++ scenario.journeys.map Sum.inr) blocks ∧
    (∃ artifact ∈ scenario.artifacts workspace.runId,
      artifact.contents = Manifest.textOf blocks workspace.network ∧
        workspace.path.join artifact.path = workspace.manifest ∧
        workspace.manifest.parent? = some workspace.path) ∧
    tree.get? (location ++ [Naming.manifestFile]) =
      some (.file (Text.Utf8.encode (Manifest.textOf blocks workspace.network).toList) false)

namespace Scenario

/-- The files of a scenario are in a workspace that has been made. -/
theorem compile_holds (scenario : Scenario) {host made : Host} {root : Path} {run : RunId}
    {workspace : Workspace} (wellFormed : host.tree.WellFormed)
    (compiled : scenario.compile host root run = (.ok workspace, made)) :
    workspace = Workspace.under root run ∧
      ∃ location, made.tree.LeadsInto workspace.path location ∧
        ∀ names text executable, FileOf scenario run names text executable →
          made.tree.get? (location ++ names) =
            some (.file (Text.Utf8.encode text.toList) executable) := by
  rw [compile_eq] at compiled
  rcases outcome : scenario.compileTree host.tree root run with ⟨result, tree⟩
  rw [outcome] at compiled
  cases compiled
  obtain ⟨rfl, directory, site, fits, outside, standing⟩ :=
    scenario.compileTree_ok wellFormed outcome
  have area := area_workspace site fits
  obtain ⟨areaAfter, filled⟩ := Artifact.writeAll_ok area (scenario.inner_artifacts run)
    (scenario.compileTree_written site fits outcome)
  exact ⟨rfl, _, leadsInto_of_find areaAfter.find_root, fun names text executable file =>
    filled.get?_of_fileOf (fun names contents executable =>
      area.fileless _ contents executable (List.prefix_append _ names)) file⟩

/-- In a workspace that has been made, the files and the calls agree on every name. -/
theorem compile_agrees (scenario : Scenario) {host made : Host} {root : Path} {run : RunId}
    {workspace : Workspace} (wellFormed : host.tree.WellFormed)
    (compiled : scenario.compile host root run = (.ok workspace, made)) :
    ∃ location, made.tree.LeadsInto workspace.path location ∧
      Agreement scenario workspace location made.tree := by
  obtain ⟨rfl, location, leads, holds⟩ := scenario.compile_holds wellFormed compiled
  have named : (Workspace.under root run).path.EndsInName :=
    Path.endsInName_joinName root (Naming.plainName_workspaceDirectory run)
  have text := (Manifest.ofScenario scenario run).text_eq_textOf
  have blocks := blocks_ofScenario scenario named
  refine ⟨location, leads, ?_⟩
  constructor
  case starts => exact fun runtime host => (Workspace.under root run).calls_up_begins runtime host
  case stops => exact fun runtime host present => Workspace.calls_down_of_present runtime present
  case recipes =>
    exact fun journey member =>
      ⟨_, holds _ _ _ (.recipe journey member), Recipe.startingImage?_journey run⟩
  case base =>
    exact ⟨.base, mem_artifacts_iff.mpr (Or.inl rfl), rfl, Workspace.join_base _⟩
  case contexts =>
    intro journey member
    refine ⟨.recipe run journey.name, ?_, .script journey, ?_, rfl, rfl, ?_, ?_⟩
    · exact mem_artifacts_iff.mpr (Or.inr (Or.inl ⟨journey, member, Or.inl rfl⟩))
    · exact mem_artifacts_iff.mpr (Or.inr (Or.inl ⟨journey, member, Or.inr rfl⟩))
    · exact Workspace.join_contextFile _ journey.name (by decide)
    · exact Workspace.join_contextFile _ journey.name (by decide)
  case manifest =>
    refine ⟨_, blocks, ⟨.manifest scenario run, ?_, text, rfl, ?_⟩, ?_⟩
    · exact mem_artifacts_iff.mpr (Or.inr (Or.inr rfl))
    · exact Path.parent?_joinName named (by decide)
    · have written := holds _ _ _ .manifest
      rw [text] at written
      exact written

/-- A scenario with a journey that has no name, whose files therefore lie among the contexts. -/
def namelessScenario : Scenario where
  services := [{ name := "a b", image := "\"" }]
  journeys := [{ name := "" }]
  stages := []

private theorem compile_nameless :
    (namelessScenario.compile emptyHost ⟨"w/"⟩ 7).1 = .ok (Workspace.under ⟨"w/"⟩ 7) := by
  decide +kernel

/-- The names agree where a journey has none, and under a path that ends in a separator. -/
theorem compile_agrees_of_nameless :
    emptyHost.tree.WellFormed ∧
      ∃ made location,
        namelessScenario.compile emptyHost ⟨"w/"⟩ 7 = (.ok (Workspace.under ⟨"w/"⟩ 7), made) ∧
          Agreement namelessScenario (Workspace.under ⟨"w/"⟩ 7) location made.tree := by
  have wellFormed : emptyHost.tree.WellFormed := FileTree.wellFormed_of_entries (by decide +kernel)
  obtain ⟨made, compiled⟩ := exists_of_fst compile_nameless
  obtain ⟨location, -, agreement⟩ := compile_agrees namelessScenario wellFormed compiled
  exact ⟨wellFormed, made, location, compiled, agreement⟩

end Scenario

end FaultDrill
