import FaultDrill.Proofs.Compile
import FaultDrill.Proofs.FileTree.Clearing

/-!
A compilation keeps to the directory of its run.

Owns: all that a compilation may change, and when it must change nothing.

Main statement: whatever the names in a scenario and wherever the compilation ends, it changes
nothing but what is at the place of the workspace or below it; where something stands there, or
where the directory of workspaces is missing, it fails and changes nothing (`compile_contained`).
-/

namespace FaultDrill

open FileTree

namespace Scenario

/-- What a compilation is limited to, given how it ends. -/
structure Contained (scenario : Scenario) (before : Host) (root : Path) (run : RunId)
    (result : Except ComposeError Workspace) (after : Host) : Prop where
  relative : ∀ artifact ∈ scenario.artifacts run, artifact.path.isAbsolute = false
  components : ∀ artifact ∈ scenario.artifacts run, ∀ piece ∈ artifact.path.pieces,
    Naming.IsComponent (String.ofList piece)
  base : after.tree.base = before.tree.base
  /-- However the compilation ends, what it changes is at the place of the workspace or below
  it. -/
  changes : ∀ place, after.tree.get? place ≠ before.tree.get? place →
    ∃ directory, before.tree.LeadsInto root directory ∧
      directory ++ [Naming.workspaceDirectory run] <+: place
  /-- Anything in the place of the workspace, a link that leads nowhere included, is left
  alone. -/
  occupied : ∀ directory entry, before.tree.LeadsInto root directory →
    before.tree.get? (directory ++ [Naming.workspaceDirectory run]) = some entry →
    (∃ cause, result = .error (.directory (Workspace.under root run).path cause)) ∧
      after.tree = before.tree
  rootless : root.text ≠ "" → before.tree.isDirectory root = false →
    (∃ cause, result = .error (.directory (Workspace.under root run).path cause)) ∧
      after.tree = before.tree
  /-- A workspace that is made was not there before. -/
  fresh : ∀ workspace, result = .ok workspace →
    workspace = Workspace.under root run ∧
      ∃ directory, before.tree.LeadsInto root directory ∧
        before.tree.VacantFrom (directory ++ [Naming.workspaceDirectory run]) ∧
        before.tree.find .itself workspace.path = .error .notFound ∧
        after.tree.find .itself workspace.path =
          .ok (directory ++ [Naming.workspaceDirectory run], .directory)

section Ends

variable (scenario : Scenario) {tree : FileTree} (root : Path) (run : RunId)

theorem compileTree_changes (wellFormed : tree.WellFormed) :
    (scenario.compileTree tree root run).2.base = tree.base ∧
      ∀ place, (scenario.compileTree tree root run).2.get? place ≠ tree.get? place →
        ∃ directory, tree.LeadsInto root directory ∧
          directory ++ [Naming.workspaceDirectory run] <+: place := by
  rcases scenario.compileTree_refused_or_site root run wellFormed with
    ⟨cause, refused⟩ | ⟨directory, site, fits⟩
  · rw [refused]
    exact ⟨rfl, fun place changed => absurd rfl changed⟩
  · have outside := (scenario.parallel_compileTree site (.refl tree) (.refl tree) site.vacant
      site.vacant fits).firstOutside
    refine ⟨outside.base, fun place changed => ⟨directory, site.leads, ?_⟩⟩
    by_contra apart
    exact changed (outside.get? place apart)

/-- Where the place of the workspace cannot be a site, a compilation is refused. -/
theorem compileTree_of_no_site (wellFormed : tree.WellFormed)
    (none : ∀ directory, Site tree root directory (Naming.workspaceDirectory run) →
      ¬ TooLong root (Naming.workspaceDirectory run) → False) :
    ∃ cause, scenario.compileTree tree root run =
      (.error (.directory (Workspace.under root run).path cause), tree) := by
  rcases scenario.compileTree_refused_or_site root run wellFormed with
    refused | ⟨directory, site, fits⟩
  · exact refused
  · exact (none directory site fits).elim

end Ends

/-- A compilation keeps to the directory of its run. -/
theorem compile_contained (scenario : Scenario) (host : Host) (root : Path) (run : RunId)
    (wellFormed : host.tree.WellFormed) :
    Contained scenario host root run (scenario.compile host root run).1
      (scenario.compile host root run).2 := by
  have changes := scenario.compileTree_changes root run wellFormed
  have refused := scenario.compileTree_of_no_site root run wellFormed
  rw [compile_eq]
  rcases outcome : scenario.compileTree host.tree root run with ⟨result, made⟩
  rw [outcome] at changes refused
  constructor
  case relative =>
    exact fun artifact member => (scenario.inner_artifacts run artifact member).not_isAbsolute
  case components => exact fun artifact member piece => isComponent_of_mem_pieces member
  case base => exact changes.1
  case changes => exact changes.2
  case occupied =>
    intro directory entry leads standing
    obtain ⟨cause, refusal⟩ := refused fun other site _ => by
      rw [leads.unique site.leads, site.vacant _ List.prefix_rfl] at standing
      cases standing
    cases refusal
    exact ⟨⟨cause, rfl⟩, rfl⟩
  case rootless =>
    intro text missing
    obtain ⟨cause, refusal⟩ := refused fun directory site fits => by
      unfold isDirectory stat at missing
      rw [site.find_root text fits] at missing
      cases missing
    cases refusal
    exact ⟨⟨cause, rfl⟩, rfl⟩
  case fresh =>
    intro workspace compiled
    dsimp only at compiled
    subst compiled
    obtain ⟨rfl, directory, site, fits, outside, standing⟩ :=
      scenario.compileTree_ok wellFormed outcome
    refine ⟨rfl, directory, site.leads, site.vacant, ?_, ?_⟩
    · have nowhere := site.find_of_vacant (.refl host.tree) (site.vacant _ List.prefix_rfl) .itself
      rwa [if_neg fits] at nowhere
    · have found := site.find_of_inhabited (site.grows (.refl host.tree) outside) standing .itself
      rwa [if_neg fits] at found

/-- A scenario whose names lead elsewhere if they are taken as paths. -/
def strayScenario : Scenario where
  services := [{ name := "../../etc" }]
  journeys := [{ name := "/etc/passwd" }, { name := "..", steps := ["true"] }, { name := "\x00" }]
  stages := []

/-- A host with a file outside the directory of workspaces, and in this a link that leads
nowhere. -/
def strayHost : Host where
  tree.entries := [
    (["etc"], .directory),
    (["etc", "passwd"], .file [0x78] false),
    (["ws"], .directory),
    (["ws", Naming.workspaceDirectory 7], .link ⟨"/nowhere"⟩)]

/-- Names that lead elsewhere do no harm there, and the link in the place of a workspace is left
alone. -/
theorem compile_contained_of_strayNames :
    strayHost.tree.WellFormed ∧
      (strayScenario.compile strayHost ⟨"ws"⟩ 7).2.tree = strayHost.tree ∧
      (strayScenario.compile strayHost ⟨"ws"⟩ 8).2.tree.get? ["etc", "passwd"] =
        some (.file [0x78] false) := by
  have wellFormed : strayHost.tree.WellFormed :=
    FileTree.wellFormed_of_entries (by decide +kernel)
  have leads : strayHost.tree.LeadsInto ⟨"ws"⟩ ["ws"] := leadsInto_of_find (by decide +kernel)
  have contained := compile_contained strayScenario strayHost ⟨"ws"⟩ 7 wellFormed
  have containedNext := compile_contained strayScenario strayHost ⟨"ws"⟩ 8 wellFormed
  refine ⟨wellFormed, ?_, ?_⟩
  · exact (contained.occupied ["ws"] (.link ⟨"/nowhere"⟩) leads (by decide +kernel)).2
  · have kept : (strayScenario.compile strayHost ⟨"ws"⟩ 8).2.tree.get? ["etc", "passwd"] =
        strayHost.tree.get? ["etc", "passwd"] := by
      by_contra changed
      obtain ⟨directory, leadsOther, inside⟩ := containedNext.changes _ changed
      rw [← leads.unique leadsOther] at inside
      exact absurd inside (by simp)
    rw [kept]
    decide +kernel

end Scenario

end FaultDrill
