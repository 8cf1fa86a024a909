import FaultDrill.Plan
import FaultDrill.Proofs.Naming

/-!
Names that collide.

Owns:
- when there are collisions among names, and when among those of a scenario;
- the names of the nodes of a manifest, which are all in one place.

Main statement: without collisions the nodes of a manifest have different names, unless a service
has the name of the node of a journey, which is no collision (`nodup_nodeNames_iff`).
-/

namespace FaultDrill

/-! ## Collisions -/

/-- There are no collisions if no name becomes what one before it became. -/
theorem collisionsAfter_eq_nil_iff (kind : NameKind) (seen : List (String × String))
    (names : List String) :
    collisionsAfter kind seen names = [] ↔
      (names.map Naming.sanitize).Nodup ∧
        ∀ name ∈ names, seen.lookup (Naming.sanitize name) = none := by
  induction names generalizing seen with
  | nil => simp [collisionsAfter]
  | cons name names inductionHypothesis =>
      have later : ∀ other, ((Naming.sanitize name, name) :: seen).lookup (Naming.sanitize other) =
          none ↔ Naming.sanitize other ≠ Naming.sanitize name ∧
            seen.lookup (Naming.sanitize other) = none := by
        intro other
        rw [List.lookup_cons]
        by_cases same : Naming.sanitize other = Naming.sanitize name
        · rw [same, beq_self_eq_true]
          simp
        · rw [beq_eq_false_iff_ne.mpr same]
          exact (and_iff_right same).symm
      unfold collisionsAfter
      dsimp only
      cases before : seen.lookup (Naming.sanitize name) with
      | some first =>
          refine iff_of_false (List.cons_ne_nil _ _) fun fresh => ?_
          rw [fresh.2 name List.mem_cons_self] at before
          cases before
      | none =>
          dsimp only
          rw [inductionHypothesis]
          simp only [later, List.map_cons, List.nodup_cons, List.mem_map, List.forall_mem_cons,
            before]
          grind

/-- There are no collisions among names that become different names. -/
theorem collisions_eq_nil_iff (kind : NameKind) (names : List String) :
    collisions kind names = [] ↔ (names.map Naming.sanitize).Nodup := by
  unfold collisions
  rw [collisionsAfter_eq_nil_iff]
  simp

namespace Scenario

/-- What there is no warning for: services with names of their own, and journeys whose names are
not that of the directory of the base image either. -/
theorem collisions_eq_nil_iff (scenario : Scenario) :
    scenario.collisions = [] ↔
      (scenario.services.map fun service => Naming.sanitize service.name).Nodup ∧
        (scenario.journeys.map fun journey => Naming.sanitize journey.name).Nodup ∧
        ∀ journey ∈ scenario.journeys, Naming.sanitize journey.name ≠ Naming.baseDirectory := by
  have base : Naming.sanitize Naming.baseDirectory = Naming.baseDirectory := by decide
  unfold collisions
  rw [List.append_eq_nil_iff, FaultDrill.collisions_eq_nil_iff,
    FaultDrill.collisions_eq_nil_iff, List.map_cons, List.nodup_cons, base, List.map_map,
    List.map_map]
  simp only [List.mem_map, Function.comp_def]
  grind

end Scenario

/-! ## Nodes -/

/-- The names of the nodes in a manifest. -/
def Manifest.nodeNames (manifest : Manifest) : List String :=
  manifest.nodes.map Node.name

namespace Naming

theorem journeyNode_inj {first second : String} :
    journeyNode first = journeyNode second ↔ sanitize first = sanitize second := by
  unfold journeyNode
  rw [← String.toList_inj, String.toList_append, String.toList_append, List.append_cancel_left_eq,
    String.toList_inj]

end Naming

namespace Scenario

theorem nodeNames_eq (scenario : Scenario) (run : RunId) :
    (Manifest.ofScenario scenario run).nodeNames =
      (scenario.services.map fun service => Naming.sanitize service.name) ++
        scenario.journeys.map fun journey => Naming.journeyNode journey.name := by
  unfold Manifest.nodeNames Manifest.ofScenario
  simp [Node.ofService, Node.ofJourney, Function.comp_def]

theorem nodup_journeyNodes_iff (journeys : List Journey) :
    (journeys.map fun journey => Naming.journeyNode journey.name).Nodup ↔
      (journeys.map fun journey => Naming.sanitize journey.name).Nodup := by
  unfold List.Nodup
  rw [List.pairwise_map, List.pairwise_map]
  simp only [ne_eq, Naming.journeyNode_inj]

/-- Without collisions, nodes have the same name only where a service has the name of the node of
a journey. -/
theorem nodup_nodeNames_iff (scenario : Scenario) (run : RunId)
    (apart : scenario.collisions = []) :
    (Manifest.ofScenario scenario run).nodeNames.Nodup ↔
      ∀ service ∈ scenario.services, ∀ journey ∈ scenario.journeys,
        Naming.sanitize service.name ≠ Naming.journeyNode journey.name := by
  obtain ⟨services, journeys, -⟩ := scenario.collisions_eq_nil_iff.mp apart
  rw [nodeNames_eq, List.nodup_append, nodup_journeyNodes_iff]
  simp only [services, journeys, true_and, List.forall_mem_map]

/-- A scenario with a single service and the journey `x`. -/
def scenarioWithService (name : String) : Scenario where
  services := [{ name, image := "alpine" }]
  journeys := [{ name := "x" }]
  stages := []

/-- A service may have the name of a journey. -/
theorem nodup_nodeNames_of_service :
    (scenarioWithService "x").collisions = [] ∧
      (Manifest.ofScenario (scenarioWithService "x") 7).nodeNames.Nodup := by
  have apart : (scenarioWithService "x").collisions = [] := by decide
  exact ⟨apart, (nodup_nodeNames_iff _ 7 apart).mpr (by decide)⟩

/-- A service with the name of the node of a journey has a node of the same name, and there is no
collision. -/
theorem not_nodup_nodeNames_of_service :
    (scenarioWithService "journey__x").collisions = [] ∧
      ¬ (Manifest.ofScenario (scenarioWithService "journey__x") 7).nodeNames.Nodup := by
  decide

end Scenario

end FaultDrill
