import Mathlib.Logic.Function.Basic
import FaultDrill.Proofs.Lifecycle.Sharing

/-!
Isolation of runs that share the files of a host.

Owns:
- several parties at once, and schedules of what they do in turn;
- the deeds of one party in a schedule, and what they come to when it is alone;
- the places of different parties, which lie apart.

Main statements: whatever the others do, a party stays where it would be alone
(`alike_performAll`); in every schedule each run gets what it gets alone, and no two use the same
directory, network or image (`performAll_isolated`).
-/

namespace FaultDrill

/-! ## Schedules -/

/-- A party does some things, first to last. -/
def Party.performAll (party : Party) (root : Path) :
    List Deed → Record × FileTree → Record × FileTree
  | [], state => state
  | deed :: deeds, state =>
    party.performAll root deeds (party.perform root deed state.1 state.2)

/-- Several parties with the same files. -/
structure Shared (ι : Type) where
  records : ι → Record
  tree : FileTree

/-- The parties before they have done anything. -/
def Shared.initial (ι : Type) (tree : FileTree) : Shared ι := ⟨fun _ => {}, tree⟩

section Schedules

variable {ι : Type} [DecidableEq ι]

/-- One of the parties does something. -/
def Shared.perform (parties : ι → Party) (root : Path) (shared : Shared ι) (turn : ι × Deed) :
    Shared ι :=
  let done := (parties turn.1).perform root turn.2 (shared.records turn.1) shared.tree
  { records := Function.update shared.records turn.1 done.1, tree := done.2 }

theorem Shared.records_perform_self (parties : ι → Party) (root : Path) (shared : Shared ι) (i : ι)
    (deed : Deed) :
    (shared.perform parties root (i, deed)).records i =
      ((parties i).perform root deed (shared.records i) shared.tree).1 :=
  Function.update_self i _ _

theorem Shared.tree_perform (parties : ι → Party) (root : Path) (shared : Shared ι) (i : ι)
    (deed : Deed) :
    (shared.perform parties root (i, deed)).tree =
      ((parties i).perform root deed (shared.records i) shared.tree).2 := rfl

/-- What one party does leaves the records of the others. -/
theorem Shared.records_perform_of_ne (parties : ι → Party) (root : Path) (shared : Shared ι)
    {i j : ι} (other : j ≠ i) (deed : Deed) :
    (shared.perform parties root (i, deed)).records j = shared.records j :=
  Function.update_of_ne other _ _

/-- The parties do things in turn, first to last. -/
def Shared.performAll (parties : ι → Party) (root : Path) (shared : Shared ι)
    (schedule : List (ι × Deed)) : Shared ι :=
  schedule.foldl (Shared.perform parties root) shared

/-- The deeds of one party, in the order of the schedule. -/
def deedsOf (i : ι) : List (ι × Deed) → List Deed
  | [] => []
  | (j, deed) :: schedule => if j = i then deed :: deedsOf i schedule else deedsOf i schedule

end Schedules

/-! ## Places that lie apart -/

/-- The places of different runs lie apart. -/
theorem placeOf_apart (directory : Location) {run other : RunId} (different : run ≠ other)
    {place : Location} (inside : placeOf directory run <+: place) :
    ¬ placeOf directory other <+: place := by
  intro insideOther
  have sameLength : (placeOf directory run).length = (placeOf directory other).length := by
    simp [placeOf]
  have under : placeOf directory run <+: placeOf directory other :=
    List.prefix_of_prefix_length_le inside insideOther (Nat.le_of_eq sameLength)
  have same : placeOf directory run = placeOf directory other :=
    under.eq_of_length sameLength
  have names := List.append_cancel_left same
  exact different (Naming.workspaceDirectory_injective (List.singleton_inj.mp names))

/-! ## One party among others -/

/-- A party among others is where it is alone: its record is the same, and so is its place. -/
structure Alike (ground : FileTree) (root : Path) (directory : Location) (party : Party)
    (together alone : Record × FileTree) : Prop where
  record : together.1 = alone.1
  matched : Matched ground (placeOf directory party.runId) together.2 alone.2
  settled : together.1.Settled ground root directory party

namespace Alike

variable {ground after : FileTree} {root : Path} {directory : Location} {party : Party}
  {together alone : Record × FileTree}

theorem initial (ground : FileTree) (root : Path) (directory : Location) (party : Party) :
    Alike ground root directory party ({}, ground) ({}, ground) where
  record := rfl
  matched := ⟨.refl ground, .refl ground, fun _ _ => rfl, .untouched fun _ _ => rfl⟩
  settled := by
    refine ⟨?_, ?_⟩
    · intro workspace compiled
      cases compiled
    · intro call made
      cases made

/-- A party that does something goes on to be where it is alone. -/
theorem perform (alike : Alike ground root directory party together alone)
    (shelf : Shelf ground root directory) (deed : Deed) :
    Alike ground root directory party (party.perform root deed together.1 together.2)
      (party.perform root deed alone.1 alone.2) := by
  have outcome := Party.perform_matched shelf alike.settled deed alike.matched
  rw [alike.record] at outcome
  have settled := Party.perform_settled shelf alike.settled deed alike.matched
  rw [alike.record] at settled ⊢
  exact ⟨outcome.result, outcome.matched, settled⟩

/-- What changes nothing at the place of a party leaves it where it is alone. -/
theorem elsewhere (alike : Alike ground root directory party together alone) {run : RunId}
    (different : party.runId ≠ run) (grown : FileTree.PartOf ground after)
    (outside : FileTree.SameOutside (placeOf directory run) after together.2) :
    Alike ground root directory party (together.1, after) alone := by
  have unchanged : FileTree.SameInside (placeOf directory party.runId) after together.2 :=
    fun place inside => outside.get? place (placeOf_apart directory different inside)
  refine ⟨alike.record, ⟨grown, alike.matched.grownSecond, ?_, ?_⟩, alike.settled⟩
  · intro place inside
    exact (unchanged place inside).trans (alike.matched.same place inside)
  · cases alike.matched.state with
    | untouched same =>
        exact .untouched fun place inside =>
          (unchanged place inside).trans (same place inside)
    | inUse vacant inhabited =>
        exact .inUse vacant ((unchanged _ List.prefix_rfl).trans inhabited)

end Alike

/-! ## Many parties -/

section Parties

variable {ι : Type} [DecidableEq ι] {ground : FileTree} {root : Path} {directory : Location}
  {parties : ι → Party}

/-- All parties are where they are alone. -/
def AllAlike (ground : FileTree) (root : Path) (directory : Location) (parties : ι → Party)
    (shared : Shared ι) (alone : ι → Record × FileTree) : Prop :=
  ∀ i, Alike ground root directory (parties i) (shared.records i, shared.tree) (alone i)

/-- A turn of one party keeps all of them where they are alone. -/
theorem AllAlike.perform (distinct : Function.Injective fun i => (parties i).runId)
    (shelf : Shelf ground root directory) {shared : Shared ι} {alone : ι → Record × FileTree}
    (alike : AllAlike ground root directory parties shared alone) (i : ι) (deed : Deed) :
    AllAlike ground root directory parties (shared.perform parties root (i, deed))
      (Function.update alone i ((parties i).perform root deed (alone i).1 (alone i).2)) := by
  intro j
  have done := (alike i).perform shelf deed
  by_cases same : j = i
  · subst same
    rw [Shared.records_perform_self, Shared.tree_perform, Function.update_self, Prod.eta]
    exact done
  · -- The other party has nothing to do with this turn but for the files that it changes.
    have outcome := Party.perform_matched shelf (alike i).settled deed (alike i).matched
    rw [Shared.records_perform_of_ne _ _ _ same, Shared.tree_perform, Function.update_of_ne same]
    exact (alike j).elsewhere (fun sameRun => same (distinct sameRun)) done.matched.grownFirst
      outcome.firstOutside

/-- Whatever the others do in between, all parties stay where they are alone. -/
theorem alike_performAll (distinct : Function.Injective fun i => (parties i).runId)
    (shelf : Shelf ground root directory) (schedule : List (ι × Deed)) {shared : Shared ι}
    {alone : ι → Record × FileTree}
    (alike : AllAlike ground root directory parties shared alone) :
    AllAlike ground root directory parties (shared.performAll parties root schedule)
      fun i => (parties i).performAll root (deedsOf i schedule) (alone i) := by
  -- A turn moves one party, both among the others and alone, so the states of all vary along the
  -- schedule.
  induction schedule generalizing shared alone with
  | nil => exact alike
  | cons turn schedule inductionHypothesis =>
      obtain ⟨i, deed⟩ := turn
      intro j
      have later := inductionHypothesis (alike.perform distinct shelf i deed) j
      dsimp only [deedsOf] at later ⊢
      by_cases own : i = j
      · subst own
        rw [Function.update_self] at later
        rw [if_pos rfl]
        exact later
      · rw [Function.update_of_ne (Ne.symm own)] at later
        rw [if_neg own]
        exact later

/-- The runs of several parties are isolated: each has the record and the workspace that it has
alone, and what a run uses is its own. -/
structure Isolated (root : Path) (directory : Location) (parties : ι → Party)
    (shared : Shared ι) (alone : ι → Record × FileTree) : Prop where
  records : ∀ i, shared.records i = (alone i).1
  contents : ∀ i,
    FileTree.SameInside (placeOf directory (parties i).runId) shared.tree (alone i).2
  /-- The path to a workspace leads to the place of its run, or is too long to lead anywhere. -/
  lookups : ∀ i,
    shared.tree.resolve .itself ((parties i).workspaceUnder root).path =
      if FileTree.TooLong root (Naming.workspaceDirectory (parties i).runId) then
        .error .nameTooLong
      else .ok (shared.tree.placeAt (placeOf directory (parties i).runId))
  workspaces : ∀ i workspace, (shared.records i).workspace = some workspace →
    workspace = (parties i).workspaceUnder root
  calls : ∀ i, ∀ call ∈ (shared.records i).host.calls,
    call ∈ ((parties i).workspaceUnder root).calls
  places : ∀ i j, i ≠ j → ∀ place, placeOf directory (parties i).runId <+: place →
    ¬ placeOf directory (parties j).runId <+: place
  paths : ∀ i j, i ≠ j →
    ((parties i).workspaceUnder root).path ≠ ((parties j).workspaceUnder root).path
  /-- The manifests of different runs name different networks. -/
  networks : ∀ i j, i ≠ j →
    (Manifest.ofScenario (parties i).scenario (parties i).runId).network ≠
      (Manifest.ofScenario (parties j).scenario (parties j).runId).network
  images : ∀ i j, i ≠ j →
    ((parties i).workspaceUnder root).baseImage ≠ ((parties j).workspaceUnder root).baseImage

/-- Paths of workspaces of different runs differ. -/
theorem Workspace.path_under_injective (root : Path) :
    Function.Injective fun run => (Workspace.under root run).path := by
  intro run other same
  have steps := congrArg Path.steps same
  dsimp only [Workspace.under] at steps
  rw [Path.steps_joinName root (Naming.plainName_workspaceDirectory run),
    Path.steps_joinName root (Naming.plainName_workspaceDirectory other)] at steps
  have names := List.append_cancel_left steps
  exact Naming.workspaceDirectory_injective (List.singleton_inj.mp names)

/-- Runs with different numbers under one directory of workspaces are isolated, in every order of
what they do and whatever their scenarios and the answers to their calls. -/
theorem Shared.performAll_isolated (ground : FileTree) (root : Path) (directory : Location)
    (parties : ι → Party) (distinct : Function.Injective fun i => (parties i).runId)
    (wellFormed : ground.WellFormed)
    (leads : ground.find .target root = .ok (directory, .directory))
    (standing : ground.get? directory = some .directory) (schedule : List (ι × Deed)) :
    Isolated root directory parties
      ((Shared.initial ι ground).performAll parties root schedule)
      fun i => (parties i).performAll root (deedsOf i schedule) ({}, ground) := by
  have shelf : Shelf ground root directory :=
    ⟨wellFormed, FileTree.leadsInto_of_find leads, standing⟩
  have fresh : AllAlike ground root directory parties (Shared.initial ι ground)
      fun _ => ({}, ground) := fun i => .initial ground root directory (parties i)
  have alike := alike_performAll distinct shelf schedule fresh
  generalize (Shared.initial ι ground).performAll parties root schedule = shared at alike ⊢
  refine {
    records := fun i => (alike i).record
    contents := fun i => (alike i).matched.same
    lookups := fun i => ?_
    workspaces := fun i workspace compiled =>
      ((alike i).settled.workspace workspace compiled).1
    calls := fun i => (alike i).settled.calls
    places := fun i j different place inside =>
      placeOf_apart directory (distinct.ne different) inside
    paths := fun i j different =>
      (Workspace.path_under_injective root).ne (distinct.ne different)
    networks := fun i j different => Naming.network_injective.ne (distinct.ne different)
    images := fun i j different => Naming.baseImage_injective.ne (distinct.ne different) }
  have grown := (alike i).matched.grownFirst
  exact FileTree.resolve_joinName (shelf.leads.of_partOf grown)
    (grown.get? _ _ shelf.standing) (Naming.plainName_workspaceDirectory _) (Or.inl rfl)

end Parties

/-- A directory of workspaces, in which nothing stands. -/
def sampleGround : FileTree where
  entries := [(["ws"], .directory)]

/-- Two runs of a service with a hostile name; the calls of one of them fail. -/
def sampleParties (failing : Bool) : Party where
  scenario := { services := [{ name := "../../ws" }], journeys := [], stages := [] }
  runId := if failing then 1 else 2
  answers := fun _ _ =>
    { result := if failing then .error (.failed "docker" (some 1)) else .ok () }

/-- One of the runs stops while the other goes on. -/
def sampleSchedule : List (Bool × Deed) := [
  (true, .compile), (false, .compile), (true, .up), (false, .up), (true, .down)]

/-- The run whose calls fail clears its own place at most: the other still has its workspace. -/
theorem performAll_isolated_of_failures :
    Isolated ⟨"ws"⟩ ["ws"] sampleParties
        ((Shared.initial Bool sampleGround).performAll sampleParties ⟨"ws"⟩ sampleSchedule)
        (fun i => (sampleParties i).performAll ⟨"ws"⟩ (deedsOf i sampleSchedule)
          ({}, sampleGround)) ∧
      ((Shared.initial Bool sampleGround).performAll sampleParties ⟨"ws"⟩
        sampleSchedule).tree.get? (placeOf ["ws"] 2) = some .directory := by
  have distinct : Function.Injective fun i => (sampleParties i).runId := by
    intro i j
    cases i <;> cases j <;> decide
  have wellFormed : sampleGround.WellFormed :=
    FileTree.wellFormed_of_entries (by decide +kernel)
  have isolated := Shared.performAll_isolated sampleGround ⟨"ws"⟩ ["ws"] sampleParties distinct
    wellFormed (by decide +kernel) (by decide +kernel) sampleSchedule
  refine ⟨isolated, (isolated.contents false _ List.prefix_rfl).trans ?_⟩
  -- Alone, the other run has only been compiled and started.
  decide +kernel

end FaultDrill
