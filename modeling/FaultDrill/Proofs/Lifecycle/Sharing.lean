import FaultDrill.Proofs.Compile
import FaultDrill.Proofs.FileTree.Clearing
import FaultDrill.Proofs.Lifecycle.Stop

/-!
Runs that share the files of a host.

Owns:
- runs as parties, each with its own scenario, number and answers to its calls;
- what a party does, on its own record and on files that it shares with others;
- the place that belongs to a party, and its two states: untouched, or a workspace.

Main statement: a party does the same with all files that match at its own place, and changes
nothing elsewhere (`Party.perform_matched`).

Does not own: orders in which several parties do things (`Proofs.Lifecycle.Isolation`).
-/

namespace FaultDrill

/-! ## Answers to calls -/

/-- What a runtime replies to a call without touching the files. -/
structure Answer where
  result : Except RuntimeError Unit
  output : String := ""
  errors : String := ""
  /-- What has been printed when an interrupt arrives, if one does before the call ends. -/
  interruption : Option (String × String) := none

/-- The answers to the calls of a run; each may depend on the calls before. -/
abbrev Answers := (earlier : List Call) → Call → Answer

/-- The runtime that gives some answers. -/
def Answers.runtime (answers : Answers) : Runtime := fun earlier call tree =>
  let answer := answers earlier call
  { result := answer.result
    effect := ⟨tree, answer.output, answer.errors⟩
    interruption := answer.interruption.map fun printed => ⟨tree, printed.1, printed.2⟩ }

namespace Host

/-- A host with other files. -/
def withTree (host : Host) (tree : FileTree) : Host := { host with tree }

@[simp] theorem tree_withTree (host : Host) (tree : FileTree) :
    (host.withTree tree).tree = tree := rfl

@[simp] theorem calls_withTree (host : Host) (tree : FileTree) :
    (host.withTree tree).calls = host.calls := rfl

/-- An answer does not depend on the files and leaves them. -/
theorem attempt_withTree (host : Host) (answers : Answers) (call : Call) (tree : FileTree) :
    (host.withTree tree).attempt answers.runtime call =
      ((host.attempt answers.runtime call).1,
        (host.attempt answers.runtime call).2.withTree tree) := by
  unfold attempt Answers.runtime
  dsimp only
  rw [calls_withTree]
  cases (answers host.calls call).interruption <;> rfl

end Host

namespace Workspace

theorem up_withTree (workspace : Workspace) (host : Host) (answers : Answers) (tree : FileTree) :
    workspace.up answers.runtime (host.withTree tree) =
      ((workspace.up answers.runtime host).1,
        (workspace.up answers.runtime host).2.withTree tree) := by
  unfold up
  rw [Host.attempt_withTree]
  rcases host.attempt answers.runtime workspace.buildCall with ⟨ending, built⟩
  cases ending with
  | interrupted => rfl
  | failed cause => rfl
  | succeeded =>
      dsimp only
      rw [Host.attempt_withTree]
      rcases built.attempt answers.runtime workspace.upCall with ⟨ending, started⟩
      cases ending <;> rfl

/-- A stop with answers that clears the workspace comes to the same with all files. -/
theorem down_withTree (workspace : Workspace) (host : Host) (answers : Answers) :
    ∃ (result : Except ComposeError Unit) (after : Host), ∀ tree cleared : FileTree,
      isAbsent tree workspace.path = false →
      tree.removeAll workspace.path = (.ok (), cleared) →
      workspace.down answers.runtime (host.withTree tree) = (result, after.withTree cleared) := by
  let replies := workspace.stopReplies answers.runtime host
  refine ⟨workspace.stopResult replies.stopped.result (.ok ()),
    { host with
      history := host.history ++ [
        .called workspace.downCall (.ofResult replies.stopped.result),
        .called workspace.removeImageCall (.ofResult replies.imageRemoved.result)]
      warnings := host.warnings ++
        workspace.stopWarnings replies.stopped.result replies.imageRemoved.result (.ok ())
      output := host.output ++ replies.stopped.effect.output ++ replies.imageRemoved.effect.output
      errors := host.errors ++ replies.stopped.effect.errors ++
        replies.imageRemoved.effect.errors }, ?_⟩
  intro tree cleared present removal
  have presentThere : isAbsent (host.withTree tree).tree workspace.path = false := present
  have kept : (workspace.stopReplies answers.runtime
      (host.withTree tree)).imageRemoved.effect.tree = tree := rfl
  rw [down_of_present answers.runtime presentThere, kept, removal]
  rfl

/-- The calls that starts and stops of a workspace make. -/
def calls (workspace : Workspace) : List Call :=
  [workspace.buildCall, workspace.upCall, workspace.downCall, workspace.removeImageCall]

theorem calls_up (workspace : Workspace) (runtime : Runtime) (host : Host) {call : Call}
    (made : call ∈ (workspace.up runtime host).2.calls) :
    call ∈ host.calls ∨ call ∈ workspace.calls := by
  obtain ⟨events, started, history⟩ := workspace.up_events runtime host
  unfold Host.calls at made
  rw [history, List.filterMap_append, List.mem_append] at made
  rcases made with earlier | now
  · exact Or.inl earlier
  · right
    obtain ⟨event, member, same⟩ := List.mem_filterMap.mp now
    cases event with
    | interrupted => cases same
    | called other ending =>
        cases same
        rcases started.calls member with rfl | rfl <;> simp [calls]

theorem calls_down (workspace : Workspace) (runtime : Runtime) (host : Host) {call : Call}
    (made : call ∈ (workspace.down runtime host).2.calls) :
    call ∈ host.calls ∨ call ∈ workspace.calls := by
  cases absent : isAbsent host.tree workspace.path with
  | true =>
      rw [down_of_absent runtime absent] at made
      exact Or.inl made
  | false =>
      rw [down_of_present runtime absent] at made
      unfold Host.calls at made
      rw [List.filterMap_append, List.mem_append] at made
      rcases made with earlier | now
      · exact Or.inl earlier
      · right
        simp [Event.call?] at now
        simp [calls, now]

end Workspace

/-! ## Parties -/

/-- A run that shares files with others. -/
structure Party where
  scenario : Scenario
  runId : RunId
  answers : Answers

/-- What a party can do. -/
inductive Deed where
  | compile
  | up
  | down

/-- What a deed comes to. -/
inductive Outcome where
  | compiled (result : Except ComposeError Workspace)
  | started (startup : Startup)
  | stopped (result : Except ComposeError Unit)
  /-- There was no workspace to start or to stop. -/
  | idle

/-- What a party has to itself: its workspace, once it is compiled, the outcomes of its deeds, and
all of its host but the files. -/
structure Record where
  workspace : Option Workspace := none
  outcomes : List Outcome := []
  host : Host := { tree := {} }

namespace Record

/-- The record after a deed that left a host. -/
def after (record : Record) (outcome : Outcome) (host : Host) : Record where
  workspace := record.workspace
  outcomes := record.outcomes ++ [outcome]
  host := host.withTree {}

end Record

namespace Party

/-- The workspace of a party under a directory of workspaces. -/
def workspaceUnder (party : Party) (root : Path) : Workspace := .under root party.runId

/-- A party does something: its record and the shared files afterwards. -/
def perform (party : Party) (root : Path) (deed : Deed) (record : Record) (tree : FileTree) :
    Record × FileTree :=
  let host := record.host.withTree tree
  match deed, record.workspace with
  | .compile, _ =>
    let compiled := party.scenario.compile host root party.runId
    let after := record.after (.compiled compiled.1) compiled.2
    match compiled.1 with
    | .ok workspace => ({ after with workspace := some workspace }, compiled.2.tree)
    | .error _ => (after, compiled.2.tree)
  | .up, some workspace =>
    let started := workspace.up party.answers.runtime host
    (record.after (.started started.1) started.2, started.2.tree)
  | .down, some workspace =>
    let stopped := workspace.down party.answers.runtime host
    (record.after (.stopped stopped.1) stopped.2, stopped.2.tree)
  | .up, none | .down, none => (record.after .idle host, tree)

end Party

/-! ## The place of a party -/

/-- A directory of workspaces in files as they are at first. -/
structure Shelf (ground : FileTree) (root : Path) (directory : Location) : Prop where
  wellFormed : ground.WellFormed
  leads : ground.LeadsInto root directory
  standing : ground.get? directory = some .directory

/-- The place of the workspace of a run. -/
def placeOf (directory : Location) (run : RunId) : Location :=
  directory ++ [Naming.workspaceDirectory run]

/-- Where nothing stood at first there is a site. -/
theorem Shelf.site {ground : FileTree} {root : Path} {directory : Location} {run : RunId}
    (shelf : Shelf ground root directory) (vacant : ground.get? (placeOf directory run) = none) :
    FileTree.Site ground root directory (Naming.workspaceDirectory run) :=
  ⟨shelf.leads, shelf.standing, Naming.plainName_workspaceDirectory run,
    shelf.wellFormed.vacantFrom vacant⟩

/-- A workspace that stands is not known to be absent. -/
theorem FileTree.Site.isAbsent_of_inhabited {ground tree : FileTree} {root : Path}
    {directory : Location} {name : String} (site : Site ground root directory name)
    (grown : PartOf ground tree) (inhabited : tree.get? (directory ++ [name]) = some .directory)
    (fits : ¬ TooLong root name) : Workspace.isAbsent tree (root.joinName name) = false := by
  rw [Bool.eq_false_iff, Ne, Workspace.isAbsent_iff, site.stat_of_inhabited grown inhabited fits]
  simp

/-- The two states of a place: it is as it was at first, or a workspace was made where nothing
stood. -/
inductive PlaceState (ground : FileTree) (place : Location) (tree : FileTree) : Prop where
  | untouched (same : FileTree.SameInside place tree ground)
  | inUse (vacant : ground.get? place = none) (inhabited : tree.get? place = some .directory)

/-- Two trees hold all that there was at first, and the same at a place, which is in one of its
states. -/
structure Matched (ground : FileTree) (place : Location) (first second : FileTree) : Prop where
  grownFirst : FileTree.PartOf ground first
  grownSecond : FileTree.PartOf ground second
  same : FileTree.SameInside place first second
  state : PlaceState ground place first

/-- Two outcomes have the same result and their trees match again; elsewhere each tree is as it
was. -/
structure SameOutcome {α : Type} (ground : FileTree) (place : Location)
    (first second : FileTree) (one two : α × FileTree) : Prop where
  result : one.1 = two.1
  matched : Matched ground place one.2 two.2
  firstOutside : FileTree.SameOutside place one.2 first
  secondOutside : FileTree.SameOutside place two.2 second

namespace Matched

variable {ground first second : FileTree} {place : Location}

theorem unchanged {α : Type} (matched : Matched ground place first second) (result : α) :
    SameOutcome ground place first second (result, first) (result, second) :=
  ⟨rfl, matched, .refl place first, .refl place second⟩

/-- What is vacant was so at first. -/
theorem vacant_of_vacant (matched : Matched ground place first second)
    (vacant : first.get? place = none) :
    ground.get? place = none ∧ FileTree.SameInside place first ground := by
  cases matched.state with
  | untouched same => exact ⟨(same place List.prefix_rfl).symm.trans vacant, same⟩
  | inUse _ inhabited =>
      rw [inhabited] at vacant
      cases vacant

/-- Clearing a place where nothing stood at first leaves it as it was at first. -/
theorem erase (matched : Matched ground place first second) (proper : place ≠ [])
    (vacant : ground.VacantFrom place) {α : Type} (result : α) :
    SameOutcome ground place first second
      (result, first.erase place) (result, second.erase place) where
  result := rfl
  firstOutside := FileTree.sameOutside_erase first List.prefix_rfl
  secondOutside := FileTree.sameOutside_erase second List.prefix_rfl
  matched := {
    grownFirst := matched.grownFirst.of_sameOutside vacant
      (FileTree.sameOutside_erase first List.prefix_rfl)
    grownSecond := matched.grownSecond.of_sameOutside vacant
      (FileTree.sameOutside_erase second List.prefix_rfl)
    same := by
      intro other inside
      rw [FileTree.get?_erase_of_under first proper inside,
        FileTree.get?_erase_of_under second proper inside]
    state := by
      apply PlaceState.untouched
      intro other inside
      rw [FileTree.get?_erase_of_under first proper inside, vacant other inside] }

end Matched

/-! ## What a party does -/

section Deeds

variable {ground first second : FileTree} {root : Path} {directory : Location}

/-- Compilations in trees that match come to the same. -/
theorem Scenario.compileTree_matched (scenario : Scenario) {run : RunId}
    (shelf : Shelf ground root directory)
    (matched : Matched ground (placeOf directory run) first second) :
    SameOutcome ground (placeOf directory run) first second
      (scenario.compileTree first root run) (scenario.compileTree second root run) := by
  have leadsFirst := shelf.leads.of_partOf matched.grownFirst
  have leadsSecond := shelf.leads.of_partOf matched.grownSecond
  have standingFirst := matched.grownFirst.get? _ _ shelf.standing
  have standingSecond := matched.grownSecond.get? _ _ shelf.standing
  by_cases tooLong : FileTree.TooLong root (Naming.workspaceDirectory run)
  · rw [scenario.compileTree_of_tooLong leadsFirst standingFirst tooLong,
      scenario.compileTree_of_tooLong leadsSecond standingSecond tooLong]
    exact matched.unchanged _
  -- Both trees hold the same at the place, so the first step succeeds in both or in neither.
  have here := matched.same _ List.prefix_rfl
  cases found : first.get? (placeOf directory run) with
  | some entry =>
      rw [scenario.compileTree_of_occupied leadsFirst standingFirst tooLong found,
        scenario.compileTree_of_occupied leadsSecond standingSecond tooLong
          (here.symm.trans found)]
      exact matched.unchanged _
  | none =>
      obtain ⟨vacant, sameGround⟩ := matched.vacant_of_vacant found
      have site := shelf.site vacant
      have vacantFirst : first.VacantFrom (placeOf directory run) := fun place inside =>
        (sameGround place inside).trans (site.vacant place inside)
      have vacantSecond : second.VacantFrom (placeOf directory run) := fun place inside =>
        (matched.same place inside).symm.trans (vacantFirst place inside)
      have parallel := scenario.parallel_compileTree site matched.grownFirst matched.grownSecond
        vacantFirst vacantSecond tooLong
      have alongside := parallel.alongside
      exact ⟨parallel.result,
        ⟨alongside.grownFirst, alongside.grownSecond, alongside.same,
          .inUse vacant alongside.inhabited⟩,
        parallel.firstOutside, parallel.secondOutside⟩

/-- A compilation that succeeds has found its place vacant, as it was at first. -/
theorem Scenario.vacant_of_compileTree (scenario : Scenario) {run : RunId} {workspace : Workspace}
    (shelf : Shelf ground root directory)
    (matched : Matched ground (placeOf directory run) first second)
    (compiled : (scenario.compileTree first root run).1 = .ok workspace) :
    ground.get? (placeOf directory run) = none ∧
      ¬ FileTree.TooLong root (Naming.workspaceDirectory run) := by
  have leads := shelf.leads.of_partOf matched.grownFirst
  have standing := matched.grownFirst.get? _ _ shelf.standing
  by_cases tooLong : FileTree.TooLong root (Naming.workspaceDirectory run)
  · rw [scenario.compileTree_of_tooLong leads standing tooLong] at compiled
    cases compiled
  cases found : first.get? (placeOf directory run) with
  | some entry =>
      rw [scenario.compileTree_of_occupied leads standing tooLong found] at compiled
      cases compiled
  | none => exact ⟨(matched.vacant_of_vacant found).1, tooLong⟩

/-- What holds of the record of a party: its workspace is at its place, where nothing stood at
first, and all its calls are calls of that workspace. -/
structure Record.Settled (record : Record) (ground : FileTree) (root : Path)
    (directory : Location) (party : Party) : Prop where
  workspace : ∀ workspace, record.workspace = some workspace →
    workspace = party.workspaceUnder root ∧
      ground.get? (placeOf directory party.runId) = none ∧
      ¬ FileTree.TooLong root (Naming.workspaceDirectory party.runId)
  calls : ∀ call ∈ record.host.calls, call ∈ (party.workspaceUnder root).calls

namespace Party

variable {party : Party} {record : Record}

private theorem compile_matched (shelf : Shelf ground root directory)
    (matched : Matched ground (placeOf directory party.runId) first second) :
    SameOutcome ground (placeOf directory party.runId) first second
      (party.perform root .compile record first) (party.perform root .compile record second) := by
  have compiled := party.scenario.compileTree_matched shelf matched
  unfold perform
  dsimp only
  rw [Scenario.compile_eq, Scenario.compile_eq]
  dsimp only [Host.tree_withTree]
  generalize party.scenario.compileTree first root party.runId = one at compiled ⊢
  generalize party.scenario.compileTree second root party.runId = two at compiled ⊢
  obtain ⟨result, one⟩ := one
  obtain ⟨otherResult, two⟩ := two
  have sameResult : result = otherResult := compiled.result
  subst sameResult
  cases result with
  | error error => exact { compiled with result := rfl }
  | ok workspace => exact { compiled with result := rfl }

/-- A stop of an untouched place does nothing, and a stop of a workspace clears it. -/
private theorem down_matched (shelf : Shelf ground root directory)
    (settled : record.Settled ground root directory party)
    (matched : Matched ground (placeOf directory party.runId) first second) :
    SameOutcome ground (placeOf directory party.runId) first second
      (party.perform root .down record first) (party.perform root .down record second) := by
  unfold perform
  cases compiled : record.workspace with
  | none => exact matched.unchanged _
  | some workspace =>
      dsimp only
      obtain ⟨rfl, vacant, fits⟩ := settled.workspace _ compiled
      have site := shelf.site vacant
      have here := matched.same _ List.prefix_rfl
      -- In an untouched place there is nothing to stop; a workspace is removed as a whole.
      cases matched.state with
      | untouched same =>
          have vacantFirst := (same _ List.prefix_rfl).trans vacant
          have absentFirst : (record.host.withTree first).tree.stat
              (party.workspaceUnder root).path = .error .notFound :=
            site.stat_of_vacant matched.grownFirst vacantFirst fits
          have absentSecond : (record.host.withTree second).tree.stat
              (party.workspaceUnder root).path = .error .notFound :=
            site.stat_of_vacant matched.grownSecond (here.symm.trans vacantFirst) fits
          rw [← Workspace.isAbsent_iff] at absentFirst absentSecond
          rw [Workspace.down_of_absent _ absentFirst, Workspace.down_of_absent _ absentSecond]
          exact matched.unchanged _
      | inUse _ inhabited =>
          have inhabitedSecond := here.symm.trans inhabited
          obtain ⟨result, after, stopped⟩ := (party.workspaceUnder root).down_withTree
            record.host party.answers
          rw [stopped first _ (site.isAbsent_of_inhabited matched.grownFirst inhabited fits)
              (site.removeAll_place matched.grownFirst inhabited fits),
            stopped second _
              (site.isAbsent_of_inhabited matched.grownSecond inhabitedSecond fits)
              (site.removeAll_place matched.grownSecond inhabitedSecond fits)]
          exact matched.erase (by simp [placeOf]) site.vacant _

/-- A compilation, a start or a stop comes to the same in trees that match. -/
theorem perform_matched (shelf : Shelf ground root directory)
    (settled : record.Settled ground root directory party) (deed : Deed)
    (matched : Matched ground (placeOf directory party.runId) first second) :
    SameOutcome ground (placeOf directory party.runId) first second
      (party.perform root deed record first) (party.perform root deed record second) := by
  cases deed with
  | compile => exact compile_matched shelf matched
  | down => exact down_matched shelf settled matched
  | up =>
      unfold perform
      cases record.workspace with
      | none => exact matched.unchanged _
      | some workspace =>
          dsimp only
          rw [Workspace.up_withTree, Workspace.up_withTree]
          dsimp only
          rw [Host.tree_withTree, Host.tree_withTree]
          exact matched.unchanged _

/-- What holds of the record of a party goes on to hold. -/
theorem perform_settled (shelf : Shelf ground root directory)
    (settled : record.Settled ground root directory party) (deed : Deed)
    (matched : Matched ground (placeOf directory party.runId) first second) :
    (party.perform root deed record first).1.Settled ground root directory party := by
  cases deed with
  | compile =>
      unfold perform
      dsimp only
      rw [Scenario.compile_eq]
      dsimp only [Host.tree_withTree]
      cases compiled : (party.scenario.compileTree first root party.runId).1 with
      | error error => exact ⟨settled.workspace, settled.calls⟩
      | ok workspace =>
          refine ⟨?_, settled.calls⟩
          rintro _ ⟨⟩
          exact ⟨party.scenario.compileTree_workspace compiled,
            party.scenario.vacant_of_compileTree shelf matched compiled⟩
  | up =>
      unfold perform
      cases compiled : record.workspace with
      | none => exact ⟨settled.workspace, settled.calls⟩
      | some workspace =>
          refine ⟨settled.workspace, fun call made => ?_⟩
          rcases workspace.calls_up _ _ made with earlier | now
          · exact settled.calls call earlier
          · obtain ⟨rfl, -⟩ := settled.workspace workspace compiled
            exact now
  | down =>
      unfold perform
      cases compiled : record.workspace with
      | none => exact ⟨settled.workspace, settled.calls⟩
      | some workspace =>
          refine ⟨settled.workspace, fun call made => ?_⟩
          rcases workspace.calls_down _ _ made with earlier | now
          · exact settled.calls call earlier
          · obtain ⟨rfl, -⟩ := settled.workspace workspace compiled
            exact now

end Party

end Deeds

end FaultDrill
