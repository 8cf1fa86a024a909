import FaultDrill.CommandLine.Run
import FaultDrill.Proofs.FileTree.Clearing
import FaultDrill.Proofs.Lifecycle.Stop

/-!
The course of a run, step by step, once its workspace is made.

Owns:
- the phases of a run and the steps between them, one for each thing that can happen: a call ends,
  well or badly, or an interrupt arrives;
- the moments that a run can come to;
- the events up to each phase.

Main statements: every step keeps the events and the files of a run in order (`step_sound`), and so
every moment of a run is in order (`reachable_sound`).

Calls may do anything to the files in the workspace, but they neither remove it nor change anything
outside it. Interrupts may arrive at any time; from the stop on they are without effect.

Does not own: that the program takes these steps (`Proofs.CommandLine.Run`).
-/

namespace FaultDrill.CommandLine

/-! ## Steps -/

/-- How far a run has come. -/
inductive Phase where
  /-- The workspace is made, and no call has been made. -/
  | ready
  /-- The base image is being built. -/
  | building
  /-- The image is built, and the topology is being started. -/
  | starting
  /-- The topology runs until an interrupt arrives. -/
  | waiting
  /-- The topology is being stopped. -/
  | stopping (startup : Startup)
  /-- The base image is being removed. -/
  | removingImage (startup : Startup) (stopped : Except RuntimeError Unit)
  | ended (result : Except Failure Unit)

/-- A run at some moment. -/
structure Moment where
  phase : Phase
  host : Host

/-- The moment at which the start has ended: the workspace is looked for, and stopped if it is
there. -/
def halt (surroundings : Surroundings) (workspace : Workspace) (startup : Startup) (host : Host) :
    Moment :=
  let host := announceStop surroundings startup host
  if Workspace.isAbsent host.tree workspace.path then
    let (result, host) := conclude surroundings startup (.ok ()) host
    ⟨.ended result, host⟩
  else ⟨.stopping startup, host⟩

/-- The moment at which both calls of the stop have ended: the workspace is removed. -/
def finish (surroundings : Surroundings) (workspace : Workspace) (startup : Startup)
    (stopped imageRemoved : Except RuntimeError Unit) (host : Host) : Moment :=
  let removal := host.tree.removeAll workspace.path
  let host :=
    { host with tree := removal.2 }.warn (workspace.stopWarnings stopped imageRemoved removal.1)
  let (result, host) :=
    conclude surroundings startup (workspace.stopResult stopped removal.1) host
  ⟨.ended result, host⟩

/-- A change of the files below a location, where something keeps standing. -/
structure Confined (location : Location) (before after : FileTree) : Prop where
  outside : FileTree.SameOutside location after before
  standing : after.get? location = before.get? location

theorem Confined.refl (location : Location) (tree : FileTree) : Confined location tree tree :=
  ⟨.refl location tree, rfl⟩

/-- What can happen next in a run whose workspace is at a location. -/
inductive Step (surroundings : Surroundings) (workspace : Workspace) (location : Location) :
    Moment → Moment → Prop where
  | begun (host : Host) :
      Step surroundings workspace location ⟨.ready, host⟩ ⟨.building, host⟩
  | interruptedAtOnce (host : Host) :
      Step surroundings workspace location ⟨.ready, host⟩
        (halt surroundings workspace .interrupted host.awaitInterrupt)
  | built (host : Host) (effect : Effect) (confined : Confined location host.tree effect.tree) :
      Step surroundings workspace location ⟨.building, host⟩
        ⟨.starting, host.undergo workspace.buildCall .succeeded effect⟩
  | buildFailed (host : Host) (cause : RuntimeError) (effect : Effect)
      (confined : Confined location host.tree effect.tree) :
      Step surroundings workspace location ⟨.building, host⟩
        (halt surroundings workspace (.failed (.baseImage cause))
          (host.undergo workspace.buildCall (.failed cause) effect))
  | buildInterrupted (host : Host) (effect : Effect)
      (confined : Confined location host.tree effect.tree) :
      Step surroundings workspace location ⟨.building, host⟩
        (halt surroundings workspace .interrupted
          (host.undergo workspace.buildCall .interrupted effect).awaitInterrupt)
  /-- An interrupt arrives after one call and before the next. -/
  | interruptedBetween (host : Host) :
      Step surroundings workspace location ⟨.starting, host⟩
        (halt surroundings workspace .interrupted host.awaitInterrupt)
  | started (host : Host) (effect : Effect) (confined : Confined location host.tree effect.tree) :
      Step surroundings workspace location ⟨.starting, host⟩
        ⟨.waiting, announceStart surroundings
          (host.undergo workspace.upCall .succeeded effect)⟩
  | upFailed (host : Host) (cause : RuntimeError) (effect : Effect)
      (confined : Confined location host.tree effect.tree) :
      Step surroundings workspace location ⟨.starting, host⟩
        (halt surroundings workspace (.failed (.up cause))
          (host.undergo workspace.upCall (.failed cause) effect))
  | upInterrupted (host : Host) (effect : Effect)
      (confined : Confined location host.tree effect.tree) :
      Step surroundings workspace location ⟨.starting, host⟩
        (halt surroundings workspace .interrupted
          (host.undergo workspace.upCall .interrupted effect).awaitInterrupt)
  | interrupted (host : Host) :
      Step surroundings workspace location ⟨.waiting, host⟩
        (halt surroundings workspace .completed host.awaitInterrupt)
  | stopped (startup : Startup) (host : Host) (result : Except RuntimeError Unit)
      (effect : Effect) (confined : Confined location host.tree effect.tree) :
      Step surroundings workspace location ⟨.stopping startup, host⟩
        ⟨.removingImage startup result,
          host.undergo workspace.downCall (.ofResult result) effect⟩
  | imageRemoved (startup : Startup) (stopped : Except RuntimeError Unit) (host : Host)
      (result : Except RuntimeError Unit) (effect : Effect)
      (confined : Confined location host.tree effect.tree) :
      Step surroundings workspace location ⟨.removingImage startup stopped, host⟩
        (finish surroundings workspace startup stopped result
          (host.undergo workspace.removeImageCall (.ofResult result) effect))
  /-- An interrupt changes nothing about a stop. -/
  | ignoredWhileStopping (startup : Startup) (host : Host) :
      Step surroundings workspace location ⟨.stopping startup, host⟩ ⟨.stopping startup, host⟩
  | ignoredWhileRemovingImage (startup : Startup) (stopped : Except RuntimeError Unit)
      (host : Host) :
      Step surroundings workspace location ⟨.removingImage startup stopped, host⟩
        ⟨.removingImage startup stopped, host⟩

/-- The moments that a run can come to after its workspace is made. -/
inductive Reachable (surroundings : Surroundings) (workspace : Workspace) (location : Location)
    (made : Host) : Moment → Prop where
  | start :
      Reachable surroundings workspace location made
        ⟨.ready, announceRun surroundings workspace made⟩
  | step {before after : Moment} (reached : Reachable surroundings workspace location made before)
      (step : Step surroundings workspace location before after) :
      Reachable surroundings workspace location made after

/-! ## Events of a run -/

/-- What happens before the stop, by how the start ends. -/
inductive Begun (workspace : Workspace) : Startup → List Event → Prop where
  | interruptedAtOnce : Begun workspace .interrupted [.interrupted]
  | buildInterrupted :
      Begun workspace .interrupted [.called workspace.buildCall .interrupted, .interrupted]
  | buildFailed (cause : RuntimeError) :
      Begun workspace (.failed (.baseImage cause)) [.called workspace.buildCall (.failed cause)]
  | interruptedBetween :
      Begun workspace .interrupted [.called workspace.buildCall .succeeded, .interrupted]
  | upInterrupted :
      Begun workspace .interrupted
        [.called workspace.buildCall .succeeded, .called workspace.upCall .interrupted,
          .interrupted]
  | upFailed (cause : RuntimeError) :
      Begun workspace (.failed (.up cause))
        [.called workspace.buildCall .succeeded, .called workspace.upCall (.failed cause)]
  | completed :
      Begun workspace .completed
        [.called workspace.buildCall .succeeded, .called workspace.upCall .succeeded,
          .interrupted]

/-- The result of a run whose workspace is removed in the end. -/
def verdict (startup : Startup) (stopped : Except RuntimeError Unit) : Except Failure Unit :=
  match startup, stopped with
  | .failed error, _ => .error (.ofCompose error)
  | _, .error cause => .error (.ofCompose (.down cause))
  | _, .ok () => .ok ()

/-- What has happened in a run by the time of a phase. -/
inductive HappenedBy (workspace : Workspace) : Phase → List Event → Prop where
  | ready : HappenedBy workspace .ready []
  | building : HappenedBy workspace .building []
  | starting : HappenedBy workspace .starting [.called workspace.buildCall .succeeded]
  | waiting :
      HappenedBy workspace .waiting
        [.called workspace.buildCall .succeeded, .called workspace.upCall .succeeded]
  | stopping {startup : Startup} {events : List Event}
      (begun : Begun workspace startup events) : HappenedBy workspace (.stopping startup) events
  | removingImage {startup : Startup} {events : List Event}
      (begun : Begun workspace startup events) (stopped : Except RuntimeError Unit) :
      HappenedBy workspace (.removingImage startup stopped)
        (events ++ [.called workspace.downCall (.ofResult stopped)])
  | ended {startup : Startup} {events : List Event} (begun : Begun workspace startup events)
      (stopped imageRemoved : Except RuntimeError Unit) :
      HappenedBy workspace (.ended (verdict startup stopped))
        (events ++ [.called workspace.downCall (.ofResult stopped),
          .called workspace.removeImageCall (.ofResult imageRemoved)])

/-! ## Announcements -/

section Announcements

variable (surroundings : Surroundings) (workspace : Workspace) (startup : Startup)
  (stopped : Except ComposeError Unit) (host : Host)

@[simp] theorem tree_announceRun : (announceRun surroundings workspace host).tree = host.tree := rfl

@[simp] theorem history_announceRun :
    (announceRun surroundings workspace host).history = host.history := rfl

@[simp] theorem tree_announceStart : (announceStart surroundings host).tree = host.tree := rfl

@[simp] theorem history_announceStart :
    (announceStart surroundings host).history = host.history := rfl

@[simp] theorem tree_announceStop :
    (announceStop surroundings startup host).tree = host.tree := by
  cases startup <;> rfl

@[simp] theorem history_announceStop :
    (announceStop surroundings startup host).history = host.history := by
  cases startup <;> rfl

@[simp] theorem tree_conclude :
    (conclude surroundings startup stopped host).2.tree = host.tree := by
  cases startup <;> cases stopped <;> rfl

@[simp] theorem history_conclude :
    (conclude surroundings startup stopped host).2.history = host.history := by
  cases startup <;> cases stopped <;> rfl

end Announcements

/-- A run whose workspace was removed ends as its start and the call of its stop did. -/
theorem conclude_verdict (surroundings : Surroundings) (workspace : Workspace)
    (startup : Startup) (stopped : Except RuntimeError Unit) (host : Host) :
    (conclude surroundings startup (workspace.stopResult stopped (.ok ())) host).1 =
      verdict startup stopped := by
  cases startup <;> cases stopped <;> rfl

/-! ## Moments in order -/

/-- At some moment of a run the right events have happened, the files outside the workspace are as
they were before it was made, and the workspace is there until the run is over. -/
structure Sound (ground : FileTree) (workspace : Workspace) (location : Location) (made : Host)
    (moment : Moment) : Prop where
  happened : ∃ events, moment.host.history = made.history ++ events ∧
    HappenedBy workspace moment.phase events
  outside : FileTree.SameOutside location moment.host.tree ground
  inhabited : (∀ result, moment.phase ≠ .ended result) →
    moment.host.tree.get? location = some .directory
  gone : ∀ result, moment.phase = .ended result → moment.host.tree.VacantFrom location

section Steps

variable {surroundings : Surroundings} {ground : FileTree} {root : Path} {directory : Location}
  {run : RunId} {made : Host}

/-- What a call does in the workspace leaves the rest as it was. -/
private theorem outside_of_confined {location : Location} {before after : FileTree}
    (outside : FileTree.SameOutside location before ground)
    (standing : before.get? location = some .directory)
    (confined : Confined location before after) :
    FileTree.SameOutside location after ground ∧ after.get? location = some .directory :=
  ⟨confined.outside.trans outside, confined.standing.trans standing⟩

/-- A tree that agrees with the ground outside the site has grown from it. -/
private theorem grown_of_outside
    (site : FileTree.Site ground root directory (Naming.workspaceDirectory run))
    {tree : FileTree}
    (outside : FileTree.SameOutside (directory ++ [Naming.workspaceDirectory run]) tree ground) :
    FileTree.PartOf ground tree :=
  site.grows (.refl ground) outside

/-- When the start has ended the stop begins, as the workspace is there. -/
theorem halt_sound
    (site : FileTree.Site ground root directory (Naming.workspaceDirectory run))
    (fits : ¬ FileTree.TooLong root (Naming.workspaceDirectory run))
    {startup : Startup} {events : List Event} {host : Host}
    (begun : Begun (Workspace.under root run) startup events)
    (history : host.history = made.history ++ events)
    (outside : FileTree.SameOutside (directory ++ [Naming.workspaceDirectory run]) host.tree
      ground)
    (standing : host.tree.get? (directory ++ [Naming.workspaceDirectory run]) =
      some .directory) :
    Sound ground (Workspace.under root run) (directory ++ [Naming.workspaceDirectory run]) made
      (halt surroundings (Workspace.under root run) startup host) := by
  have status := site.stat_of_inhabited (grown_of_outside site outside) standing fits
  have present :
      Workspace.isAbsent (announceStop surroundings startup host).tree
        (Workspace.under root run).path = false := by
    rw [Bool.eq_false_iff]
    intro absent
    rw [Workspace.isAbsent_iff, tree_announceStop] at absent
    change host.tree.stat (root.joinName (Naming.workspaceDirectory run)) = _ at absent
    rw [status] at absent
    cases absent
  unfold halt
  dsimp only
  rw [present, if_neg Bool.false_ne_true]
  refine ⟨⟨events, ?_, .stopping begun⟩, ?_, ?_, ?_⟩
  · rw [history_announceStop, history]
  · rw [tree_announceStop]
    exact outside
  · intro _
    rw [tree_announceStop]
    exact standing
  · intro result atEnd
    cases atEnd

/-- In the end the workspace is removed, whatever the calls of the stop came to. -/
theorem finish_sound
    (site : FileTree.Site ground root directory (Naming.workspaceDirectory run))
    (fits : ¬ FileTree.TooLong root (Naming.workspaceDirectory run))
    {startup : Startup} {events : List Event} {host : Host}
    (begun : Begun (Workspace.under root run) startup events)
    (stopped imageRemoved : Except RuntimeError Unit)
    (history : host.history = made.history ++ (events ++
      [.called (Workspace.under root run).downCall (.ofResult stopped),
        .called (Workspace.under root run).removeImageCall (.ofResult imageRemoved)]))
    (outside : FileTree.SameOutside (directory ++ [Naming.workspaceDirectory run]) host.tree
      ground)
    (standing : host.tree.get? (directory ++ [Naming.workspaceDirectory run]) =
      some .directory) :
    Sound ground (Workspace.under root run) (directory ++ [Naming.workspaceDirectory run]) made
      (finish surroundings (Workspace.under root run) startup stopped imageRemoved host) := by
  have removal : host.tree.removeAll (Workspace.under root run).path =
      (.ok (), host.tree.erase (directory ++ [Naming.workspaceDirectory run])) :=
    site.removeAll_place (grown_of_outside site outside) standing fits
  unfold finish
  dsimp only
  rw [removal, conclude_verdict]
  refine ⟨⟨_, ?_, .ended begun stopped imageRemoved⟩, ?_, ?_, ?_⟩
  · rw [history_conclude, Host.history_warn, history]
  · rw [tree_conclude, Host.tree_warn]
    exact (FileTree.sameOutside_erase host.tree List.prefix_rfl).trans outside
  · intro unfinished
    exact absurd rfl (unfinished _)
  · intro result atEnd place under
    rw [tree_conclude, Host.tree_warn]
    exact FileTree.get?_erase_of_under host.tree (by simp) under

/-- Every step keeps a run in order. -/
theorem step_sound
    (site : FileTree.Site ground root directory (Naming.workspaceDirectory run))
    (fits : ¬ FileTree.TooLong root (Naming.workspaceDirectory run)) {before after : Moment}
    (sound : Sound ground (Workspace.under root run)
      (directory ++ [Naming.workspaceDirectory run]) made before)
    (step : Step surroundings (Workspace.under root run)
      (directory ++ [Naming.workspaceDirectory run]) before after) :
    Sound ground (Workspace.under root run) (directory ++ [Naming.workspaceDirectory run]) made
      after := by
  obtain ⟨⟨events, history, happened⟩, outside, inhabited, -⟩ := sound
  -- Each step fixes the phase before it, and the phase fixes what has happened by then.
  cases step with
  | begun host =>
      cases happened
      exact ⟨⟨[], history, .building⟩, outside, fun _ => inhabited (by simp), by simp⟩
  | interruptedAtOnce host =>
      cases happened
      exact halt_sound site fits .interruptedAtOnce (by simp_all) outside (inhabited (by simp))
  | built host effect confined =>
      cases happened
      obtain ⟨outsideAfter, standingAfter⟩ :=
        outside_of_confined outside (inhabited (by simp)) confined
      exact ⟨⟨_, by simp_all, .starting⟩, outsideAfter, fun _ => standingAfter, by simp⟩
  | buildFailed host cause effect confined =>
      cases happened
      obtain ⟨outsideAfter, standingAfter⟩ :=
        outside_of_confined outside (inhabited (by simp)) confined
      exact halt_sound site fits (.buildFailed cause) (by simp_all) outsideAfter standingAfter
  | buildInterrupted host effect confined =>
      cases happened
      obtain ⟨outsideAfter, standingAfter⟩ :=
        outside_of_confined outside (inhabited (by simp)) confined
      exact halt_sound site fits .buildInterrupted (by simp_all) outsideAfter standingAfter
  | interruptedBetween host =>
      cases happened
      exact halt_sound site fits .interruptedBetween (by simp_all) outside (inhabited (by simp))
  | started host effect confined =>
      cases happened
      obtain ⟨outsideAfter, standingAfter⟩ :=
        outside_of_confined outside (inhabited (by simp)) confined
      exact ⟨⟨_, by simp_all, .waiting⟩, outsideAfter, fun _ => standingAfter, by simp⟩
  | upFailed host cause effect confined =>
      cases happened
      obtain ⟨outsideAfter, standingAfter⟩ :=
        outside_of_confined outside (inhabited (by simp)) confined
      exact halt_sound site fits (.upFailed cause) (by simp_all) outsideAfter standingAfter
  | upInterrupted host effect confined =>
      cases happened
      obtain ⟨outsideAfter, standingAfter⟩ :=
        outside_of_confined outside (inhabited (by simp)) confined
      exact halt_sound site fits .upInterrupted (by simp_all) outsideAfter standingAfter
  | interrupted host =>
      cases happened
      exact halt_sound site fits .completed (by simp_all) outside (inhabited (by simp))
  | stopped startup host result effect confined =>
      cases happened with
      | stopping begun =>
          obtain ⟨outsideAfter, standingAfter⟩ :=
            outside_of_confined outside (inhabited (by simp)) confined
          exact ⟨⟨_, by simp_all, .removingImage begun result⟩, outsideAfter,
            fun _ => standingAfter, by simp⟩
  | imageRemoved startup stopped host result effect confined =>
      cases happened with
      | removingImage begun stopped =>
          obtain ⟨outsideAfter, standingAfter⟩ :=
            outside_of_confined outside (inhabited (by simp)) confined
          exact finish_sound site fits begun stopped result (by simp_all) outsideAfter
            standingAfter
  | ignoredWhileStopping startup host =>
      exact ⟨⟨events, history, happened⟩, outside, inhabited, by simp⟩
  | ignoredWhileRemovingImage startup stopped host =>
      exact ⟨⟨events, history, happened⟩, outside, inhabited, by simp⟩

/-- Every moment of a run is in order, if the moment at which its workspace is made is. -/
theorem reachable_sound
    (site : FileTree.Site ground root directory (Naming.workspaceDirectory run))
    (fits : ¬ FileTree.TooLong root (Naming.workspaceDirectory run))
    (outside : FileTree.SameOutside (directory ++ [Naming.workspaceDirectory run]) made.tree
      ground)
    (standing : made.tree.get? (directory ++ [Naming.workspaceDirectory run]) = some .directory)
    {moment : Moment}
    (reached : Reachable surroundings (Workspace.under root run)
      (directory ++ [Naming.workspaceDirectory run]) made moment) :
    Sound ground (Workspace.under root run) (directory ++ [Naming.workspaceDirectory run]) made
      moment := by
  induction reached with
  | start =>
      exact ⟨⟨[], by simp, .ready⟩, outside, fun _ => standing, by simp⟩
  | step reached step inductionHypothesis => exact step_sound site fits inductionHypothesis step

end Steps

end FaultDrill.CommandLine
