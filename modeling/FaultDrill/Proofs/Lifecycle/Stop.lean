import FaultDrill.Proofs.FileTree.Removal
import FaultDrill.Proofs.Lifecycle.Calls

/-!
What the stop of a topology does.

Owns:
- the two calls of a stop, its warnings, and which failure it reports;
- what a stop leaves of the workspace.

Main statements: a stop does nothing if the path of the workspace leads nowhere (`down_of_absent`),
and otherwise makes both calls and removes what the path leads to, whatever fails
(`down_of_present`, `down_stopped`).

The path of a workspace may be any; one that leads through the workspace itself keeps the emptied
directory from being removed (`down_ok_leaves_directory`).
-/

namespace FaultDrill.Workspace

/-! ## Presence -/

theorem isAbsent_iff (tree : FileTree) (path : Path) :
    isAbsent tree path = true ↔ tree.stat path = .error .notFound := by
  unfold isAbsent
  split
  · next nowhere => simp [nowhere]
  · next other => simpa using other

theorem isAbsent_iff_find (tree : FileTree) (path : Path) :
    isAbsent tree path = true ↔ tree.find .target path = .error .notFound := by
  rw [isAbsent_iff, FileTree.stat]
  cases tree.find .target path <;> simp [Except.map]

/-- A stop of a workspace that is not there does nothing. -/
theorem down_of_absent {workspace : Workspace} (runtime : Runtime) {host : Host}
    (absent : isAbsent host.tree workspace.path = true) :
    workspace.down runtime host = (.ok (), host) := by
  unfold down
  rw [if_pos absent]

/-! ## A stop with its calls -/

/-- The result of a stop: the failure of its first call outweighs that of the removal. -/
def stopResult (workspace : Workspace) :
    Except RuntimeError Unit → Except FileError Unit → Except ComposeError Unit
  | .error cause, _ => .error (.down cause)
  | .ok (), .error cause => .error (.removal workspace.path cause)
  | .ok (), .ok () => .ok ()

/-- The warnings of a stop: of the image if it was not removed, and of a workspace that was not
removed if the result says nothing of it. -/
def stopWarnings (workspace : Workspace) (stopped imageRemoved : Except RuntimeError Unit)
    (removed : Except FileError Unit) : List Warning :=
  (match imageRemoved with
    | .ok () => []
    | .error error => [.imageNotRemoved error workspace.baseImage]) ++
  (match stopped, removed with
    | .error _, .error error => [.workspaceNotRemoved error workspace.path]
    | _, _ => [])

/-- The replies to the two calls of a stop. -/
structure StopReplies where
  stopped : Reply
  imageRemoved : Reply

/-- The replies that a runtime gives in a stop. -/
def stopReplies (workspace : Workspace) (runtime : Runtime) (host : Host) : StopReplies :=
  let stopped := runtime host.calls workspace.downCall host.tree
  { stopped
    imageRemoved :=
      runtime (host.calls ++ [workspace.downCall]) workspace.removeImageCall
        stopped.effect.tree }

/-- A stop of a workspace that is there makes its two calls and then removes the workspace. -/
theorem down_of_present {workspace : Workspace} (runtime : Runtime) {host : Host}
    (present : isAbsent host.tree workspace.path = false) :
    let replies := workspace.stopReplies runtime host
    let removal := replies.imageRemoved.effect.tree.removeAll workspace.path
    workspace.down runtime host =
      (workspace.stopResult replies.stopped.result removal.1,
        { tree := removal.2
          history := host.history ++ [
            .called workspace.downCall (.ofResult replies.stopped.result),
            .called workspace.removeImageCall (.ofResult replies.imageRemoved.result)]
          warnings := host.warnings ++
            workspace.stopWarnings replies.stopped.result replies.imageRemoved.result removal.1
          output := host.output ++ replies.stopped.effect.output ++
            replies.imageRemoved.effect.output
          errors := host.errors ++ replies.stopped.effect.errors ++
            replies.imageRemoved.effect.errors }) := by
  unfold down stopReplies
  rw [if_neg (by simp [present])]
  unfold Host.perform removeBaseImage removeDirectory Host.perform
  dsimp only
  rw [Host.calls_undergo, Host.tree_undergo]
  rcases runtime host.calls workspace.downCall host.tree with ⟨stopped, effect, interruption⟩
  dsimp only
  rcases runtime (host.calls ++ [workspace.downCall]) workspace.removeImageCall effect.tree with
    ⟨imageRemoved, imageEffect, imageInterruption⟩
  cases stopped <;> cases imageRemoved <;>
    rcases removal : imageEffect.tree.removeAll workspace.path with ⟨removed, after⟩ <;>
    cases removed <;>
    simp [removal, Host.warn, Host.undergo, stopResult, stopWarnings]

/-! ## A stop as a whole -/

/-- A stop of a workspace that is there, given how its two calls and the removal end. -/
structure Stopped (workspace : Workspace) (before : Host)
    (stopped imageRemoved : Except RuntimeError Unit) (removed : Except FileError Unit)
    (result : Except ComposeError Unit) (after : Host) : Prop where
  /-- Both calls are made, however the first ends. -/
  history : after.history = before.history ++ [
    .called workspace.downCall (.ofResult stopped),
    .called workspace.removeImageCall (.ofResult imageRemoved)]
  /-- The removal is tried, however the calls end. -/
  removal : (removed, after.tree) = before.tree.removeAll workspace.path
  cleared : FileTree.Cleared workspace.path before.tree removed after.tree
  failedDown : ∀ cause, result = .error (.down cause) ↔ stopped = .error cause
  failedRemoval : ∀ path cause, result = .error (.removal path cause) ↔
    stopped = .ok () ∧ removed = .error cause ∧ path = workspace.path
  succeeded : result = .ok () ↔ stopped = .ok () ∧ removed = .ok ()
  warnings : after.warnings = before.warnings ++
    workspace.stopWarnings stopped imageRemoved removed

/-- A stop by a runtime that keeps the files does nothing if the workspace is not there. Otherwise
it makes both calls and removes the workspace, whatever fails; its result is the failure of the
call that stops the topology, else that of the removal; and a failure to remove the image is worth
a warning and no more. -/
theorem down_outcome (workspace : Workspace) (runtime : Runtime) (host : Host)
    (keepsOnStop : runtime.KeepsFiles workspace.downCall)
    (keepsOnImage : runtime.KeepsFiles workspace.removeImageCall) :
    (host.tree.stat workspace.path = .error .notFound →
      workspace.down runtime host = (.ok (), host)) ∧
    (host.tree.stat workspace.path ≠ .error .notFound →
      Stopped workspace host
        (runtime host.calls workspace.downCall host.tree).result
        (runtime (host.calls ++ [workspace.downCall]) workspace.removeImageCall host.tree).result
        (host.tree.removeAll workspace.path).1
        (workspace.down runtime host).1 (workspace.down runtime host).2) := by
  refine ⟨fun absent => down_of_absent runtime ((isAbsent_iff _ _).mpr absent), fun there => ?_⟩
  have present : isAbsent host.tree workspace.path = false := by
    rw [Bool.eq_false_iff]
    exact mt (isAbsent_iff _ _).mp there
  have kept : (workspace.stopReplies runtime host).stopped.effect.tree = host.tree :=
    keepsOnStop _ _
  have keptLater : (workspace.stopReplies runtime host).imageRemoved.effect.tree = host.tree :=
    (keepsOnImage _ _).trans kept
  have imageReply : (workspace.stopReplies runtime host).imageRemoved =
      runtime (host.calls ++ [workspace.downCall]) workspace.removeImageCall host.tree := by
    rw [← kept]
    rfl
  rw [down_of_present runtime present, keptLater, imageReply]
  change Stopped workspace host (workspace.stopReplies runtime host).stopped.result _ _ _ _
  generalize (workspace.stopReplies runtime host).stopped.result = stopped
  have cleared := host.tree.removeAll_cleared workspace.path
  rcases removal : host.tree.removeAll workspace.path with ⟨removed, after⟩
  rw [removal] at cleared
  refine ⟨rfl, removal.symm, cleared, ?_, ?_, ?_, rfl⟩
  · intro cause
    cases stopped <;> cases removed <;> simp [stopResult]
  · intro path cause
    cases stopped <;> cases removed <;> simp [stopResult, eq_comm, and_comm]
  · cases stopped <;> cases removed <;> simp [stopResult]

/-- A host with a workspace that holds a link, to a directory beside it, and a file. -/
def sampleHost : Host where
  tree.entries := [
    (["ws"], .directory), (["ws", "sub"], .directory), (["ws", "sub", "f"], .file [] false),
    (["ws", "link"], .link ⟨"../kept"⟩), (["kept"], .directory), (["kept", "f"], .file [] false)]

/-- Both calls fail; the workspace is removed all the same, and what its link leads to stays. -/
theorem down_outcome_of_failures :
    let cause : RuntimeError := .failed "docker" (some 1)
    let runtime := Runtime.idle (.error cause)
    let workspace : Workspace := ⟨⟨"ws"⟩, 7⟩
    (∀ call, runtime.KeepsFiles call) ∧
      (workspace.down runtime sampleHost).1 = .error (.down cause) ∧
      (workspace.down runtime sampleHost).2.tree.get? ["ws"] = none ∧
      FileTree.SameOutside ["ws"] (workspace.down runtime sampleHost).2.tree sampleHost.tree := by
  intro cause runtime workspace
  have keeps : ∀ call, runtime.KeepsFiles call := Runtime.keepsFiles_idle _
  have outcome := (down_outcome workspace runtime sampleHost (keeps _) (keeps _)).2
    (by decide +kernel)
  have leads : sampleHost.tree.find .itself workspace.path = .ok (["ws"], .directory) := by
    decide +kernel
  refine ⟨keeps, (outcome.failedDown cause).mpr rfl, ?_, outcome.cleared.outside _ _ leads⟩
  exact outcome.cleared.place _ _ leads (by decide +kernel) (by decide +kernel)

/-- A successful stop need not remove the directory of the workspace: the path may lead through
the workspace itself. -/
theorem down_ok_leaves_directory :
    let workspace : Workspace := ⟨⟨"ws/sub/../../ws"⟩, 7⟩
    let runtime := Runtime.idle (.ok ())
    (∀ call, runtime.KeepsFiles call) ∧
      sampleHost.tree.find .itself workspace.path = .ok (["ws"], .directory) ∧
      (workspace.down runtime sampleHost).1 = .ok () ∧
      (workspace.down runtime sampleHost).2.tree.get? ["ws"] = some .directory :=
  ⟨Runtime.keepsFiles_idle _, by decide +kernel, by decide +kernel, by decide +kernel⟩

end FaultDrill.Workspace
