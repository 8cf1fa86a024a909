import FaultDrill.Proofs.Lifecycle.Stop
import FaultDrill.Rehearsal

/-!
Workspaces that vanish while they are stopped.

Owns: the result of a stop after which the path of the workspace leads nowhere.

Main statement: such a stop succeeds exactly if the path led nowhere before it, or still led
somewhere when both calls had been made (`down_ok_iff_of_gone`).

The path is looked at before the calls and followed again after them. A workspace that is missing
before them needs no stop; one that goes missing during them makes the removal fail, although
nothing is left to remove (`down_fails_of_vanished`).

Does not own: what else a stop leaves behind (`Proofs.Lifecycle.Stop`).
-/

namespace FaultDrill.Workspace

/-- A stop whose first call succeeds ends as the removal of the workspace does, with the tree that
the removal leaves. -/
theorem down_of_stopped {workspace : Workspace} {runtime : Runtime} {host : Host}
    (present : isAbsent host.tree workspace.path = false)
    (stopped : (workspace.stopReplies runtime host).stopped.result = .ok ()) :
    let removal := (workspace.stopReplies runtime host).imageRemoved.effect.tree.removeAll
      workspace.path
    (workspace.down runtime host).1 = removal.1.mapError (.removal workspace.path) ∧
      (workspace.down runtime host).2.tree = removal.2 := by
  intro removal
  rw [down_of_present runtime present, stopped]
  change workspace.stopResult (.ok ()) removal.1 = _ ∧ removal.2 = _
  refine ⟨?_, rfl⟩
  cases removal.1 <;> rfl

/-- A stop whose first call succeeds, and after which the path of the workspace leads nowhere,
succeeds if the path led nowhere before it or led somewhere when its calls had returned. Otherwise
it fails for what kept the path from leading anywhere by then. -/
theorem down_ok_iff_of_gone (workspace : Workspace) (runtime : Runtime) (host : Host)
    (unslashed : FileTree.Unslashed workspace.path.names)
    (stopped : (workspace.stopReplies runtime host).stopped.result = .ok ())
    (gone : (workspace.down runtime host).2.tree.exists? workspace.path = false) :
    let left := (workspace.stopReplies runtime host).imageRemoved.effect.tree
    ((workspace.down runtime host).1 = .ok () ↔
      host.tree.stat workspace.path = .error .notFound ∨
        ∃ found, left.find .itself workspace.path = .ok found) ∧
    ∀ error, (workspace.down runtime host).1 = .error error ↔
      host.tree.stat workspace.path ≠ .error .notFound ∧
        ∃ cause, left.find .itself workspace.path = .error cause ∧
          error = .removal workspace.path cause := by
  intro left
  by_cases absent : isAbsent host.tree workspace.path = true
  · have nowhere := (isAbsent_iff _ _).mp absent
    rw [down_of_absent runtime absent]
    simp [nowhere]
  have somewhere : host.tree.stat workspace.path ≠ .error .notFound :=
    mt (isAbsent_iff _ _).mpr absent
  obtain ⟨result, tree⟩ := down_of_stopped (Bool.eq_false_iff.mpr absent) stopped
  change _ = (left.removeAll workspace.path).1.mapError _ at result
  change _ = (left.removeAll workspace.path).2 at tree
  rw [tree] at gone
  cases leads : left.find .itself workspace.path with
  | error cause =>
      rw [FileTree.removeAll_of_error leads] at result
      rw [result]
      simp [Except.mapError, somewhere, eq_comm]
  | ok found =>
      rw [FileTree.removeAll_ok_of_gone unslashed leads gone] at result
      rw [result]
      simp [Except.mapError]

/-- The call that stops the topology takes away what the workspace, a link, leads to. The link is
still there to be removed. -/
theorem down_ok_of_dangling_workspace :
    let workspace : Workspace := ⟨⟨"ws"⟩, 7⟩
    let host : Host := { tree := { entries := [
      (["ws"], .link ⟨"kept"⟩), (["kept"], .directory), (["kept", "f"], .file [] false)] } }
    let rehearsal : Rehearsal :=
      { mishap := fun _ => none, removal := fun kind => if kind = .down then some ⟨"kept"⟩ else none }
    let after := (workspace.down rehearsal.runtime host).2.tree
    host.tree.stat workspace.path = .ok .directory ∧
      (workspace.down rehearsal.runtime host).1 = .ok () ∧
      after.get? ["ws"] = none ∧ after.get? ["kept"] = none := by
  intro workspace host rehearsal after
  refine ⟨by decide +kernel, ?_, by decide +kernel, by decide +kernel⟩
  apply (down_ok_iff_of_gone workspace rehearsal.runtime host (by decide +kernel)
    (by decide +kernel) (by decide +kernel)).1.mpr
  exact Or.inr ⟨(["ws"], .link ⟨"kept"⟩), by decide +kernel⟩

/-- A stop whose calls all succeed fails if one of them takes the workspace away. -/
theorem down_fails_of_vanished :
    let workspace : Workspace := ⟨⟨"ws"⟩, 7⟩
    let host : Host := { tree := { entries := [(["ws"], .directory)] } }
    let rehearsal : Rehearsal :=
      { mishap := fun _ => none, removal := fun kind => if kind = .down then some ⟨"ws"⟩ else none }
    (workspace.stopReplies rehearsal.runtime host).stopped.result = .ok () ∧
      (workspace.down rehearsal.runtime host).2.tree.stat workspace.path = .error .notFound ∧
      (workspace.down rehearsal.runtime host).1 = .error (.removal ⟨"ws"⟩ .notFound) :=
  ⟨by decide +kernel, by decide +kernel, by decide +kernel⟩

end FaultDrill.Workspace
