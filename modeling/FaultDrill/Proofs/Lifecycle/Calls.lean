import FaultDrill.Lifecycle

/-!
What calls leave on a host.

Owns:
- runtimes that keep the files as they are;
- the history and the calls of a host after a call;
- the events of a start, one list for each way in which it can end.

Main statement: a start adds the events that belong to its end (`up_events`), and keeps the files
if both of its calls do (`tree_up`).
-/

namespace FaultDrill

/-! ## Runtimes that keep the files -/

namespace Runtime

/-- The files are after a call what they were before it, if nothing breaks the call off. -/
def KeepsFiles (runtime : Runtime) (call : Call) : Prop :=
  ∀ earlier tree, (runtime earlier call tree).effect.tree = tree

/-- The files are the same when an interrupt breaks a call off as they were before it. -/
def KeepsFilesUntilInterrupted (runtime : Runtime) (call : Call) : Prop :=
  ∀ earlier tree effect,
    (runtime earlier call tree).interruption = some effect → effect.tree = tree

/-- The runtime that gives the same result for every call and does nothing. -/
def idle (result : Except RuntimeError Unit) : Runtime := fun _ _ tree => ⟨result, { tree }, none⟩

theorem keepsFiles_idle (result : Except RuntimeError Unit) (call : Call) :
    (idle result).KeepsFiles call := fun _ _ => rfl

theorem keepsFilesUntilInterrupted_idle (result : Except RuntimeError Unit) (call : Call) :
    (idle result).KeepsFilesUntilInterrupted call := by
  intro earlier tree effect interrupted
  cases interrupted

end Runtime

/-! ## Calls -/

namespace Host

@[simp] theorem tree_warn (host : Host) (warnings : List Warning) :
    (host.warn warnings).tree = host.tree := rfl

@[simp] theorem history_warn (host : Host) (warnings : List Warning) :
    (host.warn warnings).history = host.history := rfl

@[simp] theorem tree_undergo (host : Host) (call : Call) (ending : Ending) (effect : Effect) :
    (host.undergo call ending effect).tree = effect.tree := rfl

@[simp] theorem history_undergo (host : Host) (call : Call) (ending : Ending) (effect : Effect) :
    (host.undergo call ending effect).history = host.history ++ [.called call ending] := rfl

@[simp] theorem tree_awaitInterrupt (host : Host) : host.awaitInterrupt.tree = host.tree := rfl

@[simp] theorem history_awaitInterrupt (host : Host) :
    host.awaitInterrupt.history = host.history ++ [.interrupted] := rfl

@[simp] theorem calls_undergo (host : Host) (call : Call) (ending : Ending) (effect : Effect) :
    (host.undergo call ending effect).calls = host.calls ++ [call] := by
  simp [calls, Event.call?]

/-- What an attempt comes to: it is broken off, or the call ends by itself. -/
theorem attempt_cases (host : Host) (runtime : Runtime) (call : Call) :
    (∃ effect, (runtime host.calls call host.tree).interruption = some effect ∧
      host.attempt runtime call =
        (.interrupted, (host.undergo call .interrupted effect).awaitInterrupt)) ∨
    (∃ result effect, runtime host.calls call host.tree = ⟨result, effect, none⟩ ∧
      host.attempt runtime call =
        (.ofResult result, host.undergo call (.ofResult result) effect)) := by
  unfold attempt
  rcases reply : runtime host.calls call host.tree with ⟨result, effect, interruption⟩
  cases interruption with
  | some effect => exact Or.inl ⟨effect, rfl, rfl⟩
  | none => exact Or.inr ⟨result, effect, rfl, rfl⟩

theorem tree_attempt (host : Host) {runtime : Runtime} {call : Call}
    (keeps : runtime.KeepsFiles call) (keepsUntil : runtime.KeepsFilesUntilInterrupted call) :
    (host.attempt runtime call).2.tree = host.tree := by
  rcases attempt_cases host runtime call with
    ⟨effect, interruption, attempted⟩ | ⟨result, effect, reply, attempted⟩
  · rw [attempted]
    exact keepsUntil _ _ _ interruption
  · rw [attempted]
    have kept := keeps host.calls host.tree
    rw [reply] at kept
    exact kept

end Host

/-! ## Starts -/

namespace Workspace

/-- What happens in a start, by how it ends. -/
inductive StartEvents (workspace : Workspace) : Startup → List Event → Prop where
  | buildInterrupted :
      StartEvents workspace .interrupted [.called workspace.buildCall .interrupted, .interrupted]
  | buildFailed (cause : RuntimeError) :
      StartEvents workspace (.failed (.baseImage cause))
        [.called workspace.buildCall (.failed cause)]
  | upInterrupted :
      StartEvents workspace .interrupted
        [.called workspace.buildCall .succeeded, .called workspace.upCall .interrupted,
          .interrupted]
  | upFailed (cause : RuntimeError) :
      StartEvents workspace (.failed (.up cause))
        [.called workspace.buildCall .succeeded, .called workspace.upCall (.failed cause)]
  | completed :
      StartEvents workspace .completed
        [.called workspace.buildCall .succeeded, .called workspace.upCall .succeeded]

/-- A start makes no calls but its two. -/
theorem StartEvents.calls {workspace : Workspace} {startup : Startup} {events : List Event}
    (started : workspace.StartEvents startup events) {call : Call} {ending : Ending}
    (made : .called call ending ∈ events) :
    call = workspace.buildCall ∨ call = workspace.upCall := by
  have calls : call ∈ events.filterMap Event.call? :=
    List.mem_filterMap.mpr ⟨_, made, rfl⟩
  cases started <;> simp [Event.call?] at calls <;> simp [calls]

/-- A start adds to the history what happens in it. -/
theorem up_events (workspace : Workspace) (runtime : Runtime) (host : Host) :
    ∃ events, StartEvents workspace (workspace.up runtime host).1 events ∧
      (workspace.up runtime host).2.history = host.history ++ events := by
  unfold up
  rcases host.attempt_cases runtime workspace.buildCall with
    ⟨effect, -, attempted⟩ | ⟨result, effect, -, attempted⟩
  · rw [attempted]
    exact ⟨_, .buildInterrupted, by simp⟩
  rw [attempted]
  cases result with
  | error cause => exact ⟨_, .buildFailed cause, rfl⟩
  | ok done =>
      dsimp only [Ending.ofResult]
      generalize built : host.undergo workspace.buildCall .succeeded effect = builtHost
      have history : builtHost.history =
          host.history ++ [.called workspace.buildCall .succeeded] := by
        rw [← built]
        rfl
      rcases builtHost.attempt_cases runtime workspace.upCall with
        ⟨effect, -, attempted⟩ | ⟨result, effect, -, attempted⟩
      · rw [attempted]
        exact ⟨_, .upInterrupted, by simp [history]⟩
      · rw [attempted]
        cases result with
        | error cause => exact ⟨_, .upFailed cause, by simp [Ending.ofResult, history]⟩
        | ok done => exact ⟨_, .completed, by simp [Ending.ofResult, history]⟩

/-- A start keeps the files if its calls do. -/
theorem tree_up {workspace : Workspace} {runtime : Runtime} (host : Host)
    (keeps : ∀ call, runtime.KeepsFiles call)
    (keepsUntil : ∀ call, runtime.KeepsFilesUntilInterrupted call) :
    (workspace.up runtime host).2.tree = host.tree := by
  have built := host.tree_attempt (keeps workspace.buildCall)
    (keepsUntil workspace.buildCall)
  unfold up
  generalize host.attempt runtime workspace.buildCall = attempted at built ⊢
  obtain ⟨ending, builtHost⟩ := attempted
  cases ending with
  | interrupted => exact built
  | failed cause => exact built
  | succeeded =>
      have started := builtHost.tree_attempt (keeps workspace.upCall)
        (keepsUntil workspace.upCall)
      dsimp only
      generalize builtHost.attempt runtime workspace.upCall = attempted at started ⊢
      obtain ⟨ending, startedHost⟩ := attempted
      cases ending <;> exact started.trans built

end Workspace

end FaultDrill
