import FaultDrill.Proofs.Compile
import FaultDrill.Proofs.Lifecycle.Stop

/-!
Sessions: compilations, starts and stops one after the other, of any workspaces.

Owns:
- operations, and the host after some of them;
- the order of the calls that a session makes;
- stops of workspaces that are not there.

Main statement: in every session the call that starts a topology comes right after the build of its
base image, and the two calls of a stop right after each other; a stop makes its calls only if the
workspace is there; and as long as no compilation makes it anew, a workspace that is gone needs no
further stop (`performAll_orderly`).
-/

namespace FaultDrill

/-! ## Operations -/

/-- What can be done in a session. -/
inductive Operation where
  | compile (scenario : Scenario) (root : Path) (run : RunId)
  | up (workspace : Workspace)
  | down (workspace : Workspace)

namespace Operation

/-- The host after an operation. -/
def perform (runtime : Runtime) (host : Host) : Operation → Host
  | compile scenario root run => (scenario.compile host root run).2
  | up workspace => (workspace.up runtime host).2
  | down workspace => (workspace.down runtime host).2

/-- The host after some operations, first to last. -/
def performAll (runtime : Runtime) (host : Host) (operations : List Operation) : Host :=
  operations.foldl (perform runtime) host

@[simp] theorem performAll_nil (runtime : Runtime) (host : Host) :
    performAll runtime host [] = host := rfl

@[simp] theorem performAll_cons (runtime : Runtime) (host : Host) (operation : Operation)
    (operations : List Operation) :
    performAll runtime host (operation :: operations) =
      performAll runtime (operation.perform runtime host) operations := rfl

/-! ## Events of an operation -/

/-- What happens in an operation on a host with some files. -/
inductive Adds (tree : FileTree) : Operation → List Event → Prop where
  | compile (scenario : Scenario) (root : Path) (run : RunId) :
      Adds tree (compile scenario root run) []
  | up (workspace : Workspace) {startup : Startup} {events : List Event}
      (started : workspace.StartEvents startup events) : Adds tree (up workspace) events
  | absent (workspace : Workspace) : Adds tree (down workspace) []
  | down (workspace : Workspace) (stopped imageRemoved : Ending)
      (present : tree.stat workspace.path ≠ .error .notFound) :
      Adds tree (down workspace)
        [.called workspace.downCall stopped, .called workspace.removeImageCall imageRemoved]

theorem perform_adds (runtime : Runtime) (host : Host) (operation : Operation) :
    ∃ events, (operation.perform runtime host).history = host.history ++ events ∧
      Adds host.tree operation events := by
  cases operation with
  | compile scenario root run =>
      refine ⟨[], ?_, .compile scenario root run⟩
      rw [perform, Scenario.compile_eq, List.append_nil]
      rfl
  | up workspace =>
      obtain ⟨events, started, history⟩ := workspace.up_events runtime host
      exact ⟨events, history, .up workspace started⟩
  | down workspace =>
      by_cases absent : Workspace.isAbsent host.tree workspace.path = true
      · refine ⟨[], ?_, .absent workspace⟩
        rw [perform, Workspace.down_of_absent runtime absent, List.append_nil]
      · have present := Bool.eq_false_iff.mpr absent
        rw [Workspace.isAbsent_iff] at absent
        let replies := workspace.stopReplies runtime host
        refine ⟨_, ?_, .down workspace (.ofResult replies.stopped.result)
          (.ofResult replies.imageRemoved.result) absent⟩
        rw [perform, Workspace.down_of_present runtime present]

/-! ## Order of calls -/

/-- Every event of a kind comes right after one that may lead it. -/
def LedBy (kind : Event → Prop) (leads : Event → Event → Prop) (events : List Event) : Prop :=
  ∀ before event after, events = before ++ event :: after → kind event →
    ∃ earlier leader, before = earlier ++ [leader] ∧ leads leader event

/-- Every event of a kind comes right before one that may follow it. -/
def FollowedBy (kind : Event → Prop) (follows : Event → Event → Prop) (events : List Event) :
    Prop :=
  ∀ before event after, events = before ++ event :: after → kind event →
    ∃ follower later, after = follower :: later ∧ follows follower event

section Append

variable {kind : Event → Prop} {relation : Event → Event → Prop} {first second : List Event}

theorem LedBy.append (firstLed : LedBy kind relation first)
    (secondLed : LedBy kind relation second) : LedBy kind relation (first ++ second) := by
  intro before event after parts isKind
  rcases List.append_eq_append_iff.mp parts with
    ⟨middle, rfl, second⟩ | ⟨middle, firstParts, rest⟩
  · obtain ⟨earlier, leader, rfl, leads⟩ := secondLed middle event after second isKind
    exact ⟨first ++ earlier, leader, by rw [List.append_assoc], leads⟩
  · cases middle with
    | nil =>
        rw [List.nil_append] at rest
        obtain ⟨earlier, leader, none, -⟩ := secondLed [] event after rest.symm isKind
        simp at none
    | cons head middle =>
        rw [List.cons_append, List.cons.injEq] at rest
        obtain ⟨rfl, -⟩ := rest
        exact firstLed before event middle firstParts isKind

theorem FollowedBy.append (firstFollowed : FollowedBy kind relation first)
    (secondFollowed : FollowedBy kind relation second) :
    FollowedBy kind relation (first ++ second) := by
  intro before event after parts isKind
  rcases List.append_eq_append_iff.mp parts with
    ⟨middle, rfl, second⟩ | ⟨middle, firstParts, rest⟩
  · exact secondFollowed middle event after second isKind
  · cases middle with
    | nil =>
        rw [List.nil_append] at rest
        exact secondFollowed [] event after rest.symm isKind
    | cons head middle =>
        rw [List.cons_append, List.cons.injEq] at rest
        obtain ⟨rfl, rfl⟩ := rest
        obtain ⟨follower, later, rfl, follows⟩ :=
          firstFollowed before event middle firstParts isKind
        exact ⟨follower, later ++ second, rfl, follows⟩

end Append

/-- The call that starts a topology. -/
def Starts : Event → Prop
  | .called (.composeUp _) _ => True
  | _ => False

/-- The call that stops a topology. -/
def Stops : Event → Prop
  | .called (.composeDown _) _ => True
  | _ => False

/-- The call that removes the base image. -/
def RemovesImage : Event → Prop
  | .called (.removeImage _ _) _ => True
  | _ => False

/-- A build succeeds and a topology is started, both of one workspace that is to be started. -/
def BuiltFor (operations : List Operation) (build start : Event) : Prop :=
  ∃ workspace ending, up workspace ∈ operations ∧
    build = .called workspace.buildCall .succeeded ∧ start = .called workspace.upCall ending

/-- A topology is stopped and a base image removed, both of one workspace that is to be stopped. -/
def StoppedFor (operations : List Operation) (stop removal : Event) : Prop :=
  ∃ workspace stopped imageRemoved, down workspace ∈ operations ∧
    stop = .called workspace.downCall stopped ∧
    removal = .called workspace.removeImageCall imageRemoved

/-- Calls are made in the order in which starts and stops make them. -/
structure Ordered (operations : List Operation) (events : List Event) : Prop where
  starts : LedBy Starts (BuiltFor operations) events
  stops : FollowedBy Stops (fun removal stop => StoppedFor operations stop removal) events
  removals : LedBy RemovesImage (StoppedFor operations) events

theorem Ordered.append {operations : List Operation} {first second : List Event}
    (one : Ordered operations first) (two : Ordered operations second) :
    Ordered operations (first ++ second) where
  starts := one.starts.append two.starts
  stops := one.stops.append two.stops
  removals := one.removals.append two.removals

theorem ordered_nil (operations : List Operation) : Ordered operations [] := by
  constructor <;> intro before event after parts <;> simp at parts

/-- A lone event that is none of the three calls. -/
theorem ordered_singleton (operations : List Operation) {event : Event}
    (other : ¬ Starts event ∧ ¬ Stops event ∧ ¬ RemovesImage event) :
    Ordered operations [event] := by
  constructor <;> intro before event after parts isKind <;>
    rcases List.singleton_eq_append_iff.mp parts with ⟨-, same⟩ | ⟨-, none⟩ <;> simp_all

private theorem pair_eq_append {first second event : Event} {before after : List Event}
    (parts : [first, second] = before ++ event :: after) :
    (before = [] ∧ event = first ∧ after = [second]) ∨
      (before = [first] ∧ event = second ∧ after = []) := by
  rcases before with _ | ⟨head, _ | ⟨next, rest⟩⟩ <;> simp at parts
  · exact Or.inl ⟨rfl, parts.1.symm, parts.2.symm⟩
  · exact Or.inr ⟨by rw [parts.1], parts.2.1.symm, parts.2.2⟩

theorem ordered_start {operations : List Operation} {workspace : Workspace}
    (member : up workspace ∈ operations) (ending : Ending) :
    Ordered operations
      [.called workspace.buildCall .succeeded, .called workspace.upCall ending] where
  starts := by
    intro before event after parts isKind
    rcases pair_eq_append parts with ⟨rfl, rfl, rfl⟩ | ⟨rfl, rfl, rfl⟩
    · exact isKind.elim
    · exact ⟨[], _, rfl, workspace, ending, member, rfl, rfl⟩
  stops := by
    intro before event after parts isKind
    rcases pair_eq_append parts with ⟨rfl, rfl, rfl⟩ | ⟨rfl, rfl, rfl⟩ <;> exact isKind.elim
  removals := by
    intro before event after parts isKind
    rcases pair_eq_append parts with ⟨rfl, rfl, rfl⟩ | ⟨rfl, rfl, rfl⟩ <;> exact isKind.elim

theorem ordered_stop {operations : List Operation} {workspace : Workspace}
    (member : down workspace ∈ operations) (stopped imageRemoved : Ending) :
    Ordered operations
      [.called workspace.downCall stopped, .called workspace.removeImageCall imageRemoved] where
  starts := by
    intro before event after parts isKind
    rcases pair_eq_append parts with ⟨rfl, rfl, rfl⟩ | ⟨rfl, rfl, rfl⟩ <;> exact isKind.elim
  stops := by
    intro before event after parts isKind
    rcases pair_eq_append parts with ⟨rfl, rfl, rfl⟩ | ⟨rfl, rfl, rfl⟩
    · exact ⟨_, [], rfl, workspace, stopped, imageRemoved, member, rfl, rfl⟩
    · exact isKind.elim
  removals := by
    intro before event after parts isKind
    rcases pair_eq_append parts with ⟨rfl, rfl, rfl⟩ | ⟨rfl, rfl, rfl⟩
    · exact isKind.elim
    · exact ⟨[], _, rfl, workspace, stopped, imageRemoved, member, rfl, rfl⟩

/-- An operation makes its calls in order. -/
theorem ordered_of_adds {tree : FileTree} {operations : List Operation} {operation : Operation}
    {events : List Event} (member : operation ∈ operations) (adds : Adds tree operation events) :
    Ordered operations events := by
  have built : ∀ (workspace : Workspace) ending,
      Ordered operations [.called workspace.buildCall ending] := fun workspace ending =>
    ordered_singleton operations ⟨id, id, id⟩
  have interrupted : Ordered operations [.interrupted] :=
    ordered_singleton operations ⟨id, id, id⟩
  cases adds with
  | compile scenario root run => exact ordered_nil operations
  | up workspace started =>
      cases started with
      | buildInterrupted => exact (built workspace _).append interrupted
      | buildFailed cause => exact built workspace _
      | upInterrupted => exact (ordered_start member _).append interrupted
      | upFailed cause => exact ordered_start member _
      | completed => exact ordered_start member _
  | absent workspace => exact ordered_nil operations
  | down workspace stopped imageRemoved present =>
      exact ordered_stop member stopped imageRemoved

/-! ## Sessions -/

/-- A runtime that never changes the files. -/
def KeepsAllFiles (runtime : Runtime) : Prop :=
  ∀ call, runtime.KeepsFiles call ∧ runtime.KeepsFilesUntilInterrupted call

/-- Only compilations make files. -/
theorem partOf_perform {runtime : Runtime} (keeps : KeepsAllFiles runtime) (host : Host)
    (operation : Operation) (making : ∀ scenario root run, operation ≠ compile scenario root run) :
    FileTree.PartOf (operation.perform runtime host).tree host.tree := by
  cases operation with
  | compile scenario root run => exact absurd rfl (making scenario root run)
  | up workspace =>
      rw [perform, Workspace.tree_up host (fun call => (keeps call).1) fun call => (keeps call).2]
      exact .refl host.tree
  | down workspace =>
      by_cases absent : Workspace.isAbsent host.tree workspace.path = true
      · rw [perform, Workspace.down_of_absent runtime absent]
        exact .refl host.tree
      · rw [perform, Workspace.down_of_present runtime (Bool.eq_false_iff.mpr absent)]
        have kept : (workspace.stopReplies runtime host).imageRemoved.effect.tree = host.tree :=
          ((keeps _).1 _ _).trans ((keeps _).1 _ _)
        dsimp only
        rw [kept]
        exact FileTree.partOf_removeAll host.tree workspace.path

/-- Some operations leave a path absent unless a compilation makes what it leads to. -/
theorem absent_performAll {runtime : Runtime} (keeps : KeepsAllFiles runtime) {path : Path}
    {host : Host} {operations : List Operation}
    (absent : host.tree.stat path = .error .notFound)
    (unmade : ∀ before scenario root run after,
      operations = before ++ compile scenario root run :: after →
        (performAll runtime host before).tree.stat path = .error .notFound →
        (performAll runtime host (before ++ [compile scenario root run])).tree.stat path =
          .error .notFound) :
    (performAll runtime host operations).tree.stat path = .error .notFound := by
  induction operations generalizing host with
  | nil => exact absent
  | cons operation operations inductionHypothesis =>
      apply inductionHypothesis
      · by_cases compiles : ∃ scenario root run, operation = compile scenario root run
        · obtain ⟨scenario, root, run, rfl⟩ := compiles
          have unmadeNow := unmade [] scenario root run operations rfl absent
          rw [List.nil_append, performAll_cons, performAll_nil] at unmadeNow
          exact unmadeNow
        · have part := partOf_perform keeps host operation
            (fun scenario root run same => compiles ⟨scenario, root, run, same⟩)
          rw [← Workspace.isAbsent_iff, Workspace.isAbsent_iff_find] at absent ⊢
          exact FileTree.find_notFound_of_partOf part absent
      · intro before scenario root run after parts
        have unmadeLater := unmade (operation :: before) scenario root run after
          (by rw [parts, List.cons_append])
        rw [List.cons_append, performAll_cons, performAll_cons] at unmadeLater
        exact unmadeLater

/-- The calls of a stop. -/
def OfStop : Call → Prop
  | .composeDown _ | .removeImage _ _ => True
  | .buildImage _ _ | .composeUp _ => False

/-- A stop makes its calls only if its workspace is there. -/
theorem present_of_adds {tree : FileTree} {operation : Operation} {events : List Event}
    (adds : Adds tree operation events) {call : Call} {ending : Ending}
    (made : .called call ending ∈ events) (ofStop : OfStop call) :
    tree.stat call.directory ≠ .error .notFound := by
  cases adds with
  | compile scenario root run => simp at made
  | up workspace started =>
      rcases started.calls made with rfl | rfl <;> exact ofStop.elim
  | absent workspace => simp at made
  | down workspace stopped imageRemoved present =>
      simp at made
      obtain ⟨rfl, -⟩ | ⟨rfl, -⟩ := made <;> exact present

/-- Two runtimes give the same replies, but perhaps not to a stop of a workspace that is gone. -/
def AgreeWherePresent (first second : Runtime) : Prop :=
  ∀ earlier call tree, (OfStop call → tree.stat call.directory ≠ .error .notFound) →
    first earlier call tree = second earlier call tree

theorem attempt_congr {first second : Runtime} (agree : AgreeWherePresent first second)
    (host : Host) {call : Call} (other : ¬ OfStop call) :
    host.attempt first call = host.attempt second call := by
  unfold Host.attempt
  rw [agree host.calls call host.tree fun ofStop => absurd ofStop other]

theorem perform_congr {first second : Runtime} (agree : AgreeWherePresent first second)
    (keeps : KeepsAllFiles first) (host : Host) (operation : Operation) :
    operation.perform first host = operation.perform second host := by
  cases operation with
  | compile scenario root run => rw [perform, perform]
  | up workspace =>
      have build : ¬ OfStop workspace.buildCall := id
      have start : ¬ OfStop workspace.upCall := id
      unfold perform Workspace.up
      simp only [attempt_congr agree _ build, attempt_congr agree _ start]
  | down workspace =>
      by_cases absent : Workspace.isAbsent host.tree workspace.path = true
      · rw [perform, perform, Workspace.down_of_absent first absent,
          Workspace.down_of_absent second absent]
      · have present := Bool.eq_false_iff.mpr absent
        rw [Workspace.isAbsent_iff] at absent
        -- No call changes the files, so the workspace is there at the second call as well.
        have alike : workspace.stopReplies first host = workspace.stopReplies second host := by
          have stopped := agree host.calls workspace.downCall host.tree fun _ => absent
          unfold Workspace.stopReplies
          dsimp only
          rw [← stopped, (keeps workspace.downCall).1 host.calls host.tree,
            agree _ workspace.removeImageCall host.tree fun _ => absent]
        rw [perform, perform, Workspace.down_of_present first present,
          Workspace.down_of_present second present, alike]

theorem performAll_congr {first second : Runtime} (agree : AgreeWherePresent first second)
    (keeps : KeepsAllFiles first) (host : Host) (operations : List Operation) :
    performAll first host operations = performAll second host operations := by
  induction operations generalizing host with
  | nil => rfl
  | cons operation operations inductionHypothesis =>
      rw [performAll_cons, performAll_cons, ← perform_congr agree keeps host operation,
        inductionHypothesis]

/-- What holds of the calls in a session. -/
structure Orderly (runtime : Runtime) (host : Host) (operations : List Operation) : Prop where
  /-- Starts follow their builds, and removals of images the stops of their topologies. -/
  ordered : ∃ events, (performAll runtime host operations).history = host.history ++ events ∧
    Ordered operations events
  /-- The calls of a stop are made only if the directory in which they are made is there when the
  stop begins. -/
  present : ∀ before operation after, operations = before ++ operation :: after →
    ∃ events, (operation.perform runtime (performAll runtime host before)).history =
        (performAll runtime host before).history ++ events ∧
      ∀ call ending, .called call ending ∈ events → OfStop call →
        (performAll runtime host before).tree.stat call.directory ≠ .error .notFound
  /-- It does not matter what a runtime would reply to such calls when the directory is gone. -/
  unanswered : ∀ other, AgreeWherePresent runtime other →
    performAll other host operations = performAll runtime host operations
  /-- Once a workspace is gone, its stops do nothing until a compilation makes it anew. -/
  settled : ∀ before workspace between again after,
    operations = before ++ down workspace :: (between ++ down again :: after) →
    again.path = workspace.path →
    let gone := performAll runtime host (before ++ [down workspace])
    gone.tree.stat workspace.path = .error .notFound →
    (∀ earlier scenario root run later,
      between = earlier ++ compile scenario root run :: later →
        (performAll runtime gone earlier).tree.stat workspace.path = .error .notFound →
        (performAll runtime gone (earlier ++ [compile scenario root run])).tree.stat
          workspace.path = .error .notFound) →
    again.down runtime (performAll runtime gone between) =
      (.ok (), performAll runtime gone between)

private theorem ordered_performAll (runtime : Runtime) (host : Host)
    {operations all : List Operation} (within : ∀ operation ∈ operations, operation ∈ all) :
    ∃ events, (performAll runtime host operations).history = host.history ++ events ∧
      Ordered all events := by
  induction operations generalizing host with
  | nil => exact ⟨[], (List.append_nil _).symm, ordered_nil all⟩
  | cons operation operations inductionHypothesis =>
      obtain ⟨first, history, adds⟩ := perform_adds runtime host operation
      obtain ⟨rest, laterHistory, ordered⟩ :=
        inductionHypothesis (operation.perform runtime host)
          fun other member => within other (List.mem_cons_of_mem operation member)
      refine ⟨first ++ rest, ?_, ?_⟩
      · rw [performAll_cons, laterHistory, history, List.append_assoc]
      · exact (ordered_of_adds (within operation (by simp)) adds).append ordered

/-- Every session with a runtime that does not change the files is orderly. -/
theorem performAll_orderly (runtime : Runtime) (keeps : KeepsAllFiles runtime) (host : Host)
    (operations : List Operation) : Orderly runtime host operations where
  ordered := ordered_performAll runtime host fun _ member => member
  present := by
    intro before operation after _
    obtain ⟨events, history, adds⟩ :=
      perform_adds runtime (performAll runtime host before) operation
    exact ⟨events, history, fun call ending made ofStop => present_of_adds adds made ofStop⟩
  unanswered := fun other agree => (performAll_congr agree keeps host operations).symm
  settled := by
    intro before workspace between again after _ samePath gone absent unmade
    have stillAbsent := absent_performAll keeps absent unmade
    rw [← samePath] at stillAbsent
    exact Workspace.down_of_absent runtime ((Workspace.isAbsent_iff _ _).mpr stillAbsent)

/-- Two workspaces are stopped in turn, one of them twice. -/
theorem performAll_orderly_of_failures :
    let runtime := Runtime.idle (.error (.failed "docker" none))
    let workspace : Workspace := ⟨⟨"ws"⟩, 7⟩
    KeepsAllFiles runtime ∧
      Orderly runtime Workspace.sampleHost
        [up workspace, down workspace, down ⟨⟨"kept"⟩, 8⟩, down workspace] := by
  intro runtime workspace
  have keeps : KeepsAllFiles runtime := fun call =>
    ⟨Runtime.keepsFiles_idle _ call, Runtime.keepsFilesUntilInterrupted_idle _ call⟩
  exact ⟨keeps, performAll_orderly runtime keeps _ _⟩

end Operation

end FaultDrill
