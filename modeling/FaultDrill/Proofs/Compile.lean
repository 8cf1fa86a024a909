import FaultDrill.Compile
import FaultDrill.Proofs.FileTree.Making
import FaultDrill.Proofs.Lifecycle.Calls
import FaultDrill.Proofs.Plan

/-!
What a compilation does to a tree.

Owns: compilations on two trees side by side, and where they do nothing.

Main statements: a compilation in trees that hold the same at the place of the workspace comes to
the same and changes nothing elsewhere (`parallel_compileTree`); where something stands it changes
nothing at all (`compileTree_of_occupied`).
-/

namespace FaultDrill

open Path (PlainName)

/-! ## Files -/

namespace Artifact

open FileTree

variable {ground first second : FileTree} {root : Path} {directory : Location} {name : String}

theorem parallel_makeParent (site : Site ground root directory name)
    (alongside : Alongside ground (directory ++ [name]) first second)
    {step : String} {steps : List String} (plain : ∀ other ∈ step :: steps, PlainName other) :
    Parallel ground (directory ++ [name]) first second
      (makeParent first (root.descend (name :: step :: steps)))
      (makeParent second (root.descend (name :: step :: steps))) := by
  obtain ⟨front, last, parts⟩ : ∃ front last, step :: steps = front ++ [last] :=
    ⟨(step :: steps).dropLast, (step :: steps).getLast (by simp),
      (List.dropLast_concat_getLast _).symm⟩
  rw [parts] at plain ⊢
  have frontPlain : ∀ other ∈ front, PlainName other :=
    fun other member => plain other (List.mem_append_left [last] member)
  have made := site.parallel_makeDirectories alongside frontPlain
  unfold makeParent
  rw [site.parent?_descend plain]
  dsimp only
  generalize first.makeDirectories (root.descend (name :: front)) = one at made ⊢
  generalize second.makeDirectories (root.descend (name :: front)) = two at made ⊢
  obtain ⟨result, one⟩ := one
  obtain ⟨otherResult, two⟩ := two
  have sameResult : result = otherResult := made.result
  subst sameResult
  cases result with
  | error cause => exact made.withResult _
  | ok done => exact made.withResult _

theorem parallel_writeContents (artifact : Artifact) (site : Site ground root directory name)
    (alongside : Alongside ground (directory ++ [name]) first second)
    {steps : List String} (plain : ∀ step ∈ steps, PlainName step) :
    Parallel ground (directory ++ [name]) first second
      (artifact.writeContents first (root.descend (name :: steps)))
      (artifact.writeContents second (root.descend (name :: steps))) := by
  have written := site.both_write alongside plain (Text.Utf8.encode artifact.contents.toList)
  unfold writeContents
  generalize first.write (root.descend (name :: steps)) _ = one at written ⊢
  generalize second.write (root.descend (name :: steps)) _ = two at written ⊢
  cases written with
  | failed cause => exact alongside.unchanged _
  | made one two parallel =>
      dsimp only
      split
      · have executable := site.both_makeExecutable parallel.alongside plain
        dsimp only at executable
        generalize one.makeExecutable (root.descend (name :: steps)) = oneAfter at executable ⊢
        generalize two.makeExecutable (root.descend (name :: steps)) = twoAfter at executable ⊢
        cases executable with
        | failed cause => exact parallel.withResult _
        | made oneAfter twoAfter later => exact parallel.next (later.withResult _)
      · exact parallel.withResult _

theorem parallel_write (artifact : Artifact) (site : Site ground root directory name)
    (alongside : Alongside ground (directory ++ [name]) first second)
    (inner : Inner artifact.path) :
    Parallel ground (directory ++ [name]) first second
      (artifact.write first (root.joinName name))
      (artifact.write second (root.joinName name)) := by
  obtain ⟨step, steps, plain, path⟩ := inner
  have joined : (root.joinName name).join artifact.path =
      root.descend (name :: step :: steps) := by
    rw [path, Path.join_descend _ plain]
    rfl
  have parent := parallel_makeParent site alongside plain
  unfold write
  rw [joined]
  dsimp only
  generalize makeParent first (root.descend (name :: step :: steps)) = one at parent ⊢
  generalize makeParent second (root.descend (name :: step :: steps)) = two at parent ⊢
  obtain ⟨result, one⟩ := one
  obtain ⟨otherResult, two⟩ := two
  have sameResult : result = otherResult := parent.result
  subst sameResult
  cases result with
  | error error => exact parent
  | ok done =>
      exact parent.next (artifact.parallel_writeContents site parent.alongside plain)

theorem parallel_writeAll (site : Site ground root directory name)
    (alongside : Alongside ground (directory ++ [name]) first second)
    {artifacts : List Artifact} (inner : ∀ artifact ∈ artifacts, Inner artifact.path) :
    Parallel ground (directory ++ [name]) first second
      (writeAll first (root.joinName name) artifacts)
      (writeAll second (root.joinName name) artifacts) := by
  induction artifacts generalizing first second with
  | nil => exact alongside.unchanged _
  | cons artifact artifacts inductionHypothesis =>
      have written := artifact.parallel_write site alongside (inner artifact (by simp))
      unfold writeAll
      generalize artifact.write first (root.joinName name) = one at written ⊢
      generalize artifact.write second (root.joinName name) = two at written ⊢
      obtain ⟨result, one⟩ := one
      obtain ⟨otherResult, two⟩ := two
      have sameResult : result = otherResult := written.result
      subst sameResult
      cases result with
      | error error => exact written
      | ok done =>
          exact written.next (inductionHypothesis written.alongside
            fun other member => inner other (List.mem_cons_of_mem artifact member))

end Artifact

/-! ## Compilations -/

namespace Scenario

open FileTree

variable {ground tree first second : FileTree} {root : Path} {directory : Location}

/-- A compilation changes the files and gives warnings, and nothing else happens on the host. -/
theorem compile_eq (scenario : Scenario) (host : Host) (root : Path) (run : RunId) :
    scenario.compile host root run =
      ((scenario.compileTree host.tree root run).1,
        { host.warn (scenario.collisions.map .collision) with
          tree := (scenario.compileTree host.tree root run).2 }) := by
  unfold compile
  dsimp only
  rw [Host.tree_warn]

/-- A path that is too long is the path of no new workspace. -/
theorem compileTree_of_tooLong (scenario : Scenario) {run : RunId}
    (leads : tree.LeadsInto root directory) (standing : tree.get? directory = some .directory)
    (tooLong : TooLong root (Naming.workspaceDirectory run)) :
    scenario.compileTree tree root run =
      (.error (.directory (Workspace.under root run).path .nameTooLong), tree) := by
  have resolved := resolve_joinName leads standing (Naming.plainName_workspaceDirectory run)
    (Or.inl rfl : wantsLink .entryName = true ∨ _)
  rw [if_pos tooLong] at resolved
  have unmade : tree.makeDirectory (Workspace.under root run).path = .error .nameTooLong := by
    unfold makeDirectory make Workspace.under
    rw [resolved]
    rfl
  unfold compileTree
  dsimp only
  rw [unmade]

/-- Where something stands, no new workspace is made. -/
theorem compileTree_of_occupied (scenario : Scenario) {run : RunId} {entry : Entry}
    (leads : tree.LeadsInto root directory) (standing : tree.get? directory = some .directory)
    (fits : ¬ TooLong root (Naming.workspaceDirectory run))
    (occupied : tree.get? (directory ++ [Naming.workspaceDirectory run]) = some entry) :
    scenario.compileTree tree root run =
      (.error (.directory (Workspace.under root run).path .exists), tree) := by
  have resolved := resolve_joinName leads standing (Naming.plainName_workspaceDirectory run)
    (Or.inl rfl : wantsLink .entryName = true ∨ _)
  rw [if_neg fits, placeAt_of_some occupied] at resolved
  have unmade : tree.makeDirectory (Workspace.under root run).path = .error .exists := by
    unfold makeDirectory make Workspace.under
    rw [resolved]
    rfl
  unfold compileTree
  dsimp only
  rw [unmade]

/-- Where nothing stands, the directory of the workspace is made. -/
theorem makeDirectory_workspace {run : RunId}
    (leads : tree.LeadsInto root directory) (standing : tree.get? directory = some .directory)
    (fits : ¬ TooLong root (Naming.workspaceDirectory run))
    (vacant : tree.get? (directory ++ [Naming.workspaceDirectory run]) = none) :
    tree.makeDirectory (Workspace.under root run).path =
      .ok (tree.put (directory ++ [Naming.workspaceDirectory run]) .directory) := by
  have resolved := resolve_joinName leads standing (Naming.plainName_workspaceDirectory run)
    (Or.inl rfl : wantsLink .entryName = true ∨ _)
  rw [if_neg fits, placeAt_of_none vacant] at resolved
  unfold makeDirectory make Workspace.under
  rw [resolved]
  rfl

/-- New directories at the same place are side by side. -/
theorem alongside_put {location : Location} (proper : location ≠ [])
    (vacant : ground.VacantFrom location)
    (grownFirst : PartOf ground first) (grownSecond : PartOf ground second)
    (vacantFirst : first.VacantFrom location) (vacantSecond : second.VacantFrom location) :
    Alongside ground location (first.put location .directory)
      (second.put location .directory) where
  grownFirst := grownFirst.of_sameOutside vacant (sameOutside_put first _ List.prefix_rfl)
  grownSecond := grownSecond.of_sameOutside vacant (sameOutside_put second _ List.prefix_rfl)
  same := by
    intro place inside
    rw [get?_put first proper, get?_put second proper, vacantFirst place inside,
      vacantSecond place inside]
  inhabited := get?_put_self first .directory proper
  linkless := by
    intro place target inside
    rw [get?_put first proper, vacantFirst place inside]
    split <;> simp

/-- Compilations where nothing stands come to the same, side by side. -/
theorem parallel_compileTree (scenario : Scenario) {run : RunId}
    (site : Site ground root directory (Naming.workspaceDirectory run))
    (grownFirst : PartOf ground first) (grownSecond : PartOf ground second)
    (vacantFirst : first.VacantFrom (directory ++ [Naming.workspaceDirectory run]))
    (vacantSecond : second.VacantFrom (directory ++ [Naming.workspaceDirectory run]))
    (fits : ¬ TooLong root (Naming.workspaceDirectory run)) :
    Parallel ground (directory ++ [Naming.workspaceDirectory run]) first second
      (scenario.compileTree first root run) (scenario.compileTree second root run) := by
  have madeFirst := makeDirectory_workspace (site.leadsInto grownFirst)
    (site.get?_directory grownFirst) fits (vacantFirst _ List.prefix_rfl)
  have madeSecond := makeDirectory_workspace (site.leadsInto grownSecond)
    (site.get?_directory grownSecond) fits (vacantSecond _ List.prefix_rfl)
  have alongside := alongside_put (by simp) site.vacant grownFirst grownSecond vacantFirst
    vacantSecond
  have written := Artifact.parallel_writeAll site alongside (scenario.inner_artifacts run)
  unfold compileTree
  dsimp only
  rw [madeFirst, madeSecond]
  dsimp only
  change Parallel _ _ _ _
    (Artifact.writeAll _ (Workspace.under root run).path (scenario.artifacts run))
    (Artifact.writeAll _ (Workspace.under root run).path (scenario.artifacts run)) at written
  generalize Artifact.writeAll (first.put _ _) _ _ = one at written ⊢
  generalize Artifact.writeAll (second.put _ _) _ _ = two at written ⊢
  obtain ⟨result, one⟩ := one
  obtain ⟨otherResult, two⟩ := two
  have sameResult : result = otherResult := written.result
  subst sameResult
  have outside : ∀ {result other : Except ComposeError Workspace}, result = other →
      Parallel ground (directory ++ [Naming.workspaceDirectory run]) first second
        (result, one) (other, two) := fun same =>
    ⟨same, written.alongside,
      written.firstOutside.trans (sameOutside_put first _ List.prefix_rfl),
      written.secondOutside.trans (sameOutside_put second _ List.prefix_rfl)⟩
  cases result with
  | error error => exact outside rfl
  | ok done => exact outside rfl

/-- A compilation makes no workspace but that of its run. -/
theorem compileTree_workspace (scenario : Scenario) {run : RunId} {workspace : Workspace}
    (compiled : (scenario.compileTree tree root run).1 = .ok workspace) :
    workspace = Workspace.under root run := by
  unfold compileTree at compiled
  dsimp only at compiled
  split at compiled
  · cases compiled
  · split at compiled
    · cases compiled
      rfl
    · cases compiled

/-- Either the directory of the workspace cannot be made and nothing is done, or it is made at a
site. -/
theorem compileTree_refused_or_site (scenario : Scenario) (root : Path) (run : RunId)
    (wellFormed : tree.WellFormed) :
    (∃ cause, scenario.compileTree tree root run =
      (.error (.directory (Workspace.under root run).path cause), tree)) ∨
    ∃ directory, Site tree root directory (Naming.workspaceDirectory run) ∧
      ¬ TooLong root (Naming.workspaceDirectory run) := by
  have refused : ∀ cause, tree.makeDirectory (Workspace.under root run).path = .error cause →
      scenario.compileTree tree root run =
        (.error (.directory (Workspace.under root run).path cause), tree) := by
    intro cause unmade
    unfold compileTree
    dsimp only
    rw [unmade]
  unfold makeDirectory make Workspace.under at refused
  cases resolved : tree.resolve .entryName (root.joinName (Naming.workspaceDirectory run)) with
  | error error =>
      left
      rw [resolved] at refused
      exact ⟨error, refused error rfl⟩
  | ok place =>
      rw [resolved] at refused
      cases place with
      | entry location entry => exact Or.inl ⟨.exists, refused .exists rfl⟩
      | vacancy location =>
          obtain ⟨directory, -, site, fits⟩ :=
            site_of_vacancy wellFormed (Naming.plainName_workspaceDirectory run) resolved
          exact Or.inr ⟨directory, site, fits⟩

/-- A compilation that succeeds has made its workspace at a site, and nothing elsewhere. -/
theorem compileTree_ok (scenario : Scenario) {run : RunId} {workspace : Workspace}
    {made : FileTree} (wellFormed : tree.WellFormed)
    (compiled : scenario.compileTree tree root run = (.ok workspace, made)) :
    workspace = Workspace.under root run ∧
      ∃ directory, Site tree root directory (Naming.workspaceDirectory run) ∧
        ¬ TooLong root (Naming.workspaceDirectory run) ∧
        SameOutside (directory ++ [Naming.workspaceDirectory run]) made tree ∧
        made.get? (directory ++ [Naming.workspaceDirectory run]) = some .directory := by
  refine ⟨scenario.compileTree_workspace (congrArg Prod.fst compiled), ?_⟩
  rcases scenario.compileTree_refused_or_site root run wellFormed with
    ⟨cause, refused⟩ | ⟨directory, site, fits⟩
  · rw [refused] at compiled
    cases compiled
  · have parallel := scenario.parallel_compileTree site (.refl tree) (.refl tree) site.vacant
      site.vacant fits
    rw [compiled] at parallel
    exact ⟨directory, site, fits, parallel.firstOutside, parallel.alongside.inhabited⟩

/-- On a host a compilation that succeeds makes no calls. -/
theorem compile_ok (scenario : Scenario) {host made : Host} {run : RunId} {workspace : Workspace}
    (wellFormed : host.tree.WellFormed)
    (compiled : scenario.compile host root run = (.ok workspace, made)) :
    workspace = Workspace.under root run ∧ made.history = host.history ∧
      ∃ directory, Site host.tree root directory (Naming.workspaceDirectory run) ∧
        ¬ TooLong root (Naming.workspaceDirectory run) ∧
        SameOutside (directory ++ [Naming.workspaceDirectory run]) made.tree host.tree ∧
        made.tree.get? (directory ++ [Naming.workspaceDirectory run]) = some .directory := by
  rw [compile_eq] at compiled
  rcases outcome : scenario.compileTree host.tree root run with ⟨result, tree⟩
  rw [outcome] at compiled
  cases compiled
  obtain ⟨under, site⟩ := scenario.compileTree_ok wellFormed outcome
  exact ⟨under, rfl, site⟩

end Scenario

end FaultDrill
