import FaultDrill.Proofs.FileTree.Purposes

/-!
What the removal of a directory with all its contents leaves.

Owns: the entries that remain after `removeAll`, and where the path then leads.

Main statements: nothing outside the place of the path changes (`sameOutside_removeAll`); after a
successful removal the path leads nowhere (`find_removeAll_of_ok`) and nothing stands below its
place (`get?_removeAll_of_ok`); nor does anything stand at the place itself, as long as the path
leads there without its contents (`vacantFrom_removeAll`). `Cleared` holds all of this together.

A path can lead through what it removes. Then it leads nowhere once the contents are gone, and the
emptied directory stays (`removeAll_of_indirect`).
-/

namespace FaultDrill.FileTree

/-! ## The name that a removal goes by -/

/-- The name that a removal goes by is the last on the path, before any separators. -/
theorem names_of_removalName {path : Path} {name : String}
    (called : removalName path = some name) :
    ∃ front tail, path.names = front ++ name :: tail ∧ (tail = [] ∨ tail = [""]) := by
  have nonempty : ∀ step ∈ path.steps, step ≠ "" := by
    intro step member
    unfold Path.steps at member
    obtain ⟨piece, kept, rfl⟩ := List.mem_map.mp member
    simpa using (List.mem_filter.mp kept).2
  have stepsKept : path.steps.filter (· != "") = path.steps := by
    rw [List.filter_eq_self]
    intro step member
    simpa using nonempty step member
  unfold removalName at called
  rcases path.names_eq with names | names
  · rw [names, stepsKept] at called
    obtain ⟨front, steps⟩ := List.getLast?_eq_some_iff.mp called
    exact ⟨front, [], by rw [names, steps], Or.inl rfl⟩
  · rw [names, List.filter_append, stepsKept] at called
    have called : path.steps.getLast? = some name := by simpa using called
    obtain ⟨front, steps⟩ := List.getLast?_eq_some_iff.mp called
    exact ⟨front, [""], by rw [names, steps, List.append_assoc]; rfl, Or.inr rfl⟩

/-- A directory that is called by its own name stands where the path leads, and is not the root. -/
theorem standing_of_removalName {tree : FileTree} {path : Path} {location : Location}
    {name : String}
    (leads : tree.find .entryName path = .ok (location, .directory))
    (called : removalName path = some name) (notDot : name ≠ ".") (notDots : name ≠ "..") :
    location ≠ [] ∧ tree.get? location = some .directory := by
  rw [find_eq_found, found_eq_ok_iff] at leads
  obtain ⟨front, tail, names, ends⟩ := names_of_removalName called
  have nonempty : name ≠ "" := by
    unfold removalName at called
    simpa using (List.mem_filter.mp (List.mem_of_getLast? called)).2
  have last : isLast .entryName tail = true := by
    rcases ends with rfl | rfl <;> rfl
  obtain ⟨-, walked⟩ := walk_of_resolve leads
  rw [names] at walked
  obtain ⟨directory, fewer, -, walked⟩ :=
    leads_of_walk_append ⟨by simp, fun single => absurd (List.cons.inj single).1 nonempty⟩ walked
  rw [walk_eq, walkNames, if_neg (by simp [nonempty, notDot]), if_neg notDots, if_neg (by simp)]
    at walked
  split at walked
  · cases walked
  split at walked
  · split at walked <;> cases walked
  · next standing =>
      have here : directory ++ [name] = location := by
        rcases ends with rfl | rfl <;> simpa [walkNames] using walked
      rw [← here]
      exact ⟨by simp, standing⟩
  · rw [last] at walked
    cases walked
  · cases walked
    contradiction

/-! ## What removal does -/

theorem erase_eraseBelow (tree : FileTree) (location : Location) :
    (tree.eraseBelow location).erase location = tree.erase location := by
  unfold erase eraseBelow
  rw [List.filter_filter]
  congr 1
  apply List.filter_congr
  intro item _
  cases location.isPrefixOf item.1 <;> rfl

/-- Removal of an empty directory goes by its own name and takes away what the path leads to. -/
theorem removeDirectory_eq_ok {tree after : FileTree} {path : Path}
    (removed : tree.removeDirectory path = .ok after) :
    (∃ name, removalName path = some name ∧ name ≠ "." ∧ name ≠ "..") ∧
      ∃ location, tree.find .entryName path = .ok (location, .directory) ∧
        after = tree.erase location := by
  unfold removeDirectory at removed
  cases leads : tree.find .entryName path with
  | error error =>
      rw [leads] at removed
      cases removed
  | ok place =>
      rw [leads] at removed
      dsimp only [bind, Except.bind] at removed
      split at removed
      · cases removed
      · cases removed
      · cases removed
      · next name notDot notDots called =>
          split at removed
          · next location =>
              split at removed
              · cases removed
                exact ⟨⟨name, called, fun dot => notDot (by rw [dot]),
                  fun dots => notDots (by rw [dots])⟩, location, rfl, rfl⟩
              · cases removed
          · cases removed

theorem removeDirectory_of_error {tree : FileTree} {path : Path} {error : FileError}
    (fails : tree.find .entryName path = .error error) :
    tree.removeDirectory path = .error error := by
  unfold removeDirectory
  rw [fails]
  rfl

/-- Removal of an empty directory fails for want of one only if the path leads nowhere. -/
theorem find_of_removeDirectory_notFound {tree : FileTree} {path : Path}
    (removed : tree.removeDirectory path = .error .notFound) :
    tree.find .entryName path = .error .notFound := by
  unfold removeDirectory at removed
  cases leads : tree.find .entryName path with
  | error error =>
      rw [leads] at removed
      cases removed
      rfl
  | ok place =>
      rw [leads] at removed
      dsimp only [bind, Except.bind] at removed
      split at removed
      · cases removed
      · cases removed
      · cases removed
      · split at removed
        · split at removed <;> cases removed
        · cases removed

/-- A path that leads to a link leads nowhere without it. -/
theorem find_erase_of_link {tree : FileTree} {path : Path} {location : Location} {target : Path}
    (leads : tree.find .itself path = .ok (location, .link target)) :
    location ≠ [] ∧ (tree.erase location).find .itself path = .error .notFound := by
  have standing := get?_of_find leads (by simp)
  have proper : location ≠ [] := by
    rintro rfl
    cases standing
  refine ⟨proper, ?_⟩
  rcases find_partOf (partOf_erase tree location) .itself path with same | nowhere
  · rw [leads] at same
    have still := get?_of_find same (by simp)
    rw [get?_erase_of_under tree proper List.prefix_rfl] at still
    cases still
  · exact nowhere

/-- A path that leads to a directory by its own name leads nowhere without it. -/
theorem find_erase_of_directory {tree : FileTree} {path : Path} {location : Location}
    {name : String}
    (leads : tree.find .entryName path = .ok (location, .directory))
    (called : removalName path = some name) (notDot : name ≠ ".") (notDots : name ≠ "..") :
    location ≠ [] ∧ (tree.erase location).find .itself path = .error .notFound := by
  have proper := (standing_of_removalName leads called notDot notDots).1
  refine ⟨proper, find_notFound_of_stricter itself_stricter_entryName ?_⟩
  rcases find_partOf (partOf_erase tree location) .entryName path with same | nowhere
  · rw [leads] at same
    have still := (standing_of_removalName same called notDot notDots).2
    rw [get?_erase_of_under tree proper List.prefix_rfl] at still
    cases still
  · exact nowhere

/-- What removal does when the path leads to an entry at a location. -/
inductive Removed (tree : FileTree) (path : Path) (location : Location) :
    Entry → Except FileError Unit × FileTree → Prop where
  /-- Everything at the location and below it is gone. -/
  | gone (entry : Entry) (proper : location ≠ [])
      (direct : entry = .directory →
        (tree.eraseBelow location).find .itself path = .ok (location, .directory))
      (nowhere : (tree.erase location).find .itself path = .error .notFound) :
      Removed tree path location entry (.ok (), tree.erase location)
  /-- The path led through the contents of the directory, which stays without them. -/
  | emptied (nowhere : (tree.eraseBelow location).find .itself path = .error .notFound) :
      Removed tree path location .directory (.ok (), tree.eraseBelow location)
  /-- The contents of the directory are gone, but it cannot be removed by this path. -/
  | kept (error : FileError) :
      Removed tree path location .directory (.error error, tree.eraseBelow location)
  /-- What stands there is neither a directory nor a link. -/
  | refused (entry : Entry) (other : entry ≠ .directory) :
      Removed tree path location entry (.error .notDirectory, tree)

theorem removeAll_removed {tree : FileTree} {path : Path} {location : Location} {entry : Entry}
    (leads : tree.find .itself path = .ok (location, entry)) :
    Removed tree path location entry (tree.removeAll path) := by
  unfold removeAll
  rw [leads]
  cases entry with
  | file contents executable => exact .refused _ (by simp)
  | socket => exact .refused _ (by simp)
  | link target =>
      obtain ⟨proper, nowhere⟩ := find_erase_of_link leads
      exact .gone _ proper (fun other => by cases other) nowhere
  | directory =>
      dsimp only
      cases removed : (tree.eraseBelow location).removeDirectory path with
      | error error =>
          cases error with
          | notFound =>
              exact .emptied (find_notFound_of_stricter itself_stricter_entryName
                (find_of_removeDirectory_notFound removed))
          | _ => exact .kept _
      | ok after =>
          obtain ⟨⟨name, called, notDot, notDots⟩, place, reached, rfl⟩ :=
            removeDirectory_eq_ok removed
          have reachedItself := find_directory_of_stricter itself_stricter_entryName reached
          -- The emptied tree is part of the tree, so the path leads to the same place in both.
          have reachedBefore := find_eq_of_partOf (partOf_eraseBelow tree location) reachedItself
          rw [leads] at reachedBefore
          cases reachedBefore
          obtain ⟨proper, nowhere⟩ := find_erase_of_directory reached called notDot notDots
          rw [erase_eraseBelow] at nowhere ⊢
          exact .gone _ proper (fun _ => reachedItself) nowhere

theorem removeAll_of_error {tree : FileTree} {path : Path} {error : FileError}
    (fails : tree.find .itself path = .error error) :
    tree.removeAll path = (.error error, tree) := by
  unfold removeAll
  rw [fails]

/-! ## What is left -/

/-- Removal makes nothing. -/
theorem partOf_removeAll (tree : FileTree) (path : Path) :
    PartOf (tree.removeAll path).2 tree := by
  cases leads : tree.find .itself path with
  | error error =>
      rw [removeAll_of_error leads]
      exact .refl tree
  | ok place =>
      obtain ⟨location, entry⟩ := place
      have removed := removeAll_removed leads
      generalize tree.removeAll path = outcome at removed ⊢
      cases removed with
      | gone => exact partOf_erase tree _
      | emptied => exact partOf_eraseBelow tree _
      | kept => exact partOf_eraseBelow tree _
      | refused => exact .refl tree

/-- Removal changes nothing outside the location that the path leads to. -/
theorem sameOutside_removeAll {tree : FileTree} {path : Path} {location : Location}
    {entry : Entry} (leads : tree.find .itself path = .ok (location, entry)) :
    SameOutside location (tree.removeAll path).2 tree := by
  have removed := removeAll_removed leads
  generalize tree.removeAll path = outcome at removed ⊢
  cases removed with
  | gone => exact sameOutside_erase tree List.prefix_rfl
  | emptied => exact sameOutside_eraseBelow tree location
  | kept => exact sameOutside_eraseBelow tree location
  | refused => exact .refl location tree

/-- After a successful removal the path leads nowhere. -/
theorem find_removeAll_of_ok {tree : FileTree} {path : Path}
    (succeeded : (tree.removeAll path).1 = .ok ()) :
    (tree.removeAll path).2.find .itself path = .error .notFound := by
  cases leads : tree.find .itself path with
  | error error =>
      rw [removeAll_of_error leads] at succeeded
      cases succeeded
  | ok place =>
      obtain ⟨location, entry⟩ := place
      have removed := removeAll_removed leads
      generalize tree.removeAll path = outcome at removed succeeded ⊢
      cases removed with
      | gone entry proper direct nowhere => exact nowhere
      | emptied nowhere => exact nowhere
      | kept error => cases succeeded
      | refused entry other => cases succeeded

theorem stat_removeAll_of_ok {tree : FileTree} {path : Path}
    (succeeded : (tree.removeAll path).1 = .ok ()) :
    (tree.removeAll path).2.stat path = .error .notFound := by
  unfold stat
  rw [find_notFound_of_stricter target_stricter_itself (find_removeAll_of_ok succeeded)]
  rfl

/-- After a successful removal nothing stands below the location that the path led to. -/
theorem get?_removeAll_of_ok {tree : FileTree} {path : Path} {location place : Location}
    {entry : Entry} (leads : tree.find .itself path = .ok (location, entry))
    (succeeded : (tree.removeAll path).1 = .ok ())
    (under : location <+: place) (below : place ≠ location) :
    (tree.removeAll path).2.get? place = none := by
  have removed := removeAll_removed leads
  generalize tree.removeAll path = outcome at removed succeeded ⊢
  cases removed with
  | gone entry proper => exact get?_erase_of_under tree proper under
  | emptied nowhere =>
      have proper : place ≠ [] := by
        rintro rfl
        exact below (List.prefix_nil.mp under).symm
      rw [get?_eraseBelow, if_pos ⟨under, below, proper⟩]
  | kept error => cases succeeded
  | refused entry other => cases succeeded

/-- After a successful removal by a path that does not lead through what it removes, nothing
stands at the location that it led to. -/
theorem vacantFrom_removeAll {tree : FileTree} {path : Path} {location : Location}
    {entry : Entry} (leads : tree.find .itself path = .ok (location, entry))
    (succeeded : (tree.removeAll path).1 = .ok ())
    (direct : entry = .directory →
      (tree.eraseBelow location).find .itself path ≠ .error .notFound) :
    (tree.removeAll path).2.VacantFrom location := by
  have removed := removeAll_removed leads
  generalize tree.removeAll path = outcome at removed succeeded ⊢
  cases removed with
  | gone entry proper => exact fun place under => get?_erase_of_under tree proper under
  | emptied nowhere => exact absurd nowhere (direct rfl)
  | kept error => cases succeeded
  | refused entry other => cases succeeded

/-- By a path that leads through what it removes, a directory is emptied and stays. -/
theorem removeAll_of_indirect {tree : FileTree} {path : Path} {location : Location}
    (leads : tree.find .itself path = .ok (location, .directory))
    (succeeded : (tree.removeAll path).1 = .ok ())
    (indirect : (tree.eraseBelow location).find .itself path = .error .notFound) :
    (tree.removeAll path).2 = tree.eraseBelow location := by
  have removed := removeAll_removed leads
  generalize tree.removeAll path = outcome at removed succeeded ⊢
  cases removed with
  | gone entry proper direct =>
      rw [direct rfl] at indirect
      cases indirect
  | emptied nowhere => rfl
  | kept error => cases succeeded
  | refused entry other => cases succeeded

/-- A directory or a link can be removed by a path that ends in its name. -/
theorem removeAll_ok_of_name {tree : FileTree} {path : Path} {location : Location} {entry : Entry}
    {name : String} (unslashed : Unslashed path.names)
    (called : removalName path = some name) (notDot : name ≠ ".") (notDots : name ≠ "..")
    (leads : tree.find .itself path = .ok (location, entry))
    (removable : entry = .directory ∨ ∃ target, entry = .link target) :
    (tree.removeAll path).1 = .ok () := by
  unfold removeAll
  rw [leads]
  rcases removable with rfl | ⟨target, rfl⟩
  · have alike := find_entryName_eq (tree.eraseBelow location) unslashed
    rcases find_partOf (partOf_eraseBelow tree location) .itself path with same | nowhere
    · rw [leads] at same
      have removed : (tree.eraseBelow location).removeDirectory path =
          .ok ((tree.eraseBelow location).erase location) := by
        unfold removeDirectory
        rw [alike, same, called]
        dsimp only [bind, Except.bind]
        rw [if_pos (isEmptyBelow_eraseBelow tree location)]
        split
        · contradiction
        · next dot => exact absurd (Option.some.inj dot) notDot
        · next dots => exact absurd (Option.some.inj dots) notDots
        · rfl
      dsimp only
      rw [removed]
    · dsimp only
      rw [removeDirectory_of_error (alike.trans nowhere)]
  · rfl

/-- A removal that succeeds by a path that does not lead through what it removes takes away
everything at the location and below it. -/
theorem removeAll_of_direct {tree : FileTree} {path : Path} {location : Location}
    (leads : tree.find .itself path = .ok (location, .directory))
    (succeeded : (tree.removeAll path).1 = .ok ())
    (direct : (tree.eraseBelow location).find .itself path ≠ .error .notFound) :
    tree.removeAll path = (.ok (), tree.erase location) := by
  have removed := removeAll_removed leads
  generalize tree.removeAll path = outcome at removed succeeded ⊢
  cases removed with
  | gone entry proper => rfl
  | emptied nowhere => exact absurd nowhere direct
  | kept error => cases succeeded
  | refused entry other => cases succeeded

/-- A removal by a path that leads nowhere afterwards has succeeded, if the path led somewhere
before: what cannot be removed is still there. -/
theorem removeAll_ok_of_gone {tree : FileTree} {path : Path} {location : Location} {entry : Entry}
    (unslashed : Unslashed path.names)
    (leads : tree.find .itself path = .ok (location, entry))
    (gone : (tree.removeAll path).2.exists? path = false) :
    (tree.removeAll path).1 = .ok () := by
  have standing {left : FileTree} (noLink : ∀ target, entry ≠ .link target)
      (stillLeads : left.find .itself path = .ok (location, entry)) :
      left.exists? path = true := by
    unfold exists? stat
    rw [find_target_of_itself stillLeads noLink]
    rfl
  unfold removeAll at gone ⊢
  rw [leads] at gone ⊢
  cases entry with
  | link target => rfl
  | file contents executable =>
      rw [standing (by simp) leads] at gone
      cases gone
  | socket =>
      rw [standing (by simp) leads] at gone
      cases gone
  | directory =>
      dsimp only at gone ⊢
      have alike := find_entryName_eq (tree.eraseBelow location) unslashed
      rcases find_partOf (partOf_eraseBelow tree location) .itself path with same | nowhere
      · -- The emptied directory is there, so nothing but its removal makes the path lead nowhere.
        rw [leads] at same
        cases removed : (tree.eraseBelow location).removeDirectory path with
        | ok after => rfl
        | error error =>
            cases error with
            | notFound => rfl
            | _ =>
                rw [removed] at gone
                rw [standing (by simp) same] at gone
                cases gone
      · rw [removeDirectory_of_error (alike.trans nowhere)]

/-- What a removal leaves of the entry that a path leads to, given its result. -/
structure Cleared (path : Path) (before : FileTree) (result : Except FileError Unit)
    (after : FileTree) : Prop where
  /-- A path that leads to no entry takes nothing away. -/
  refused : ∀ error, before.find .itself path = .error error →
    result = .error error ∧ after = before
  /-- A directory or a link is removed by a path that ends in its name. -/
  possible : ∀ location entry name, Unslashed path.names → removalName path = some name →
    name ≠ "." → name ≠ ".." → before.find .itself path = .ok (location, entry) →
    entry = .directory ∨ (∃ target, entry = .link target) → result = .ok ()
  /-- Nothing changes elsewhere. -/
  outside : ∀ location entry, before.find .itself path = .ok (location, entry) →
    SameOutside location after before
  /-- After a success the path leads nowhere, to nothing that it names and through no link. -/
  nowhere : result = .ok () →
    after.find .itself path = .error .notFound ∧ after.stat path = .error .notFound
  /-- After a success nothing is left below the place of the entry. -/
  below : ∀ location entry, before.find .itself path = .ok (location, entry) → result = .ok () →
    ∀ place, location <+: place → place ≠ location → after.get? place = none
  /-- After a success nothing is left at the place of the entry, unless the path leads through the
  contents of the directory. -/
  place : ∀ location entry, before.find .itself path = .ok (location, entry) → result = .ok () →
    (entry = .directory → (before.eraseBelow location).find .itself path ≠ .error .notFound) →
    after.get? location = none
  /-- A directory that the path leads to through its contents loses these and stays. -/
  emptied : ∀ location, before.find .itself path = .ok (location, .directory) →
    result = .ok () → (before.eraseBelow location).find .itself path = .error .notFound →
    after = before.eraseBelow location

theorem removeAll_cleared (tree : FileTree) (path : Path) :
    Cleared path tree (tree.removeAll path).1 (tree.removeAll path).2 where
  refused := by
    intro error fails
    rw [removeAll_of_error fails]
    exact ⟨rfl, rfl⟩
  possible := fun _ _ _ unslashed called notDot notDots leads removable =>
    removeAll_ok_of_name unslashed called notDot notDots leads removable
  outside := fun _ _ leads => sameOutside_removeAll leads
  nowhere := fun succeeded => ⟨find_removeAll_of_ok succeeded, stat_removeAll_of_ok succeeded⟩
  below := fun _ _ leads succeeded _ under different =>
    get?_removeAll_of_ok leads succeeded under different
  place := fun location _ leads succeeded direct =>
    vacantFrom_removeAll leads succeeded direct location List.prefix_rfl
  emptied := fun _ leads succeeded indirect => removeAll_of_indirect leads succeeded indirect

end FaultDrill.FileTree
