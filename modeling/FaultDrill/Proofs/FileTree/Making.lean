import FaultDrill.Proofs.FileTree.Site

/-!
Making files and directories in a site, in two trees side by side.

Owns:
- two trees grown from one ground that hold the same in a site, where a directory without links
  stands;
- pairs of outcomes that agree, and whose trees are side by side again.

Main statements: making a directory, with those above it or without, writing a file and making it
executable come to the same in both trees and change nothing outside the site
(`Site.parallel_makeDirectories`, `Site.both_write`, `Site.both_makeExecutable`). With one tree in
both places these are statements about that tree alone.
-/

namespace FaultDrill.FileTree

open Path (PlainName)

/-- Two trees hold all that the ground holds, and the same at a location and below it, where a
directory stands that no links stand in. -/
structure Alongside (ground : FileTree) (location : Location) (first second : FileTree) :
    Prop where
  grownFirst : PartOf ground first
  grownSecond : PartOf ground second
  same : SameInside location first second
  inhabited : first.get? location = some .directory
  linkless : first.Linkless location

/-- Two outcomes have the same result and their trees are side by side; outside the location each
tree is as it was. -/
structure Parallel {α : Type} (ground : FileTree) (location : Location)
    (first second : FileTree) (one two : α × FileTree) : Prop where
  result : one.1 = two.1
  alongside : Alongside ground location one.2 two.2
  firstOutside : SameOutside location one.2 first
  secondOutside : SameOutside location two.2 second

/-- Two attempts fail alike, or both succeed with trees that are side by side. -/
inductive Both (ground : FileTree) (location : Location) (first second : FileTree) :
    Except FileError FileTree → Except FileError FileTree → Prop where
  | failed (error : FileError) : Both ground location first second (.error error) (.error error)
  | made (one two : FileTree)
      (parallel : Parallel ground location first second ((), one) ((), two)) :
      Both ground location first second (.ok one) (.ok two)

section Outcomes

variable {α β : Type} {ground : FileTree} {location : Location} {first second : FileTree}

theorem Alongside.unchanged (alongside : Alongside ground location first second) (result : α) :
    Parallel ground location first second (result, first) (result, second) :=
  ⟨rfl, alongside, .refl location first, .refl location second⟩

theorem Parallel.next {one two : α × FileTree} {later otherLater : β × FileTree}
    (now : Parallel ground location first second one two)
    (next : Parallel ground location one.2 two.2 later otherLater) :
    Parallel ground location first second later otherLater :=
  ⟨next.result, next.alongside, next.firstOutside.trans now.firstOutside,
    next.secondOutside.trans now.secondOutside⟩

theorem Parallel.withResult {one two : FileTree} {result : α}
    (now : Parallel ground location first second (result, one) (result, two)) (other : β) :
    Parallel ground location first second (other, one) (other, two) :=
  ⟨rfl, now.alongside, now.firstOutside, now.secondOutside⟩

theorem get?_put (tree : FileTree) {location : Location} (proper : location ≠ []) (entry : Entry)
    (place : Location) :
    (tree.put location entry).get? place =
      if place = location then some entry else tree.get? place := by
  by_cases here : place = location
  · rw [if_pos here, here, get?_put_self tree entry proper]
  · rw [if_neg here, get?_put_of_ne tree entry here]

/-- The same entry is put at the same place below the location. -/
theorem Alongside.put (alongside : Alongside ground location first second)
    (vacant : ground.VacantFrom location) {names : List String} (below : names ≠ [])
    {entry : Entry} (noLink : ∀ target, entry ≠ .link target) (result : α) :
    Parallel ground location first second
      (result, first.put (location ++ names) entry)
      (result, second.put (location ++ names) entry) := by
  have under : location <+: location ++ names := List.prefix_append location names
  have proper : location ++ names ≠ [] := by simp [below]
  have firstOutside := sameOutside_put first entry under
  have secondOutside := sameOutside_put second entry under
  refine ⟨rfl, ⟨?_, ?_, ?_, ?_, ?_⟩, firstOutside, secondOutside⟩
  · exact alongside.grownFirst.of_sameOutside vacant firstOutside
  · exact alongside.grownSecond.of_sameOutside vacant secondOutside
  · intro place inside
    rw [get?_put first proper, get?_put second proper, alongside.same place inside]
  · have elsewhere : location ≠ location ++ names := by
      intro same
      exact below (List.append_right_eq_self.mp same.symm)
    rw [get?_put first proper, if_neg elsewhere]
    exact alongside.inhabited
  · intro place target inside
    rw [get?_put first proper]
    by_cases here : place = location ++ names
    · rw [if_pos here]
      intro same
      exact noLink target (Option.some.inj same)
    · rw [if_neg here]
      exact alongside.linkless place target inside

end Outcomes

namespace Site

variable {ground first second : FileTree} {root : Path} {directory : Location} {name : String}
  {names : List String}

/-! ## Single operations -/

/-- What two lookups of one path through the site come to. -/
theorem resolve_alongside (site : Site ground root directory name)
    (alongside : Alongside ground (directory ++ [name]) first second)
    (plain : ∀ step ∈ names, PlainName step) (purpose : Purpose) :
    (∃ error,
      first.resolve purpose (root.descend (name :: names)) = .error error ∧
        second.resolve purpose (root.descend (name :: names)) = .error error) ∨
    (first.resolve purpose (root.descend (name :: names)) =
        .ok (first.placeAt (directory ++ [name] ++ names)) ∧
      second.resolve purpose (root.descend (name :: names)) =
        .ok (first.placeAt (directory ++ [name] ++ names))) := by
  have congr := site.resolve_congr alongside.grownFirst alongside.grownSecond alongside.same
    alongside.linkless plain purpose
  cases resolved : first.resolve purpose (root.descend (name :: names)) with
  | error error => exact Or.inl ⟨error, rfl, by rw [← congr, resolved]⟩
  | ok place =>
      right
      have here := site.resolve_location alongside.grownFirst alongside.linkless plain resolved
      rw [List.append_assoc, List.singleton_append, ← here, ← congr]
      exact ⟨rfl, resolved⟩

/-- A place in the site where anything but a directory stands, or nothing, is below it. -/
theorem below_of_not_directory
    (alongside : Alongside ground (directory ++ [name]) first second)
    (other : first.get? (directory ++ [name] ++ names) ≠ some .directory) : names ≠ [] := by
  rintro rfl
  rw [List.append_nil] at other
  exact other alongside.inhabited

theorem both_makeDirectory (site : Site ground root directory name)
    (alongside : Alongside ground (directory ++ [name]) first second)
    (plain : ∀ step ∈ names, PlainName step) :
    Both ground (directory ++ [name]) first second
      (first.makeDirectory (root.descend (name :: names)))
      (second.makeDirectory (root.descend (name :: names))) := by
  unfold makeDirectory make
  rcases site.resolve_alongside alongside plain .entryName with
    ⟨error, inFirst, inSecond⟩ | ⟨inFirst, inSecond⟩
  · rw [inFirst, inSecond]
    exact .failed error
  · rw [inFirst, inSecond]
    cases found : first.get? (directory ++ [name] ++ names) with
    | some entry =>
        rw [placeAt_of_some found]
        exact .failed .exists
    | none =>
        rw [placeAt_of_none found]
        have below := below_of_not_directory alongside (by rw [found]; simp)
        exact .made _ _ (alongside.put site.vacant below (by simp) ())

theorem both_write (site : Site ground root directory name)
    (alongside : Alongside ground (directory ++ [name]) first second)
    (plain : ∀ step ∈ names, PlainName step) (contents : List UInt8) :
    Both ground (directory ++ [name]) first second
      (first.write (root.descend (name :: names)) contents)
      (second.write (root.descend (name :: names)) contents) := by
  unfold write
  rcases site.resolve_alongside alongside plain .newFile with
    ⟨error, inFirst, inSecond⟩ | ⟨inFirst, inSecond⟩
  · rw [inFirst, inSecond]
    exact .failed error
  · rw [inFirst, inSecond]
    cases found : first.get? (directory ++ [name] ++ names) with
    | none =>
        rw [placeAt_of_none found]
        have below := below_of_not_directory alongside (by rw [found]; simp)
        exact .made _ _ (alongside.put site.vacant below (by simp) ())
    | some entry =>
        rw [placeAt_of_some found]
        cases entry with
        | directory => exact .failed .isDirectory
        | socket => exact .failed .noSuchDevice
        | link target => exact .failed .noSuchDevice
        | file old executable =>
            have below := below_of_not_directory alongside (by rw [found]; simp)
            exact .made _ _ (alongside.put site.vacant below (by simp) ())

theorem both_makeExecutable (site : Site ground root directory name)
    (alongside : Alongside ground (directory ++ [name]) first second)
    (plain : ∀ step ∈ names, PlainName step) :
    Both ground (directory ++ [name]) first second
      (first.makeExecutable (root.descend (name :: names)))
      (second.makeExecutable (root.descend (name :: names))) := by
  unfold makeExecutable
  rw [find_eq_found, find_eq_found]
  rcases site.resolve_alongside alongside plain .target with
    ⟨error, inFirst, inSecond⟩ | ⟨inFirst, inSecond⟩
  · rw [inFirst, inSecond]
    exact .failed error
  · rw [inFirst, inSecond]
    cases found : first.get? (directory ++ [name] ++ names) with
    | none =>
        rw [placeAt_of_none found]
        exact .failed .notFound
    | some entry =>
        rw [placeAt_of_some found]
        cases entry with
        | directory => exact .made _ _ (alongside.unchanged ())
        | socket => exact .made _ _ (alongside.unchanged ())
        | link target => exact .made _ _ (alongside.unchanged ())
        | file old executable =>
            have below := below_of_not_directory alongside (by rw [found]; simp)
            exact .made _ _ (alongside.put site.vacant below (by simp) ())

theorem isDirectory_congr (site : Site ground root directory name)
    (alongside : Alongside ground (directory ++ [name]) first second)
    (plain : ∀ step ∈ names, PlainName step) :
    first.isDirectory (root.descend (name :: names)) =
      second.isDirectory (root.descend (name :: names)) := by
  unfold isDirectory stat
  rw [find_eq_found, find_eq_found, site.resolve_congr alongside.grownFirst
    alongside.grownSecond alongside.same alongside.linkless plain .target]

/-! ## Directories with those above them -/

/-- The site itself is there already. -/
theorem makeDirectory_place (site : Site ground root directory name)
    (alongside : Alongside ground (directory ++ [name]) first second) :
    ∃ error, first.makeDirectory (root.joinName name) = .error error ∧ error ≠ .notFound := by
  have resolved := site.resolve_place alongside.grownFirst
    (Or.inl rfl : wantsLink .entryName = true ∨ _)
  unfold makeDirectory make
  rw [resolved, placeAt_of_some alongside.inhabited]
  by_cases tooLong : TooLong root name
  · rw [if_pos tooLong]
    exact ⟨.nameTooLong, rfl, by decide⟩
  · rw [if_neg tooLong]
    exact ⟨.exists, rfl, by decide⟩

/-- After a failure to make a directory, it counts whether there is one. -/
theorem parallel_isDirectory (site : Site ground root directory name)
    (alongside : Alongside ground (directory ++ [name]) first second)
    (plain : ∀ step ∈ names, PlainName step) (error : FileError) :
    Parallel ground (directory ++ [name]) first second
      (if first.isDirectory (root.descend (name :: names)) then (.ok (), first)
        else (.error error, first) : Except FileError Unit × FileTree)
      (if second.isDirectory (root.descend (name :: names)) then (.ok (), second)
        else (.error error, second)) := by
  rw [← site.isDirectory_congr alongside plain]
  split
  · exact alongside.unchanged _
  · exact alongside.unchanged _

theorem text_ne_empty (site : Site ground root directory name)
    (plain : ∀ step ∈ names, PlainName step) : (root.descend (name :: names)).text ≠ "" :=
  (Path.endsInName_descend (Path.endsInName_joinName root site.plain) plain).text_ne_empty

theorem parent?_descend (site : Site ground root directory name) {last : String}
    (plain : ∀ step ∈ names ++ [last], PlainName step) :
    (root.descend (name :: (names ++ [last]))).parent? = some (root.descend (name :: names)) := by
  rw [Path.descend_cons, Path.descend_cons]
  exact Path.parent?_descend (Path.endsInName_joinName root site.plain) plain

/-- Directories are made from the site downwards; none above the site is missing. -/
theorem parallel_makeLineage (site : Site ground root directory name)
    (alongside : Alongside ground (directory ++ [name]) first second) (steps : Nat)
    (plain : ∀ step ∈ names, PlainName step) :
    Parallel ground (directory ++ [name]) first second
      (first.makeLineage (lineage steps (root.descend (name :: names))))
      (second.makeLineage (lineage steps (root.descend (name :: names)))) := by
  induction steps generalizing names with
  | zero => exact alongside.unchanged _
  | succ steps inductionHypothesis =>
      have nonempty := site.text_ne_empty plain
      have both := site.both_makeDirectory alongside plain
      generalize madeFirst : first.makeDirectory (root.descend (name :: names)) = one at both
      generalize madeSecond : second.makeDirectory (root.descend (name :: names)) = two at both
      unfold lineage
      cases both with
      | made one two parallel =>
          unfold makeLineage
          rw [if_neg nonempty, if_neg nonempty, madeFirst, madeSecond]
          exact parallel.withResult _
      | failed error =>
          by_cases missing : error = .notFound
          · subst missing
            unfold makeLineage
            rw [if_neg nonempty, if_neg nonempty, madeFirst, madeSecond]
            -- The site itself is not missing, so the way up goes on within it.
            rcases List.eq_nil_or_concat names with rfl | ⟨front, last, rfl⟩
            · obtain ⟨error, fails, other⟩ := site.makeDirectory_place alongside
              rw [Path.descend_cons, Path.descend_nil, fails] at madeFirst
              cases madeFirst
              exact absurd rfl other
            · rw [List.concat_eq_append] at plain ⊢
              rw [site.parent?_descend plain]
              have above := @inductionHypothesis front
                fun step member => plain step (List.mem_append_left [last] member)
              dsimp only
              generalize first.makeLineage (lineage steps (root.descend (name :: front))) =
                oneAbove at above ⊢
              generalize second.makeLineage (lineage steps (root.descend (name :: front))) =
                twoAbove at above ⊢
              obtain ⟨result, one⟩ := oneAbove
              obtain ⟨otherResult, two⟩ := twoAbove
              have sameResult : result = otherResult := above.result
              subst sameResult
              cases result with
              | error error => exact above
              | ok done =>
                  have again := site.both_makeDirectory above.alongside plain
                  dsimp only at again ⊢
                  generalize one.makeDirectory (root.descend (name :: (front ++ [last]))) =
                    oneAgain at again ⊢
                  generalize two.makeDirectory (root.descend (name :: (front ++ [last]))) =
                    twoAgain at again ⊢
                  cases again with
                  | made one two parallel => exact above.next (parallel.withResult _)
                  | failed error =>
                      exact above.next (site.parallel_isDirectory above.alongside plain error)
          · rw [makeLineage_of_error nonempty madeFirst missing,
              makeLineage_of_error nonempty madeSecond missing]
            exact site.parallel_isDirectory alongside plain error

theorem parallel_makeDirectories (site : Site ground root directory name)
    (alongside : Alongside ground (directory ++ [name]) first second)
    (plain : ∀ step ∈ names, PlainName step) :
    Parallel ground (directory ++ [name]) first second
      (first.makeDirectories (root.descend (name :: names)))
      (second.makeDirectories (root.descend (name :: names))) :=
  site.parallel_makeLineage alongside _ plain

end Site

end FaultDrill.FileTree
