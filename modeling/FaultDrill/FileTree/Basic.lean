import FaultDrill.Path

/-!
File trees: what stands where.

Owns:
- locations, entries, and trees as a process in some working directory sees them;
- looking up a location, putting an entry at one, and taking away everything below one.

Main statements: a lookup after `put` gives what was put there and otherwise what was there before
(`get?_put_self`, `get?_put_of_ne`); after `erase` nothing is found at or below the location, and
all else is as before (`get?_erase_of_under`, `get?_erase_of_outside`).

Does not own: paths and links (`FileTree.resolve`), and which changes are possible
(`FileTree.Operations`).
-/

namespace FaultDrill

/-- The names that lead to a place from the root. -/
abbrev Location := List String

/-- What stands at a location. -/
inductive Entry where
  | directory
  | file (contents : List UInt8) (executable : Bool)
  | link (target : Path)
  | socket
  deriving DecidableEq, Repr

/-- The entries below the root, as seen from a working directory. The working directory may have
been removed. -/
structure FileTree where
  entries : List (Location × Entry) := []
  base : Location := []
  deriving DecidableEq, Repr

namespace FileTree

/-- Puts an entry in the place of another at the same location, or at the end. -/
def putEntry (location : Location) (entry : Entry) :
    List (Location × Entry) → List (Location × Entry)
  | [] => [(location, entry)]
  | (other, old) :: rest =>
    if other = location then (location, entry) :: rest
    else (other, old) :: putEntry location entry rest

/-- The first entry at a location. -/
def lookup (location : Location) : List (Location × Entry) → Option Entry
  | [] => none
  | (other, entry) :: rest => if other = location then some entry else lookup location rest

/-- What stands at a location. The root is always a directory. -/
def get? (tree : FileTree) (location : Location) : Option Entry :=
  if location = [] then some .directory else lookup location tree.entries

/-- Puts an entry at a location. -/
def put (tree : FileTree) (location : Location) (entry : Entry) : FileTree :=
  { tree with entries := putEntry location entry tree.entries }

/-- Takes away everything at and below a location. -/
def erase (tree : FileTree) (location : Location) : FileTree :=
  { tree with entries := tree.entries.filter fun item => !location.isPrefixOf item.1 }

/-- Takes away everything below a location. -/
def eraseBelow (tree : FileTree) (location : Location) : FileTree :=
  { tree with
    entries := tree.entries.filter fun item =>
      !(location.isPrefixOf item.1 && item.1 != location) }

/-- The entries below a location, with the names that lead to them from there. -/
def below (tree : FileTree) (location : Location) : List (Location × Entry) :=
  (tree.entries.filter fun item => location.isPrefixOf item.1 && item.1 != location).map
    fun (place, entry) => (place.drop location.length, entry)

/-- Whether nothing stands below a location. -/
def isEmptyBelow (tree : FileTree) (location : Location) : Bool :=
  (tree.below location).isEmpty

/-! ## Lookups after changes -/

theorem lookup_putEntry (location place : Location) (entry : Entry)
    (entries : List (Location × Entry)) :
    lookup place (putEntry location entry entries) =
      if place = location then some entry else lookup place entries := by
  induction entries with
  | nil => grind [putEntry, lookup]
  | cons head rest inductionHypothesis => grind [putEntry, lookup]

theorem lookup_filter (keep : Location → Bool) (place : Location)
    (entries : List (Location × Entry)) :
    lookup place (entries.filter fun item => keep item.1) =
      if keep place then lookup place entries else none := by
  induction entries with
  | nil => by_cases kept : keep place <;> simp [lookup, kept]
  | cons head rest inductionHypothesis =>
    obtain ⟨other, entry⟩ := head
    by_cases here : other = place
    · subst here
      by_cases kept : keep other <;> simp [List.filter, lookup, kept, inductionHypothesis]
    · by_cases kept : keep other <;>
        simp [List.filter, lookup, kept, here, inductionHypothesis]

@[simp] theorem get?_root (tree : FileTree) : tree.get? [] = some .directory := rfl

theorem get?_put_self (tree : FileTree) {location : Location} (entry : Entry)
    (proper : location ≠ []) :
    (tree.put location entry).get? location = some entry := by
  simp [get?, put, lookup_putEntry, proper]

theorem get?_put_of_ne (tree : FileTree) {location place : Location} (entry : Entry)
    (different : place ≠ location) :
    (tree.put location entry).get? place = tree.get? place := by
  simp [get?, put, lookup_putEntry, different]

theorem get?_erase_of_under (tree : FileTree) {location place : Location}
    (proper : location ≠ []) (under : location <+: place) :
    (tree.erase location).get? place = none := by
  have beyond : place ≠ [] := by
    rintro rfl
    exact proper (List.prefix_nil.mp under)
  have := lookup_filter (fun place => !location.isPrefixOf place) place tree.entries
  simp [get?, erase, beyond, this, List.isPrefixOf_iff_prefix.mpr under]

theorem get?_erase_of_outside (tree : FileTree) {location place : Location}
    (outside : ¬ location <+: place) :
    (tree.erase location).get? place = tree.get? place := by
  have apart : location.isPrefixOf place = false := by
    simpa [← List.isPrefixOf_iff_prefix] using outside
  have := lookup_filter (fun place => !location.isPrefixOf place) place tree.entries
  simp [get?, erase, this, apart]

end FileTree

end FaultDrill
