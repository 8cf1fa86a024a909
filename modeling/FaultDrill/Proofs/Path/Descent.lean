import FaultDrill.FileTree.Resolve

/-!
Paths that lead down from a path, name by name.

Owns:
- plain names, which lead one step down and nowhere else;
- `Path.descend`, the path from another along some names, and its text;
- the names, the parent and the start of such paths.

Main statements: the names of a path after a step down are those before it and the step
(`names_joinName`); the parent of a step down is where it started (`parent?_joinName`).

Does not own: where the paths lead in a tree (`Proofs.FileTree.Walk`).
-/

namespace FaultDrill.Path

/-! ## Pieces -/

theorem split_ne_nil (chars : List Char) : split chars ≠ [] := by
  cases chars with
  | nil => simp [split]
  | cons char rest =>
      unfold split
      split
      · simp
      · split <;> simp

theorem split_append_separator (left right : List Char) :
    split (left ++ '/' :: right) = split left ++ split right := by
  induction left with
  | nil => simp [split]
  | cons char left inductionHypothesis =>
      by_cases separator : char = '/'
      · simp [split, separator, inductionHypothesis]
      · obtain ⟨piece, pieces, parts⟩ := List.exists_cons_of_ne_nil (split_ne_nil left)
        simp [split, separator, inductionHypothesis, parts]

theorem split_of_no_separator (chars : List Char) (free : '/' ∉ chars) :
    split chars = [chars] := by
  induction chars with
  | nil => rfl
  | cons char rest inductionHypothesis =>
      have headFree : char ≠ '/' := fun equal => free (by simp [equal])
      have restFree : '/' ∉ rest := fun member => free (List.mem_cons_of_mem _ member)
      simp [split, headFree, inductionHypothesis restFree]

/-! ## Plain names -/

/-- A name that leads one step down: it is there, it is none of the two names that every directory
has, and a path can hold it as a single piece. -/
structure PlainName (name : String) : Prop where
  nonempty : name ≠ ""
  notDot : name ≠ "."
  notDots : name ≠ ".."
  noSeparator : '/' ∉ name.toList
  noNul : '\x00' ∉ name.toList

instance (name : String) : Decidable (PlainName name) :=
  decidable_of_iff
    (name ≠ "" ∧ name ≠ "." ∧ name ≠ ".." ∧ '/' ∉ name.toList ∧ '\x00' ∉ name.toList)
    ⟨fun ⟨nonempty, notDot, notDots, noSeparator, noNul⟩ =>
      ⟨nonempty, notDot, notDots, noSeparator, noNul⟩,
      fun plain =>
        ⟨plain.nonempty, plain.notDot, plain.notDots, plain.noSeparator, plain.noNul⟩⟩

namespace PlainName

variable {name : String}

theorem toList_ne_nil (plain : PlainName name) : name.toList ≠ [] := by
  intro empty
  apply plain.nonempty
  rw [← String.ofList_toList (s := name), empty]

theorem toList_ne_dot (plain : PlainName name) : name.toList ≠ ['.'] := by
  intro dot
  apply plain.notDot
  rw [← String.ofList_toList (s := name), dot]

theorem split_eq (plain : PlainName name) : split name.toList = [name.toList] :=
  split_of_no_separator _ plain.noSeparator

theorem head?_ne_separator (plain : PlainName name) : name.toList.head? ≠ some '/' := by
  intro head
  exact plain.noSeparator (List.mem_of_mem_head? head)

theorem not_isAbsolute (plain : PlainName name) : (Path.mk name).isAbsolute = false := by
  simpa [isAbsolute] using plain.head?_ne_separator

end PlainName

/-! ## Texts of steps down -/

/-- A path whose last piece is a plain name. -/
def EndsInName (path : Path) : Prop :=
  ∃ front name, PlainName name ∧ path.text.toList = front ++ name.toList ∧
    (front = [] ∨ ∃ rest, front = rest ++ ['/'])

namespace EndsInName

variable {path : Path}

theorem text_ne_empty (named : path.EndsInName) : path.text ≠ "" := by
  obtain ⟨front, name, plain, text, -⟩ := named
  intro empty
  rw [empty] at text
  have parts := List.append_eq_nil_iff.mp text.symm
  exact plain.toList_ne_nil parts.2

theorem getLast?_ne_separator (named : path.EndsInName) :
    path.text.toList.getLast? ≠ some '/' := by
  obtain ⟨front, name, plain, text, -⟩ := named
  intro last
  rw [text, List.getLast?_append, Option.or_eq_some_iff] at last
  rcases last with last | ⟨none, -⟩
  · exact plain.noSeparator (List.mem_of_getLast? last)
  · exact plain.toList_ne_nil (List.getLast?_eq_none_iff.mp none)

end EndsInName

theorem text_joinName_of_endsInName {path : Path} {name : String}
    (named : path.EndsInName) (plain : PlainName name) :
    (path.joinName name).text = path.text ++ "/" ++ name := by
  simp [joinName, join, plain.not_isAbsolute, named.text_ne_empty, named.getLast?_ne_separator]

/-- A step down makes a path longer. -/
theorem utf8ByteSize_le_joinName (path : Path) {name : String} (plain : PlainName name) :
    path.text.utf8ByteSize ≤ (path.joinName name).text.utf8ByteSize := by
  unfold joinName join
  rw [if_neg (by simp [plain.not_isAbsolute])]
  split <;> simp [String.utf8ByteSize_append]
  omega

/-- What stands before the last name after a step down. -/
private def frontOf (path : Path) : List Char :=
  if path.text = "" ∨ path.text.toList.getLast? = some '/' then path.text.toList
  else path.text.toList ++ ['/']

private theorem toList_text_joinName (path : Path) {name : String} (plain : PlainName name) :
    (path.joinName name).text.toList = frontOf path ++ name.toList := by
  unfold joinName join frontOf
  rw [if_neg (by simp [plain.not_isAbsolute])]
  split <;> simp

private theorem frontOf_eq (path : Path) :
    frontOf path = [] ∧ path.text = "" ∨
      ∃ rest, frontOf path = rest ++ ['/'] ∧
        (path.text.toList = rest ∨ path.text.toList = rest ++ ['/']) := by
  unfold frontOf
  by_cases empty : path.text = ""
  · exact Or.inl ⟨by simp [empty], empty⟩
  · right
    by_cases slashed : path.text.toList.getLast? = some '/'
    · obtain ⟨rest, text⟩ := List.getLast?_eq_some_iff.mp slashed
      exact ⟨rest, by rw [if_pos (Or.inr slashed)]; exact text, Or.inr text⟩
    · exact ⟨path.text.toList, by rw [if_neg (by simp [empty, slashed])], Or.inl rfl⟩

theorem endsInName_joinName (path : Path) {name : String} (plain : PlainName name) :
    (path.joinName name).EndsInName := by
  refine ⟨frontOf path, name, plain, toList_text_joinName path plain, ?_⟩
  rcases frontOf_eq path with ⟨empty, -⟩ | ⟨rest, front, -⟩
  · exact Or.inl empty
  · exact Or.inr ⟨rest, front⟩

/-! ## Names -/

/-- The names on a path, without the mark of a separator at its end. -/
def steps (path : Path) : List String :=
  (path.pieces.filter (· != [])).map String.ofList

/-- The names on a path are its steps, and perhaps the mark of a separator at its end. -/
theorem names_eq (path : Path) :
    path.names = path.steps ∨ path.names = path.steps ++ [""] := by
  unfold names steps
  dsimp only
  split
  · exact Or.inr rfl
  · exact Or.inl rfl

private theorem pieces_joinName (path : Path) {name : String} (plain : PlainName name) :
    ∃ pieces, (path.joinName name).pieces = pieces ++ [name.toList] ∧
      path.steps = (pieces.filter (· != [])).map String.ofList := by
  unfold steps pieces
  rw [toList_text_joinName path plain]
  rcases frontOf_eq path with ⟨front, empty⟩ | ⟨rest, front, text | text⟩
  · exact ⟨[], by rw [front]; exact plain.split_eq, by rw [empty]; rfl⟩
  · refine ⟨split rest, ?_, by rw [text]⟩
    rw [front, List.append_assoc, List.singleton_append, split_append_separator, plain.split_eq]
  · refine ⟨split rest, ?_, ?_⟩
    · rw [front, List.append_assoc, List.singleton_append, split_append_separator, plain.split_eq]
    · rw [text, split_append_separator]
      simp [split]

theorem steps_joinName (path : Path) {name : String} (plain : PlainName name) :
    (path.joinName name).steps = path.steps ++ [name] := by
  obtain ⟨pieces, joined, steps⟩ := pieces_joinName path plain
  rw [steps, Path.steps, joined]
  simp [plain.nonempty]

theorem names_joinName (path : Path) {name : String} (plain : PlainName name) :
    (path.joinName name).names = path.steps ++ [name] := by
  obtain ⟨pieces, joined, -⟩ := pieces_joinName path plain
  have stepsJoined := steps_joinName path plain
  rw [← stepsJoined]
  unfold names steps
  simp [joined, plain.nonempty]

/-! ## Steps down -/

/-- The path that leads from another along some names. -/
def descend (path : Path) (names : List String) : Path := names.foldl joinName path

@[simp] theorem descend_nil (path : Path) : path.descend [] = path := rfl

@[simp] theorem descend_cons (path : Path) (name : String) (names : List String) :
    path.descend (name :: names) = (path.joinName name).descend names := rfl

theorem descend_append (path : Path) (names more : List String) :
    path.descend (names ++ more) = (path.descend names).descend more := by
  simp [descend]

theorem endsInName_descend {path : Path} {names : List String}
    (named : path.EndsInName) (plain : ∀ name ∈ names, PlainName name) :
    (path.descend names).EndsInName := by
  induction names generalizing path with
  | nil => exact named
  | cons name names inductionHypothesis =>
      exact inductionHypothesis (endsInName_joinName path (plain name (by simp)))
        (fun other member => plain other (by simp [member]))

theorem names_descend {path : Path} {name : String} {names : List String}
    (plain : ∀ step ∈ name :: names, PlainName step) :
    (path.descend (name :: names)).names = path.steps ++ name :: names := by
  induction names generalizing path name with
  | nil => exact names_joinName path (plain name (by simp))
  | cons next names inductionHypothesis =>
      rw [descend_cons, inductionHypothesis (fun step member => plain step (by simp [member])),
        steps_joinName path (plain name (by simp)), List.append_assoc]
      rfl

/-! ## Starts -/

theorem isAbsolute_joinName (path : Path) {name : String} (plain : PlainName name) :
    (path.joinName name).isAbsolute = path.isAbsolute := by
  unfold isAbsolute
  rw [toList_text_joinName path plain]
  rcases frontOf_eq path with ⟨front, empty⟩ | ⟨rest, front, text | text⟩
  · simp [front, empty, plain.head?_ne_separator]
  · cases rest with
    | nil =>
        have empty : path.text = "" := by
          rw [← String.ofList_toList (s := path.text), text]
        have absurdFront : frontOf path = [] := by simp [frontOf, empty]
        rw [absurdFront] at front
        simp at front
    | cons char rest => simp [front, text]
  · cases rest with
    | nil => simp [front, text]
    | cons char rest => simp [front, text]

theorem isAbsolute_descend (path : Path) {names : List String}
    (plain : ∀ name ∈ names, PlainName name) :
    (path.descend names).isAbsolute = path.isAbsolute := by
  induction names generalizing path with
  | nil => rfl
  | cons name names inductionHypothesis =>
      rw [descend_cons, inductionHypothesis _ (fun other member => plain other (by simp [member])),
        isAbsolute_joinName path (plain name (by simp))]

/-- A path can be looked up: no character of it is one that no name can have. -/
def NulFree (path : Path) : Prop := '\x00' ∉ path.text.toList

theorem nulFree_joinName {path : Path} {name : String} (plain : PlainName name) :
    (path.joinName name).NulFree ↔ path.NulFree := by
  unfold NulFree
  rw [toList_text_joinName path plain]
  rcases frontOf_eq path with ⟨front, empty⟩ | ⟨rest, front, text | text⟩
  · simp [front, empty, plain.noNul]
  · simp [front, text, plain.noNul]
  · simp [front, text, plain.noNul]

theorem nulFree_descend {path : Path} {names : List String}
    (plain : ∀ name ∈ names, PlainName name) :
    (path.descend names).NulFree ↔ path.NulFree := by
  induction names generalizing path with
  | nil => rfl
  | cons name names inductionHypothesis =>
      rw [descend_cons, inductionHypothesis (fun other member => plain other (by simp [member])),
        nulFree_joinName (plain name (by simp))]

/-! ## Parents -/

private theorem trimReversed_of_name {name : String} (plain : PlainName name)
    (tail : List Char) :
    trimReversed (name.toList.reverse ++ tail) = name.toList.reverse ++ tail := by
  have free : '/' ∉ name.toList.reverse := by
    rw [List.mem_reverse]
    exact plain.noSeparator
  cases letters : name.toList.reverse with
  | nil => exact absurd (List.reverse_eq_nil_iff.mp letters) plain.toList_ne_nil
  | cons char rest =>
      rw [letters] at free
      have charFree : char ≠ '/' := fun equal => free (by simp [equal])
      by_cases dot : char = '.'
      · -- A lone dot leads nowhere and would be cut off; a plain name goes on after its dot.
        cases rest with
        | nil =>
            have lone : name.toList = ['.'] := by
              rw [← List.reverse_reverse name.toList, letters, dot]
              rfl
            exact absurd lone plain.toList_ne_dot
        | cons next rest =>
            have nextFree : next ≠ '/' := fun equal => free (by simp [equal])
            rw [dot, List.cons_append, List.cons_append]
            unfold trimReversed
            split <;> simp_all
      · rw [List.cons_append]
        unfold trimReversed
        split <;> simp_all

private theorem trimReversed_text {path : Path} (named : path.EndsInName) :
    trimReversed path.text.toList.reverse = path.text.toList.reverse := by
  obtain ⟨front, name, plain, text, -⟩ := named
  rw [text, List.reverse_append]
  exact trimReversed_of_name plain front.reverse

/-- The parent of a step down is where it started. -/
theorem parent?_joinName {path : Path} {name : String}
    (named : path.EndsInName) (plain : PlainName name) :
    (path.joinName name).parent? = some path := by
  have text : (path.joinName name).text.toList.reverse =
      name.toList.reverse ++ '/' :: path.text.toList.reverse := by
    rw [text_joinName_of_endsInName named plain]
    simp
  have kept := trimReversed_of_name plain ('/' :: path.text.toList.reverse)
  have nameEnds : (name.toList.reverse ++ '/' :: path.text.toList.reverse).dropWhile (· != '/') =
      '/' :: path.text.toList.reverse := by
    rw [List.dropWhile_append_of_pos]
    · simp
    · intro char member
      have : char ≠ '/' := by
        intro equal
        rw [equal, List.mem_reverse] at member
        exact plain.noSeparator member
      simp [this]
  have pathNonempty : path.text.toList.reverse ≠ [] := by
    simpa using named.text_ne_empty
  have trimmed : trimReversed ('/' :: path.text.toList.reverse) = path.text.toList.reverse := by
    have same := trimReversed_text named
    obtain ⟨char, rest, letters⟩ := List.exists_cons_of_ne_nil pathNonempty
    rw [letters] at same ⊢
    exact same
  unfold parent?
  rw [text, kept]
  split
  · simp_all
  · next only =>
      have := congrArg List.length only
      have letters := List.length_pos_iff.mpr plain.toList_ne_nil
      simp at this
      omega
  · rw [nameEnds]
    simp only [trimmed, List.reverse_reverse, String.ofList_toList]

/-- The parent of the end of a way down is the step before it. -/
theorem parent?_descend {path : Path} (named : path.EndsInName) {names : List String}
    {last : String} (plain : ∀ step ∈ names ++ [last], PlainName step) :
    (path.descend (names ++ [last])).parent? = some (path.descend names) := by
  have plainNames : ∀ step ∈ names, PlainName step :=
    fun step member => plain step (List.mem_append_left [last] member)
  rw [descend_append]
  exact parent?_joinName (endsInName_descend named plainNames) (plain last (by simp))

end FaultDrill.Path
