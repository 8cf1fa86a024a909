import FaultDrill.Proofs.Path.Descent

/-!
Components of paths: the names that lead somewhere.

Owns:
- the components of joined paths and of the directory part of a path;
- paths that go down from another, whatever separators and dots their text has besides;
- the plainest path with given components.

Main statements: the components of a joined path are those of its parts (`components_join`); the
directory part of a path has all its components but the last (`parent?_of_components`).

Does not own: paths of plain names (`Proofs.Path.Descent`).
-/

namespace FaultDrill.Path

/-! ## Names that lead somewhere -/

/-- The names that lead somewhere, among some names. -/
def bare (names : List String) : List String :=
  names.filter fun name => name ≠ "" ∧ name ≠ "."

theorem bare_append (names more : List String) : bare (names ++ more) = bare names ++ bare more :=
  List.filter_append names more

theorem bare_cons_of_blank {name : String} (blank : name = "" ∨ name = ".") (rest : List String) :
    bare (name :: rest) = bare rest := by
  apply List.filter_cons_of_neg
  rcases blank with rfl | rfl <;> decide

theorem bare_cons_of_not_blank {name : String} (notBlank : ¬ (name = "" ∨ name = "."))
    (rest : List String) : bare (name :: rest) = name :: bare rest := by
  apply List.filter_cons_of_pos
  simpa using notBlank

theorem bare_bare (names : List String) : bare (bare names) = bare names := by
  unfold bare
  rw [List.filter_filter]
  simp

theorem bare_of_plain {names : List String} (plain : ∀ name ∈ names, PlainName name) :
    bare names = names := by
  apply List.filter_eq_self.mpr
  intro name member
  simp [(plain name member).nonempty, (plain name member).notDot]

theorem level_of_plain {names : List String} (plain : ∀ name ∈ names, PlainName name) :
    ".." ∉ names :=
  fun up => (plain ".." up).notDots rfl

/-- Names of which those that lead somewhere do not lead up do not lead up. -/
theorem level_of_bare {names : List String} (level : ".." ∉ bare names) : ".." ∉ names := by
  intro up
  exact level (List.mem_filter.mpr ⟨up, by decide⟩)

/-- The pieces of a text that lead somewhere. -/
def leadingPieces (chars : List Char) : List (List Char) := (split chars).filter leads

theorem components_eq (path : Path) :
    path.components = (leadingPieces path.text.toList).map String.ofList := rfl

theorem leads_iff (piece : List Char) :
    leads piece = true ↔ ¬ (String.ofList piece = "" ∨ String.ofList piece = ".") := by
  have ofList_eq_iff (text : String) : String.ofList piece = text ↔ piece = text.toList := by
    rw [← String.toList_inj, String.toList_ofList]
  rw [ofList_eq_iff, ofList_eq_iff]
  simp [leads]

/-- The components of a path are the steps of it that lead somewhere. -/
theorem bare_steps (path : Path) : bare path.steps = path.components := by
  unfold bare steps components
  rw [List.filter_map, List.filter_filter]
  congr 1
  apply List.filter_congr
  intro piece _
  have empty : String.ofList piece = "" ↔ piece = [] := by
    rw [← String.toList_inj, String.toList_ofList]
    rfl
  rw [Bool.eq_iff_iff, leads_iff]
  by_cases blank : piece = [] <;> simp [empty, blank]

theorem bare_names (path : Path) : bare path.names = path.components := by
  rcases path.names_eq with names | names
  · rw [names, bare_steps]
  · rw [names, bare_append, bare_steps]
    exact List.append_nil _

/-! ## Joining -/

theorem leadingPieces_append_separator (left right : List Char) :
    leadingPieces (left ++ '/' :: right) = leadingPieces left ++ leadingPieces right := by
  unfold leadingPieces
  rw [split_append_separator, List.filter_append]

theorem leadingPieces_append_separator_end (chars : List Char) :
    leadingPieces (chars ++ ['/']) = leadingPieces chars :=
  (leadingPieces_append_separator chars []).trans (List.append_nil _)

/-- A joined path has the components of its parts. -/
theorem components_join (directory : Path) {part : Path} (relative : part.isAbsolute = false) :
    (directory.join part).components = directory.components ++ part.components := by
  unfold join
  rw [if_neg (by simp [relative])]
  simp only [components_eq, ← List.map_append]
  by_cases empty : directory.text = ""
  · simp [empty]
    rfl
  by_cases slashed : directory.text.toList.getLast? = some '/'
  · obtain ⟨front, text⟩ := List.getLast?_eq_some_iff.mp slashed
    rw [if_pos (Or.inr slashed), String.toList_append, text, leadingPieces_append_separator_end,
      List.append_assoc, List.singleton_append, leadingPieces_append_separator]
  · have separator : "/".toList = ['/'] := rfl
    rw [if_neg (by simp [empty, slashed]), String.toList_append, String.toList_append, separator,
      List.append_assoc, List.singleton_append, leadingPieces_append_separator]

theorem isAbsolute_join (directory : Path) {part : Path} (relative : part.isAbsolute = false) :
    (directory.join part).isAbsolute = directory.isAbsolute := by
  have headOf (text more : String) (nonempty : text ≠ "") :
      (text ++ more).toList.head? = text.toList.head? := by
    have letters : text.toList ≠ [] := by simpa using nonempty
    rw [String.toList_append, List.head?_append, List.head?_eq_some_head letters, Option.some_or]
  unfold join
  rw [if_neg (by simp [relative])]
  by_cases empty : directory.text = ""
  · unfold isAbsolute at relative ⊢
    simpa [empty] using relative
  unfold isAbsolute
  split
  · rw [headOf _ _ empty]
  · have longer : directory.text ++ "/" ≠ "" := by simp [empty]
    rw [headOf _ _ longer, headOf _ _ empty]

/-! ## Directory parts -/

theorem trimReversed_suffix (reversed : List Char) : trimReversed reversed <:+ reversed := by
  fun_induction trimReversed reversed with
  | case1 => exact List.suffix_rfl
  | case2 => exact List.suffix_rfl
  | case3 rest _ inductionHypothesis => exact inductionHypothesis.trans (List.suffix_cons _ _)
  | case4 rest inductionHypothesis => exact inductionHypothesis.trans (List.suffix_cons _ _)
  | case5 => exact List.suffix_rfl

theorem trimReversed_ne_nil {reversed : List Char} (nonempty : reversed ≠ []) :
    trimReversed reversed ≠ [] := by
  fun_induction trimReversed reversed with
  | case1 => exact nonempty
  | case2 => exact nonempty
  | case3 rest goesOn inductionHypothesis => exact inductionHypothesis (fun empty => goesOn empty)
  | case4 rest inductionHypothesis => exact inductionHypothesis (by simp)
  | case5 => exact nonempty

theorem leadingPieces_trailing_separator (rest : List Char) :
    leadingPieces ('/' :: rest).reverse = leadingPieces rest.reverse := by
  rw [List.reverse_cons]
  exact leadingPieces_append_separator_end rest.reverse

theorem leadingPieces_trailing_dot (rest : List Char) :
    leadingPieces ('.' :: '/' :: rest).reverse = leadingPieces rest.reverse := by
  have text : ('.' :: '/' :: rest).reverse = rest.reverse ++ '/' :: ['.'] := by simp
  rw [text, leadingPieces_append_separator]
  exact List.append_nil _

/-- What is trimmed off leads nowhere. -/
theorem leadingPieces_trimReversed (reversed : List Char) :
    leadingPieces (trimReversed reversed).reverse = leadingPieces reversed.reverse := by
  fun_induction trimReversed reversed with
  | case1 => rfl
  | case2 => rfl
  | case3 rest _ inductionHypothesis =>
      rw [inductionHypothesis, leadingPieces_trailing_separator]
  | case4 rest inductionHypothesis =>
      rw [inductionHypothesis, leadingPieces_trailing_separator, leadingPieces_trailing_dot]
  | case5 => rfl

/-- A text starts with a piece, which the first separator or the end of the text ends. -/
structure StartsWith (piece rest text : List Char) : Prop where
  text_eq : text = piece ++ rest
  free : '/' ∉ piece
  ended : rest = [] ∨ ∃ more, rest = '/' :: more

theorem exists_startsWith (text : List Char) : ∃ piece rest, StartsWith piece rest text := by
  induction text with
  | nil => exact ⟨[], [], rfl, List.not_mem_nil, Or.inl rfl⟩
  | cons char text inductionHypothesis =>
      by_cases separator : char = '/'
      · exact ⟨[], char :: text, rfl, List.not_mem_nil, Or.inr ⟨text, by rw [separator]⟩⟩
      · obtain ⟨piece, rest, starts⟩ := inductionHypothesis
        refine ⟨char :: piece, rest, by rw [starts.text_eq]; rfl, ?_, starts.ended⟩
        rw [List.mem_cons, not_or]
        exact ⟨fun same => separator same.symm, starts.free⟩

theorem StartsWith.dropWhile_eq {piece rest text : List Char}
    (starts : StartsWith piece rest text) : text.dropWhile (· != '/') = rest := by
  have passes : ∀ char ∈ piece, (char != '/') = true := by
    intro char member
    rw [bne_iff_ne]
    rintro rfl
    exact starts.free member
  rw [starts.text_eq, List.dropWhile_append_of_pos passes]
  rcases starts.ended with rfl | ⟨more, rfl⟩ <;> rfl

/-- Once it is trimmed, a text that leads somewhere ends in a piece that does. -/
theorem startsWith_trimReversed {reversed : List Char}
    (somewhere : leadingPieces reversed.reverse ≠ []) :
    ∃ piece rest, StartsWith piece rest (trimReversed reversed) ∧ leads piece.reverse = true := by
  fun_induction trimReversed reversed with
  | case1 => exact absurd rfl somewhere
  | case2 => exact absurd rfl somewhere
  | case3 rest _ inductionHypothesis =>
      rw [leadingPieces_trailing_separator] at somewhere
      exact inductionHypothesis somewhere
  | case4 rest inductionHypothesis =>
      rw [leadingPieces_trailing_dot, ← leadingPieces_trailing_separator] at somewhere
      exact inductionHypothesis somewhere
  | case5 reversed notSeparator notDot notSlashed notDotted =>
      obtain ⟨piece, rest, starts⟩ := exists_startsWith reversed
      refine ⟨piece, rest, starts, ?_⟩
      obtain ⟨rfl, -, ended⟩ := starts
      have nonempty : piece ≠ [] := by
        rintro rfl
        rcases ended with rfl | ⟨more, rfl⟩
        · exact somewhere rfl
        · exact notSlashed more rfl
      have other : piece ≠ ['.'] := by
        rintro rfl
        rcases ended with rfl | ⟨more, rfl⟩
        · exact notDot rfl
        · exact notDotted more rfl
      have otherReversed : piece.reverse ≠ ['.'] := fun same => other (List.reverse_eq_iff.mp same)
      simp [leads, nonempty, otherReversed]

theorem leadingPieces_of_leading {piece : List Char} (free : '/' ∉ piece)
    (leading : leads piece = true) : leadingPieces piece = [piece] := by
  unfold leadingPieces
  rw [split_of_no_separator piece free, List.filter_cons_of_pos leading, List.filter_nil]

/-- A single name is its own component. -/
theorem components_of_name {name : String} (free : '/' ∉ name.toList)
    (notBlank : ¬ (name = "" ∨ name = ".")) : (mk name).components = [name] := by
  have leading : leads name.toList = true := by
    rwa [leads_iff, String.ofList_toList]
  rw [components_eq, leadingPieces_of_leading free leading, List.map_singleton,
    String.ofList_toList]

theorem isAbsolute_of_front {path : Path} {front : List Char}
    (isFront : front <+: path.text.toList) (nonempty : front ≠ []) :
    path.isAbsolute = (front.head? == some '/') := by
  obtain ⟨more, text⟩ := isFront
  unfold isAbsolute
  rw [← text, List.head?_append, List.head?_eq_some_head nonempty, Option.some_or]

theorem parent?_of_startsWith {path : Path} {piece rest : List Char}
    (starts : StartsWith piece rest (trimReversed path.text.toList.reverse))
    (leading : leads piece.reverse = true) :
    path.parent? = some (if rest = [] then ⟨""⟩ else ⟨String.ofList (trimReversed rest).reverse⟩) := by
  have dropped := starts.dropWhile_eq
  have nonempty : piece ≠ [] := by
    rintro rfl
    cases leading
  unfold parent?
  generalize trimReversed path.text.toList.reverse = reversed at starts dropped ⊢
  obtain ⟨rfl, free, -⟩ := starts
  split
  · next none => exact absurd (List.append_eq_nil_iff.mp none).1 nonempty
  · next separator =>
      obtain ⟨char, letters, rfl⟩ := List.exists_cons_of_ne_nil nonempty
      have same : char = '/' := (List.cons.inj separator).1
      exact absurd (by simp [same]) free
  · rw [dropped]
    cases rest with
    | nil => rfl
    | cons char rest => rfl

/-- The directory part of a path has all components but the last, and its text is the front of
that of the path. -/
theorem parent?_of_components {path : Path} {names : List String} {last : String}
    (components : path.components = names ++ [last]) :
    ∃ parent, path.parent? = some parent ∧ parent.components = names ∧
      parent.isAbsolute = path.isAbsolute ∧ parent.text.toList <+: path.text.toList := by
  have somewhere : leadingPieces path.text.toList.reverse.reverse ≠ [] := by
    intro nowhere
    rw [List.reverse_reverse] at nowhere
    rw [components_eq, nowhere] at components
    simp at components
  have suffix := trimReversed_suffix path.text.toList.reverse
  have pieces := leadingPieces_trimReversed path.text.toList.reverse
  obtain ⟨piece, rest, starts, leading⟩ := startsWith_trimReversed somewhere
  rw [parent?_of_startsWith starts leading]
  rw [List.reverse_reverse] at pieces
  rw [components_eq, ← pieces] at components
  obtain ⟨text, free, ended⟩ := starts
  rw [← List.mem_reverse] at free
  rw [text] at suffix components
  have isFront {back : List Char} (isBack : back <:+ piece ++ rest) :
      back.reverse <+: path.text.toList := by
    rw [← List.reverse_suffix, List.reverse_reverse]
    exact isBack.trans suffix
  rcases ended with rfl | ⟨more, rfl⟩
  · -- The text is a single piece, behind which there may be more that leads nowhere.
    have nonempty : piece.reverse ≠ [] := by
      intro empty
      rw [empty] at leading
      cases leading
    refine ⟨_, rfl, ?_, ?_, List.nil_prefix⟩
    · rw [List.append_nil, leadingPieces_of_leading free leading] at components
      have alone := congrArg List.dropLast components
      rw [List.dropLast_concat] at alone
      exact alone
    · rw [isAbsolute_of_front (isFront (by simp)) nonempty]
      have other : piece.reverse.head? ≠ some '/' := fun head => free (List.mem_of_mem_head? head)
      rw [beq_eq_false_iff_ne.mpr other]
      rfl
  · rw [List.reverse_append, List.reverse_cons, List.append_assoc, List.singleton_append,
      leadingPieces_append_separator, leadingPieces_of_leading free leading,
      List.map_append] at components
    have nonempty : (trimReversed ('/' :: more)).reverse ≠ [] := by
      simpa using trimReversed_ne_nil (List.cons_ne_nil '/' more)
    have trimmed := leadingPieces_trimReversed ('/' :: more)
    rw [leadingPieces_trailing_separator] at trimmed
    have isFrontTrimmed :=
      isFront ((trimReversed_suffix ('/' :: more)).trans (List.suffix_append piece _))
    refine ⟨_, rfl, ?_, ?_, ?_⟩
    · rw [if_neg (List.cons_ne_nil _ _), components_eq, String.toList_ofList, trimmed]
      exact (List.append_inj' components rfl).1
    · rw [if_neg (List.cons_ne_nil _ _), isAbsolute_of_front isFrontTrimmed nonempty, isAbsolute,
        String.toList_ofList]
    · rwa [if_neg (List.cons_ne_nil _ _), String.toList_ofList]

/-! ## Paths that go down -/

/-- A path that goes down from another along some names; besides these its text may hold
separators and dots that lead nowhere. -/
structure Below (root : Path) (names : List String) (path : Path) : Prop where
  isAbsolute : path.isAbsolute = root.isAbsolute
  components : path.components = root.components ++ names

theorem below_join (root : Path) {part : Path} (relative : part.isAbsolute = false) :
    Below root part.components (root.join part) :=
  ⟨isAbsolute_join root relative, components_join root relative⟩

theorem components_descend (path : Path) {names : List String}
    (plain : ∀ name ∈ names, PlainName name) :
    (path.descend names).components = path.components ++ names := by
  induction names generalizing path with
  | nil => exact (List.append_nil _).symm
  | cons name names inductionHypothesis =>
      have headPlain := plain name List.mem_cons_self
      have single := components_of_name headPlain.noSeparator
        (by simp [headPlain.nonempty, headPlain.notDot])
      rw [descend_cons,
        inductionHypothesis _ (fun other member => plain other (List.mem_cons_of_mem name member)),
        joinName, components_join path headPlain.not_isAbsolute, single, List.append_assoc]
      rfl

theorem below_descend (root : Path) {names : List String}
    (plain : ∀ name ∈ names, PlainName name) : Below root names (root.descend names) :=
  ⟨isAbsolute_descend root plain, components_descend root plain⟩

theorem Below.parent? {root path : Path} {names : List String} {last : String}
    (below : Below root (names ++ [last]) path) :
    ∃ parent, path.parent? = some parent ∧ Below root names parent := by
  have components := below.components
  rw [← List.append_assoc] at components
  obtain ⟨parent, isParent, above, absolute, -⟩ := parent?_of_components components
  exact ⟨parent, isParent, absolute.trans below.isAbsolute, above⟩

/-- A relative path that has components, none of which leads up. -/
structure Normal (path : Path) : Prop where
  relative : path.isAbsolute = false
  somewhere : path.components ≠ []
  level : ".." ∉ path.components

instance (path : Path) : Decidable path.Normal :=
  decidable_of_iff (path.isAbsolute = false ∧ path.components ≠ [] ∧ ".." ∉ path.components)
    ⟨fun ⟨relative, somewhere, level⟩ => ⟨relative, somewhere, level⟩,
      fun normal => ⟨normal.relative, normal.somewhere, normal.level⟩⟩

/-! ## Plainest paths -/

/-- The path with the same components as another, and nothing besides. -/
def normalized (path : Path) : Path :=
  ⟨String.ofList (List.intercalate ['/'] (path.pieces.filter leads))⟩

theorem split_intercalate {pieces : List (List Char)} (some : pieces ≠ [])
    (free : ∀ piece ∈ pieces, '/' ∉ piece) : split (List.intercalate ['/'] pieces) = pieces := by
  induction pieces with
  | nil => exact absurd rfl some
  | cons piece pieces inductionHypothesis =>
      have alone := split_of_no_separator piece (free piece List.mem_cons_self)
      cases pieces with
      | nil => rwa [List.intercalate_singleton]
      | cons next pieces =>
          rw [List.intercalate_cons_cons, List.append_assoc, List.singleton_append,
            split_append_separator, alone, inductionHypothesis (by simp)
              fun other member => free other (List.mem_cons_of_mem piece member)]
          rfl

theorem free_of_mem_split {text piece : List Char} (member : piece ∈ split text) :
    '/' ∉ piece := by
  induction text generalizing piece with
  | nil =>
      rw [split, List.mem_singleton] at member
      rw [member]
      exact List.not_mem_nil
  | cons char text inductionHypothesis =>
      obtain ⟨first, pieces, parts⟩ := List.exists_cons_of_ne_nil (split_ne_nil text)
      rw [split, parts] at member
      rw [parts] at inductionHypothesis
      split at member
      · rcases List.mem_cons.mp member with rfl | later
        · exact List.not_mem_nil
        · exact inductionHypothesis later
      · next other =>
          rcases List.mem_cons.mp member with rfl | later
          · rw [List.mem_cons, not_or]
            exact ⟨fun same => other same.symm, inductionHypothesis List.mem_cons_self⟩
          · exact inductionHypothesis (List.mem_cons_of_mem first later)

theorem steps_normalized (path : Path) : path.normalized.steps = path.components := by
  have stepsEq : path.normalized.steps =
      ((split (List.intercalate ['/'] (path.pieces.filter leads))).filter (· != [])).map
        String.ofList := by
    rw [steps, pieces, normalized, String.toList_ofList]
  rw [stepsEq, components]
  by_cases none : path.pieces.filter leads = []
  · rw [none]
    rfl
  · have kept : ∀ piece ∈ path.pieces.filter leads, '/' ∉ piece ∧ piece ≠ [] := by
      intro piece member
      obtain ⟨isPiece, leading⟩ := List.mem_filter.mp member
      refine ⟨free_of_mem_split isPiece, ?_⟩
      rintro rfl
      cases leading
    have nonempty : ∀ piece ∈ path.pieces.filter leads, (piece != []) = true := by
      intro piece member
      simpa using (kept piece member).2
    rw [split_intercalate none fun piece member => (kept piece member).1,
      List.filter_eq_self.mpr nonempty]

end FaultDrill.Path
