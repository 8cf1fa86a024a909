import FaultDrill.Proofs.Path.Components

/-!
The last name of a path, where its text has it.

Owns:
- texts of paths taken piece by piece;
- text behind a name that says nothing, and paths whose text ends in a name but for such text;
- the extension of a last name.

Main statements: a name is the last component of a path exactly if the text of the path ends in it
but for separators and lone dots (`exists_ends_iff`); the last dot of a name, if it is not its first
character, parts the extension from the stem (`extensionOf?_of_last_dot`).

Does not own: what an extension stands for (`Format`).
-/

namespace FaultDrill.Path

variable {text piece directory name trailing : String} {path : Path}

/-! ## Texts piece by piece -/

/-- A text is one piece, or a piece and a text with a separator between them. -/
@[elab_as_elim]
theorem pieceInduction {motive : String → Prop}
    (alone : ∀ piece : String, '/' ∉ piece.toList → motive piece)
    (separated : ∀ piece rest : String, '/' ∉ piece.toList → motive rest →
      motive (piece ++ "/" ++ rest))
    (text : String) : motive text := by
  -- The characters of the first piece are gathered on the way to the separator that ends it.
  have gathered : ∀ chars piece : List Char, '/' ∉ piece →
      motive (String.ofList (piece ++ chars)) := by
    intro chars
    induction chars with
    | nil =>
        intro piece free
        rw [List.append_nil]
        exact alone _ (by rwa [String.toList_ofList])
    | cons char chars inductionHypothesis =>
        intro piece free
        by_cases separator : char = '/'
        · have parts : String.ofList (piece ++ char :: chars) =
              String.ofList piece ++ "/" ++ String.ofList chars := by
            rw [separator, ← List.singleton_append, String.ofList_append, String.ofList_append,
              ← String.append_assoc]
          rw [parts]
          exact separated _ _ (by rwa [String.toList_ofList])
            (inductionHypothesis [] List.not_mem_nil)
        · rw [← List.singleton_append, ← List.append_assoc]
          apply inductionHypothesis
          rw [List.mem_append, List.mem_singleton, not_or]
          exact ⟨free, fun same => separator same.symm⟩
  have whole := gathered text.toList [] List.not_mem_nil
  rwa [List.nil_append, String.ofList_toList] at whole

theorem components_of_blank (blank : piece = "" ∨ piece = ".") : (mk piece).components = [] := by
  rcases blank with rfl | rfl <;> rfl

theorem eq_of_components_piece (free : '/' ∉ piece.toList) {names : List String}
    (components : (mk piece).components = names ++ [name]) :
    piece = name ∧ ¬ (piece = "" ∨ piece = ".") := by
  by_cases blank : piece = "" ∨ piece = "."
  · rw [components_of_blank blank] at components
    simp at components
  · rw [components_of_name free blank, ← List.nil_append [piece]] at components
    exact ⟨(List.append_singleton_inj.mp components).2, blank⟩

/-- A path leads nowhere, or has a last component. -/
theorem nowhere_or_last (path : Path) :
    path.components = [] ∨ ∃ names name, path.components = names ++ [name] := by
  simpa only [List.concat_eq_append] using List.eq_nil_or_concat path.components

theorem components_append_separator (front back : String) :
    (mk (front ++ "/" ++ back)).components = (mk front).components ++ (mk back).components := by
  have text : (front ++ "/" ++ back).toList = front.toList ++ '/' :: back.toList := by
    simp
  rw [components_eq, text, leadingPieces_append_separator, List.map_append]
  rfl

/-- A text with some of its separators repeated, one after the other. -/
inductive SeparatorsRepeated (text : String) : String → Prop where
  | none : SeparatorsRepeated text text
  | again {front back : String} (repeated : SeparatorsRepeated text (front ++ "/" ++ back)) :
      SeparatorsRepeated text (front ++ "//" ++ back)

/-- How many separators stand in a place says nothing. -/
theorem SeparatorsRepeated.components_eq {other : String}
    (repeated : SeparatorsRepeated text other) :
    (mk other).components = (mk text).components := by
  induction repeated with
  | none => rfl
  | @again front back _ inductionHypothesis =>
      have two : "//" = "/" ++ "/" := rfl
      have parts : front ++ "//" ++ back = front ++ "/" ++ ("" ++ "/" ++ back) := by
        simp only [two, String.empty_append, String.append_assoc]
      rw [parts, components_append_separator, components_append_separator,
        components_of_blank (Or.inl rfl), List.nil_append, ← components_append_separator,
        inductionHypothesis]

/-! ## Last names -/

/-- Text behind a name that says nothing: separators, and dots that are pieces of their own. -/
inductive Idle : String → Prop where
  | none : Idle ""
  | separator {rest : String} (idle : Idle rest) : Idle ("/" ++ rest)
  | dot {rest : String} (idle : Idle rest) : Idle ("/." ++ rest)

theorem components_append_idle (idle : Idle trailing) (text : String) :
    (mk (text ++ trailing)).components = (mk text).components := by
  induction idle generalizing text with
  | none => rw [String.append_empty]
  | @separator rest _ inductionHypothesis =>
      have ended : text ++ "/" = text ++ "/" ++ "" := String.append_empty.symm
      rw [← String.append_assoc, inductionHypothesis, ended, components_append_separator,
        components_of_blank (Or.inl rfl), List.append_nil]
  | @dot rest _ inductionHypothesis =>
      have ended : text ++ "/." = text ++ "/" ++ "." := by
        rw [String.append_assoc]
        rfl
      rw [← String.append_assoc, inductionHypothesis, ended, components_append_separator,
        components_of_blank (Or.inr rfl), List.append_nil]

/-- A text that leads nowhere says nothing behind a name. -/
theorem idle_of_components_eq_nil (nowhere : (mk text).components = []) : Idle ("/" ++ text) := by
  induction text using pieceInduction with
  | alone piece free =>
      by_cases blank : piece = "" ∨ piece = "."
      · rcases blank with rfl | rfl
        · exact .separator .none
        · exact .dot .none
      · rw [components_of_name free blank] at nowhere
        cases nowhere
  | separated piece rest free inductionHypothesis =>
      rw [components_append_separator, List.append_eq_nil_iff] at nowhere
      have idle := inductionHypothesis nowhere.2
      by_cases blank : piece = "" ∨ piece = "."
      · rw [String.append_assoc, ← String.append_assoc]
        rcases blank with rfl | rfl
        · exact .separator idle
        · exact .dot idle
      · rw [components_of_name free blank] at nowhere
        cases nowhere.1

/-- A path whose text ends in a name, but for text behind it that says nothing. What stands before
the name is none of it: it is empty or ends in a separator. -/
structure Ends (path : Path) (directory name trailing : String) : Prop where
  text_eq : path.text = directory ++ name ++ trailing
  directory_eq : directory = "" ∨ ∃ front, directory = front ++ "/"
  free : '/' ∉ name.toList
  notBlank : ¬ (name = "" ∨ name = ".")
  idle : Idle trailing

theorem Ends.components_eq (ends : Ends path directory name trailing) :
    ∃ names, path.components = names ++ [name] := by
  have alone := components_of_name ends.free ends.notBlank
  have trimmed := components_append_idle ends.idle (directory ++ name)
  rw [← ends.text_eq] at trimmed
  change path.components = _ at trimmed
  rw [trimmed]
  rcases ends.directory_eq with rfl | ⟨front, rfl⟩
  · exact ⟨[], by rw [String.empty_append, alone]; rfl⟩
  · exact ⟨_, by rw [components_append_separator, alone]⟩

/-- A last name can be found in the text. -/
theorem exists_ends {names : List String} (components : (mk text).components = names ++ [name]) :
    ∃ directory trailing, Ends (mk text) directory name trailing := by
  induction text using pieceInduction generalizing names with
  | alone piece free =>
      obtain ⟨rfl, notBlank⟩ := eq_of_components_piece free components
      exact ⟨"", "", by simp, Or.inl rfl, free, notBlank, .none⟩
  | separated piece rest free inductionHypothesis =>
      rw [components_append_separator] at components
      rcases nowhere_or_last (mk rest) with nowhere | ⟨more, last, later⟩
      · rw [nowhere, List.append_nil] at components
        obtain ⟨rfl, notBlank⟩ := eq_of_components_piece free components
        exact ⟨"", "/" ++ rest, by simp [String.append_assoc], Or.inl rfl, free, notBlank,
          idle_of_components_eq_nil nowhere⟩
      · rw [later, ← List.append_assoc] at components
        obtain ⟨-, rfl⟩ := List.append_singleton_inj.mp components
        obtain ⟨directory, trailing, ends⟩ := inductionHypothesis later
        refine ⟨piece ++ "/" ++ directory, trailing, ?_, Or.inr ?_, ends.free, ends.notBlank,
          ends.idle⟩
        · have text : rest = directory ++ last ++ trailing := ends.text_eq
          rw [text]
          simp only [String.append_assoc]
        · rcases ends.directory_eq with rfl | ⟨front, rfl⟩
          · exact ⟨piece, String.append_empty⟩
          · exact ⟨piece ++ "/" ++ front, by simp only [String.append_assoc]⟩

/-- A name is the last component of a path exactly if the text of the path ends in it, but for
text that says nothing. -/
theorem exists_ends_iff :
    (∃ directory trailing, Ends path directory name trailing) ↔
      ∃ names, path.components = names ++ [name] :=
  ⟨fun ⟨_, _, ends⟩ => ends.components_eq, fun ⟨_, components⟩ => exists_ends components⟩

/-! ## Extensions -/

theorem fileName?_of_nowhere (nowhere : path.components = []) : path.fileName? = none := by
  unfold components at nowhere
  unfold fileName?
  rw [List.map_eq_nil_iff.mp nowhere]
  rfl

theorem fileName?_of_components {names : List String}
    (components : path.components = names ++ [name]) :
    path.fileName? = if name = ".." then none else some name.toList := by
  unfold Path.components at components
  have last := congrArg List.getLast? components
  rw [List.getLast?_map, List.getLast?_concat] at last
  obtain ⟨piece, isLast, isName⟩ := Option.map_eq_some_iff.mp last
  have same : piece = ['.', '.'] ↔ name = ".." := by
    rw [← isName, ← String.toList_inj, String.toList_ofList]
    rfl
  unfold fileName?
  rw [isLast]
  dsimp only
  simp only [same]
  rw [← isName, String.toList_ofList]

/-- What follows the last dot is what stands before the first when read backwards. -/
theorem takeWhile_of_dotless {extension : List Char} (dotless : '.' ∉ extension)
    (rest : List Char) :
    (extension.reverse ++ rest).takeWhile (· != '.') =
      extension.reverse ++ rest.takeWhile (· != '.') := by
  apply List.takeWhile_append_of_pos
  intro char member
  rw [bne_iff_ne]
  rintro rfl
  exact dotless (List.mem_reverse.mp member)

theorem extensionOf?_of_dotless {chars : List Char} (dotless : '.' ∉ chars) :
    extensionOf? chars = none := by
  have taken := takeWhile_of_dotless dotless []
  rw [List.append_nil, List.takeWhile_nil, List.append_nil] at taken
  unfold extensionOf?
  dsimp only
  rw [taken, List.drop_length]

/-- The last dot of a name parts the extension from the stem, if there is a stem. -/
theorem extensionOf?_of_last_dot (stem : List Char) {extension : List Char}
    (dotless : '.' ∉ extension) :
    extensionOf? (stem ++ '.' :: extension) = if stem = [] then none else some extension := by
  have reversed : (stem ++ '.' :: extension).reverse =
      extension.reverse ++ '.' :: stem.reverse := by
    simp
  have taken : (extension.reverse ++ '.' :: stem.reverse).takeWhile (· != '.') =
      extension.reverse := by
    rw [takeWhile_of_dotless dotless]
    exact List.append_nil _
  unfold extensionOf?
  dsimp only
  rw [reversed, taken, List.drop_left, List.reverse_reverse]
  cases parts : stem.reverse with
  | nil =>
      rw [List.reverse_eq_nil_iff] at parts
      rw [if_pos parts]
  | cons last others =>
      rw [if_neg (by rintro rfl; cases parts)]

/-- A path whose last name is a stem, a dot and an extension without dots. -/
structure Suffixed (path : Path) (directory stem extension trailing : String) : Prop where
  ends : Ends path directory (stem ++ "." ++ extension) trailing
  nonempty : stem ≠ ""
  dotless : '.' ∉ extension.toList

/-- Any other stem will do. -/
theorem Suffixed.replaceStem {stem extension : String}
    (suffixed : Suffixed path directory stem extension trailing) {other : String}
    (nonempty : other ≠ "") (free : '/' ∉ other.toList) :
    Suffixed ⟨directory ++ other ++ "." ++ extension ++ trailing⟩ directory other extension
      trailing := by
  have letters : other.toList ≠ [] := by simpa using nonempty
  obtain ⟨char, rest, begins⟩ := List.exists_cons_of_ne_nil letters
  refine ⟨⟨?_, suffixed.ends.directory_eq, ?_, ?_, suffixed.ends.idle⟩, nonempty,
    suffixed.dotless⟩
  · simp only [String.append_assoc]
  · have extensionFree := suffixed.ends.free
    simp only [String.toList_append, List.mem_append, not_or] at extensionFree ⊢
    exact ⟨⟨free, extensionFree.1.2⟩, extensionFree.2⟩
  · rw [← String.toList_inj, ← String.toList_inj, String.toList_append, String.toList_append,
      begins]
    simp

/-- A name has no dot, or its last dot parts it. -/
theorem dotless_or_last_dot (name : List Char) :
    '.' ∉ name ∨ ∃ stem extension, name = stem ++ '.' :: extension ∧ '.' ∉ extension := by
  by_cases dotted : '.' ∈ name
  · right
    obtain ⟨extension, stem, parts, dotless⟩ :=
      List.eq_append_cons_of_mem (List.mem_reverse.mpr dotted)
    refine ⟨stem.reverse, extension.reverse, ?_, fun dot => dotless (List.mem_reverse.mp dot)⟩
    rw [← List.reverse_reverse name, parts]
    simp
  · exact Or.inl dotted

end FaultDrill.Path
