import FaultDrill.Json.Text
import FaultDrill.Proofs.Yaml.Quoted

/-!
JSON literals as scalars in double quotes.

Owns:
- the characters of a literal that are white space for YAML, and the literals in which they stand
  for themselves (`Unfolded`);
- what YAML reads from the literal of any text, or that it refuses it.

White space with line breaks is folded in YAML, and a line of three hyphens or points starts or
ends a document. A JSON literal holds no line feed, but three other characters end lines in YAML.

Main statement: YAML reads a text from its JSON literal exactly if no white space in it is folded
and it holds no line that starts or ends a document (`reads_literal`).
-/

namespace FaultDrill.Yaml

open Scan

/-! ## Literals that are kept -/

/-- Line breaks that keep their own character. -/
def isSeparator (char : Char) : Bool := char == '\u2028' || char == '\u2029'

/-- White space that stands in a JSON literal as it is. -/
def isOpenGap (char : Char) : Bool := isSpace char || char == '\u0085' || isSeparator char

/-- Whether a text goes on as a line that starts or ends a document. -/
def startsMarker (chars : List Char) : Bool :=
  startsLikeMarker chars && startsIn isOpenGap (chars.drop 3)

/-- Whether such a line follows a line break somewhere in a text. -/
def hasMarker : List Char → Bool
  | [] => false
  | char :: rest => (isSeparator char && startsMarker rest) || hasMarker rest

/-- White space stands for itself in the JSON literal of a text, and no line of it starts or ends a
document. -/
structure Unfolded (chars : List Char) : Prop where
  noNextLine : '\u0085' ∉ chars
  noSpaceBefore : hasPair isSpace isSeparator chars = false
  noSpaceAfter : hasPair isSeparator isSpace chars = false
  noMarker : hasMarker chars = false

theorem unfolded_iff (chars : List Char) :
    Unfolded chars ↔ '\u0085' ∉ chars ∧ hasPair isSpace isSeparator chars = false ∧
      hasPair isSeparator isSpace chars = false ∧ hasMarker chars = false :=
  ⟨fun ⟨noNextLine, noSpaceBefore, noSpaceAfter, noMarker⟩ =>
    ⟨noNextLine, noSpaceBefore, noSpaceAfter, noMarker⟩,
  fun ⟨noNextLine, noSpaceBefore, noSpaceAfter, noMarker⟩ =>
    ⟨noNextLine, noSpaceBefore, noSpaceAfter, noMarker⟩⟩

instance (chars : List Char) : Decidable (Unfolded chars) :=
  decidable_of_iff' _ (unfolded_iff chars)

theorem unfolded_nil : Unfolded [] := ⟨by simp, rfl, rfl, rfl⟩

theorem unfolded_cons_iff {char : Char} {rest : List Char} :
    Unfolded (char :: rest) ↔
      (char ≠ '\u0085' ∧ (isSpace char = true → startsIn isSeparator rest = false) ∧
        (isSeparator char = true → startsIn isSpace rest = false ∧ startsMarker rest = false)) ∧
        Unfolded rest := by
  constructor
  · rintro ⟨noNextLine, noSpaceBefore, noSpaceAfter, noMarker⟩
    rw [hasPair_cons, Bool.or_eq_false_iff] at noSpaceBefore noSpaceAfter
    rw [hasMarker, Bool.or_eq_false_iff] at noMarker
    rw [List.mem_cons, not_or] at noNextLine
    refine ⟨⟨Ne.symm noNextLine.1, fun space => ?_, fun separator => ⟨?_, ?_⟩⟩, noNextLine.2,
      noSpaceBefore.2, noSpaceAfter.2, noMarker.2⟩
    · simpa [space] using noSpaceBefore.1
    · simpa [separator] using noSpaceAfter.1
    · simpa [separator] using noMarker.1
  · rintro ⟨⟨noNextLine, afterSpace, afterSeparator⟩, unfolded⟩
    refine ⟨?_, ?_, ?_, ?_⟩
    · rw [List.mem_cons, not_or]
      exact ⟨Ne.symm noNextLine, unfolded.noNextLine⟩
    · rw [hasPair_cons, unfolded.noSpaceBefore, Bool.or_false, Bool.and_eq_false_imp]
      exact afterSpace
    · rw [hasPair_cons, unfolded.noSpaceAfter, Bool.or_false, Bool.and_eq_false_imp]
      exact fun separator => (afterSeparator separator).1
    · rw [hasMarker, unfolded.noMarker, Bool.or_false, Bool.and_eq_false_imp]
      exact fun separator => (afterSeparator separator).2

/-- Where no line ends, nothing is folded. -/
theorem unfolded_of_no_break {chars : List Char}
    (noBreak : ∀ char ∈ chars, char ≠ '\u0085' ∧ isSeparator char = false) : Unfolded chars := by
  induction chars with
  | nil => exact unfolded_nil
  | cons char rest inductionHypothesis =>
      rw [List.forall_mem_cons] at noBreak
      obtain ⟨⟨noNextLine, noSeparator⟩, noBreak⟩ := noBreak
      have next : startsIn isSeparator rest = false := by
        cases rest with
        | nil => rfl
        | cons second rest => exact (noBreak second List.mem_cons_self).2
      refine unfolded_cons_iff.mpr
        ⟨⟨noNextLine, fun _ => next, fun separator => ?_⟩, inductionHypothesis noBreak⟩
      rw [noSeparator] at separator
      cases separator

/-- Also what goes on at the start of a line is no start or end of a document. -/
def Stays (mark : Mark) (chars : List Char) : Prop :=
  Unfolded chars ∧ (mark.column = 0 → startsMarker chars = false)

/-! ## White space -/

theorem isOpenGap_cases {char : Char} (isOpen : isOpenGap char = true) :
    isSpace char = true ∨ char = '\u0085' ∨ isSeparator char = true := by
  unfold isOpenGap at isOpen
  rwa [Bool.or_eq_true, Bool.or_eq_true, beq_iff_eq, or_assoc] at isOpen

theorem eq_space_of_isSpace {char : Char} (space : isSpace char = true) : char = ' ' :=
  beq_iff_eq.mp space

theorem separator_cases {char : Char} (separator : isSeparator char = true) :
    char = '\u2028' ∨ char = '\u2029' := by
  unfold isSeparator at separator
  rwa [Bool.or_eq_true, beq_iff_eq, beq_iff_eq] at separator

theorem space_separator_apart {char : Char} (space : isSpace char = true) :
    isSeparator char = false ∧ char ≠ '\u0085' := by
  rw [eq_space_of_isSpace space]
  decide

theorem separator_next_apart {char : Char} (separator : isSeparator char = true) :
    char ≠ '\u0085' := by
  rintro rfl
  cases separator

theorem isGap_of_isOpenGap {char : Char} (isOpen : isOpenGap char = true) :
    isGap char = true := by
  rcases isOpenGap_cases isOpen with space | rfl | separator
  · rw [eq_space_of_isSpace space]
    rfl
  · rfl
  · rcases separator_cases separator with rfl | rfl <;> rfl

/-- Line breaks in a literal that keep their own character in YAML are those that nothing stands
for but themselves. -/
theorem isSeparator_of_normalBreak {char : Char} (isOpen : isOpenGap char = true)
    (isBreak' : isBreak char = true) (same : normalBreak char = char) :
    isSeparator char = true := by
  rcases isOpenGap_cases isOpen with space | rfl | separator
  · rw [eq_space_of_isSpace space] at isBreak'
    cases isBreak'
  · cases same
  · exact separator

theorem startsMarker_gap {char : Char} (isGap' : isGap char = true) (rest : List Char) :
    startsMarker (char :: rest) = false := by
  have noHyphen : char ≠ '-' := by
    rintro rfl
    cases isGap'
  have noPoint : char ≠ '.' := by
    rintro rfl
    cases isGap'
  simp [startsMarker, startsLikeMarker, noHyphen, noPoint]

theorem startsIn_of_ends {tail : List Char}
    (ends : startsIn isOpenGap tail = false) :
    startsIn isSeparator tail = false ∧ startsIn isSpace tail = false := by
  cases tail with
  | nil => exact ⟨rfl, rfl⟩
  | cons char tail =>
      have notOpen : isOpenGap char = false := ends
      unfold isOpenGap at notOpen
      simp only [Bool.or_eq_false_iff] at notOpen
      exact ⟨notOpen.2, notOpen.1.1⟩

section Gap

variable {gap tail : List Char} (isOpen : ∀ char ∈ gap, isOpenGap char = true)

include isOpen

theorem lineBreaks_open : lineBreaks gap = (gap.filter isBreak).map normalBreak := by
  induction gap with
  | nil => rfl
  | cons char gap inductionHypothesis =>
      rw [List.forall_mem_cons] at isOpen
      have notReturn : char ≠ '\r' := by
        rintro rfl
        cases isOpen.1
      rw [lineBreaks_cons notReturn, inductionHypothesis isOpen.2, List.filter_cons]
      split <;> rfl

theorem length_lineBreaks_le : (lineBreaks gap).length ≤ gap.length := by
  rw [lineBreaks_open isOpen, List.length_map]
  exact List.length_filter_le _ _

omit isOpen in
theorem length_foldBreaks_le (breaks : List Char) :
    (foldBreaks breaks).length ≤ breaks.length := by
  unfold foldBreaks
  split
  · exact Nat.le_refl _
  · exact Nat.le_succ _
  · exact Nat.le_refl _

theorem length_gapText_le : (gapText gap).length ≤ gap.length := by
  unfold gapText
  split
  · exact Nat.le_refl _
  · exact Nat.le_trans (length_foldBreaks_le _) (length_lineBreaks_le isOpen)

theorem isSpace_of_noBreaks (none : lineBreaks gap = []) :
    ∀ char ∈ gap, isSpace char = true := by
  rw [lineBreaks_open isOpen, List.map_eq_nil_iff, List.filter_eq_nil_iff] at none
  intro char member
  rcases isOpenGap_cases (isOpen char member) with space | rfl | separator
  · exact space
  · exact absurd rfl (none _ member)
  · rcases separator_cases separator with rfl | rfl <;> exact absurd rfl (none _ member)

/-- A gap with line breaks that stands for itself holds nothing else than line breaks. -/
theorem isSeparator_of_foldBreaks (same : foldBreaks (lineBreaks gap) = gap) :
    ∀ char ∈ gap, isSeparator char = true := by
  have breaks := lineBreaks_open isOpen
  -- Nothing is left out, so every character is a line break.
  have length : (gap.filter isBreak).length = gap.length := by
    apply Nat.le_antisymm (List.length_filter_le _ _)
    calc gap.length = (foldBreaks (lineBreaks gap)).length := by rw [same]
      _ ≤ (lineBreaks gap).length := length_foldBreaks_le _
      _ = (gap.filter isBreak).length := by rw [breaks, List.length_map]
  have allBreaks : ∀ char ∈ gap, isBreak char = true :=
    List.length_filter_eq_length_iff.mp length
  rw [breaks, List.filter_eq_self.mpr allBreaks] at same
  have kept : gap.map normalBreak = gap := by
    unfold foldBreaks at same
    split at same
    · next feed =>
        rw [← same] at feed allBreaks
        exact absurd (allBreaks ' ' List.mem_cons_self) (by decide)
    · next _ feeds =>
        have length := congrArg List.length feeds
        rw [List.length_map, List.length_cons, same] at length
        exact absurd length (Nat.ne_of_lt (Nat.lt_succ_self _))
    · exact same
  intro char member
  refine isSeparator_of_normalBreak (isOpen char member) (allBreaks char member) ?_
  have each : gap.map normalBreak = gap.map id := by rw [kept, List.map_id]
  exact List.map_inj_left.mp each char member

omit isOpen in
theorem keptBreaks_of_isSeparator (separators : ∀ char ∈ gap, isSeparator char = true) :
    KeptBreaks gap := by
  intro char member
  rcases separator_cases (separators char member) with rfl | rfl <;> decide

/-- Blanks stand for themselves, and so do line breaks that keep their own character. Nothing else
does. -/
theorem gapText_eq_iff :
    gapText gap = gap ↔
      (∀ char ∈ gap, isSpace char = true) ∨ ∀ char ∈ gap, isSeparator char = true := by
  constructor
  · intro same
    cases breaks : lineBreaks gap with
    | nil => exact .inl (isSpace_of_noBreaks isOpen breaks)
    | cons first more =>
        refine .inr (isSeparator_of_foldBreaks isOpen ?_)
        rw [breaks]
        unfold gapText at same
        rwa [breaks] at same
  · rintro (spaces | separators)
    · have padded : gap = padding gap.length :=
        List.eq_replicate_iff.mpr ⟨rfl, fun char member => eq_space_of_isSpace (spaces char member)⟩
      rw [padded, gapText_spaces]
    · cases gap with
      | nil => rfl
      | cons first more =>
          have kept := gapText_kept (List.cons_ne_nil _ _) (keptBreaks_of_isSeparator separators) 0
          rwa [padding, List.replicate_zero, List.append_nil] at kept

/-- White space is kept in a text exactly if each gap stands for itself and nothing after a gap
starts or ends a document. -/
theorem unfolded_append_iff (nonempty : gap ≠ []) (ends : startsIn isOpenGap tail = false) :
    Unfolded (gap ++ tail) ↔
      ((∀ char ∈ gap, isSpace char = true) ∨
        (∀ char ∈ gap, isSeparator char = true) ∧ startsMarker tail = false) ∧ Unfolded tail := by
  obtain ⟨noSeparator, noSpace⟩ := startsIn_of_ends ends
  induction gap with
  | nil => exact absurd rfl nonempty
  | cons first more inductionHypothesis =>
      rw [List.forall_mem_cons] at isOpen
      have kind := isOpenGap_cases isOpen.1
      have space := @space_separator_apart first
      have separator := @separator_next_apart first
      rw [List.cons_append, unfolded_cons_iff]
      cases more with
      | nil =>
          rw [List.nil_append, noSeparator, noSpace]
          simp only [List.forall_mem_singleton]
          grind
      | cons next more =>
          have later := inductionHypothesis isOpen.2 (List.cons_ne_nil _ _)
          have noMarker := startsMarker_gap (isGap_of_isOpenGap (isOpen.2 next List.mem_cons_self))
            (more ++ tail)
          have spaceNext := @space_separator_apart next
          have starts : startsIn isSeparator (next :: (more ++ tail)) = isSeparator next ∧
              startsIn isSpace (next :: (more ++ tail)) = isSpace next := ⟨rfl, rfl⟩
          rw [List.cons_append] at later
          rw [List.cons_append, later, noMarker, starts.1, starts.2]
          simp only [List.forall_mem_cons]
          grind

theorem stays_append_iff (nonempty : gap ≠ []) (ends : startsIn isOpenGap tail = false)
    (mark : Mark) :
    Stays mark (gap ++ tail) ↔ gapText gap = gap ∧ Stays (mark.through gap) tail := by
  have noMarker : startsMarker (gap ++ tail) = false := by
    obtain ⟨first, more, rfl⟩ := List.exists_cons_of_ne_nil nonempty
    exact startsMarker_gap (isGap_of_isOpenGap (isOpen first List.mem_cons_self)) _
  have here : Stays mark (gap ++ tail) ↔ Unfolded (gap ++ tail) :=
    and_iff_left fun _ => noMarker
  rw [here, unfolded_append_iff isOpen nonempty ends, gapText_eq_iff isOpen]
  unfold Stays
  -- Blanks lead away from the start of the line, and line breaks to the start of another.
  have spaces : (∀ char ∈ gap, isSpace char = true) → (mark.through gap).column ≠ 0 := by
    intro spaces
    have padded : gap = padding gap.length :=
      List.eq_replicate_iff.mpr ⟨rfl, fun char member => eq_space_of_isSpace (spaces char member)⟩
    have some : 0 < gap.length := List.length_pos_iff.mpr nonempty
    rw [padded, through_spaces]
    exact Nat.ne_of_gt (Nat.add_pos_right _ some)
  have separators : (∀ char ∈ gap, isSeparator char = true) → (mark.through gap).column = 0 := by
    intro separators
    have kept := keptBreaks_of_isSeparator separators
    have place := (through_breaks nonempty kept.allBreaks 0 mark).1
    rwa [padding, List.replicate_zero, List.append_nil] at place
  constructor
  · rintro ⟨allSpaces | ⟨allSeparators, noMarkerAfter⟩, unfolded⟩
    · exact ⟨.inl allSpaces, unfolded, fun start => absurd start (spaces allSpaces)⟩
    · exact ⟨.inr allSeparators, unfolded, fun _ => noMarkerAfter⟩
  · rintro ⟨allSpaces | allSeparators, unfolded, noMarkerAfter⟩
    · exact ⟨.inl allSpaces, unfolded⟩
    · exact ⟨.inr ⟨allSeparators, noMarkerAfter (separators allSeparators)⟩, unfolded⟩

end Gap

/-! ## Characters of literals -/

/-- What follows the opening quote of a literal. -/
def literalTail (rest chars : List Char) : List Char :=
  chars.flatMap Json.textChar ++ '"' :: rest

private theorem hexDigit?_hexDigit :
    ∀ value < 16, hexDigit? (Json.hexDigit value) = some value := by
  decide

theorem isOpenGap_of_control {char : Char} (control : char.toNat < 0x20) :
    isOpenGap char = false := by
  have apart : ∀ {other : Char}, 0x20 ≤ other.toNat → char ≠ other := by
    rintro other large rfl
    exact absurd large (Nat.not_le.mpr control)
  simp [isOpenGap, isSpace, isSeparator, apart (show 0x20 ≤ ' '.toNat by decide),
    apart (show 0x20 ≤ '\u0085'.toNat by decide), apart (show 0x20 ≤ '\u2028'.toNat by decide),
    apart (show 0x20 ≤ '\u2029'.toNat by decide)]

/-- The number of a control character in an escape. -/
theorem escapeOf_control {char : Char} (control : char.toNat < 0x20) :
    EscapeOf char 'u'
      ['0', '0', Json.hexDigit (char.toNat / 16), Json.hexDigit (char.toNat % 16)] := by
  have high := hexDigit?_hexDigit (char.toNat / 16) (by omega)
  have low := hexDigit?_hexDigit (char.toNat % 16) (by omega)
  have nought : hexDigit? '0' = some 0 := rfl
  have digits : ['0', '0', Json.hexDigit (char.toNat / 16), Json.hexDigit (char.toNat % 16)].map
      hexDigit? = [0, 0, char.toNat / 16, char.toNat % 16].map some := by
    simp only [List.map_cons, List.map_nil, high, low, nought]
  refine escapeOf_number rfl rfl digits ?_
  simp only [List.foldl_cons, List.foldl_nil]
  omega

/-- A character of a literal stands for itself or is written as an escape that YAML knows. -/
theorem textChar_cases (char : Char) :
    (Json.textChar char = [char] ∧ isGap char = isOpenGap char ∧ char ≠ '"' ∧ char ≠ '\\') ∨
    ∃ letter digits, Json.textChar char = '\\' :: letter :: digits ∧
      EscapeOf char letter digits ∧ isOpenGap char = false := by
  unfold Json.textChar
  split
  · exact .inr ⟨_, _, rfl, escapeOf_letter rfl rfl rfl, rfl⟩
  · exact .inr ⟨_, _, rfl, escapeOf_letter rfl rfl rfl, rfl⟩
  · exact .inr ⟨_, _, rfl, escapeOf_letter rfl rfl rfl, rfl⟩
  · exact .inr ⟨_, _, rfl, escapeOf_letter rfl rfl rfl, rfl⟩
  · exact .inr ⟨_, _, rfl, escapeOf_letter rfl rfl rfl, rfl⟩
  · exact .inr ⟨_, _, rfl, escapeOf_letter rfl rfl rfl, rfl⟩
  · exact .inr ⟨_, _, rfl, escapeOf_letter rfl rfl rfl, rfl⟩
  · next notQuote notBackslash _ _ notFeed notReturn notTab =>
      split
      · next control =>
          exact .inr ⟨_, _, rfl, escapeOf_control control, isOpenGap_of_control control⟩
      · refine .inl ⟨rfl, ?_, notQuote, notBackslash⟩
        have noFeed : (char == '\n') = false := beq_eq_false_iff_ne.mpr notFeed
        have noReturn : (char == '\r') = false := beq_eq_false_iff_ne.mpr notReturn
        have noTab : (char == '\t') = false := beq_eq_false_iff_ne.mpr notTab
        unfold isGap isBlank isBreak isOpenGap isSpace isSeparator
        rw [noFeed, noReturn, noTab, Bool.or_false, Bool.or_false, Bool.or_assoc, Bool.or_assoc,
          Bool.or_assoc, Bool.false_or]

theorem startsIn_isGap_literalTail (rest chars : List Char) :
    startsIn isGap (literalTail rest chars) = startsIn isOpenGap chars := by
  cases chars with
  | nil => rfl
  | cons char chars =>
      unfold literalTail
      rw [List.flatMap_cons, List.append_assoc]
      rcases textChar_cases char with ⟨written, same, -, -⟩ | ⟨letter, digits, written, -, notOpen⟩
      · rw [written]
        exact same
      · rw [written]
        exact notOpen.symm

/-- Where a text does not go on with a character, its literal does not either. -/
theorem head_literalTail_ne {sign char : Char} (notBackslash : '\\' ≠ sign) (differ : char ≠ sign)
    (rest chars : List Char) :
    ∃ first more, literalTail rest (char :: chars) = first :: more ∧ first ≠ sign := by
  unfold literalTail
  rw [List.flatMap_cons, List.append_assoc]
  rcases textChar_cases char with ⟨written, -⟩ | ⟨letter, digits, written, -⟩
  · rw [written]
    exact ⟨char, _, rfl, differ⟩
  · rw [written]
    exact ⟨'\\', _, rfl, notBackslash⟩

theorem take_ne_replicate {sign first : Char} (differ : first ≠ sign) (count : Nat)
    (more : List Char) :
    ((first :: more).take (count + 1) == List.replicate (count + 1) sign) = false := by
  rw [List.take_succ_cons, List.replicate_succ, beq_eq_false_iff_ne]
  exact fun same => differ (List.cons.inj same).1

/-- Hyphens and points begin a literal exactly if they begin its text. -/
theorem literalTail_take {sign : Char} (isSign : sign = '-' ∨ sign = '.') (count : Nat)
    (rest chars : List Char) :
    ((literalTail rest chars).take count == List.replicate count sign &&
        atWordEnd ((literalTail rest chars).drop count)) =
      (chars.take count == List.replicate count sign && startsIn isOpenGap (chars.drop count)) := by
  have notQuote : '"' ≠ sign ∧ '\\' ≠ sign := by
    rcases isSign with rfl | rfl <;> decide
  have written : Json.textChar sign = [sign] := by
    rcases isSign with rfl | rfl <;> decide
  induction count generalizing chars with
  | zero =>
      have nonempty : ∃ first more, literalTail rest chars = first :: more :=
        List.exists_cons_of_ne_nil (by simp [literalTail])
      obtain ⟨first, more, whole⟩ := nonempty
      have starts := startsIn_isGap_literalTail rest chars
      rw [whole] at starts
      rw [whole]
      exact congrArg (_ && ·) starts
  | succ count inductionHypothesis =>
      cases chars with
      | nil =>
          have quote : literalTail rest [] = '"' :: rest := rfl
          rw [quote, take_ne_replicate notQuote.1]
          rfl
      | cons char chars =>
          by_cases same : char = sign
          · subst same
            have whole : literalTail rest (char :: chars) = char :: literalTail rest chars := by
              unfold literalTail
              rw [List.flatMap_cons, written]
              rfl
            have later := inductionHypothesis chars
            rw [whole]
            simpa [List.replicate_succ] using later
          · obtain ⟨first, more, whole, differ⟩ :=
              head_literalTail_ne notQuote.2 same rest chars
            rw [whole, take_ne_replicate differ, take_ne_replicate same]
            rfl

theorem atDocumentMarker_literalTail (rest chars : List Char) (mark : Mark) :
    Cursor.atDocumentMarker ⟨literalTail rest chars, mark⟩ =
      (mark.column == 0 && startsMarker chars) := by
  have hyphens := literalTail_take (.inl rfl) 3 rest chars
  have points := literalTail_take (.inr rfl) 3 rest chars
  simp only [List.replicate] at hyphens points
  unfold Cursor.atDocumentMarker Cursor.startsWithTriple startsMarker startsLikeMarker
  dsimp only
  rw [Bool.and_assoc, Bool.and_assoc, hyphens, points, ← Bool.and_or_distrib_left,
    ← Bool.and_or_distrib_right]

/-! ## Reading -/

theorem doubleQuoted_marked {cursor : Cursor} (marked : cursor.atDocumentMarker = true)
    (steps : Nat) : doubleQuoted (steps + 1) cursor = none := by
  unfold doubleQuoted
  refine (run_bind rfl).trans ?_
  rw [marked]
  rfl

/-- What is read after a first part is put behind it. -/
theorem run_append (first : List Char) (steps : Nat) (cursor : Cursor) :
    (do return first ++ (← doubleQuoted steps) : Scan (List Char)) cursor =
      (doubleQuoted steps cursor).map fun (text, after) => (first ++ text, after) := by
  change (doubleQuoted steps cursor).bind _ = _
  cases doubleQuoted steps cursor <;> rfl

/-- Where no quote and no escape comes, white space is taken, or else a single character. -/
theorem doubleQuoted_visible {text : List Char} {mark : Mark}
    (noMarker : Cursor.atDocumentMarker ⟨text, mark⟩ = false) {first : Char} {others : List Char}
    (whole : text = first :: others) (notQuote : first ≠ '"') (notBackslash : first ≠ '\\')
    (steps : Nat) :
    doubleQuoted (steps + 1) ⟨text, mark⟩ =
      if isGap first = true then
        (do
          let gap ← gap
          return gapText gap ++ (← doubleQuoted steps) : Scan (List Char)) ⟨text, mark⟩
      else
        (do
          skip 1
          return first :: (← doubleQuoted steps) : Scan (List Char)) ⟨text, mark⟩ := by
  rw [doubleQuoted]
  refine (run_bind rfl).trans ?_
  rw [noMarker]
  refine (run_bind rfl).trans ?_
  refine (run_bind rfl).trans ?_
  dsimp only
  split
  · cases whole
  · exact absurd (List.cons.inj whole).1.symm notQuote
  · exact absurd (List.cons.inj whole).1.symm notBackslash
  · obtain ⟨rfl, -⟩ := List.cons.inj whole
    rw [if_neg notBackslash]
    split <;> rfl

/-- White space is taken at once. -/
theorem doubleQuoted_gap {gap' more : List Char} (nonempty : gap' ≠ [])
    (gaps : ∀ char ∈ gap', isGap char = true) (ends : startsIn isGap more = false) (steps : Nat)
    (mark : Mark) :
    doubleQuoted (steps + 1) ⟨gap' ++ more, mark⟩ =
      (doubleQuoted steps ⟨more, mark.through gap'⟩).map fun (text, cursor) =>
        (gapText gap' ++ text, cursor) := by
  have taken : gap ⟨gap' ++ more, mark⟩ = some (gap', ⟨more, mark.through gap'⟩) := by
    obtain ⟨mark', taken, start, same, place⟩ := takes_takeWhile gaps ends (· = mark) mark rfl
    rw [place, same] at taken
    exact taken
  obtain ⟨first, others, rfl⟩ := List.exists_cons_of_ne_nil nonempty
  have isGap' := gaps first List.mem_cons_self
  have apart : ∀ {other : Char}, isGap other = false → first ≠ other := by
    rintro other notGap rfl
    rw [isGap'] at notGap
    cases notGap
  have noMarker : Cursor.atDocumentMarker ⟨first :: others ++ more, mark⟩ = false := by
    simp [Cursor.atDocumentMarker, Cursor.startsWithTriple, apart (show isGap '-' = false from rfl),
      apart (show isGap '.' = false from rfl)]
  rw [doubleQuoted_visible noMarker rfl (apart rfl) (apart rfl), if_pos isGap']
  exact (run_bind taken).trans (run_append _ steps _)

/-- A character that is no white space is taken with its escape. -/
theorem doubleQuoted_textChar {char : Char} (notOpen : isOpenGap char = false) {more : List Char}
    {mark : Mark}
    (noMarker : Cursor.atDocumentMarker ⟨Json.textChar char ++ more, mark⟩ = false) (steps : Nat) :
    ∃ mark', 0 < mark'.column ∧ mark.line ≤ mark'.line ∧
      doubleQuoted (steps + 1) ⟨Json.textChar char ++ more, mark⟩ =
        (doubleQuoted steps ⟨more, mark'⟩).map fun (text, cursor) => (char :: text, cursor) := by
  rcases textChar_cases char with ⟨written, same, notQuote, notBackslash⟩ |
    ⟨letter, digits, written, escapeOf, -⟩
  · rw [written] at noMarker ⊢
    refine ⟨mark.after 1, Nat.succ_pos _, Nat.le_refl _, ?_⟩
    rw [doubleQuoted_visible noMarker rfl notQuote notBackslash, same, notOpen,
      if_neg (by decide)]
    exact (run_bind rfl).trans (run_append [char] steps _)
  · obtain ⟨mark', ran, place⟩ := @escapeOf.takes mark.line more (mark.after 1)
      ⟨Nat.succ_le_succ (Nat.zero_le _), Nat.le_refl _⟩
    rw [written] at noMarker ⊢
    refine ⟨mark', place.1, place.2, ?_⟩
    rw [doubleQuoted]
    refine (run_bind rfl).trans ?_
    rw [noMarker]
    refine (run_bind rfl).trans ?_
    refine (run_bind rfl).trans ?_
    refine (run_bind rfl).trans ?_
    dsimp only
    rw [escapeOf.visible, if_neg (by decide)]
    exact (run_bind ran).trans (run_append [char] steps _)

/-- What a reader may come to that is to read a text up to some characters: it reads this text in
one case only, and no longer text in others, unless it refuses what is there. -/
def Reads (line : Nat) (rest chars : List Char) (clean : Prop) : Option (List Char × Cursor) → Prop
  | none => ¬ clean
  | some (text, cursor) =>
    cursor.rest = rest ∧ line ≤ cursor.mark.line ∧ text.length ≤ chars.length ∧
      (text = chars ↔ clean)

theorem Reads.append {line line' : Nat} {rest chars first front : List Char} {clean clean' : Prop}
    {result : Option (List Char × Cursor)} (reads : Reads line' rest chars clean result)
    (later : line ≤ line') (shorter : first.length ≤ front.length)
    (whole : clean' ↔ first = front ∧ clean) :
    Reads line rest (front ++ chars) clean'
      (result.map fun (text, cursor) => (first ++ text, cursor)) := by
  cases result with
  | none => exact fun isClean => reads (whole.mp isClean).2
  | some result =>
      obtain ⟨text, cursor⟩ := result
      obtain ⟨left, onLine, noLonger, same⟩ := reads
      refine ⟨left, Nat.le_trans later onLine, ?_, ?_⟩
      · rw [List.length_append, List.length_append]
        exact Nat.add_le_add shorter noLonger
      · rw [whole, ← same]
        constructor
        · intro joined
          have lengths := congrArg List.length joined
          rw [List.length_append, List.length_append] at lengths
          exact List.append_inj joined (by omega)
        · rintro ⟨rfl, rfl⟩
          rfl

/-- The literal of a text is read from everywhere. -/
def ReadsLiteral (rest chars : List Char) : Prop :=
  ∀ steps mark, (literalTail rest chars).length < steps →
    Reads mark.line rest chars (Stays mark chars)
      (doubleQuoted steps ⟨literalTail rest chars, mark⟩)

section Literal

variable {rest chars : List Char}

theorem readsLiteral_nil : ReadsLiteral rest [] := by
  intro steps mark enough
  obtain ⟨steps, rfl, -⟩ := exists_step enough
  have noMarker := atDocumentMarker_literalTail rest [] mark
  rw [show startsMarker [] = false from rfl, Bool.and_false] at noMarker
  have read : doubleQuoted (steps + 1) ⟨literalTail rest [], mark⟩ =
      some ([], ⟨rest, mark.after 1⟩) := by
    rw [doubleQuoted]
    refine (run_bind rfl).trans ?_
    rw [noMarker]
    rfl
  rw [read]
  exact ⟨rfl, Nat.le_refl _, Nat.le_refl _, iff_of_true rfl ⟨unfolded_nil, fun _ => rfl⟩⟩

theorem ReadsLiteral.cons {char : Char} (notOpen : isOpenGap char = false)
    (reads : ReadsLiteral rest chars) : ReadsLiteral rest (char :: chars) := by
  intro steps mark enough
  obtain ⟨steps, rfl, fewer⟩ := exists_step enough
  have marker := atDocumentMarker_literalTail rest (char :: chars) mark
  have source :
      literalTail rest (char :: chars) = Json.textChar char ++ literalTail rest chars := by
    unfold literalTail
    rw [List.flatMap_cons, List.append_assoc]
  cases marked : Cursor.atDocumentMarker ⟨literalTail rest (char :: chars), mark⟩ with
  | true =>
      rw [doubleQuoted_marked marked]
      rw [marked, eq_comm, Bool.and_eq_true, beq_iff_eq] at marker
      rintro ⟨-, noMarker⟩
      rw [noMarker marker.1] at marker
      cases marker.2
  | false =>
      rw [marked, eq_comm, Bool.and_eq_false_imp, beq_iff_eq] at marker
      rw [source] at marked fewer
      obtain ⟨mark', right, later, read⟩ := doubleQuoted_textChar notOpen marked steps
      have some : 0 < (Json.textChar char).length := by
        rcases textChar_cases char with ⟨written, -⟩ | ⟨letter, digits, written, -⟩ <;>
          simp [written]
      rw [List.length_append] at fewer
      rw [source, read]
      have same : [char].length ≤ [char].length := Nat.le_refl 1
      refine (reads steps mark' (by omega)).append later same ?_
      have kinds : char ≠ '\u0085' ∧ isSpace char = false ∧ isSeparator char = false := by
        unfold isOpenGap at notOpen
        simp only [Bool.or_eq_false_iff, beq_eq_false_iff_ne] at notOpen
        exact ⟨notOpen.1.2, notOpen.1.1, notOpen.2⟩
      unfold Stays
      rw [unfolded_cons_iff]
      simp only [kinds, ne_eq, not_false_eq_true, Bool.false_eq_true, false_imp_iff, true_and]
      exact and_congr_right fun _ =>
        iff_of_true marker fun start => absurd start (Nat.ne_of_gt right)

theorem ReadsLiteral.gap (reads : ReadsLiteral rest chars)
    (ends : startsIn isOpenGap chars = false) {gap' : List Char}
    (isOpen : ∀ char ∈ gap', isOpenGap char = true) (steps : Nat) (mark : Mark)
    (enough : (gap' ++ literalTail rest chars).length < steps) :
    Reads mark.line rest (gap' ++ chars) (Stays mark (gap' ++ chars))
      (doubleQuoted steps ⟨gap' ++ literalTail rest chars, mark⟩) := by
  by_cases nonempty : gap' = []
  · subst nonempty
    exact reads steps mark enough
  obtain ⟨steps, rfl, fewer⟩ := exists_step enough
  have some : 0 < gap'.length := List.length_pos_iff.mpr nonempty
  have after : startsIn isGap (literalTail rest chars) = false := by
    rw [startsIn_isGap_literalTail, ends]
  rw [List.length_append] at fewer
  rw [doubleQuoted_gap nonempty (fun char member => isGap_of_isOpenGap (isOpen char member)) after]
  exact (reads steps _ (by omega)).append (line_le_through mark gap') (length_gapText_le isOpen)
    (stays_append_iff isOpen nonempty ends mark)

/-- White space before a text is read with the white space that the text begins with. -/
theorem reads_gap (rest chars : List Char) :
    ∀ gap', (∀ char ∈ gap', isOpenGap char = true) → ∀ steps mark,
      (gap' ++ literalTail rest chars).length < steps →
      Reads mark.line rest (gap' ++ chars) (Stays mark (gap' ++ chars))
        (doubleQuoted steps ⟨gap' ++ literalTail rest chars, mark⟩) := by
  induction chars with
  | nil => exact fun gap' isOpen => readsLiteral_nil.gap rfl isOpen
  | cons char chars inductionHypothesis =>
      intro gap' isOpen
      cases open' : isOpenGap char with
      | true =>
          -- The character continues the gap.
          have written : literalTail rest (char :: chars) = char :: literalTail rest chars := by
            rcases textChar_cases char with ⟨written, -⟩ | ⟨_, _, -, -, notOpen⟩
            · unfold literalTail
              rw [List.flatMap_cons, written]
              rfl
            · rw [open'] at notOpen
              cases notOpen
          have longer := inductionHypothesis (gap' ++ [char]) fun other member => by
            rcases List.mem_append.mp member with before | last
            · exact isOpen other before
            · rwa [List.mem_singleton.mp last]
          simpa only [written, List.append_assoc, List.singleton_append] using longer
      | false =>
          have reads : ReadsLiteral rest chars := fun steps mark =>
            inductionHypothesis [] (by simp) steps mark
          exact (reads.cons open').gap open' isOpen

end Literal

/-- YAML reads a text from its JSON literal exactly if no white space in it is folded and it holds
no line that starts or ends a document. -/
theorem reads_literal (rest chars : List Char) (mark : Mark) :
    Reads mark.line rest chars (Unfolded chars)
      (quoted false ⟨'"' :: literalTail rest chars, mark⟩) := by
  have reads := reads_gap rest chars [] (by simp) ((literalTail rest chars).length + 1)
    (mark.after 1) (Nat.lt_succ_self _)
  have right : Stays (mark.after 1) chars ↔ Unfolded chars :=
    and_iff_left fun start => absurd start (Nat.succ_ne_zero _)
  rw [List.nil_append, List.nil_append, right] at reads
  exact reads

end FaultDrill.Yaml
