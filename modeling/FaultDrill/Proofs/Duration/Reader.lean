import FaultDrill.Proofs.Duration.Terms

/-!
The reader of lengths of time against written terms.

Owns:
- how the reader goes over each part of a written term;
- what a state of the reader says about the text that it has still to read;
- the agreement of the reader's answers with the endings of written terms.

Main statements: the reader gives a length of time, or carries past the last second, exactly if the
text is more than blanks and its terms add up so (`ofChars_outcome_iff`); it carries past the last
second exactly on the texts whose terms do (`ofText_overflow_iff`). Every other text is one of the
remaining errors.
-/

namespace FaultDrill

namespace Duration.ReaderState

/-! ## Running over a written term -/

/-- The reader's answer when it goes on with the rest of a text. -/
def run (state : ReaderState) (rest : List Char) : Except DurationError Duration := do
  (← rest.foldlM step state).finish

theorem run_nil (state : ReaderState) : state.run [] = state.finish := rfl

theorem run_cons (state : ReaderState) (char : Char) (rest : List Char) :
    state.run (char :: rest) = state.step char >>= fun next => next.run rest := by
  unfold run
  rw [List.foldlM_cons, bind_assoc]

variable (sum : Duration) (begun : Bool) (rest : List Char)

theorem run_gap {gap : List Char} (blank : ∀ char ∈ gap, Text.isWhitespace char = true)
    (start offset : Nat) :
    ∃ after, run ⟨sum, begun, .expecting start, offset⟩ (gap ++ rest) =
      run ⟨sum, begun, .expecting start, after⟩ rest := by
  induction gap generalizing offset with
  | nil => exact ⟨offset, rfl⟩
  | cons char gap inductionHypothesis =>
      have ⟨space, others⟩ := List.forall_mem_cons.mp blank
      have ⟨after, same⟩ := inductionHypothesis others (offset + char.utf8Size)
      rw [List.cons_append, run_cons]
      simp only [step, not_digit_of_blank space, space, bind, Except.bind]
      exact ⟨after, same⟩

theorem run_number {more : List Char} (spaced : ∀ char ∈ more, isSpacedDigit char = true)
    {value : Nat} (small : spelled value more < wordLimit) (offset : Nat) :
    ∃ after, run ⟨sum, begun, .number value, offset⟩ (more ++ rest) =
      run ⟨sum, begun, .number (spelled value more), after⟩ rest := by
  induction more generalizing value offset with
  | nil => exact ⟨offset, rfl⟩
  | cons char more inductionHypothesis =>
      have ⟨first, others⟩ := List.forall_mem_cons.mp spaced
      rw [List.cons_append, run_cons]
      rcases digit_or_blank first with digit | space
      · rw [spelled_digit digit] at small ⊢
        have appended : appendDigit value char = .ok (value * 10 + digitValue char) :=
          if_pos (Nat.lt_of_le_of_lt (le_spelled _ more) small)
        have ⟨after, same⟩ := inductionHypothesis others small (offset + char.utf8Size)
        simp only [step, digit, appended, bind, Except.bind]
        exact ⟨after, same⟩
      · have noDigit := not_digit_of_blank space
        rw [spelled_blank noDigit] at small ⊢
        have ⟨after, same⟩ := inductionHypothesis others small (offset + char.utf8Size)
        simp only [step, noDigit, space, bind, Except.bind]
        exact ⟨after, same⟩

theorem run_fraction {decimals : List Char}
    (spaced : ∀ char ∈ decimals, isSpacedDigit char = true) (value : Nat)
    {digits : DecimalFraction} (fits : (digits.extended decimals).Fits) (blame offset : Nat) :
    ∃ later after, run ⟨sum, begun, .fraction value digits blame, offset⟩ (decimals ++ rest) =
      run ⟨sum, begun, .fraction value (digits.extended decimals) later, after⟩ rest := by
  induction decimals generalizing digits blame offset with
  | nil =>
      rw [extended_nil]
      exact ⟨blame, offset, rfl⟩
  | cons char decimals inductionHypothesis =>
      have ⟨first, others⟩ := List.forall_mem_cons.mp spaced
      rw [List.cons_append, run_cons]
      rcases digit_or_blank first with digit | space
      · rw [extended_digit digit] at fits ⊢
        have small := fits_of_extended fits
        have appended : appendDigit digits.numerator char =
            .ok (digits.numerator * 10 + digitValue char) := if_pos small.numerator_lt
        have scaled : wordOf (digits.denominator * 10) = .ok (digits.denominator * 10) :=
          if_pos small.denominator_lt
        have ⟨later, after, same⟩ :=
          inductionHypothesis others fits (offset + char.utf8Size) (offset + char.utf8Size)
        simp only [step, digit, appended, scaled, bind, Except.bind]
        exact ⟨later, after, same⟩
      · have noDigit := not_digit_of_blank space
        rw [extended_blank noDigit] at fits ⊢
        have ⟨later, after, same⟩ :=
          inductionHypothesis others fits (offset + char.utf8Size) (offset + char.utf8Size)
        simp only [step, noDigit, space, bind, Except.bind]
        exact ⟨later, after, same⟩

theorem run_letters {letters : List Char} (unit : ∀ char ∈ letters, isUnitLetter char = true)
    (value : Nat) (fraction : Option DecimalFraction) (before : List Char) (offset : Nat) :
    ∃ after, run ⟨sum, begun, .unit value fraction before, offset⟩ (letters ++ rest) =
      run ⟨sum, begun, .unit value fraction (letters.reverse ++ before), after⟩ rest := by
  induction letters generalizing before offset with
  | nil => exact ⟨offset, rfl⟩
  | cons char letters inductionHypothesis =>
      have ⟨letter, others⟩ := List.forall_mem_cons.mp unit
      have ⟨after, same⟩ :=
        inductionHypothesis others (char :: before) (offset + char.utf8Size)
      rw [List.cons_append, run_cons, List.reverse_cons, List.append_assoc]
      simp only [step, not_digit_of_unitLetter letter, not_blank_of_unitLetter letter, letter,
        bind, Except.bind]
      exact ⟨after, same⟩

/-- The first letter begins the unit, after a whole number or after a fraction with digits. -/
theorem run_unit {letters : List Char} (named : letters ≠ [])
    (unit : ∀ char ∈ letters, isUnitLetter char = true) {position : Position} {value : Nat}
    {fraction : Option DecimalFraction} (offset : Nat)
    (opens : ∀ char, isUnitLetter char = true → step ⟨sum, begun, position, offset⟩ char =
      .ok ⟨sum, begun, .unit value fraction [char], offset + char.utf8Size⟩) :
    ∃ after, run ⟨sum, begun, position, offset⟩ (letters ++ rest) =
      run ⟨sum, begun, .unit value fraction letters.reverse, after⟩ rest := by
  cases letters with
  | nil => contradiction
  | cons char letters =>
      have ⟨letter, others⟩ := List.forall_mem_cons.mp unit
      rw [List.cons_append, run_cons, opens char letter, List.reverse_cons]
      exact run_letters sum begun rest others value fraction [char] (offset + char.utf8Size)

theorem step_number_letter {char : Char} (letter : isUnitLetter char = true) (value offset : Nat) :
    step ⟨sum, begun, .number value, offset⟩ char =
      .ok ⟨sum, begun, .unit value none [char], offset + char.utf8Size⟩ := by
  simp only [step, not_digit_of_unitLetter letter, not_blank_of_unitLetter letter, letter]
  rfl

theorem step_fraction_letter {char : Char} (letter : isUnitLetter char = true) (value : Nat)
    {digits : DecimalFraction} (someDigits : digits.denominator ≠ 1) (blame offset : Nat) :
    step ⟨sum, begun, .fraction value digits blame, offset⟩ char =
      .ok ⟨sum, begun, .unit value (some digits) [char], offset + char.utf8Size⟩ := by
  simp only [step, not_digit_of_unitLetter letter, not_blank_of_unitLetter letter, letter]
  simp [someDigits]

theorem step_unit_digit {char : Char} (digit : char.isDigit = true) (value : Nat)
    (fraction : Option DecimalFraction) (letters : List Char) (offset : Nat) :
    step ⟨sum, begun, .unit value fraction letters, offset⟩ char =
      sum.addTerm value fraction (String.ofList letters.reverse) >>= fun total =>
        .ok ⟨total, begun, .number (digitValue char), offset + char.utf8Size⟩ := by
  simp only [step, digit]
  rfl

theorem step_unit_blank {char : Char} (space : Text.isWhitespace char = true) (value : Nat)
    (fraction : Option DecimalFraction) (letters : List Char) (offset : Nat) :
    step ⟨sum, begun, .unit value fraction letters, offset⟩ char =
      sum.addTerm value fraction (String.ofList letters.reverse) >>= fun total =>
        .ok ⟨total, begun, .expecting (offset + char.utf8Size), offset + char.utf8Size⟩ := by
  simp only [step, not_digit_of_blank space, space]
  rfl

/-- The reader is inside the unit of a term when the term's characters are used up. -/
theorem run_term (term : WrittenTerm) (start offset : Nat) :
    ∃ after, run ⟨sum, begun, .expecting start, offset⟩ (term.chars ++ rest) =
      run ⟨sum, true, .unit term.number term.fraction? term.letters.reverse, after⟩ rest := by
  have number : spelled 0 (term.first :: term.more) =
      spelled (digitValue term.first) term.more := by
    rw [spelled_digit term.first_digit, Nat.zero_mul, Nat.zero_add]
  have small := number ▸ term.number_lt
  unfold WrittenTerm.chars WrittenTerm.number WrittenTerm.fraction?
  rw [List.cons_append, run_cons, List.append_assoc, List.append_assoc, number]
  simp only [step, term.first_digit, bind, Except.bind]
  cases spelling : term.decimals with
  | none =>
      have ⟨middle, whole⟩ := run_number sum true (term.letters ++ rest) term.more_spaced small
        (offset + term.first.utf8Size)
      have ⟨after, unit⟩ := run_unit sum true rest term.letters_ne term.letters_unit middle
        (fun _ letter => step_number_letter sum true letter
          (spelled (digitValue term.first) term.more) middle)
      exact ⟨after, whole.trans unit⟩
  | some decimals =>
      have ⟨point, whole⟩ := run_number sum true ('.' :: decimals ++ (term.letters ++ rest))
        term.more_spaced small (offset + term.first.utf8Size)
      have ⟨blame, middle, fraction⟩ := run_fraction sum true (term.letters ++ rest)
        (term.decimals_spaced decimals spelling) (spelled (digitValue term.first) term.more)
        (term.decimals_fit decimals spelling) point (point + 1)
      have ⟨after, unit⟩ := run_unit sum true rest term.letters_ne term.letters_unit middle
        (fun _ letter => step_fraction_letter sum true letter
          (spelled (digitValue term.first) term.more) (term.extended_ne decimals spelling) blame
            middle)
      refine ⟨after, ?_⟩
      calc
        _ = run ⟨sum, true, .number (spelled (digitValue term.first) term.more), point⟩
              ('.' :: decimals ++ (term.letters ++ rest)) := whole
        _ = run ⟨sum, true, .fraction _ ⟨0, 1⟩ point, point + 1⟩
              (decimals ++ (term.letters ++ rest)) := by
            rw [List.cons_append, run_cons]
            rfl
        _ = _ := fraction.trans unit

/-- At the end of a unit the term is added, and the reader goes on as before a term. -/
theorem run_parted {rest : List Char} (parted : Parted rest) (value : Nat)
    (fraction : Option DecimalFraction) (letters : List Char) (offset : Nat) :
    ∃ start, run ⟨sum, true, .unit value fraction letters.reverse, offset⟩ rest =
      sum.addTerm value fraction (String.ofList letters) >>= fun next =>
        run ⟨next, true, .expecting start, offset⟩ rest := by
  cases rest with
  | nil =>
      refine ⟨0, ?_⟩
      rw [run_nil]
      simp only [finish, finishTerm, List.reverse_reverse, run_nil]
      exact (bind_pure _).symm
  | cons char rest =>
      refine ⟨offset + char.utf8Size, ?_⟩
      simp only [run_cons]
      rcases digit_or_blank (parted char rfl) with digit | space
      · rw [step_unit_digit sum true digit, List.reverse_reverse, bind_assoc]
        simp only [step, digit]
        rfl
      · rw [step_unit_blank sum true space, List.reverse_reverse, bind_assoc]
        simp only [step, not_digit_of_blank space, space]
        rfl

/-- A gap and a term are read as the addition of the term, if the unit ends with its letters. -/
theorem run_gap_term {gap rest : List Char}
    (blank : ∀ char ∈ gap, Text.isWhitespace char = true) (term : WrittenTerm)
    (parted : Parted rest) (start offset : Nat) :
    ∃ resumed ended, run ⟨sum, begun, .expecting start, offset⟩ (gap ++ (term.chars ++ rest)) =
      sum.addTerm term.number term.fraction? term.unitText >>= fun next =>
        run ⟨next, true, .expecting resumed, ended⟩ rest := by
  have ⟨opening, gone⟩ := run_gap sum begun (term.chars ++ rest) blank start offset
  have ⟨ended, inside⟩ := run_term sum begun rest term start opening
  have ⟨resumed, finished⟩ :=
    run_parted sum parted term.number term.fraction? term.letters ended
  exact ⟨resumed, ended, gone.trans (inside.trans finished)⟩

/-- The reader comes to the ending of the terms, from wherever it begins before them. -/
theorem run_of_adds {sum : Duration} {text : List Char} {ending : Ending}
    (adds : Adds sum text ending) {begun : Bool}
    (someTerm : begun = true ∨ ∃ char ∈ text, Text.isWhitespace char = false)
    (start offset : Nat) :
    run ⟨sum, begun, .expecting start, offset⟩ text = ending.outcome := by
  induction adds generalizing begun start offset with
  | @blank sum gap blank =>
      have already : begun = true := by
        rcases someTerm with already | ⟨char, inGap, visible⟩
        · exact already
        · rw [blank char inGap] at visible
          contradiction
      have ⟨after, same⟩ := run_gap sum begun [] blank start offset
      rw [← List.append_nil gap, same, run_nil, already]
      rfl
  | @term sum next gap rest ending blank term added later inductionHypothesis =>
      have ⟨resumed, ended, same⟩ :=
        run_gap_term sum begun blank term later.parted start offset
      rw [same, added]
      exact inductionHypothesis (Or.inl rfl) resumed ended
  | @overrun sum gap rest unit blank term named exceeds parted =>
      have overflow := (sum.addTerm_overflow_iff ..).mpr ⟨unit, named, exceeds⟩
      have ⟨resumed, ended, same⟩ := run_gap_term sum begun blank term parted start offset
      rw [same, overflow]
      rfl

/-! ## What is left to read -/

/-- What a text that follows a state leads to. Numbers that the reader holds fit into 64 bits. -/
def Leads (state : ReaderState) (text : List Char) (ending : Ending) : Prop :=
  match state.position with
  | .expecting _ => Adds state.sum text ending
  | .number value => value < wordLimit → AfterDigits state.sum value text ending
  | .fraction value digits _ => digits.Fits → AfterPoint state.sum value digits text ending
  | .unit value fraction letters =>
    AfterLetters state.sum value fraction letters.reverse text ending

theorem ends_of_outcome {sum : Duration} {value : Nat} {fraction : Option DecimalFraction}
    {letters : List Char} {ending : Ending}
    (ended : sum.addTerm value fraction (String.ofList letters) = ending.outcome) :
    Ends sum value fraction letters [] ending := by
  cases ending with
  | total total => exact Ends.added ended (Adds.blank (List.forall_mem_nil _))
  | overrun => exact Ends.overrun ended (fun _ head => by simp at head)

/-- The reader adds a term when it sees the first character behind it, and goes on with that
character as before a term. -/
theorem ends_of_step {sum : Duration} {value : Nat} {fraction : Option DecimalFraction}
    {letters text : List Char} {char : Char} {ending : Ending} (next : Duration → ReaderState)
    (spaced : isSpacedDigit char = true)
    (goes : (sum.addTerm value fraction (String.ofList letters) >>= fun total =>
      (next total).run text) = ending.outcome)
    (onward : ∀ total, (next total).run text = ending.outcome → Adds total (char :: text) ending) :
    Ends sum value fraction letters (char :: text) ending := by
  cases added : sum.addTerm value fraction (String.ofList letters) with
  | ok total =>
      rw [added] at goes
      exact Ends.added added (onward total goes)
  | error cause =>
      rw [added] at goes
      cases ending with
      | total total => cases goes
      | overrun =>
          cases goes
          apply Ends.overrun added
          intro first head
          cases head
          exact spaced

theorem leads_nil (state : ReaderState) {ending : Ending}
    (ended : state.finish = ending.outcome) : state.Leads [] ending := by
  rcases state with ⟨sum, begun, position, offset⟩
  cases position with
  | expecting start =>
      cases begun <;> cases ending <;> cases ended
      exact Adds.blank (List.forall_mem_nil _)
  | number value =>
      intro small
      exact AfterDigits.of_letters small (AfterLetters.of_ends (ends_of_outcome ended))
  | fraction value digits blame =>
      intro fits
      by_cases empty : digits.denominator = 1
      · simp only [finish, empty] at ended
        cases ending <;> cases ended
      · simp only [finish, empty] at ended
        exact AfterPoint.of_letters fits empty (AfterLetters.of_ends (ends_of_outcome ended))
  | unit value fraction letters => exact AfterLetters.of_ends (ends_of_outcome ended)

theorem leads_expecting (sum : Duration) (begun : Bool) (start offset : Nat) (char : Char)
    (text : List Char) {ending : Ending}
    (goes : (step ⟨sum, begun, .expecting start, offset⟩ char >>= (run · text)) = ending.outcome)
    (onward : ∀ next : ReaderState, next.run text = ending.outcome → next.Leads text ending) :
    Adds sum (char :: text) ending := by
  cases digit : char.isDigit
  case true =>
    simp only [step, digit] at goes
    exact Adds.of_digit digit (onward _ goes (digitValue_lt digit))
  case false =>
    cases space : Text.isWhitespace char <;> simp only [step, digit, space] at goes
    case true => exact Adds.of_blank space (onward _ goes)
    case false => cases ending <;> cases goes

theorem leads_number (sum : Duration) (begun : Bool) (value offset : Nat) (char : Char)
    (text : List Char) {ending : Ending} (small : value < wordLimit)
    (goes : (step ⟨sum, begun, .number value, offset⟩ char >>= (run · text)) = ending.outcome)
    (onward : ∀ next : ReaderState, next.run text = ending.outcome → next.Leads text ending) :
    AfterDigits sum value (char :: text) ending := by
  cases digit : char.isDigit
  case true =>
    by_cases longer : value * 10 + digitValue char < wordLimit
    · simp only [step, digit, appendDigit, wordOf, longer] at goes
      exact AfterDigits.digit digit (onward _ goes longer)
    · simp only [step, digit, appendDigit, wordOf, longer] at goes
      cases ending <;> cases goes
  case false =>
    cases space : Text.isWhitespace char
    case true =>
      simp only [step, digit, space] at goes
      exact AfterDigits.blank space (onward _ goes small)
    case false =>
      cases letter : isUnitLetter char
      case true =>
        rw [step_number_letter sum begun letter] at goes
        have unit : AfterLetters sum value none [char] text ending := onward _ goes
        exact AfterDigits.of_letters small (AfterLetters.letter letter unit)
      case false =>
        by_cases point : char = '.'
        · subst point
          exact AfterDigits.of_point small (onward _ goes ⟨by decide, by decide⟩)
        · simp only [step, digit, space, letter, point] at goes
          cases ending <;> cases goes

theorem leads_fraction (sum : Duration) (begun : Bool) (value : Nat) (digits : DecimalFraction)
    (blame offset : Nat) (char : Char) (text : List Char) {ending : Ending} (fits : digits.Fits)
    (goes : (step ⟨sum, begun, .fraction value digits blame, offset⟩ char >>= (run · text)) =
      ending.outcome)
    (onward : ∀ next : ReaderState, next.run text = ending.outcome → next.Leads text ending) :
    AfterPoint sum value digits (char :: text) ending := by
  cases digit : char.isDigit
  case true =>
    by_cases scaled : digits.denominator * 10 < wordLimit
    · by_cases appended : digits.numerator * 10 + digitValue char < wordLimit
      · simp only [step, digit, appendDigit, wordOf, scaled, appended] at goes
        exact AfterPoint.digit digit (onward _ goes ⟨appended, scaled⟩)
      · simp only [step, digit, appendDigit, wordOf, scaled, appended] at goes
        cases ending <;> cases goes
    · simp only [step, digit, wordOf, scaled] at goes
      cases ending <;> cases goes
  case false =>
    cases space : Text.isWhitespace char
    case true =>
      simp only [step, digit, space] at goes
      exact AfterPoint.blank space (onward _ goes fits)
    case false =>
      by_cases opens : isUnitLetter char = true ∧ digits.denominator ≠ 1
      · rw [step_fraction_letter sum begun opens.1 value opens.2] at goes
        have unit : AfterLetters sum value (some digits) [char] text ending := onward _ goes
        exact AfterPoint.of_letters fits opens.2 (AfterLetters.letter opens.1 unit)
      · simp only [step, digit, space, opens] at goes
        cases ending <;> cases goes

theorem leads_unit (sum : Duration) (begun : Bool) (value : Nat)
    (fraction : Option DecimalFraction) (letters : List Char) (offset : Nat) (char : Char)
    (text : List Char) {ending : Ending}
    (goes : (step ⟨sum, begun, .unit value fraction letters, offset⟩ char >>= (run · text)) =
      ending.outcome)
    (onward : ∀ next : ReaderState, next.run text = ending.outcome → next.Leads text ending) :
    AfterLetters sum value fraction letters.reverse (char :: text) ending := by
  cases digit : char.isDigit
  case true =>
    rw [step_unit_digit sum begun digit, bind_assoc] at goes
    apply AfterLetters.of_ends
    apply ends_of_step (fun total => ⟨total, begun, .number (digitValue char), _⟩)
      (spaced_of_digit digit) goes
    intro total resumed
    exact Adds.of_digit digit (onward _ resumed (digitValue_lt digit))
  case false =>
    cases space : Text.isWhitespace char
    case true =>
      rw [step_unit_blank sum begun space, bind_assoc] at goes
      apply AfterLetters.of_ends
      apply ends_of_step (fun total => ⟨total, begun, .expecting _, _⟩)
        (spaced_of_blank space) goes
      intro total resumed
      exact Adds.of_blank space (onward _ resumed)
    case false =>
      cases letter : isUnitLetter char
      case true =>
        simp only [step, digit, space, letter] at goes
        have unit := onward _ goes
        simp only [Leads, List.reverse_cons] at unit
        exact AfterLetters.letter letter unit
      case false =>
        simp only [step, digit, space, letter] at goes
        cases ending <;> cases goes

theorem leads_cons (state : ReaderState) (char : Char) (text : List Char) {ending : Ending}
    (goes : (state.step char >>= (run · text)) = ending.outcome)
    (onward : ∀ next : ReaderState, next.run text = ending.outcome → next.Leads text ending) :
    state.Leads (char :: text) ending := by
  rcases state with ⟨sum, begun, position, offset⟩
  cases position with
  | expecting start => exact leads_expecting sum begun start offset char text goes onward
  | number value =>
      intro small
      exact leads_number sum begun value offset char text small goes onward
  | fraction value digits blame =>
      intro fits
      exact leads_fraction sum begun value digits blame offset char text fits goes onward
  | unit value fraction letters =>
      exact leads_unit sum begun value fraction letters offset char text goes onward

/-- By induction on the text that is left: what one character does is known for each position. -/
theorem leads_of_run (text : List Char) {ending : Ending} (state : ReaderState)
    (goes : state.run text = ending.outcome) : state.Leads text ending := by
  induction text generalizing state with
  | nil => exact leads_nil state goes
  | cons char text inductionHypothesis =>
      rw [run_cons] at goes
      exact leads_cons state char text goes (fun next => inductionHypothesis next)

end Duration.ReaderState

namespace Duration

/-- Blanks alone are the error of the empty text. -/
theorem ofChars_blank {gap : List Char} (blank : ∀ char ∈ gap, Text.isWhitespace char = true) :
    ofChars gap = .error .empty := by
  have ⟨after, same⟩ := ReaderState.run_gap zero false [] blank 0 0
  rw [List.append_nil] at same
  exact same

/-- The reader's answers that are no errors of form or of range are the endings of the terms. -/
theorem ofChars_outcome_iff (chars : List Char) (ending : Ending) :
    ofChars chars = ending.outcome ↔
      (∃ char ∈ chars, Text.isWhitespace char = false) ∧ Adds zero chars ending := by
  constructor
  · intro goes
    apply And.intro
    · apply Classical.byContradiction
      intro invisible
      simp only [not_exists, not_and, Bool.not_eq_false] at invisible
      rw [ofChars_blank invisible] at goes
      cases ending <;> cases goes
    · exact ReaderState.leads_of_run chars ReaderState.initial goes
  · intro ⟨someTerm, adds⟩
    exact ReaderState.run_of_adds adds (Or.inr someTerm) 0 0

/-- A text whose terms carry past the last second. -/
def Overruns (text : String) : Prop :=
  Adds zero text.toList .overrun

/-- Carrying past the last second takes a term, and a term has a digit. -/
theorem exists_visible_of_overruns {text : String} (exceeds : Overruns text) :
    ∃ char ∈ text.toList, Text.isWhitespace char = false := by
  have opened (gap rest : List Char) (term : WrittenTerm) :
      ∃ char ∈ gap ++ (term.chars ++ rest), Text.isWhitespace char = false :=
    ⟨term.first, by simp [WrittenTerm.chars], not_blank_of_digit term.first_digit⟩
  unfold Overruns at exceeds
  generalize text.toList = chars at exceeds ⊢
  cases exceeds with
  | term blank term => exact opened _ _ term
  | overrun blank term => exact opened _ _ term

theorem ofText_overflow_iff (text : String) :
    ofText text = .error .secondsOverflow ↔ Overruns text := by
  have agreed := ofChars_outcome_iff text.toList .overrun
  exact agreed.trans (and_iff_right_of_imp exists_visible_of_overruns)

end Duration

end FaultDrill
