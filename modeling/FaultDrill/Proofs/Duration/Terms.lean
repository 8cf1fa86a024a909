import FaultDrill.Proofs.Duration.Sum
import Mathlib.Algebra.Group.Nat.Defs

/-!
Texts of lengths of time as sequences of written terms.

Owns:
- the shape of one written term, with the number, the fraction and the unit that it spells;
- the two ways in which a sequence of such terms can end: with a sum, or by carrying past the last
  second;
- what may follow each part of a term, and how a part grows by one character at its front.

Does not own: which additions carry past the last second (`Proofs.Duration.Sum`); the reader
(`Proofs.Duration.Reader`).

Main statement: a digit, with what completes its term behind it, begins a text of terms
(`Adds.of_digit`).
-/

namespace FaultDrill

namespace Duration

/-! ## Digits among blanks -/

/-- A digit, or a blank as it may stand after a digit. -/
def isSpacedDigit (char : Char) : Bool :=
  char.isDigit || Text.isWhitespace char

/-- The number that further digits, with blanks among them, make of one written before them. -/
def spelled (before : Nat) (chars : List Char) : Nat :=
  Nat.ofDigitChars 10 (chars.filter Char.isDigit) before

theorem spelled_digit {char : Char} (digit : char.isDigit = true) (before : Nat)
    (chars : List Char) :
    spelled before (char :: chars) = spelled (before * 10 + digitValue char) chars := by
  unfold spelled
  rw [List.filter_cons_of_pos digit, Nat.ofDigitChars_cons, Nat.mul_comm]
  rfl

theorem spelled_blank {char : Char} (noDigit : char.isDigit = false) (before : Nat)
    (chars : List Char) : spelled before (char :: chars) = spelled before chars := by
  unfold spelled
  rw [List.filter_cons_of_neg (by simp [noDigit])]

theorem le_spelled (before : Nat) (chars : List Char) : before ≤ spelled before chars := by
  unfold spelled
  rw [Nat.ofDigitChars_eq_ofDigitChars_zero]
  exact Nat.le_add_right_of_le (Nat.le_mul_of_pos_left before (Nat.pow_pos (by decide)))

/-- The number of digits among blanks. -/
def places (chars : List Char) : Nat :=
  (chars.filter Char.isDigit).length

end Duration

/-- A fraction with further digits, with blanks among them. -/
def DecimalFraction.extended (fraction : DecimalFraction) (chars : List Char) : DecimalFraction :=
  ⟨Duration.spelled fraction.numerator chars, fraction.denominator * 10 ^ Duration.places chars⟩

/-- Both numbers of a fraction fit into 64 bits. -/
structure DecimalFraction.Fits (fraction : DecimalFraction) : Prop where
  numerator_lt : fraction.numerator < wordLimit
  denominator_lt : fraction.denominator < wordLimit

namespace Duration

theorem extended_nil (fraction : DecimalFraction) : fraction.extended [] = fraction := by
  simp [DecimalFraction.extended, spelled, places]

theorem extended_digit {char : Char} (digit : char.isDigit = true) (fraction : DecimalFraction)
    (chars : List Char) :
    fraction.extended (char :: chars) =
      DecimalFraction.extended
        ⟨fraction.numerator * 10 + digitValue char, fraction.denominator * 10⟩ chars := by
  unfold DecimalFraction.extended places
  rw [spelled_digit digit, List.filter_cons_of_pos digit, List.length_cons, Nat.pow_succ']
  simp only [Nat.mul_assoc]

theorem extended_blank {char : Char} (noDigit : char.isDigit = false) (fraction : DecimalFraction)
    (chars : List Char) : fraction.extended (char :: chars) = fraction.extended chars := by
  unfold DecimalFraction.extended places
  rw [spelled_blank noDigit, List.filter_cons_of_neg (by simp [noDigit])]

/-- A longer fraction has the larger numbers. -/
theorem fits_of_extended {fraction : DecimalFraction} {chars : List Char}
    (fits : (fraction.extended chars).Fits) : fraction.Fits where
  numerator_lt := Nat.lt_of_le_of_lt (le_spelled _ chars) fits.numerator_lt
  denominator_lt := by
    have grown : fraction.denominator ≤ fraction.denominator * 10 ^ places chars :=
      Nat.le_mul_of_pos_right _ (Nat.pow_pos (by decide))
    exact Nat.lt_of_le_of_lt grown fits.denominator_lt

/-! ## Kinds of characters -/

theorem digit_bounds {char : Char} (digit : char.isDigit = true) :
    48 ≤ char.toNat ∧ char.toNat ≤ 57 := by
  simp only [Char.isDigit, Bool.and_eq_true, decide_eq_true_eq, ge_iff_le,
    UInt32.le_iff_toNat_le] at digit
  exact digit

theorem digitValue_lt {char : Char} (digit : char.isDigit = true) :
    digitValue char < wordLimit := by
  have high := (digit_bounds digit).2
  unfold digitValue wordLimit
  omega

theorem not_blank_of_digit {char : Char} (digit : char.isDigit = true) :
    Text.isWhitespace char = false := by
  have bounds := digit_bounds digit
  simp [Text.isWhitespace]
  omega

theorem not_digit_of_blank {char : Char} (blank : Text.isWhitespace char = true) :
    char.isDigit = false := by
  apply Bool.eq_false_iff.mpr
  intro digit
  rw [not_blank_of_digit digit] at blank
  contradiction

theorem spaced_of_digit {char : Char} (digit : char.isDigit = true) :
    isSpacedDigit char = true := by
  rw [isSpacedDigit, digit, Bool.true_or]

theorem spaced_of_blank {char : Char} (blank : Text.isWhitespace char = true) :
    isSpacedDigit char = true := by
  rw [isSpacedDigit, blank, Bool.or_true]

theorem digit_or_blank {char : Char} (spaced : isSpacedDigit char = true) :
    char.isDigit = true ∨ Text.isWhitespace char = true := by
  unfold isSpacedDigit at spaced
  exact (Bool.or_eq_true _ _).mp spaced

theorem unitLetter_bounds {char : Char} (letter : isUnitLetter char = true) :
    65 ≤ char.toNat ∧ char.toNat ≤ 122 ∨ char.toNat = 181 := by
  unfold isUnitLetter Char.isAlpha Char.isUpper Char.isLower at letter
  simp only [Bool.or_eq_true, Bool.and_eq_true, decide_eq_true_eq, beq_iff_eq, ge_iff_le,
    UInt32.le_iff_toNat_le] at letter
  rcases letter with (⟨low, high⟩ | ⟨low, high⟩) | rfl
  · exact Or.inl ⟨low, Nat.le_trans high (by decide)⟩
  · exact Or.inl ⟨Nat.le_trans (by decide) low, high⟩
  · exact Or.inr rfl

theorem not_digit_of_unitLetter {char : Char} (letter : isUnitLetter char = true) :
    char.isDigit = false := by
  apply Bool.eq_false_iff.mpr
  intro digit
  have high := (digit_bounds digit).2
  have bounds := unitLetter_bounds letter
  omega

theorem not_blank_of_unitLetter {char : Char} (letter : isUnitLetter char = true) :
    Text.isWhitespace char = false := by
  have bounds := unitLetter_bounds letter
  simp [Text.isWhitespace]
  omega

/-! ## Written terms -/

/-- A number, with a fraction or without, and the letters of a unit. Blanks may stand after each
digit and after the decimal point. -/
structure WrittenTerm where
  first : Char
  more : List Char
  decimals : Option (List Char)
  letters : List Char
  first_digit : first.isDigit = true
  more_spaced : ∀ char ∈ more, isSpacedDigit char = true
  number_lt : spelled 0 (first :: more) < wordLimit
  decimals_spaced : ∀ digits ∈ decimals, ∀ char ∈ digits, isSpacedDigit char = true
  decimals_places : ∀ digits ∈ decimals, 0 < places digits
  decimals_fit : ∀ digits ∈ decimals, (DecimalFraction.extended ⟨0, 1⟩ digits).Fits
  letters_ne : letters ≠ []
  letters_unit : ∀ char ∈ letters, isUnitLetter char = true

namespace WrittenTerm

/-- The characters of a term. -/
def chars (term : WrittenTerm) : List Char :=
  term.first :: (term.more ++ (term.decimals.elim [] ('.' :: ·) ++ term.letters))

/-- The whole number of a term. -/
def number (term : WrittenTerm) : Nat := spelled 0 (term.first :: term.more)

/-- The fraction of a term. -/
def fraction? (term : WrittenTerm) : Option DecimalFraction :=
  term.decimals.map (DecimalFraction.extended ⟨0, 1⟩)

/-- The unit of a term as it is written. -/
def unitText (term : WrittenTerm) : String := String.ofList term.letters

/-- A fraction that is written has digits. -/
theorem extended_ne (term : WrittenTerm) (digits : List Char) (written : digits ∈ term.decimals) :
    (DecimalFraction.extended ⟨0, 1⟩ digits).denominator ≠ 1 := by
  have somePlaces := term.decimals_places digits written
  have power := Nat.one_lt_pow (Nat.ne_of_gt somePlaces) (by decide : 1 < 10)
  simp only [DecimalFraction.extended, Nat.one_mul]
  omega

end WrittenTerm

/-- How the terms of a text can end. -/
inductive Ending where
  /-- All terms are added up. -/
  | total (sum : Duration)
  /-- Some term carries past the last second. -/
  | overrun
  deriving DecidableEq, Repr

/-- The reader's answer for an ending. -/
def Ending.outcome : Ending → Except DurationError Duration
  | .total sum => .ok sum
  | .overrun => .error .secondsOverflow

/-- The text could not go on with another letter of a unit: it is at its end, or goes on with a
digit or a blank. -/
def Parted (chars : List Char) : Prop :=
  ∀ char ∈ chars.head?, isSpacedDigit char = true

/-- The terms of a text, added to a sum one after the other, end in some way. What stands behind a
term that carries past the last second does not matter. -/
inductive Adds : Duration → List Char → Ending → Prop where
  | blank {sum : Duration} {gap : List Char}
      (blank : ∀ char ∈ gap, Text.isWhitespace char = true) : Adds sum gap (.total sum)
  | term {sum next : Duration} {gap rest : List Char} {ending : Ending}
      (blank : ∀ char ∈ gap, Text.isWhitespace char = true) (term : WrittenTerm)
      (added : sum.addTerm term.number term.fraction? term.unitText = .ok next)
      (later : Adds next rest ending) : Adds sum (gap ++ (term.chars ++ rest)) ending
  | overrun {sum : Duration} {gap rest : List Char} {unit : TimeUnit}
      (blank : ∀ char ∈ gap, Text.isWhitespace char = true) (term : WrittenTerm)
      (named : TimeUnit.ofText? term.unitText = some unit)
      (exceeds : sum.TermOverrun term.number term.fraction? unit)
      (parted : Parted rest) : Adds sum (gap ++ (term.chars ++ rest)) .overrun

/-- A text of terms begins with a blank or with the first digit of a term, if it is not empty. -/
theorem Adds.parted {sum : Duration} {text : List Char} {ending : Ending}
    (adds : Adds sum text ending) : Parted text := by
  have opens : ∀ (gap rest : List Char) (first : Char),
      (∀ char ∈ gap, Text.isWhitespace char = true) → first.isDigit = true →
        Parted (gap ++ first :: rest) := by
    intro gap rest first blank digit char head
    cases gap with
    | nil =>
        cases head
        exact spaced_of_digit digit
    | cons before gap =>
        have space := blank before List.mem_cons_self
        cases head
        exact spaced_of_blank space
  cases adds with
  | blank blank =>
      intro char head
      exact spaced_of_blank (blank char (List.mem_of_mem_head? head))
  | term blank term => exact opens _ _ _ blank term.first_digit
  | overrun blank term => exact opens _ _ _ blank term.first_digit

/-! ## What may follow a position -/

/-- What a term with its last letter read does to a sum, before the rest of a text. -/
inductive Ends (sum : Duration) (value : Nat) (fraction : Option DecimalFraction)
    (letters rest : List Char) : Ending → Prop where
  | added {next : Duration} {ending : Ending}
      (added : sum.addTerm value fraction (String.ofList letters) = .ok next)
      (later : Adds next rest ending) : Ends sum value fraction letters rest ending
  | overrun (exceeds : sum.addTerm value fraction (String.ofList letters) = .error .secondsOverflow)
      (parted : Parted rest) : Ends sum value fraction letters rest .overrun

/-- Letters that complete a unit, and the rest of a text. -/
inductive AfterLetters (sum : Duration) (value : Nat) (fraction : Option DecimalFraction)
    (letters : List Char) : List Char → Ending → Prop where
  | intro {more rest : List Char} {ending : Ending}
      (unit : ∀ char ∈ more, isUnitLetter char = true)
      (ends : Ends sum value fraction (letters ++ more) rest ending) :
      AfterLetters sum value fraction letters (more ++ rest) ending

/-- Digits that complete a fraction, a unit, and the rest of a text. -/
inductive AfterPoint (sum : Duration) (value : Nat) (digits : DecimalFraction) :
    List Char → Ending → Prop where
  | intro {decimals rest : List Char} {ending : Ending}
      (spaced : ∀ char ∈ decimals, isSpacedDigit char = true)
      (fits : (digits.extended decimals).Fits)
      (someDigits : (digits.extended decimals).denominator ≠ 1)
      (unit : AfterLetters sum value (some (digits.extended decimals)) [] rest ending) :
      AfterPoint sum value digits (decimals ++ rest) ending

/-- Digits that complete a whole number, a fraction or none, a unit, and the rest of a text. -/
inductive AfterDigits (sum : Duration) (value : Nat) : List Char → Ending → Prop where
  | whole {more rest : List Char} {ending : Ending}
      (spaced : ∀ char ∈ more, isSpacedDigit char = true)
      (small : spelled value more < wordLimit)
      (unit : AfterLetters sum (spelled value more) none [] rest ending) :
      AfterDigits sum value (more ++ rest) ending
  | point {more rest : List Char} {ending : Ending}
      (spaced : ∀ char ∈ more, isSpacedDigit char = true)
      (small : spelled value more < wordLimit)
      (fraction : AfterPoint sum (spelled value more) ⟨0, 1⟩ rest ending) :
      AfterDigits sum value (more ++ '.' :: rest) ending

variable {sum : Duration} {value : Nat} {fraction : Option DecimalFraction}
  {digits : DecimalFraction} {letters text : List Char} {char : Char} {ending : Ending}

/-- Every unit has letters. -/
theorem Ends.letters_ne (ends : Ends sum value fraction letters text ending) : letters ≠ [] := by
  rintro rfl
  have nameless : sum.addTerm value fraction (String.ofList []) =
      .error (.unknownUnit (String.ofList []) value) := rfl
  cases ends with
  | added added =>
      rw [nameless] at added
      cases added
  | overrun exceeds =>
      rw [nameless] at exceeds
      cases exceeds

theorem AfterLetters.of_ends (ends : Ends sum value fraction letters text ending) :
    AfterLetters sum value fraction letters text ending := by
  apply AfterLetters.intro (List.forall_mem_nil _)
  rwa [List.append_nil]

theorem AfterLetters.letter (letter : isUnitLetter char = true)
    (after : AfterLetters sum value fraction (letters ++ [char]) text ending) :
    AfterLetters sum value fraction letters (char :: text) ending := by
  cases after with
  | intro unit ends =>
      apply AfterLetters.intro (List.forall_mem_cons.mpr ⟨letter, unit⟩)
      rwa [List.append_cons]

theorem AfterPoint.of_letters (fits : digits.Fits) (someDigits : digits.denominator ≠ 1)
    (after : AfterLetters sum value (some digits) [] text ending) :
    AfterPoint sum value digits text ending := by
  rw [← extended_nil digits] at fits someDigits after
  exact AfterPoint.intro (List.forall_mem_nil _) fits someDigits after

theorem AfterPoint.digit (digit : char.isDigit = true)
    (after : AfterPoint sum value
      ⟨digits.numerator * 10 + digitValue char, digits.denominator * 10⟩ text ending) :
    AfterPoint sum value digits (char :: text) ending := by
  cases after with
  | intro spaced fits someDigits unit =>
      rw [← extended_digit digit] at fits someDigits unit
      exact AfterPoint.intro (List.forall_mem_cons.mpr ⟨spaced_of_digit digit, spaced⟩)
        fits someDigits unit

theorem AfterPoint.blank (space : Text.isWhitespace char = true)
    (after : AfterPoint sum value digits text ending) :
    AfterPoint sum value digits (char :: text) ending := by
  cases after with
  | intro spaced fits someDigits unit =>
      rw [← extended_blank (not_digit_of_blank space)] at fits someDigits unit
      exact AfterPoint.intro (List.forall_mem_cons.mpr ⟨spaced_of_blank space, spaced⟩)
        fits someDigits unit

theorem AfterDigits.of_letters (small : value < wordLimit)
    (after : AfterLetters sum value none [] text ending) : AfterDigits sum value text ending :=
  AfterDigits.whole (List.forall_mem_nil _) small after

theorem AfterDigits.of_point (small : value < wordLimit)
    (after : AfterPoint sum value ⟨0, 1⟩ text ending) :
    AfterDigits sum value ('.' :: text) ending :=
  AfterDigits.point (List.forall_mem_nil _) small after

theorem AfterDigits.digit (digit : char.isDigit = true)
    (after : AfterDigits sum (value * 10 + digitValue char) text ending) :
    AfterDigits sum value (char :: text) ending := by
  have spaced := spaced_of_digit digit
  cases after with
  | whole others small unit =>
      rw [← spelled_digit digit] at small unit
      exact AfterDigits.whole (List.forall_mem_cons.mpr ⟨spaced, others⟩) small unit
  | point others small fraction =>
      rw [← spelled_digit digit] at small fraction
      exact AfterDigits.point (List.forall_mem_cons.mpr ⟨spaced, others⟩) small fraction

theorem AfterDigits.blank (space : Text.isWhitespace char = true)
    (after : AfterDigits sum value text ending) :
    AfterDigits sum value (char :: text) ending := by
  have spaced := spaced_of_blank space
  cases after with
  | whole others small unit =>
      rw [← spelled_blank (not_digit_of_blank space)] at small unit
      exact AfterDigits.whole (List.forall_mem_cons.mpr ⟨spaced, others⟩) small unit
  | point others small fraction =>
      rw [← spelled_blank (not_digit_of_blank space)] at small fraction
      exact AfterDigits.point (List.forall_mem_cons.mpr ⟨spaced, others⟩) small fraction

theorem Adds.of_blank (space : Text.isWhitespace char = true) (adds : Adds sum text ending) :
    Adds sum (char :: text) ending := by
  cases adds with
  | blank blank => exact Adds.blank (List.forall_mem_cons.mpr ⟨space, blank⟩)
  | term blank term added later =>
      exact Adds.term (List.forall_mem_cons.mpr ⟨space, blank⟩) term added later
  | overrun blank term named exceeds parted =>
      exact Adds.overrun (List.forall_mem_cons.mpr ⟨space, blank⟩) term named exceeds parted

theorem Adds.of_ends (term : WrittenTerm)
    (ends : Ends sum term.number term.fraction? term.letters text ending) :
    Adds sum (term.chars ++ text) ending := by
  cases ends with
  | added added later => exact Adds.term (List.forall_mem_nil _) term added later
  | overrun exceeds parted =>
      have ⟨unit, named, carries⟩ := (sum.addTerm_overflow_iff ..).mp exceeds
      exact Adds.overrun (List.forall_mem_nil _) term named carries parted

/-- A digit begins a term, which the digits, the fraction and the letters behind it complete. -/
theorem Adds.of_digit (digit : char.isDigit = true)
    (after : AfterDigits sum (digitValue char) text ending) : Adds sum (char :: text) ending := by
  have number (more : List Char) : spelled (digitValue char) more = spelled 0 (char :: more) := by
    rw [spelled_digit digit, Nat.zero_mul, Nat.zero_add]
  cases after with
  | @whole more rest ending spaced small unit =>
      rw [number] at small unit
      cases unit with
      | @intro letters rest ending unit ends =>
          have complete := Adds.of_ends
            ⟨char, more, none, letters, digit, spaced, small, by simp, by simp, by simp,
              ends.letters_ne, unit⟩ ends
          simpa [WrittenTerm.chars] using complete
  | @point more rest ending spaced small fraction =>
      rw [number] at small fraction
      cases fraction with
      | @intro decimals rest ending others fits someDigits unit =>
          have somePlaces : 0 < places decimals := by
            apply Nat.pos_of_ne_zero
            intro no_places
            simp [DecimalFraction.extended, no_places] at someDigits
          cases unit with
          | @intro letters rest ending unit ends =>
              have complete := Adds.of_ends
                ⟨char, more, some decimals, letters, digit, spaced, small, by simpa using others,
                  by simpa using somePlaces, by simpa using fits, ends.letters_ne, unit⟩ ends
              simpa [WrittenTerm.chars] using complete

end Duration

end FaultDrill
