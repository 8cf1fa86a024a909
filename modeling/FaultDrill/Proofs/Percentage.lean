import FaultDrill.Proofs.Numeral.Decimal
import FaultDrill.Scenario

/-!
The grammar of percentages.

Owns:
- percentages as their parts: digits, perhaps a point and digits, a word, a percent sign;
- the numeral that a percentage begins with, which has all the digits that it can have.

Main statements: just the percentages are read, and what is not read is reported as it stands
(`readProbability_ok_iff`); the numeral found is the longest one (`longest_of_numeral?`).
-/

namespace FaultDrill

open Numeral (IsNumeralOf takeWhile_of_all)

/-- A percentage in its parts. A point need not have digits after it. -/
structure Percentage where
  whole : List Char
  fraction : Option (List Char)
  word : List Char
  nonempty : whole ≠ []
  isWhole : ∀ char ∈ whole, char.isDigit = true
  isFraction : ∀ digits, fraction = some digits → ∀ char ∈ digits, char.isDigit = true
  isWord : ∀ char ∈ word, Percentage.isWordChar char = true

namespace Percentage

/-- The digits of a percentage with their point. -/
def numeral (percentage : Percentage) : List Char :=
  match percentage.fraction with
  | none => percentage.whole
  | some digits => percentage.whole ++ '.' :: digits

/-- A percentage as a text. -/
def chars (percentage : Percentage) : List Char :=
  percentage.numeral ++ (percentage.word ++ ['%'])

/-- The word of a percentage leaves all digits to its numeral. -/
def Tight (percentage : Percentage) : Prop :=
  percentage.word.head?.all (!Char.isDigit ·) = true

/-! ## Words -/

theorem head?_dropWhile_isDigit (chars : List Char) :
    (chars.dropWhile Char.isDigit).head?.all (!Char.isDigit ·) = true := by
  have notDigit := List.head?_dropWhile_not Char.isDigit chars
  cases first : (chars.dropWhile Char.isDigit).head? with
  | none => rfl
  | some char =>
      rw [first] at notDigit
      simpa using notDigit

theorem isDigit_of_mem_takeWhile (chars : List Char) :
    ∀ char ∈ chars.takeWhile Char.isDigit, char.isDigit = true :=
  List.all_eq_true.mp List.all_takeWhile

theorem head?_word_percent {word : List Char}
    (tight : word.head?.all (!Char.isDigit ·) = true) :
    (word ++ ['%']).head?.all (!Char.isDigit ·) = true := by
  cases word with
  | nil => rfl
  | cons char word => exact tight

theorem dropWhile_word_percent {word : List Char}
    (isWord : ∀ char ∈ word, isWordChar char = true) :
    (word ++ ['%']).dropWhile isWordChar = ['%'] := by
  rw [List.dropWhile_append_of_pos isWord]
  decide

theorem exists_word {rest : List Char} (percent : rest.dropWhile isWordChar = ['%'])
    (ends : rest.head?.all (!Char.isDigit ·) = true) :
    ∃ word, rest = word ++ ['%'] ∧ (∀ char ∈ word, isWordChar char = true) ∧
      word.head?.all (!Char.isDigit ·) = true := by
  have parts : rest = rest.takeWhile isWordChar ++ ['%'] := by
    rw [← percent, List.takeWhile_append_dropWhile]
  refine ⟨rest.takeWhile isWordChar, parts, List.all_eq_true.mp List.all_takeWhile, ?_⟩
  rw [parts] at ends
  cases word : rest.takeWhile isWordChar with
  | nil => rfl
  | cons char more =>
      rw [word] at ends
      exact ends

theorem splitFraction_point (rest : List Char) :
    splitFraction ('.' :: rest) =
      ('.' :: rest.takeWhile Char.isDigit, rest.dropWhile Char.isDigit) :=
  rfl

theorem splitFraction_of_ne {rest : List Char} (noPoint : rest.head? ≠ some '.') :
    splitFraction rest = ([], rest) := by
  unfold splitFraction
  split
  · next more => exact absurd rfl noPoint
  · rfl

theorem head?_word_percent_ne {word : List Char}
    (isWord : ∀ char ∈ word, isWordChar char = true) : (word ++ ['%']).head? ≠ some '.' := by
  cases word with
  | nil => decide
  | cons char word =>
      rw [List.cons_append, List.head?_cons, ne_eq, Option.some.injEq]
      rintro rfl
      exact absurd (isWord '.' List.mem_cons_self) (by decide)

/-! ## Reading -/

/-- The numeral of a percentage is found if it has all digits that it can have. -/
theorem Tight.numeral?_chars {percentage : Percentage} (tight : percentage.Tight) :
    numeral? percentage.chars = some percentage.numeral := by
  obtain ⟨whole, fraction, word, nonempty, isWhole, isFraction, isWord⟩ := percentage
  have ends : (word ++ ['%']).head?.all (!Char.isDigit ·) = true := head?_word_percent tight
  unfold numeral? chars numeral
  cases fraction with
  | none =>
      have wholeParts := takeWhile_of_all isWhole _ ends
      dsimp only
      rw [wholeParts.1, wholeParts.2, splitFraction_of_ne (head?_word_percent_ne isWord)]
      dsimp only
      rw [dropWhile_word_percent isWord, if_pos ⟨nonempty, rfl⟩, List.append_nil]
  | some digits =>
      have wholeParts := takeWhile_of_all isWhole ('.' :: (digits ++ (word ++ ['%']))) rfl
      have fractionParts := takeWhile_of_all (isFraction digits rfl) _ ends
      dsimp only
      rw [List.append_assoc, List.cons_append, wholeParts.1, wholeParts.2, splitFraction_point,
        fractionParts.1, fractionParts.2]
      dsimp only
      rw [dropWhile_word_percent isWord, if_pos ⟨nonempty, rfl⟩]

/-- Every percentage can be taken apart so that its numeral has all digits that it can have. -/
theorem exists_tight (percentage : Percentage) :
    ∃ tight : Percentage, tight.chars = percentage.chars ∧ tight.Tight ∧
      (tight.fraction = some [] → percentage.fraction = some []) := by
  obtain ⟨whole, fraction, word, nonempty, isWhole, isFraction, isWord⟩ := percentage
  have isDigit := isDigit_of_mem_takeWhile word
  have isRest : ∀ char ∈ word.dropWhile Char.isDigit, isWordChar char = true :=
    fun char member => isWord char ((List.dropWhile_sublist _).subset member)
  have parts : word = word.takeWhile Char.isDigit ++ word.dropWhile Char.isDigit :=
    List.takeWhile_append_dropWhile.symm
  have tight := head?_dropWhile_isDigit word
  generalize word.takeWhile Char.isDigit = more at *
  generalize word.dropWhile Char.isDigit = rest at *
  subst parts
  cases fraction with
  | none =>
      refine ⟨⟨whole ++ more, none, rest, by simp [nonempty], ?_, nofun, isRest⟩, ?_, tight,
        nofun⟩
      · exact List.forall_mem_append.mpr ⟨isWhole, isDigit⟩
      · unfold chars numeral
        simp
  | some digits =>
      refine ⟨⟨whole, some (digits ++ more), rest, nonempty, isWhole, ?_, isRest⟩, ?_, tight, ?_⟩
      · rintro _ ⟨⟩
        exact List.forall_mem_append.mpr ⟨isFraction digits rfl, isDigit⟩
      · unfold chars numeral
        simp
      · intro none
        rw [Option.some.injEq, List.append_eq_nil_iff] at none
        exact congrArg some none.1

/-- A numeral is found in percentages only. -/
theorem exists_of_numeral? {text spelling : List Char} (found : numeral? text = some spelling) :
    ∃ percentage : Percentage, percentage.chars = text ∧ percentage.Tight ∧
      percentage.numeral = spelling := by
  unfold numeral? at found
  dsimp only at found
  split at found
  case isFalse => cases found
  case isTrue accepted =>
    obtain ⟨nonempty, percent⟩ := accepted
    have isWhole := isDigit_of_mem_takeWhile text
    have parts : text = text.takeWhile Char.isDigit ++ text.dropWhile Char.isDigit :=
      List.takeWhile_append_dropWhile.symm
    have ends := head?_dropWhile_isDigit text
    generalize text.takeWhile Char.isDigit = whole at *
    generalize text.dropWhile Char.isDigit = after at *
    by_cases point : after.head? = some '.'
    · obtain ⟨fraction, rfl⟩ := List.head?_eq_some_iff.mp point
      rw [splitFraction_point] at found percent
      obtain ⟨word, rest, isWord, tight⟩ := exists_word percent
        (head?_dropWhile_isDigit fraction)
      refine ⟨⟨whole, some (fraction.takeWhile Char.isDigit), word, nonempty, isWhole, ?_,
        isWord⟩, ?_, tight, Option.some.inj found⟩
      · rintro _ ⟨⟩
        exact isDigit_of_mem_takeWhile fraction
      · unfold chars numeral
        dsimp only at rest ⊢
        rw [← rest, List.append_assoc, List.cons_append, List.takeWhile_append_dropWhile, parts]
    · rw [splitFraction_of_ne point] at found percent
      obtain ⟨word, rest, isWord, tight⟩ := exists_word percent ends
      dsimp only at rest found
      rw [List.append_nil, Option.some.injEq] at found
      refine ⟨⟨whole, none, word, nonempty, isWhole, nofun, isWord⟩, ?_, tight, found⟩
      rw [parts, rest]
      rfl

/-- Just the percentages have a numeral that is found. -/
theorem exists_numeral?_iff (text : List Char) :
    (∃ spelling, numeral? text = some spelling) ↔
      ∃ percentage : Percentage, percentage.chars = text := by
  constructor
  · rintro ⟨spelling, found⟩
    obtain ⟨percentage, same, -, -⟩ := exists_of_numeral? found
    exact ⟨percentage, same⟩
  · rintro ⟨percentage, rfl⟩
    obtain ⟨tight, same, isTight, -⟩ := percentage.exists_tight
    rw [← same]
    exact ⟨_, isTight.numeral?_chars⟩

/-! ## Points without digits -/

/-- There are digits after the point of a percentage, if it has one. -/
def Complete (percentage : Percentage) : Prop :=
  percentage.fraction ≠ some []

theorem fraction_of_numeral {first second : Percentage} (same : first.numeral = second.numeral)
    (bare : first.fraction = some []) : second.fraction = some [] := by
  obtain ⟨whole, fraction, word, nonempty, isWhole, isFraction, isWord⟩ := second
  have last : first.numeral.getLast? = some '.' := by
    unfold numeral
    rw [bare]
    exact List.getLast?_concat
  rw [same] at last
  unfold numeral at last
  cases fraction with
  | none => exact absurd (isWhole '.' (List.mem_of_getLast? last)) (by decide)
  | some digits =>
      cases digits with
      | nil => rfl
      | cons digit digits =>
          dsimp only at last
          rw [List.getLast?_append, List.getLast?_cons_cons, List.getLast?_cons,
            Option.some_or, ← List.getLast?_cons] at last
          exact absurd (isFraction _ rfl '.' (List.mem_of_getLast? last)) (by decide)

/-- A text is a percentage with digits after its point, unless the point of it is one without. -/
theorem exists_complete_iff (text : List Char) :
    (∃ percentage : Percentage, percentage.Complete ∧ percentage.chars = text) ↔
      (∃ percentage : Percentage, percentage.chars = text) ∧
        ¬ ∃ percentage : Percentage, percentage.Tight ∧ percentage.fraction = some [] ∧
          percentage.chars = text := by
  constructor
  · rintro ⟨percentage, complete, rfl⟩
    refine ⟨⟨percentage, rfl⟩, ?_⟩
    rintro ⟨bare, isTight, noDigits, same⟩
    obtain ⟨tight, sameText, alsoTight, back⟩ := percentage.exists_tight
    have found := isTight.numeral?_chars
    rw [same, ← sameText, alsoTight.numeral?_chars, Option.some.injEq] at found
    exact complete (back (fraction_of_numeral found.symm noDigits))
  · rintro ⟨⟨percentage, rfl⟩, notBare⟩
    obtain ⟨tight, sameText, isTight, -⟩ := percentage.exists_tight
    exact ⟨tight, fun noDigits => notBare ⟨tight, isTight, noDigits, sameText⟩, sameText⟩

/-! ## Longest numerals -/

/-- The longest numeral that a text begins with, and the number that it spells. -/
structure LongestNumeral (text spelling : List Char) (number : ℚ) : Prop where
  spells : IsNumeralOf spelling number
  begins : spelling <+: text
  longest : ∀ other otherNumber, IsNumeralOf other otherNumber → other <+: text →
    other <+: spelling

theorem LongestNumeral.unique {text first second : List Char} {firstNumber secondNumber : ℚ}
    (isFirst : LongestNumeral text first firstNumber)
    (isSecond : LongestNumeral text second secondNumber) :
    first = second ∧ firstNumber = secondNumber := by
  have within := isSecond.longest first _ isFirst.spells isFirst.begins
  have around := isFirst.longest second _ isSecond.spells isSecond.begins
  have same : first = second := within.eq_of_length (le_antisymm within.length_le around.length_le)
  subst same
  exact ⟨rfl, isFirst.spells.unique isSecond.spells⟩

theorem exists_isNumeralOf (percentage : Percentage) :
    ∃ number, IsNumeralOf percentage.numeral number := by
  obtain ⟨whole, fraction, word, nonempty, isWhole, isFraction, isWord⟩ := percentage
  cases fraction with
  | none => exact ⟨_, IsNumeralOf.whole nonempty isWhole⟩
  | some digits => exact ⟨_, IsNumeralOf.pointed nonempty isWhole (isFraction digits rfl)⟩

theorem isDigit_or_point {spelling : List Char} {number : ℚ}
    (spells : IsNumeralOf spelling number) :
    ∀ char ∈ spelling, char.isDigit = true ∨ char = '.' := by
  intro char member
  cases spells with
  | whole _ isDigit => exact Or.inl (isDigit char member)
  | pointed _ isWhole isFraction =>
      rcases List.mem_append.mp member with inWhole | inRest
      · exact Or.inl (isWhole char inWhole)
      · rcases List.mem_cons.mp inRest with point | inFraction
        · exact Or.inr point
        · exact Or.inl (isFraction char inFraction)

/-- A numeral with all the digits that it can have is the longest one. -/
theorem Tight.longest {percentage : Percentage} (tight : percentage.Tight) {other : List Char}
    {number : ℚ} (spells : IsNumeralOf other number) (begins : other <+: percentage.chars) :
    other <+: percentage.numeral := by
  rcases List.prefix_or_prefix_of_prefix begins (List.prefix_append _ _) with within | around
  · exact within
  · obtain ⟨more, rfl⟩ := around
    cases more with
    | nil => rw [List.append_nil]
    | cons char more =>
        -- The next character would have to be a digit or a point.
        have next : (percentage.word ++ ['%']).head? = some char := by
          obtain ⟨rest, same⟩ := (List.prefix_append_right_inj _).mp begins
          rw [← same]
          rfl
        have notDigit := head?_word_percent tight
        rw [next] at notDigit
        have notPoint := head?_word_percent_ne percentage.isWord
        rw [next, ne_eq, Option.some.injEq] at notPoint
        rcases isDigit_or_point spells char (by simp) with digit | point
        · rw [Option.all_some, digit] at notDigit
          cases notDigit
        · exact absurd point notPoint

/-- The numeral that is found is the longest one. -/
theorem longest_of_numeral? {text spelling : List Char} (found : numeral? text = some spelling) :
    ∃ number, LongestNumeral text spelling number := by
  obtain ⟨percentage, rfl, tight, rfl⟩ := exists_of_numeral? found
  obtain ⟨number, spells⟩ := percentage.exists_isNumeralOf
  exact ⟨number, spells, List.prefix_append _ _, fun _ _ => tight.longest⟩

theorem LongestNumeral.of_numeral? {text spelling : List Char} {number : ℚ}
    (found : numeral? text = some spelling) (spells : IsNumeralOf spelling number) :
    LongestNumeral text spelling number := by
  obtain ⟨other, longest⟩ := longest_of_numeral? found
  rw [spells.unique longest.spells]
  exact longest

end Percentage

/-! ## Probabilities -/

namespace Probability

open Numeral (binary32)

/-- The numeral of a percentage always has a value. -/
theorem exists_percents {text spelling : List Char}
    (found : Percentage.numeral? text = some spelling) :
    ∃ number percents, Percentage.LongestNumeral text spelling number ∧
      binary32.ofNumeral? spelling = some percents ∧ binary32.RoundsTo number percents := by
  obtain ⟨number, longest⟩ := Percentage.longest_of_numeral? found
  obtain ⟨percents, read, rounds⟩ :=
    longest.spells.exists_ofNumeral? Numeral.BinaryFormat.proper_binary32
  exact ⟨number, percents, longest, read, rounds⟩

theorem ofText?_of_numeral? {text : String} {spelling : List Char}
    {percents : Numeral.BinaryValue} (found : Percentage.numeral? text.toList = some spelling)
    (read : binary32.ofNumeral? spelling = some percents) :
    ofText? text = some ⟨hundredth percents⟩ := by
  unfold ofText?
  rw [found, Option.bind_eq_bind, Option.bind_some, read]
  rfl

theorem numeral?_of_ofText? {text : String} {probability : Probability}
    (spelled : ofText? text = some probability) :
    ∃ spelling, Percentage.numeral? text.toList = some spelling := by
  cases found : Percentage.numeral? text.toList with
  | none =>
      unfold ofText? at spelled
      rw [found] at spelled
      cases spelled
  | some spelling => exact ⟨spelling, rfl⟩

end Probability

theorem exists_readProbability_iff (text : String) :
    (∃ probability, readProbability text = .ok probability) ↔
      ∃ percentage : Percentage, percentage.chars = text.toList := by
  rw [← Percentage.exists_numeral?_iff]
  unfold readProbability
  constructor
  · rintro ⟨probability, read⟩
    cases spelled : Probability.ofText? text with
    | none =>
        rw [spelled] at read
        cases read
    | some probability => exact Probability.numeral?_of_ofText? spelled
  · rintro ⟨spelling, found⟩
    obtain ⟨-, percents, -, read, -⟩ := Probability.exists_percents found
    rw [Probability.ofText?_of_numeral? found read]
    exact ⟨_, rfl⟩

/-- Texts are read as probabilities exactly if they are percentages, and are reported as they stand
otherwise. Percentages are told from the texts with digits after every point by those that have a
point and no digits after it. -/
theorem readProbability_ok_iff (text : String) :
    ((∃ probability, readProbability text = .ok probability) ∨
        readProbability text = .error (.probability text)) ∧
      ((∃ probability, readProbability text = .ok probability) ↔
        ∃ percentage : Percentage, percentage.chars = text.toList) ∧
      ((∃ percentage : Percentage, percentage.Complete ∧ percentage.chars = text.toList) ↔
        (∃ probability, readProbability text = .ok probability) ∧
          ¬ ∃ percentage : Percentage, percentage.Tight ∧ percentage.fraction = some [] ∧
            percentage.chars = text.toList) := by
  refine ⟨?_, exists_readProbability_iff text, ?_⟩
  · unfold readProbability
    cases Probability.ofText? text with
    | none => exact Or.inr rfl
    | some probability => exact Or.inl ⟨probability, rfl⟩
  · rw [exists_readProbability_iff]
    exact Percentage.exists_complete_iff text.toList

/-- The percentage of a digit and a point. -/
def barePercentage : Percentage where
  whole := ['5']
  fraction := some []
  word := []
  nonempty := by decide
  isWhole := List.all_eq_true.mp rfl
  isFraction := by
    rintro _ ⟨⟩
    exact List.all_eq_true.mp rfl
  isWord := List.all_eq_true.mp rfl

/-- A point without digits after it is read, though it has no place in the grammar that asks for
them. -/
theorem readProbability_bare_point :
    (∃ probability, readProbability "5.%" = .ok probability) ∧
      ¬ ∃ percentage : Percentage, percentage.Complete ∧ percentage.chars = "5.%".toList := by
  have text : barePercentage.chars = "5.%".toList := by decide
  refine ⟨(exists_readProbability_iff _).mpr ⟨barePercentage, text⟩, ?_⟩
  rw [Percentage.exists_complete_iff]
  rintro ⟨-, notBare⟩
  exact notBare ⟨barePercentage, rfl, rfl, text⟩

end FaultDrill
