import FaultDrill.Proofs.Duration.Reader
import FaultDrill.Scenario
import Mathlib.Algebra.BigOperators.Group.List.Basic
import Mathlib.Algebra.Ring.Nat

/-!
Lengths of time are the exact sums of their terms.

Owns:
- additions that stay below the last second, and what they come to;
- texts of whole terms with blanks between them, and the sum that such a text stands for.

Does not own: fractions, and additions that fail (`Proofs.Duration.Sum`).

Main statement: a text of whole terms is read as their exact sum, in whatever order the terms stand
and however they are spaced (`readDuration_exact`).
-/

namespace FaultDrill

/-- The length of one of a unit, in nanoseconds. -/
def TimeUnit.nanoseconds : TimeUnit → Nat
  | .nanosecond => 1
  | .microsecond => 1000
  | .millisecond => 1000000
  | .second => 1000000000
  | .minute => 60 * 1000000000
  | .hour => 60 * 60 * 1000000000
  | .day => 24 * 60 * 60 * 1000000000
  | .week => 7 * 24 * 60 * 60 * 1000000000
  | .month => 2630016 * 1000000000
  | .year => 31557600 * 1000000000

/-- A unit is measured in nanoseconds if it is shorter than a second, and in seconds otherwise. -/
theorem TimeUnit.measure_cases (unit : TimeUnit) :
    (unit.measure = .nanoseconds unit.nanoseconds ∧ unit.nanoseconds < nanosecondsPerSecond) ∨
      ∃ count, unit.measure = .seconds count ∧
        unit.nanoseconds = count * nanosecondsPerSecond ∧ 0 < count := by
  cases unit
  case nanosecond | microsecond | millisecond => exact Or.inl ⟨rfl, by decide⟩
  all_goals exact Or.inr ⟨_, rfl, rfl, by decide⟩

namespace Duration

/-! ## Additions below the last second -/

/-- A length of time is known from its nanoseconds. -/
theorem eq_of_total_eq {first second : Duration} (same : first.total = second.total) :
    first = second := by
  obtain ⟨firstSeconds, firstNanos, firstSmall, firstLow⟩ := first
  obtain ⟨secondSeconds, secondNanos, secondSmall, secondLow⟩ := second
  simp only [total, nanosecondsPerSecond] at same firstLow secondLow
  have seconds : firstSeconds = secondSeconds := by omega
  have nanos : firstNanos = secondNanos := by omega
  subst seconds nanos
  rfl

theorem wordOf_of_lt {number : Nat} (small : number < wordLimit) : wordOf number = .ok number :=
  if_pos small

theorem succ_lt_wordLimit {seconds nanoseconds : Nat}
    (below : seconds * nanosecondsPerSecond + nanoseconds <
      (wordLimit - 1) * nanosecondsPerSecond) : seconds + 1 < wordLimit := by
  have fewer := Nat.lt_of_mul_lt_mul_right (Nat.lt_of_le_of_lt (Nat.le_add_right _ _) below)
  omega

theorem exists_ofCounts {seconds nanoseconds : Nat} (low : nanoseconds ≤ nanosecondsPerSecond)
    (below : seconds * nanosecondsPerSecond + nanoseconds <
      (wordLimit - 1) * nanosecondsPerSecond) :
    ∃ duration, ofCounts seconds nanoseconds = .ok duration ∧
      duration.total = seconds * nanosecondsPerSecond + nanoseconds := by
  have small := succ_lt_wordLimit below
  unfold ofCounts
  by_cases carried : nanoseconds < nanosecondsPerSecond
  · rw [dif_pos carried, dif_pos (Nat.lt_of_succ_lt small)]
    exact ⟨_, rfl, rfl⟩
  · rw [dif_neg carried, dif_pos small]
    refine ⟨_, rfl, ?_⟩
    unfold total
    dsimp only
    rw [Nat.succ_mul]
    omega

/-- An addition that stays below the last second is exact, whatever it carries. -/
theorem exists_add (sum : Duration) (seconds nanoseconds : Nat)
    (word : sum.nanoseconds + nanoseconds < wordLimit)
    (below : sum.total + seconds * nanosecondsPerSecond + nanoseconds <
      (wordLimit - 1) * nanosecondsPerSecond) :
    ∃ next, sum.add seconds nanoseconds = .ok next ∧
      next.total = sum.total + seconds * nanosecondsPerSecond + nanoseconds := by
  unfold add
  rw [wordOf_of_lt word]
  simp only [bind, Except.bind]
  by_cases carried : nanosecondsPerSecond < sum.nanoseconds + nanoseconds
  · have parts := Nat.div_add_mod' (sum.nanoseconds + nanoseconds) nanosecondsPerSecond
    have low : (sum.nanoseconds + nanoseconds) % nanosecondsPerSecond ≤ nanosecondsPerSecond :=
      Nat.le_of_lt (Nat.mod_lt _ (by decide))
    rw [if_pos carried]
    generalize (sum.nanoseconds + nanoseconds) / nanosecondsPerSecond = carry at parts ⊢
    generalize (sum.nanoseconds + nanoseconds) % nanosecondsPerSecond = rest at parts low ⊢
    have whole : (sum.seconds + (seconds + carry)) * nanosecondsPerSecond + rest =
        sum.total + seconds * nanosecondsPerSecond + nanoseconds := by
      rw [Nat.add_mul, Nat.add_mul]
      unfold total
      omega
    rw [← whole] at below ⊢
    have small := succ_lt_wordLimit below
    rw [wordOf_of_lt (Nat.lt_of_le_of_lt (Nat.le_add_left _ _) (Nat.lt_of_succ_lt small))]
    dsimp only
    rw [wordOf_of_lt (Nat.lt_of_succ_lt small)]
    exact exists_ofCounts low below
  · have whole : (sum.seconds + seconds) * nanosecondsPerSecond +
        (sum.nanoseconds + nanoseconds) =
        sum.total + seconds * nanosecondsPerSecond + nanoseconds := by
      rw [Nat.add_mul]
      unfold total
      omega
    rw [← whole] at below ⊢
    rw [if_neg carried, wordOf_of_lt (Nat.lt_of_succ_lt (succ_lt_wordLimit below))]
    exact exists_ofCounts (Nat.not_lt.mp carried) below

/-! ## Whole terms -/

/-- A whole number of some unit, as it is written: digits and a name of the unit. -/
structure WholeTerm where
  digits : List Char
  unitName : String
  unit : TimeUnit
  nonempty : digits ≠ []
  isDigit : ∀ char ∈ digits, char.isDigit = true
  named : TimeUnit.ofText? unitName = some unit
  deriving DecidableEq

namespace WholeTerm

/-- The characters of a term. -/
def chars (term : WholeTerm) : List Char := term.digits ++ term.unitName.toList

/-- The number of a term. -/
def number (term : WholeTerm) : Nat := Nat.ofDigitChars 10 term.digits 0

/-- The nanoseconds of a term. -/
def amount (term : WholeTerm) : Nat := term.number * term.unit.nanoseconds

/-- The term alone is below `2 ^ 63` nanoseconds, or below as many seconds if its unit is a second
or longer. -/
def Fits (term : WholeTerm) : Prop :=
  if term.unit.nanoseconds < nanosecondsPerSecond then term.amount < 2 ^ 63
  else term.amount < 2 ^ 63 * nanosecondsPerSecond

instance (term : WholeTerm) : Decidable term.Fits := by
  unfold Fits
  infer_instance

end WholeTerm

theorem letters_of_named {name : String} {unit : TimeUnit}
    (named : TimeUnit.ofText? name = some unit) :
    name.toList ≠ [] ∧ ∀ char ∈ name.toList, isUnitLetter char = true := by
  unfold TimeUnit.ofText? at named
  split at named
  case h_41 => contradiction
  all_goals exact ⟨by decide, List.all_eq_true.mp (by decide)⟩

theorem WholeTerm.number_lt {term : WholeTerm} (fits : term.Fits) : term.number < wordLimit := by
  have range : 2 ^ 63 < wordLimit := by decide
  unfold Fits amount at fits
  rcases term.unit.measure_cases with ⟨-, short⟩ | ⟨count, -, long, some⟩
  · rw [if_pos short] at fits
    have positive : 0 < term.unit.nanoseconds := by cases term.unit <;> decide
    have grown := Nat.le_mul_of_pos_right term.number positive
    omega
  · have notShort := Nat.not_lt.mpr (Nat.le_mul_of_pos_left nanosecondsPerSecond some)
    rw [long, if_neg notShort, ← Nat.mul_assoc] at fits
    have product := Nat.lt_of_mul_lt_mul_right fits
    have grown := Nat.le_mul_of_pos_right term.number some
    omega

/-- A whole term as a term without a fraction. -/
theorem WholeTerm.exists_written {term : WholeTerm} (fits : term.Fits) :
    ∃ written : WrittenTerm, written.chars = term.chars ∧ written.number = term.number ∧
      written.fraction? = none ∧ written.unitText = term.unitName := by
  have small := number_lt fits
  have ⟨someLetters, letters⟩ := letters_of_named term.named
  obtain ⟨digits, unitName, unit, nonempty, isDigit, named⟩ := term
  cases digits with
  | nil => contradiction
  | cons first more =>
      have plain : spelled 0 (first :: more) = Nat.ofDigitChars 10 (first :: more) 0 := by
        unfold spelled
        rw [List.filter_eq_self.mpr isDigit]
      have ⟨firstDigit, others⟩ := List.forall_mem_cons.mp isDigit
      exact ⟨⟨first, more, none, unitName.toList, firstDigit,
        fun char member => spaced_of_digit (others char member), by rw [plain]; exact small,
        by simp, by simp, by simp, someLetters, letters⟩, rfl, plain, rfl, String.ofList_toList⟩

/-- Half of the 64-bit range leaves room for the nanoseconds of a length of time. -/
theorem add_lt_wordLimit (sum : Duration) {nanoseconds : Nat} (half : nanoseconds < 2 ^ 63) :
    sum.nanoseconds + nanoseconds < wordLimit := by
  have low := sum.nanoseconds_lt
  unfold nanosecondsPerSecond at low
  unfold wordLimit
  omega

/-- Below the last second, adding a term adds its nanoseconds. -/
theorem exists_addTerm (sum : Duration) {term : WholeTerm} (fits : term.Fits)
    (below : sum.total + term.amount < (wordLimit - 1) * nanosecondsPerSecond) :
    ∃ next, sum.addTerm term.number none term.unitName = .ok next ∧
      next.total = sum.total + term.amount := by
  have range : 2 ^ 63 < wordLimit := by decide
  suffices added : ∃ next, sum.addMeasure term.number term.unit.measure = .ok next ∧
      next.total = sum.total + term.amount by
    have ⟨next, added, same⟩ := added
    refine ⟨next, ?_, same⟩
    unfold addTerm
    rw [term.named]
    simp only [added, bind, Except.bind]
  unfold WholeTerm.Fits at fits
  unfold WholeTerm.amount at *
  rcases term.unit.measure_cases with ⟨measured, short⟩ | ⟨count, measured, long, some⟩
  · rw [if_pos short] at fits
    rw [measured, addMeasure, wordOf_of_lt (Nat.lt_trans fits range)]
    have ⟨next, added, same⟩ := sum.exists_add 0 _ (sum.add_lt_wordLimit fits)
      (by rw [Nat.zero_mul, Nat.add_zero]; exact below)
    rw [Nat.zero_mul, Nat.add_zero] at same
    exact ⟨next, added, same⟩
  · have notShort := Nat.not_lt.mpr (Nat.le_mul_of_pos_left nanosecondsPerSecond some)
    rw [long, if_neg notShort, ← Nat.mul_assoc] at fits
    rw [long, ← Nat.mul_assoc] at below ⊢
    have product := Nat.lt_of_mul_lt_mul_right fits
    rw [measured, addMeasure, wordOf_of_lt (Nat.lt_trans product range)]
    have ⟨next, added, same⟩ := sum.exists_add (term.number * count) 0
      (sum.add_lt_wordLimit (by decide)) (by rw [Nat.add_zero]; exact below)
    rw [Nat.add_zero] at same
    exact ⟨next, added, same⟩

/-! ## Spaced terms -/

/-- Blanks, or nothing. -/
structure Gap where
  chars : List Char
  blank : ∀ char ∈ chars, Text.isWhitespace char = true

/-- Whole terms, each with the gap before it, and the gap at the end. -/
structure SpacedTerms where
  parts : List (Gap × WholeTerm)
  last : Gap

namespace SpacedTerms

/-- The terms in their order. -/
def terms (spaced : SpacedTerms) : List WholeTerm := spaced.parts.map Prod.snd

/-- The text of spaced terms. -/
def text (spaced : SpacedTerms) : String :=
  String.ofList
    ((spaced.parts.flatMap fun part => part.1.chars ++ part.2.chars) ++ spaced.last.chars)

/-- The nanoseconds of all terms. -/
def amount (spaced : SpacedTerms) : Nat := (spaced.terms.map WholeTerm.amount).sum

end SpacedTerms

/-- By induction on the terms: each is added to a sum that stays below the last second. -/
theorem exists_adds (parts : List (Gap × WholeTerm)) (last : Gap) (sum : Duration)
    (fits : ∀ part ∈ parts, part.2.Fits)
    (below : sum.total + (parts.map (·.2.amount)).sum < (wordLimit - 1) * nanosecondsPerSecond) :
    ∃ duration,
      Adds sum ((parts.flatMap fun part => part.1.chars ++ part.2.chars) ++ last.chars)
        (.total duration) ∧
      duration.total = sum.total + (parts.map (·.2.amount)).sum := by
  induction parts generalizing sum with
  | nil => exact ⟨sum, Adds.blank last.blank, (Nat.add_zero _).symm⟩
  | cons part parts inductionHypothesis =>
      rw [List.map_cons, List.sum_cons] at below ⊢
      have ⟨first, others⟩ := List.forall_mem_cons.mp fits
      have ⟨next, added, grown⟩ := sum.exists_addTerm first (by omega)
      have ⟨duration, adds, same⟩ := inductionHypothesis next others (by omega)
      have ⟨written, chars, number, fraction, unitText⟩ := WholeTerm.exists_written first
      refine ⟨duration, ?_, by omega⟩
      rw [List.flatMap_cons, List.append_assoc, List.append_assoc, ← chars]
      apply Adds.term part.1.blank written _ adds
      rw [number, fraction, unitText]
      exact added

theorem exists_ofText_text (written : SpacedTerms) (nonempty : written.terms ≠ [])
    (fits : ∀ term ∈ written.terms, term.Fits)
    (below : written.amount < (wordLimit - 1) * nanosecondsPerSecond) :
    ∃ duration, ofText written.text = .ok duration ∧ duration.total = written.amount := by
  obtain ⟨parts, last⟩ := written
  have nought : zero.total = 0 := rfl
  have amounts : (parts.map (·.2.amount)).sum = SpacedTerms.amount ⟨parts, last⟩ := by
    unfold SpacedTerms.amount SpacedTerms.terms
    rw [List.map_map]
    rfl
  have ⟨duration, adds, same⟩ := exists_adds parts last zero
    (fun part member => fits part.2 (List.mem_map_of_mem member)) (by omega)
  refine ⟨duration, ?_, by omega⟩
  have visible : ∃ char ∈ (parts.flatMap fun part => part.1.chars ++ part.2.chars) ++ last.chars,
      Text.isWhitespace char = false := by
    cases parts with
    | nil => exact absurd rfl nonempty
    | cons part parts =>
        have ⟨digit, member⟩ := List.exists_mem_of_ne_nil _ part.2.nonempty
        refine ⟨digit, ?_, not_blank_of_digit (part.2.isDigit digit member)⟩
        simp [WholeTerm.chars, member]
  unfold ofText SpacedTerms.text
  rw [String.toList_ofList]
  exact (ofChars_outcome_iff _ (.total duration)).mpr ⟨visible, adds⟩

end Duration

open Duration (SpacedTerms WholeTerm)

/-- A text of whole terms, each of which fits and which stay below the last second together, is read
as the exact sum of its terms. So is every text of the same terms in any order and with any gaps. -/
theorem readDuration_exact (written : SpacedTerms) (nonempty : written.terms ≠ [])
    (fits : ∀ term ∈ written.terms, term.Fits)
    (below : (written.terms.map WholeTerm.amount).sum <
      (wordLimit - 1) * nanosecondsPerSecond) :
    ∃ duration, readDuration written.text = .ok duration ∧
      duration.total = (written.terms.map WholeTerm.amount).sum ∧
      ∀ other : SpacedTerms, other.terms.Perm written.terms →
        readDuration other.text = .ok duration := by
  have read {text : String} {duration : Duration} (found : Duration.ofText text = .ok duration) :
      readDuration text = .ok duration := by
    unfold readDuration
    rw [found]
    rfl
  have ⟨duration, found, total⟩ := Duration.exists_ofText_text written nonempty fits below
  refine ⟨duration, read found, total, ?_⟩
  intro other permuted
  have sums : other.amount = written.amount := (permuted.map WholeTerm.amount).sum_eq
  have ⟨again, otherFound, otherTotal⟩ := Duration.exists_ofText_text other
    (fun none => nonempty (List.nil_perm.mp (none ▸ permuted)))
    (fun term member => fits term (permuted.mem_iff.mp member)) (by rw [sums]; exact below)
  have same : again = duration := Duration.eq_of_total_eq (by omega)
  exact read (same ▸ otherFound)

/-- A month, a minute and a second of nanoseconds behind most of another one. -/
theorem readDuration_exact_of_carry :
    ∃ written other : SpacedTerms,
      written.text = "\t1M01m 999999999ns1000000000ns" ∧
      other.text = "999999999ns\u30001000000000ns 01m1M\n" ∧
      written.terms ≠ [] ∧ (∀ term ∈ written.terms, term.Fits) ∧
      (written.terms.map WholeTerm.amount).sum < (wordLimit - 1) * nanosecondsPerSecond ∧
      other.terms.Perm written.terms ∧
      ∃ duration, duration.total = 2630077999999999 ∧ readDuration written.text = .ok duration ∧
        readDuration other.text = .ok duration := by
  let none : Duration.Gap := ⟨[], List.all_eq_true.mp rfl⟩
  let blank (char : Char) (space : Text.isWhitespace char = true) : Duration.Gap :=
    ⟨[char], List.forall_mem_singleton.mpr space⟩
  let month : WholeTerm :=
    ⟨['1'], "M", .month, by decide, List.all_eq_true.mp rfl, by decide⟩
  let minute : WholeTerm :=
    ⟨['0', '1'], "m", .minute, by decide, List.all_eq_true.mp rfl, by decide⟩
  let most : WholeTerm :=
    ⟨List.replicate 9 '9', "ns", .nanosecond, by decide, List.all_eq_true.mp rfl, by decide⟩
  let full : WholeTerm :=
    ⟨'1' :: List.replicate 9 '0', "ns", .nanosecond, by decide, List.all_eq_true.mp rfl,
      by decide⟩
  let written : SpacedTerms := ⟨[(blank '\t' rfl, month), (none, minute), (blank ' ' rfl, most),
    (none, full)], none⟩
  let other : SpacedTerms := ⟨[(none, most), (blank '\u3000' rfl, full), (blank ' ' rfl, minute),
    (none, month)], blank '\n' rfl⟩
  have nonempty : written.terms ≠ [] := by decide
  have fits : ∀ term ∈ written.terms, term.Fits := by decide +kernel
  have below : (written.terms.map WholeTerm.amount).sum <
      (wordLimit - 1) * nanosecondsPerSecond := by decide +kernel
  have permuted : other.terms.Perm written.terms := by decide +kernel
  have sum : (written.terms.map WholeTerm.amount).sum = 2630077999999999 := by decide +kernel
  have ⟨duration, found, total, again⟩ := readDuration_exact written nonempty fits below
  exact ⟨written, other, by decide +kernel, by decide +kernel, nonempty, fits, below, permuted,
    duration, total.trans sum, found, again other permuted⟩

end FaultDrill
