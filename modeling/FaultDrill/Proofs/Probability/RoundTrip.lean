import FaultDrill.Proofs.Numeral.Layout
import FaultDrill.Proofs.Probability

/-!
Probabilities that are written and read again.

Owns:
- that a rounded hundredth is again the rounded hundredth of its rounded hundredfold;
- the percentage that a probability is written as, and that it is in range.

Does not own: that the shortest decimal of a value rounds to that value
(`Proofs.Numeral.Shortest`).

Main statement: the text of a probability that was read from a number in range is read as that
probability again (`ofText?_text`).
-/

namespace FaultDrill.Probability

open Numeral (BinaryFormat BinaryValue IsNumeralOf binary32)
open Numeral.BinaryFormat (Spaced isNearest_roundUnits lt_two_pow_spacingBits proper_binary32)

/-! ## Hundredths of rounded hundredfolds -/

section Hundredfold

variable {format : BinaryFormat} {percents value written : Nat}

theorem isNearest_hundredth_of_holds (holds : format.Holds (100 * value))
    (isValue : format.Holds value) (isWritten : format.IsNearest (100 * value) written) :
    format.IsNearest (written / 100) value := by
  have product := holds.isNearest_self
  rw [Nat.cast_mul, Nat.cast_ofNat] at product
  rw [isWritten.unique product, Nat.cast_mul, Nat.cast_ofNat, mul_div_cancel_left₀ _ (by norm_num)]
  exact isValue.isNearest_self

/-- If the hundredfold is spaced with six bits more than the value, rounding it moves the hundredth
by less than half a spacing of the value. -/
theorem isNearest_hundredth_of_lt (fine : 7 ≤ format.precision) (isValue : format.Holds value)
    (isWritten : format.IsNearest (100 * value) written)
    (inexact : ¬ format.Holds (100 * value))
    (below : 100 * value < 2 ^ (format.precision + (format.spacingBits value + 6))) :
    format.IsNearest (written / 100) value := by
  have notBottom : ¬ format.AtBottom value := by
    rintro ⟨-, same⟩
    apply inexact
    refine ⟨100, format.precision - 1 + format.spacingBits value, ?_, ?_⟩
    · calc 100 < 2 ^ 7 := by decide
        _ ≤ 2 ^ format.precision := Nat.pow_le_pow_right two_pos fine
    · rw [Nat.pow_add, ← same]
  apply isValue.isNearest_of_half (by omega) (Or.inl notBottom)
  left
  have step : (0 : ℚ) < 2 ^ format.spacingBits value := by positivity
  have moved := isWritten.abs_sub_le_half (by omega) (by positivity) (by exact_mod_cast below)
  rw [abs_sub_comm, pow_add, abs_le] at moved
  rw [abs_lt]
  constructor <;> linarith

/-- If the hundredfold is spaced with seven bits more than the value, half a step of that is more
than the percents can be away from it. So the percents are what is written, unless they lie below
the first number with that spacing; then that number is. -/
theorem isNearest_hundredth_of_le (proper : format.Proper) (holds : format.Holds percents)
    (isValue : format.IsNearest (percents / 100) value)
    (isWritten : format.IsNearest (100 * value) written)
    (atLeast : 2 ^ (format.precision - 1 + (format.spacingBits value + 7)) ≤ 100 * value) :
    format.IsNearest (written / 100) value := by
  have precise := proper.precise
  have small := lt_two_pow_spacingBits format value
  have near := isValue.abs_sub_le_half_spacing proper (by positivity)
  generalize format.spacingBits value = shift at *
  have step : (0 : ℚ) < 2 ^ shift := by positivity
  have least : (2 ^ (format.precision - 1 + (shift + 7)) : ℚ) ≤ 100 * value := by
    exact_mod_cast atLeast
  have spaced : Spaced format (100 * value) (shift + 7) := by
    constructor
    case below =>
      have scaled : 100 * value < 2 ^ (format.precision + (shift + 7)) := by
        rw [← Nat.add_assoc, Nat.pow_add _ _ 7]
        omega
      exact_mod_cast scaled
    case least => exact Or.inr (by exact_mod_cast least)
  -- A multiple of the coarse spacing that is near enough is what is written.
  have writtenIs : ∀ multiple : Nat, 2 ^ (shift + 7) ∣ multiple →
      |(100 * value : ℚ) - multiple| < 2 ^ (shift + 7) / 2 → written = multiple := by
    rintro _ ⟨significand, rfl⟩ close
    rw [Nat.mul_comm] at close ⊢
    exact isWritten.unique (spaced.isNearest_of_half precise (Or.inl close))
  rw [abs_sub_comm, abs_le] at near
  rcases Nat.lt_or_ge percents (2 ^ (format.precision - 1 + (shift + 7))) with before | beyond
  · have order : (percents : ℚ) < 2 ^ (format.precision - 1 + (shift + 7)) := by
      exact_mod_cast before
    rw [writtenIs (2 ^ (format.precision - 1 + (shift + 7)))
      (Nat.pow_dvd_pow 2 (Nat.le_add_left _ _))]
    · rw [Nat.cast_pow, Nat.cast_ofNat]
      exact isValue.of_between proper isValue.holds.isNearest_self (by positivity) (by linarith)
        (by linarith)
    · rw [Nat.cast_pow, Nat.cast_ofNat, abs_of_nonneg (by linarith), pow_add _ shift]
      linarith
  · rw [writtenIs percents (holds.dvd_of_le (by omega) beyond)]
    · exact isValue
    · rw [abs_lt, pow_add]
      constructor <;> linarith

/-- The hundredth of the rounded hundredfold of a rounded hundredth rounds to that hundredth. -/
theorem isNearest_hundredth (proper : format.Proper) (fine : 7 ≤ format.precision)
    (holds : format.Holds percents) (isValue : format.IsNearest (percents / 100) value)
    (isWritten : format.IsNearest (100 * value) written) :
    format.IsNearest (written / 100) value := by
  by_cases held : format.Holds (100 * value)
  · exact isNearest_hundredth_of_holds held isValue.holds isWritten
  · rcases Nat.lt_or_ge (100 * value) (2 ^ (format.precision + (format.spacingBits value + 6)))
      with below | atLeast
    · exact isNearest_hundredth_of_lt fine isValue.holds isWritten held below
    · apply isNearest_hundredth_of_le proper holds isValue isWritten
      have exponent : format.precision - 1 + (format.spacingBits value + 7) =
          format.precision + (format.spacingBits value + 6) := by
        omega
      rw [exponent]
      exact atLeast

end Hundredfold

/-! ## Percentages that are written -/

section Texts

/-- A percent sign after a numeral makes a percentage. -/
theorem numeral?_percent {spelling : List Char} {number : ℚ}
    (spells : IsNumeralOf spelling number) :
    Percentage.numeral? (spelling ++ ['%']) = some spelling := by
  cases spells with
  | whole nonempty isDigit =>
      let percentage : Percentage := ⟨spelling, none, [], nonempty, isDigit, nofun, nofun⟩
      have tight : percentage.Tight := rfl
      exact tight.numeral?_chars
  | @pointed whole fraction nonempty isWhole isFraction =>
      let percentage : Percentage :=
        ⟨whole, some fraction, [], nonempty, isWhole, by rintro _ ⟨⟩; exact isFraction, nofun⟩
      have tight : percentage.Tight := rfl
      exact tight.numeral?_chars

theorem ofText?_of_spells {text : String} {spelling : List Char} {number : ℚ}
    {percents : BinaryValue} (written : text.toList = spelling ++ ['%'])
    (spells : IsNumeralOf spelling number) (rounds : binary32.RoundsTo number percents) :
    ofText? text = some ⟨hundredth percents⟩ := by
  obtain ⟨value, read, alsoRounds⟩ := spells.exists_ofNumeral? proper_binary32
  rw [rounds.unique alsoRounds]
  apply ofText?_of_numeral? _ read
  rw [written]
  exact numeral?_percent spells

/-- The text of a finite value is a numeral of a number that rounds to the value. -/
theorem exists_spells {units : Nat} (holds : binary32.Holds units)
    (below : units < 2 ^ binary32.ceilingBits) :
    ∃ number, IsNumeralOf (layout.render binary32 (.finite false units)).toList number ∧
      binary32.RoundsTo number (.finite false units) := by
  have text : (layout.render binary32 (.finite false units)).toList =
      (Numeral.positional false (Numeral.shortest binary32 .up units)).toList := by
    unfold Numeral.RealLayout.render
    dsimp only
    rw [if_neg (by decide), String.empty_append]
    rfl
  rw [text]
  exact ⟨_, Numeral.isNumeralOf_positional _,
    Numeral.roundsTo_shortest (by decide) .up holds below⟩

end Texts

/-! ## Range -/

section Range

variable {number : ℚ} {percents value : Nat}

/-- A number in range rounds to a count of at most half the ceiling. -/
theorem exists_units {rounded : BinaryValue} (rounds : binary32.RoundsTo number rounded)
    (atMost : number ≤ 10 ^ 38) :
    ∃ units, rounded = .finite false units ∧ binary32.Holds units ∧ units ≤ 2 ^ 276 := by
  have bound : ∀ {units}, binary32.IsNearest (number * 2 ^ binary32.fractionBits) units →
      units ≤ 2 ^ 276 := by
    intro units nearest
    have top := (proper_binary32.holds_two_pow 276).isNearest_self
    refine nearest.mono ?_ top
    have small : number ≤ 2 ^ 127 := atMost.trans (by norm_num)
    calc number * 2 ^ binary32.fractionBits ≤ 2 ^ 127 * 2 ^ binary32.fractionBits :=
          mul_le_mul_of_nonneg_right small (by positivity)
      _ = (2 ^ 276 : Nat) := by rw [← pow_add, Nat.cast_pow, Nat.cast_ofNat]; rfl
  cases rounds with
  | finite nearest below => exact ⟨_, rfl, nearest.holds, bound nearest⟩
  | infinite nearest beyond =>
      have ceiling : 2 ^ 276 < 2 ^ binary32.ceilingBits := by decide +kernel
      exact absurd (bound nearest) (Nat.not_le.mpr (ceiling.trans_le beyond))

theorem ofUnits_of_lt {format : BinaryFormat} {units : Nat}
    (below : units < 2 ^ format.ceilingBits) (negative : Bool) :
    format.ofUnits negative units = .finite negative units :=
  if_pos below

theorem le_of_isNearest_hundredth {exponent : Nat}
    (isValue : binary32.IsNearest (percents / 100) value)
    (bound : percents ≤ 2 ^ exponent * 100) : value ≤ 2 ^ exponent := by
  refine isValue.mono ?_ (proper_binary32.holds_two_pow exponent).isNearest_self
  rw [div_le_iff₀ (by norm_num)]
  exact_mod_cast bound

theorem exists_hundredth (below : percents < 2 ^ binary32.ceilingBits) :
    ∃ value, hundredth (.finite false percents) = .finite false value ∧
      binary32.IsNearest (percents / 100) value := by
  have nearest := isNearest_roundUnits (by decide : 2 ≤ binary32.precision) percents
    (by decide : 0 < 100)
  rw [Nat.cast_ofNat] at nearest
  have ceiling : 2 ^ binary32.ceilingBits ≤ 2 ^ 271 * 100 := by decide +kernel
  have small := le_of_isNearest_hundredth nearest (below.le.trans ceiling)
  have below := small.trans_lt (by decide +kernel : 2 ^ 271 < 2 ^ binary32.ceilingBits)
  exact ⟨_, ofUnits_of_lt below false, nearest⟩

/-- There is room for the hundredfold of a value that is far enough below the ceiling. -/
theorem exists_hundredfold (small : value ≤ 2 ^ 270) :
    ∃ written, hundredfold (.finite false value) = .finite false written ∧
      binary32.IsNearest (100 * value) written ∧ written < 2 ^ binary32.ceilingBits := by
  have nearest := isNearest_roundUnits (by decide : 2 ≤ binary32.precision) (value * 100)
    one_pos
  rw [Nat.cast_mul, Nat.cast_ofNat, Nat.cast_one, div_one, mul_comm] at nearest
  have bound : binary32.roundUnits (value * 100) 1 ≤ 100 * 2 ^ 270 := by
    have top : binary32.Holds (100 * 2 ^ 270) := ⟨100, 270, by decide, rfl⟩
    refine nearest.mono ?_ top.isNearest_self
    exact_mod_cast Nat.mul_le_mul_left 100 small
  have below := bound.trans_lt (by decide +kernel : 100 * 2 ^ 270 < 2 ^ binary32.ceilingBits)
  exact ⟨_, ofUnits_of_lt below false, nearest, below⟩

end Range

/-! ## Round trip -/

/-- The text of a probability is a numeral without exponent and a percent sign. The numeral rounds
to the hundredfold of the probability, and the text is read as the probability itself. -/
theorem ofText?_text {text : String} {spelling : List Char} {number : ℚ}
    {probability : Probability} (spelled : ofText? text = some probability)
    (longest : Percentage.LongestNumeral text.toList spelling number)
    (atMost : number ≤ 10 ^ 38) :
    ∃ written writtenNumber, probability.text.toList = written ++ ['%'] ∧
      IsNumeralOf written writtenNumber ∧
      binary32.RoundsTo writtenNumber (hundredfold probability.value) ∧
      ofText? probability.text = some probability := by
  obtain ⟨_, _, percents, alsoLongest, -, rounds, rfl⟩ := exists_of_ofText? spelled
  obtain rfl := (longest.unique alsoLongest).2
  obtain ⟨units, rfl, holds, bound⟩ := exists_units rounds atMost
  obtain ⟨value, divided, isValue⟩ :=
    exists_hundredth (bound.trans_lt (by decide +kernel : 2 ^ 276 < 2 ^ binary32.ceilingBits))
  have small := le_of_isNearest_hundredth isValue
    (bound.trans (by decide +kernel : 2 ^ 276 ≤ 2 ^ 270 * 100))
  obtain ⟨hundredfolded, multiplied, isWritten, below⟩ := exists_hundredfold small
  obtain ⟨again, dividedAgain, isAgain⟩ := exists_hundredth below
  have same : again = value :=
    isAgain.unique (isNearest_hundredth proper_binary32 (by decide) holds isValue isWritten)
  obtain ⟨writtenNumber, spells, writtenRounds⟩ := exists_spells isWritten.holds below
  have chars : (Probability.text ⟨.finite false value⟩).toList =
      (layout.render binary32 (.finite false hundredfolded)).toList ++ ['%'] := by
    unfold Probability.text
    rw [multiplied, String.toList_append]
    rfl
  rw [divided, multiplied]
  refine ⟨_, writtenNumber, chars, spells, writtenRounds, ?_⟩
  rw [ofText?_of_spells chars spells writtenRounds, dividedAgain, same]

/-- The text leaves out what the percentage has beside its number. -/
theorem ofText?_text_of_third :
    ∃ probability, ofText? "33.30pct%" = some probability ∧
      Percentage.LongestNumeral "33.30pct%".toList "33.30".toList (333 / 10) ∧
      (333 / 10 : ℚ) ≤ 10 ^ 38 ∧
      probability.text = "33.3%" ∧ ofText? "33.3%" = some probability := by
  have found : Percentage.numeral? "33.30pct%".toList = some "33.30".toList := by decide
  have spells : IsNumeralOf "33.30".toList (333 / 10) := by
    have pointed := @IsNumeralOf.pointed ['3', '3'] ['3', '0'] (by decide)
      (List.all_eq_true.mp rfl) (List.all_eq_true.mp rfl)
    have whole : Nat.ofDigitChars 10 ['3', '3'] 0 = 33 := by decide
    have fraction : Nat.ofDigitChars 10 ['3', '0'] 0 = 30 := by decide
    rw [whole, fraction] at pointed
    norm_num at pointed
    exact pointed
  have longest := Percentage.LongestNumeral.of_numeral? found spells
  have spelled : ofText? "33.30pct%" = some ⟨.finite false (0xaa7efa <<< 124)⟩ := by
    decide +kernel
  have text : Probability.text ⟨.finite false (0xaa7efa <<< 124)⟩ = "33.3%" := by
    decide +kernel
  have atMost : (333 / 10 : ℚ) ≤ 10 ^ 38 := by norm_num
  obtain ⟨_, _, -, -, -, again⟩ := ofText?_text spelled longest atMost
  rw [text] at again
  exact ⟨_, spelled, longest, atMost, text, again⟩

end FaultDrill.Probability
