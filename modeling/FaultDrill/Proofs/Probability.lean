import FaultDrill.Proofs.Percentage
import Mathlib.Data.List.Forall2

/-!
Probabilities as rounded values, and flips on random words.

Owns:
- the value of a percentage: its longest numeral rounded, then a hundredth of that rounded;
- what some flips find, and how many words they draw.

Main statements: every text that has a numeral has the value of that numeral
(`ofText?_value`), and on the same words a percentage hits wherever a smaller one does
(`flips_mono`).
-/

namespace FaultDrill

open Numeral (BinaryValue binary32)
open Numeral.BinaryValue (AtMost)
open Numeral.BinaryFormat (RoundsTo Holds roundsTo_nearest roundsTo_zero proper_binary32)

namespace Probability

/-! ## Hundredths -/

/-- A value that is not negative, with the rounded value of a hundredth of it. -/
inductive RoundsHundredth : BinaryValue → BinaryValue → Prop
  | finite {units : Nat} {value : BinaryValue}
      (rounds : binary32.RoundsTo (units / 2 ^ binary32.fractionBits / 100) value) :
    RoundsHundredth (.finite false units) value
  | infinite : RoundsHundredth (.infinite false) (.infinite false)

section Hundredths

variable {number : ℚ} {percents first second firstHundredth secondHundredth : BinaryValue}

theorem roundsHundredth_hundredth (rounds : binary32.RoundsTo number percents) :
    RoundsHundredth percents (hundredth percents) := by
  cases rounds with
  | infinite => exact RoundsHundredth.infinite
  | finite =>
      apply RoundsHundredth.finite
      apply roundsTo_nearest (by decide) _ (by decide)
      rw [div_right_comm, div_mul_cancel₀ _ (by positivity), Nat.cast_ofNat]

theorem RoundsHundredth.mono (atMost : AtMost first second)
    (isFirst : RoundsHundredth first firstHundredth)
    (isSecond : RoundsHundredth second secondHundredth) :
    AtMost firstHundredth secondHundredth := by
  cases isFirst with
  | finite firstRounds =>
      cases isSecond with
      | finite secondRounds =>
          cases atMost with
          | finite atMost =>
              apply firstRounds.mono _ secondRounds
              gcongr
      | infinite =>
          cases firstRounds with
          | finite => exact AtMost.beyond _
          | infinite => exact AtMost.infinite
  | infinite =>
      cases atMost with
      | infinite =>
          cases isSecond
          exact AtMost.infinite

end Hundredths

theorem RoundsHundredth.notNegative {percents value : BinaryValue}
    (rounds : RoundsHundredth percents value) :
    (∃ units, value = .finite false units) ∨ value = .infinite false := by
  cases rounds with
  | infinite => exact Or.inr rfl
  | finite rounds =>
      cases rounds with
      | finite => exact Or.inl ⟨_, rfl⟩
      | infinite => exact Or.inr rfl

/-! ## Values of percentages -/

/-- A probability that is read comes from the longest numeral. -/
theorem exists_of_ofText? {text : String} {probability : Probability}
    (spelled : ofText? text = some probability) :
    ∃ spelling number percents, Percentage.LongestNumeral text.toList spelling number ∧
      binary32.ofNumeral? spelling = some percents ∧ binary32.RoundsTo number percents ∧
      probability = ⟨hundredth percents⟩ := by
  obtain ⟨spelling, found⟩ := numeral?_of_ofText? spelled
  obtain ⟨number, percents, longest, read, rounds⟩ := exists_percents found
  rw [ofText?_of_numeral? found read, Option.some.injEq] at spelled
  exact ⟨spelling, number, percents, longest, read, rounds, spelled.symm⟩

/-- A text has no numeral, and no value, or it has the value of the longest numeral that it begins
with, which is that of every other text with this numeral. -/
theorem ofText?_value (text : String) :
    (Percentage.numeral? text.toList = none ∧ ofText? text = none) ∨
      ∃ spelling number percents probability,
        Percentage.numeral? text.toList = some spelling ∧
        binary32.ofNumeral? spelling = some percents ∧
        ofText? text = some probability ∧
        Percentage.LongestNumeral text.toList spelling number ∧
        binary32.RoundsTo number percents ∧
        RoundsHundredth percents probability.value ∧
        ((∃ units, probability.value = .finite false units) ∨
          probability.value = .infinite false) ∧
        ∀ other otherProbability, ofText? other = some otherProbability →
          Percentage.LongestNumeral other.toList spelling number →
          otherProbability = probability := by
  cases found : Percentage.numeral? text.toList with
  | none =>
      left
      unfold ofText?
      rw [found]
      exact ⟨rfl, rfl⟩
  | some spelling =>
      right
      obtain ⟨number, percents, longest, read, rounds⟩ := exists_percents found
      have hundredthRounds := roundsHundredth_hundredth rounds
      refine ⟨spelling, number, percents, ⟨hundredth percents⟩, rfl, read,
        ofText?_of_numeral? found read, longest, rounds, hundredthRounds,
        hundredthRounds.notNegative, ?_⟩
      intro other otherProbability spelled otherLongest
      obtain ⟨_, _, otherPercents, alsoLongest, alsoRead, -, rfl⟩ := exists_of_ofText? spelled
      rw [← (otherLongest.unique alsoLongest).1, read, Option.some.injEq] at alsoRead
      rw [alsoRead]

/-! ## Flips -/

/-- A flip draws one word, and so does each of some flips. -/
theorem run_flips (probability : Probability) (count : Nat) (source : WordSource) :
    (probability.flips count).run source =
      ((List.range count).map fun index => probability.happens (source index),
        fun index => source (index + count)) := by
  induction count generalizing source with
  | zero => rfl
  | succ count inductionHypothesis =>
      have first : (probability.flips (count + 1)).run source =
          (probability.happens (source 0) ::
              ((probability.flips count).run fun index => source (index + 1)).1,
            ((probability.flips count).run fun index => source (index + 1)).2) :=
        rfl
      rw [first, inductionHypothesis, List.range_succ_eq_map, List.map_cons, List.map_map]
      simp only [Function.comp_def, Nat.succ_eq_add_one, Nat.add_assoc]

section Monotone

variable {first second : BinaryValue}

theorem happens_mono (atMost : AtMost first second) {word : UInt32}
    (hit : happens ⟨first⟩ word = true) : happens ⟨second⟩ word = true := by
  cases atMost with
  | beyond => rfl
  | infinite => rfl
  | finite atMost =>
      unfold happens at hit ⊢
      dsimp only at hit ⊢
      rw [Bool.not_false, Bool.true_and, decide_eq_true_eq] at hit ⊢
      exact Nat.lt_of_lt_of_le hit atMost

theorem happens_zero (word : UInt32) : happens ⟨.finite false 0⟩ word = false := by
  unfold happens
  dsimp only
  rw [decide_eq_false (Nat.not_lt_zero _), Bool.and_false]

/-- The value one is above every number that can be drawn. -/
theorem happens_one (word : UInt32) :
    happens ⟨.finite false (2 ^ binary32.fractionBits)⟩ word = true := by
  have drawnBelow : drawn word < 2 ^ 24 := by
    unfold drawn
    have := word.toNat_lt
    omega
  unfold happens
  dsimp only
  rw [Bool.not_false, Bool.true_and, decide_eq_true_eq]
  have scale : 2 ^ binary32.fractionBits = 2 ^ 24 * 2 ^ (binary32.fractionBits - 24) := by
    rw [← Nat.pow_add]
    rfl
  rw [scale]
  exact Nat.mul_lt_mul_of_pos_right drawnBelow (Nat.two_pow_pos _)

theorem happens_of_number_zero {percents value : BinaryValue}
    (rounds : binary32.RoundsTo 0 percents) (hundredthRounds : RoundsHundredth percents value)
    (word : UInt32) :
    happens ⟨value⟩ word = false := by
  have nought : binary32.RoundsTo 0 (.finite false 0) :=
    roundsTo_zero le_rfl (by norm_num)
  rw [rounds.unique nought] at hundredthRounds
  cases hundredthRounds with
  | finite again =>
      rw [Nat.cast_zero, zero_div, zero_div] at again
      rw [again.unique nought]
      exact happens_zero word

theorem roundsHundredth_hundred :
    RoundsHundredth (.finite false (100 * 2 ^ binary32.fractionBits))
      (.finite false (2 ^ binary32.fractionBits)) := by
  have one : binary32.Holds (2 ^ binary32.fractionBits) := proper_binary32.holds_two_pow _
  have rounds := one.roundsTo (by decide +kernel)
  apply RoundsHundredth.finite
  have same : ((100 * 2 ^ binary32.fractionBits : Nat) : ℚ) / 2 ^ binary32.fractionBits / 100 =
      (2 ^ binary32.fractionBits : Nat) / 2 ^ binary32.fractionBits := by
    rw [div_right_comm, Nat.cast_mul, Nat.cast_ofNat, mul_div_cancel_left₀ _ (by norm_num)]
  rw [same]
  exact rounds

theorem happens_of_hundred_le {number : ℚ} {percents value : BinaryValue} (large : 100 ≤ number)
    (rounds : binary32.RoundsTo number percents)
    (hundredthRounds : RoundsHundredth percents value) (word : UInt32) :
    happens ⟨value⟩ word = true := by
  have holds : binary32.Holds (100 * 2 ^ binary32.fractionBits) :=
    ⟨100, binary32.fractionBits, by decide, rfl⟩
  have hundred := holds.roundsTo (by decide +kernel)
  have same : ((100 * 2 ^ binary32.fractionBits : Nat) : ℚ) / 2 ^ binary32.fractionBits = 100 := by
    rw [Nat.cast_mul, Nat.cast_pow, Nat.cast_ofNat, Nat.cast_ofNat,
      mul_div_cancel_right₀ _ (by positivity)]
  rw [same] at hundred
  have atLeast := roundsHundredth_hundred.mono (hundred.mono large rounds) hundredthRounds
  exact happens_mono atLeast (happens_one word)

end Monotone

/-- On the same words, a percentage hits wherever one with a smaller number does, and both draw one
word for each flip. That of nought never hits, and those of one hundred and more always do. -/
theorem flips_mono {lesser greater : String} {first second : Probability}
    {firstNumeral secondNumeral : List Char} {firstNumber secondNumber : ℚ}
    (firstSpelled : ofText? lesser = some first) (secondSpelled : ofText? greater = some second)
    (firstLongest : Percentage.LongestNumeral lesser.toList firstNumeral firstNumber)
    (secondLongest : Percentage.LongestNumeral greater.toList secondNumeral secondNumber)
    (atMost : firstNumber ≤ secondNumber) (count : Nat) (source : WordSource) :
    ∃ firstHits secondHits,
      (first.flips count).run source = (firstHits, fun index => source (index + count)) ∧
      (second.flips count).run source = (secondHits, fun index => source (index + count)) ∧
      firstHits.length = count ∧
      List.Forall₂ (fun firstHit secondHit => firstHit = true → secondHit = true)
        firstHits secondHits ∧
      (firstNumber = 0 → ∀ hit ∈ firstHits, hit = false) ∧
      (100 ≤ firstNumber → ∀ hit ∈ firstHits, hit = true) := by
  obtain ⟨_, number, firstPercents, longest, -, firstRounds, rfl⟩ := exists_of_ofText? firstSpelled
  obtain rfl := (firstLongest.unique longest).2
  obtain ⟨_, number, secondPercents, longest, -, secondRounds, rfl⟩ :=
    exists_of_ofText? secondSpelled
  obtain rfl := (secondLongest.unique longest).2
  have firstHundredth := roundsHundredth_hundredth firstRounds
  have secondHundredth := roundsHundredth_hundredth secondRounds
  have values := firstHundredth.mono (firstRounds.mono atMost secondRounds) secondHundredth
  refine ⟨_, _, run_flips _ count source, run_flips _ count source, ?_, ?_, ?_, ?_⟩
  · rw [List.length_map, List.length_range]
  · rw [List.forall₂_map_left_iff, List.forall₂_map_right_iff, List.forall₂_same]
    intro index _
    exact happens_mono values
  · rintro rfl
    rw [List.forall_mem_map]
    intro index _
    exact happens_of_number_zero firstRounds firstHundredth (source index)
  · intro large
    rw [List.forall_mem_map]
    intro index _
    exact happens_of_hundred_le large firstRounds firstHundredth (source index)

/-- A word changes nothing, and a hundred-thousandth of a percent does not turn the order round. -/
theorem flips_mono_of_thirds :
    ∃ first second,
      ofText? "33.3pct%" = some first ∧ ofText? "33.30001%" = some second ∧
      Percentage.LongestNumeral "33.3pct%".toList "33.3".toList (333 / 10) ∧
      Percentage.LongestNumeral "33.30001%".toList "33.30001".toList (3330001 / 100000) ∧
      (333 / 10 : ℚ) ≤ 3330001 / 100000 ∧
      ∀ source : WordSource, ∃ firstHits secondHits,
        ((first.flips 1000).run source).1 = firstHits ∧
        ((second.flips 1000).run source).1 = secondHits ∧
        List.Forall₂ (fun firstHit secondHit => firstHit = true → secondHit = true)
          firstHits secondHits := by
  have firstFound : Percentage.numeral? "33.3pct%".toList = some "33.3".toList := by decide
  have secondFound : Percentage.numeral? "33.30001%".toList = some "33.30001".toList := by decide
  have whole : Nat.ofDigitChars 10 ['3', '3'] 0 = 33 := by decide
  have firstSpells : Numeral.IsNumeralOf "33.3".toList (333 / 10) := by
    have spells := @Numeral.IsNumeralOf.pointed ['3', '3'] ['3'] (by decide)
      (List.all_eq_true.mp rfl) (List.all_eq_true.mp rfl)
    have fraction : Nat.ofDigitChars 10 ['3'] 0 = 3 := by decide
    rw [whole, fraction] at spells
    norm_num at spells
    exact spells
  have secondSpells : Numeral.IsNumeralOf "33.30001".toList (3330001 / 100000) := by
    have spells := @Numeral.IsNumeralOf.pointed ['3', '3'] ['3', '0', '0', '0', '1'] (by decide)
      (List.all_eq_true.mp rfl) (List.all_eq_true.mp rfl)
    have fraction : Nat.ofDigitChars 10 ['3', '0', '0', '0', '1'] 0 = 30001 := by decide
    rw [whole, fraction] at spells
    norm_num at spells
    exact spells
  have firstLongest := Percentage.LongestNumeral.of_numeral? firstFound firstSpells
  have secondLongest := Percentage.LongestNumeral.of_numeral? secondFound secondSpells
  obtain ⟨-, firstPercents, -, firstRead, -⟩ := exists_percents firstFound
  obtain ⟨-, secondPercents, -, secondRead, -⟩ := exists_percents secondFound
  have firstSpelled := ofText?_of_numeral? firstFound firstRead
  have secondSpelled := ofText?_of_numeral? secondFound secondRead
  have atMost : (333 / 10 : ℚ) ≤ 3330001 / 100000 := by norm_num
  refine ⟨_, _, firstSpelled, secondSpelled, firstLongest, secondLongest, atMost, ?_⟩
  intro source
  obtain ⟨firstHits, secondHits, firstRun, secondRun, -, hits, -, -⟩ :=
    flips_mono firstSpelled secondSpelled firstLongest secondLongest atMost 1000 source
  exact ⟨firstHits, secondHits, by rw [firstRun], by rw [secondRun], hits⟩

end Probability

end FaultDrill
