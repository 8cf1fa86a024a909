import FaultDrill.Proofs.Numeral.Pattern
import FaultDrill.Proofs.Probability
import Mathlib.Algebra.Order.Floor.Semiring
import Mathlib.Data.Rat.Floor
import Mathlib.SetTheory.Cardinal.Finite

/-!
How many words hit.

Owns:
- the comparison of the number drawn from a word with the number that a probability is;
- the least word that does not hit, by which some flips are counted.

Does not own: the numbers that patterns stand for (`Proofs.Numeral.Pattern`).

Main statement: whatever its pattern, a probability hits on the words whose drawn number is below
it, and these are as many as its threshold says (`happens_threshold`).
-/

namespace FaultDrill.Probability

open Numeral (BinaryValue ExtendedRat binary32)

/-- The number drawn from a word: its upper 24 bits, in units of `2 ^ -24`. -/
def drawnNumber (word : UInt32) : ℚ := (word >>> 8).toNat / 2 ^ 24

/-- The first word that a probability does not hit on, if words are ordered as numbers; `2 ^ 32` if
it hits on all. -/
inductive Threshold : Option ExtendedRat → Nat → Prop
  | notANumber : Threshold none 0
  | never {number : ExtendedRat} (notPositive : number ≤ 0) : Threshold (some number) 0
  | sometimes {number : ℚ} (positive : 0 < number) (below : number < 1) :
    Threshold (some (number : WithTop ℚ)) (256 * ⌈number * 2 ^ 24⌉₊)
  | always {number : ExtendedRat} (large : 1 ≤ number) : Threshold (some number) (2 ^ 32)

/-! ## Drawn numbers -/

theorem drawnNumber_eq (word : UInt32) : drawnNumber word = drawn word / 2 ^ 24 := by
  unfold drawnNumber drawn
  rw [UInt32.toNat_shiftRight, Nat.shiftRight_eq_div_pow]
  rfl

theorem drawnNumber_nonneg (word : UInt32) : 0 ≤ drawnNumber word := by
  unfold drawnNumber
  positivity

theorem drawnNumber_lt_one (word : UInt32) : drawnNumber word < 1 := by
  have small : drawn word < 2 ^ 24 := by
    have bound := word.toNat_lt
    unfold drawn
    omega
  rw [drawnNumber_eq, div_lt_one (by positivity)]
  exact_mod_cast small

/-- A word hits if its drawn number is below the number of the probability. -/
theorem happens_iff_drawnNumber_lt (value : BinaryValue) (word : UInt32) :
    happens ⟨value⟩ word = true ↔
      ∃ number, binary32.extended? value = some number ∧
        ((drawnNumber word : WithTop ℚ) : ExtendedRat) < number := by
  cases value with
  | notANumber => simp [happens, Numeral.BinaryFormat.extended?]
  | infinite negative =>
      cases negative with
      | true => simp [happens, Numeral.BinaryFormat.extended?]
      | false =>
          have below : ((drawnNumber word : WithTop ℚ) : ExtendedRat) < (⊤ : WithTop ℚ) :=
            WithBot.coe_lt_coe.mpr (WithTop.coe_lt_top _)
          simpa [happens, Numeral.BinaryFormat.extended?] using below
  | finite negative units =>
      have nonneg := drawnNumber_nonneg word
      simp only [happens, Numeral.BinaryFormat.extended?, Option.some.injEq, exists_eq_left',
        WithBot.coe_lt_coe, WithTop.coe_lt_coe]
      cases negative with
      | true =>
          have atMost : (-1 : ℚ) * (units / 2 ^ binary32.fractionBits) ≤ 0 := by
            rw [neg_one_mul, neg_nonpos]
            positivity
          simpa using atMost.trans nonneg
      | false =>
          have scale : (2 : ℚ) ^ binary32.fractionBits =
              2 ^ 24 * 2 ^ (binary32.fractionBits - 24) := by
            rw [← pow_add]
            rfl
          rw [Bool.not_false, Bool.true_and, decide_eq_true_eq, if_neg (by decide), one_mul,
            drawnNumber_eq, scale, ← div_div, lt_div_iff₀ (by positivity), div_mul_eq_mul_div,
            div_lt_div_iff_of_pos_right (by positivity)]
          exact_mod_cast Iff.rfl

/-! ## Thresholds -/

theorem exists_threshold (number : Option ExtendedRat) :
    ∃ threshold, Threshold number threshold := by
  cases number with
  | none => exact ⟨0, Threshold.notANumber⟩
  | some number =>
      by_cases notPositive : number ≤ 0
      · exact ⟨0, Threshold.never notPositive⟩
      · by_cases large : 1 ≤ number
        · exact ⟨2 ^ 32, Threshold.always large⟩
        · rw [not_le] at notPositive large
          obtain ⟨atMostTop, rfl⟩ := WithBot.ne_bot_iff_exists.mp (bot_le.trans_lt notPositive).ne'
          have belowTop : atMostTop < ((1 : ℚ) : WithTop ℚ) := WithBot.coe_lt_coe.mp large
          obtain ⟨rational, rfl⟩ := WithTop.ne_top_iff_exists.mp (belowTop.trans_le le_top).ne
          have positive : ((0 : ℚ) : WithTop ℚ) < rational := WithBot.coe_lt_coe.mp notPositive
          exact ⟨_, Threshold.sometimes (WithTop.coe_lt_coe.mp positive)
            (WithTop.coe_lt_coe.mp belowTop)⟩

theorem Threshold.le {number : Option ExtendedRat} {threshold : Nat}
    (limit : Threshold number threshold) : threshold ≤ 2 ^ 32 := by
  cases limit with
  | notANumber | never | always => decide
  | @sometimes number positive below =>
      have ceiling : ⌈number * 2 ^ 24⌉₊ ≤ 2 ^ 24 := by
        rw [Nat.ceil_le]
        push_cast
        linarith
      omega

/-- The words below the threshold are those whose drawn number is below the number. -/
theorem Threshold.drawnNumber_lt_iff {number : Option ExtendedRat} {threshold : Nat}
    (limit : Threshold number threshold) (word : UInt32) :
    (∃ bound, number = some bound ∧ ((drawnNumber word : WithTop ℚ) : ExtendedRat) < bound) ↔
      word.toNat < threshold := by
  have nonneg : ((0 : ℚ) : WithTop ℚ) ≤ (drawnNumber word : WithTop ℚ) :=
    WithTop.coe_le_coe.mpr (drawnNumber_nonneg word)
  cases limit with
  | notANumber => simp
  | never notPositive =>
      simp only [Option.some.injEq, exists_eq_left', Nat.not_lt_zero, iff_false, not_lt]
      exact notPositive.trans (WithBot.coe_le_coe.mpr nonneg)
  | always large =>
      simp only [Option.some.injEq, exists_eq_left', word.toNat_lt, iff_true]
      have belowOne : ((drawnNumber word : WithTop ℚ) : ExtendedRat) < ((1 : ℚ) : WithTop ℚ) :=
        WithBot.coe_lt_coe.mpr (WithTop.coe_lt_coe.mpr (drawnNumber_lt_one word))
      exact belowOne.trans_le large
  | @sometimes number positive below =>
      simp only [Option.some.injEq, exists_eq_left', WithBot.coe_lt_coe, WithTop.coe_lt_coe]
      rw [drawnNumber_eq, div_lt_iff₀ (by positivity), ← Nat.lt_ceil, Nat.mul_comm]
      exact Nat.div_lt_iff_lt_mul (by decide)

/-- Of all words, as many are below a threshold as it says. -/
theorem card_words {threshold : Nat} (atMost : threshold ≤ 2 ^ 32) :
    Nat.card {word : UInt32 // word.toNat < threshold} = threshold := by
  have numbers : {word : UInt32 // word.toNat < threshold} ≃ Fin threshold :=
    { toFun := fun word => ⟨word.1.toNat, word.2⟩
      invFun := fun index => ⟨UInt32.ofNat index, by
        rw [UInt32.toNat_ofNat_of_lt' (index.2.trans_le atMost)]
        exact index.2⟩
      left_inv := fun word => Subtype.ext UInt32.ofNat_toNat
      right_inv := fun index => Fin.ext (UInt32.toNat_ofNat_of_lt' (index.2.trans_le atMost)) }
  rw [Nat.card_congr numbers, Nat.card_fin]

/-! ## Bias -/

theorem happens_iff_lt_threshold {value : BinaryValue} {threshold : Nat}
    (limit : Threshold (binary32.extended? value) threshold) (word : UInt32) :
    happens ⟨value⟩ word = true ↔ word.toNat < threshold := by
  rw [happens_iff_drawnNumber_lt, limit.drawnNumber_lt_iff]

theorem count_flips {value : BinaryValue} {threshold : Nat}
    (limit : Threshold (binary32.extended? value) threshold) (count : Nat) (source : WordSource) :
    ((flips ⟨value⟩ count).run source).1.count true =
      ((List.range count).map source).countP (·.toNat < threshold) := by
  rw [run_flips, List.count_eq_countP, List.countP_map, List.countP_map]
  apply List.countP_congr
  intro index _
  simpa using happens_iff_lt_threshold limit (source index)

/-- Whatever its pattern, a probability hits on the words whose drawn number is below the number of
the pattern. These are as many as the threshold of that number says, and some flips hit as often as
their words are below the threshold. -/
theorem happens_threshold (bits : UInt32) :
    (∀ word, happens ⟨binary32.ofBits bits.toNat⟩ word = true ↔
        ∃ number, Numeral.Pattern.number? bits = some number ∧
          ((drawnNumber word : WithTop ℚ) : ExtendedRat) < number) ∧
      ∃ threshold, Threshold (Numeral.Pattern.number? bits) threshold ∧
        Nat.card {word // happens ⟨binary32.ofBits bits.toNat⟩ word = true} = threshold ∧
        ∀ count (source : WordSource),
          ((flips ⟨binary32.ofBits bits.toNat⟩ count).run source).1.count true =
            ((List.range count).map source).countP (·.toNat < threshold) := by
  rw [← Numeral.Pattern.extended?_ofBits]
  refine ⟨happens_iff_drawnNumber_lt _, ?_⟩
  obtain ⟨threshold, limit⟩ := exists_threshold (binary32.extended? (binary32.ofBits bits.toNat))
  refine ⟨threshold, limit, ?_, count_flips limit⟩
  rw [Nat.card_congr (Equiv.subtypeEquivRight (happens_iff_lt_threshold limit)),
    card_words limit.le]

end FaultDrill.Probability
