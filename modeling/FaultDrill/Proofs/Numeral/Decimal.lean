import FaultDrill.Numeral.Literal
import FaultDrill.Proofs.Numeral.Rounding
import Mathlib.Algebra.Order.Field.Power

/-!
Decimal numerals as rounded values.

Owns:
- that very great and very small numbers round to infinity and to nought;
- the number that a numeral without exponent spells.

Main statements: the value of a decimal is its rounded value (`roundsTo_ofDecimal`), hence so is
that of a numeral, which always has one (`exists_ofNumeral?`).
-/

namespace FaultDrill.Numeral

namespace BinaryFormat

/-- What holds of every format: significands have two bits or more, and one is in range. -/
structure Proper (format : BinaryFormat) : Prop where
  precise : 2 ≤ format.precision
  ranging : format.fractionBits ≤ format.ceilingBits

theorem proper_binary32 : binary32.Proper := ⟨by decide, by decide⟩

section Extremes

variable {format : BinaryFormat} {number : ℚ}

/-! ## Extremes -/

theorem holds_zero : format.Holds 0 :=
  ⟨0, 0, Nat.two_pow_pos _, (Nat.zero_mul _).symm⟩

theorem Proper.holds_two_pow (proper : format.Proper) (exponent : Nat) :
    format.Holds (2 ^ exponent) :=
  ⟨1, exponent, Nat.one_lt_two_pow (by have := proper.precise; omega), (Nat.one_mul _).symm⟩

theorem Proper.exists_isNearest (proper : format.Proper) (notNegative : 0 ≤ number) :
    ∃ units, format.IsNearest number units := by
  have ratio : number = (number.num.toNat : ℚ) / number.den := by
    have whole : ((number.num.toNat : Int) : ℚ) = number.num := by
      rw [Int.toNat_of_nonneg (Rat.num_nonneg.mpr notNegative)]
    rw [← Int.cast_natCast, whole, Rat.num_div_den]
  rw [ratio]
  exact ⟨_, isNearest_roundUnits proper.precise _ number.den_pos⟩

theorem Proper.roundsTo_infinite (proper : format.Proper)
    (large : (2 : ℚ) ^ format.ceilingBits ≤ number * 2 ^ format.fractionBits) :
    format.RoundsTo number (.infinite false) := by
  have notNegative : (0 : ℚ) ≤ number * 2 ^ format.fractionBits := le_trans (by positivity) large
  obtain ⟨units, nearest⟩ := proper.exists_isNearest notNegative
  apply RoundsTo.infinite nearest
  have ceiling := (proper.holds_two_pow format.ceilingBits).isNearest_self
  rw [Nat.cast_pow, Nat.cast_ofNat] at ceiling
  exact ceiling.mono large nearest

theorem isNearest_zero (notNegative : 0 ≤ number) (small : number < 1 / 2) :
    format.IsNearest number 0 := by
  have nearer : ∀ other : Nat, other ≠ 0 → |number - (0 : Nat)| < |number - other| := by
    intro other some
    have one : (1 : ℚ) ≤ other := Nat.one_le_cast.mpr (Nat.one_le_iff_ne_zero.mpr some)
    rw [Nat.cast_zero, sub_zero, abs_of_nonneg notNegative, abs_of_neg (by linarith)]
    linarith
  constructor
  case holds => exact holds_zero
  case nearest =>
    intro other _
    rcases eq_or_ne other 0 with rfl | some
    · exact le_rfl
    · exact (nearer other some).le
  case even =>
    intro other _ some tie
    exact absurd tie (nearer other some).ne

theorem roundsTo_zero (notNegative : 0 ≤ number)
    (small : number * 2 ^ format.fractionBits < 1 / 2) :
    format.RoundsTo number (.finite false 0) :=
  RoundsTo.finite (isNearest_zero (by positivity) small) (Nat.two_pow_pos _)

end Extremes

/-! ## Decimals -/

section Decimals

/-- So many digits tell the size of a number. -/
theorem toDigits_bounds {number : Nat} (positive : 0 < number) :
    10 ^ ((Nat.toDigits 10 number).length - 1) ≤ number ∧
      number < 10 ^ (Nat.toDigits 10 number).length := by
  have some : 0 < (Nat.toDigits 10 number).length := Nat.length_toDigits_pos
  refine ⟨?_, (Nat.length_toDigits_le_iff (by decide) some).mp le_rfl⟩
  rcases Nat.eq_zero_or_pos ((Nat.toDigits 10 number).length - 1) with single | several
  · rw [single]
    exact positive
  · by_contra less
    have shorter := (Nat.length_toDigits_le_iff (by decide) several).mpr (Nat.lt_of_not_le less)
    omega

theorem zpow_eq_ratio (exponent : Int) :
    (10 : ℚ) ^ exponent = 10 ^ exponent.toNat / 10 ^ (-exponent).toNat := by
  rcases le_total 0 exponent with notNegative | notPositive
  · have none : (-exponent).toNat = 0 := by omega
    rw [none, pow_zero, div_one, ← zpow_natCast, Int.toNat_of_nonneg notNegative]
  · have none : exponent.toNat = 0 := by omega
    rw [none, pow_zero, one_div, ← zpow_natCast, ← zpow_neg, Int.toNat_of_nonneg (by omega),
      neg_neg]

variable {format : BinaryFormat} {significand : Nat} {exponent : Int}

theorem decimal_large (proper : format.Proper) (positive : 0 < significand)
    (large : (format.ceilingBits : Int) - format.fractionBits ≤
      ((Nat.toDigits 10 significand).length : Int) - 1 + exponent) :
    (2 : ℚ) ^ format.ceilingBits ≤
      significand * (10 : ℚ) ^ exponent * 2 ^ format.fractionBits := by
  obtain ⟨range, ceiling⟩ := Nat.exists_eq_add_of_le proper.ranging
  have some : 0 < (Nat.toDigits 10 significand).length := Nat.length_toDigits_pos
  have digits : (10 : ℚ) ^ (((Nat.toDigits 10 significand).length - 1 : Nat) : Int) ≤
      significand := by
    rw [zpow_natCast]
    exact_mod_cast (toDigits_bounds positive).1
  have powers : (10 : ℚ) ^ range ≤ significand * (10 : ℚ) ^ exponent := by
    calc (10 : ℚ) ^ range = (10 : ℚ) ^ (range : Int) := (zpow_natCast 10 range).symm
      _ ≤ (10 : ℚ) ^ ((((Nat.toDigits 10 significand).length - 1 : Nat) : Int) + exponent) :=
        zpow_le_zpow_right₀ (by norm_num) (by omega)
      _ = (10 : ℚ) ^ (((Nat.toDigits 10 significand).length - 1 : Nat) : Int) *
          (10 : ℚ) ^ exponent := zpow_add₀ (by norm_num) _ _
      _ ≤ significand * (10 : ℚ) ^ exponent :=
        mul_le_mul_of_nonneg_right digits (by positivity)
  have base : (2 : ℚ) ^ range ≤ 10 ^ range := pow_le_pow_left₀ (by norm_num) (by norm_num) range
  rw [ceiling, pow_add, mul_comm]
  exact mul_le_mul_of_nonneg_right (base.trans powers) (by positivity)

theorem decimal_small (positive : 0 < significand)
    (small : ((Nat.toDigits 10 significand).length : Int) + exponent ≤
      -((format.fractionBits : Int) + 1)) :
    significand * (10 : ℚ) ^ exponent * 2 ^ format.fractionBits < 1 / 2 := by
  have digits : (significand : ℚ) < (10 : ℚ) ^ ((Nat.toDigits 10 significand).length : Int) := by
    rw [zpow_natCast]
    exact_mod_cast (toDigits_bounds positive).2
  have powers : significand * (10 : ℚ) ^ exponent < ((10 : ℚ) ^ (format.fractionBits + 1))⁻¹ := by
    calc significand * (10 : ℚ) ^ exponent <
        (10 : ℚ) ^ ((Nat.toDigits 10 significand).length : Int) * (10 : ℚ) ^ exponent :=
          mul_lt_mul_of_pos_right digits (by positivity)
      _ = (10 : ℚ) ^ (((Nat.toDigits 10 significand).length : Int) + exponent) :=
        (zpow_add₀ (by norm_num) _ _).symm
      _ ≤ (10 : ℚ) ^ (-((format.fractionBits + 1 : Nat) : Int)) :=
        zpow_le_zpow_right₀ (by norm_num) (by omega)
      _ = ((10 : ℚ) ^ (format.fractionBits + 1))⁻¹ := by rw [zpow_neg, zpow_natCast]
  have base : ((10 : ℚ) ^ (format.fractionBits + 1))⁻¹ ≤ (2 ^ (format.fractionBits + 1))⁻¹ :=
    inv_anti₀ (by positivity) (pow_le_pow_left₀ (by norm_num) (by norm_num) _)
  calc significand * (10 : ℚ) ^ exponent * 2 ^ format.fractionBits <
      (2 ^ (format.fractionBits + 1))⁻¹ * 2 ^ format.fractionBits :=
        mul_lt_mul_of_pos_right (powers.trans_le base) (by positivity)
    _ = 1 / 2 := by rw [pow_succ]; field_simp

/-- The value of a decimal is its rounded value, also where its power of ten is not built. -/
theorem roundsTo_ofDecimal (proper : format.Proper) (significand : Nat) (exponent : Int) :
    format.RoundsTo (significand * (10 : ℚ) ^ exponent)
      (format.ofDecimal false significand exponent) := by
  unfold ofDecimal
  dsimp only
  split
  · next zero =>
      rw [zero, Nat.cast_zero, zero_mul]
      exact roundsTo_zero le_rfl (by norm_num)
  · next some =>
      have positive := Nat.pos_of_ne_zero some
      split
      · next large => exact proper.roundsTo_infinite (decimal_large proper positive large)
      · split
        · next small => exact roundsTo_zero (by positivity) (decimal_small positive small)
        · apply roundsTo_nearest proper.precise _ (Nat.pow_pos (by decide))
          rw [zpow_eq_ratio]
          change _ = ((significand * 10 ^ exponent.toNat * 2 ^ format.fractionBits : Nat) : ℚ) /
            ((10 ^ (-exponent).toNat : Nat) : ℚ)
          push_cast
          ring

end Decimals

end BinaryFormat

/-! ## Numerals -/

/-- Numerals without exponent with the number that they spell: one or more digits, and perhaps a
point with any number of digits after it. -/
inductive IsNumeralOf : List Char → ℚ → Prop
  | whole {digits : List Char} (nonempty : digits ≠ [])
      (isDigit : ∀ char ∈ digits, char.isDigit = true) :
      IsNumeralOf digits (Nat.ofDigitChars 10 digits 0)
  | pointed {whole fraction : List Char} (nonempty : whole ≠ [])
      (isWhole : ∀ char ∈ whole, char.isDigit = true)
      (isFraction : ∀ char ∈ fraction, char.isDigit = true) :
      IsNumeralOf (whole ++ '.' :: fraction)
        (Nat.ofDigitChars 10 whole 0 + Nat.ofDigitChars 10 fraction 0 / 10 ^ fraction.length)

theorem decimalValue_eq (digits : List Char) :
    decimalValue digits = Nat.ofDigitChars 10 digits 0 := by
  rw [Nat.ofDigitChars_eq_foldl]
  unfold decimalValue
  congr
  funext value digit
  rw [Nat.mul_comm]

theorem takeWhile_of_all {digits : List Char} (isDigit : ∀ char ∈ digits, char.isDigit = true)
    (rest : List Char) (ends : rest.head?.all (!Char.isDigit ·) = true) :
    (digits ++ rest).takeWhile Char.isDigit = digits ∧
      (digits ++ rest).dropWhile Char.isDigit = rest := by
  rw [List.takeWhile_append_of_pos isDigit, List.dropWhile_append_of_pos isDigit]
  cases rest with
  | nil => exact ⟨List.append_nil digits, rfl⟩
  | cons char rest =>
      have notDigit : char.isDigit = false := by simpa using ends
      simp [notDigit]

/-- Numerals are read as the number that they spell. -/
theorem IsNumeralOf.decimal? {chars : List Char} {number : ℚ} (spelled : IsNumeralOf chars number) :
    ∃ significand exponent, decimal? chars = some (significand, exponent) ∧
      number = significand * (10 : ℚ) ^ exponent := by
  cases spelled with
  | whole nonempty isDigit =>
      have parts := takeWhile_of_all isDigit [] rfl
      rw [List.append_nil] at parts
      refine ⟨decimalValue chars, 0, ?_, ?_⟩
      · unfold Numeral.decimal?
        simp [parts, nonempty, exponent?]
      · rw [decimalValue_eq, zpow_zero, mul_one]
  | @pointed whole fraction nonempty isWhole isFraction =>
      have wholeParts := takeWhile_of_all isWhole ('.' :: fraction) rfl
      have fractionParts := takeWhile_of_all isFraction [] rfl
      rw [List.append_nil] at fractionParts
      refine ⟨decimalValue (whole ++ fraction), -(fraction.length : Int), ?_, ?_⟩
      · unfold Numeral.decimal?
        simp [wholeParts, fractionParts, nonempty, exponent?]
      · have positive : (0 : ℚ) < 10 ^ fraction.length := by positivity
        have digits : Nat.ofDigitChars 10 fraction (Nat.ofDigitChars 10 whole 0) =
            10 ^ fraction.length * Nat.ofDigitChars 10 whole 0 + Nat.ofDigitChars 10 fraction 0 :=
          Nat.ofDigitChars_eq_ofDigitChars_zero
        rw [decimalValue_eq, Nat.ofDigitChars_append, digits, zpow_neg, zpow_natCast]
        push_cast
        field_simp

/-- A numeral spells one number. -/
theorem IsNumeralOf.unique {chars : List Char} {first second : ℚ}
    (isFirst : IsNumeralOf chars first) (isSecond : IsNumeralOf chars second) :
    first = second := by
  obtain ⟨significand, exponent, read, rfl⟩ := isFirst.decimal?
  obtain ⟨otherSignificand, otherExponent, readAgain, rfl⟩ := isSecond.decimal?
  rw [read, Option.some.injEq, Prod.mk.injEq] at readAgain
  rw [readAgain.1, readAgain.2]

/-- Every numeral has a value, and this is the rounded value of its number. -/
theorem IsNumeralOf.exists_ofNumeral? {format : BinaryFormat} (proper : format.Proper)
    {chars : List Char} {number : ℚ} (spelled : IsNumeralOf chars number) :
    ∃ value, format.ofNumeral? chars = some value ∧ format.RoundsTo number value := by
  obtain ⟨significand, exponent, read, rfl⟩ := spelled.decimal?
  refine ⟨format.ofDecimal false significand exponent, ?_,
    format.roundsTo_ofDecimal proper significand exponent⟩
  unfold BinaryFormat.ofNumeral?
  rw [read]
  rfl

end FaultDrill.Numeral
