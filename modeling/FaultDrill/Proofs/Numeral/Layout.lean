import FaultDrill.Numeral.Layout
import FaultDrill.Proofs.Numeral.Digits
import FaultDrill.Proofs.Numeral.Shortest

/-!
Decimals as numerals.

Owns: the number that digits with a point among them spell, and the numeral that a decimal without
exponent is written as.

Main statement: what is written spells the number of the decimal (`isNumeralOf_positional`).
-/

namespace FaultDrill.Numeral

theorem isDigit_replicate_zero (count : Nat) :
    ∀ char ∈ List.replicate count '0', char.isDigit = true := by
  intro char member
  rw [List.eq_of_mem_replicate member]
  rfl

/-- A point among digits divides the number that they spell. -/
theorem isNumeralOf_point {whole fraction : List Char} (nonempty : whole ≠ [])
    (isWhole : ∀ char ∈ whole, char.isDigit = true)
    (isFraction : ∀ char ∈ fraction, char.isDigit = true) :
    IsNumeralOf (whole ++ '.' :: fraction)
      (Nat.ofDigitChars 10 (whole ++ fraction) 0 / 10 ^ fraction.length) := by
  have numeral := IsNumeralOf.pointed nonempty isWhole isFraction
  have digits : Nat.ofDigitChars 10 fraction (Nat.ofDigitChars 10 whole 0) =
      10 ^ fraction.length * Nat.ofDigitChars 10 whole 0 + Nat.ofDigitChars 10 fraction 0 :=
    Nat.ofDigitChars_eq_ofDigitChars_zero
  have same : ((10 ^ fraction.length * Nat.ofDigitChars 10 whole 0 +
        Nat.ofDigitChars 10 fraction 0 : Nat) : ℚ) / 10 ^ fraction.length =
      Nat.ofDigitChars 10 whole 0 + Nat.ofDigitChars 10 fraction 0 / 10 ^ fraction.length := by
    push_cast
    rw [add_div, mul_div_cancel_left₀ _ (by positivity)]
  rw [Nat.ofDigitChars_append, digits, same]
  exact numeral

section Digits

variable {digits : List Char} {places : Nat}

theorem isNumeralOf_zeros_after (nonempty : digits ≠ [])
    (isDigit : ∀ char ∈ digits, char.isDigit = true) (count : Nat) :
    IsNumeralOf (digits ++ List.replicate count '0')
      (10 ^ count * Nat.ofDigitChars 10 digits 0 : Nat) := by
  have numeral := IsNumeralOf.whole (List.append_ne_nil_of_left_ne_nil nonempty _)
    (List.forall_mem_append.mpr ⟨isDigit, isDigit_replicate_zero count⟩)
  rw [Nat.ofDigitChars_append, Nat.ofDigitChars_replicate_zero] at numeral
  exact numeral

theorem isNumeralOf_zeros_before (isDigit : ∀ char ∈ digits, char.isDigit = true)
    (short : digits.length ≤ places) :
    IsNumeralOf (['0'] ++ '.' :: (List.replicate (places - digits.length) '0' ++ digits))
      (Nat.ofDigitChars 10 digits 0 / 10 ^ places) := by
  have numeral := @isNumeralOf_point ['0'] _ (by decide) (List.all_eq_true.mp rfl)
    (List.forall_mem_append.mpr
      ⟨isDigit_replicate_zero (places - digits.length), isDigit⟩)
  have leading : Nat.ofDigitChars 10 ['0'] 0 = 0 := by decide
  rw [Nat.ofDigitChars_append, leading, Nat.ofDigitChars_append, Nat.ofDigitChars_replicate_zero,
    Nat.mul_zero, List.length_append, List.length_replicate, Nat.sub_add_cancel short] at numeral
  exact numeral

theorem isNumeralOf_point_within (isDigit : ∀ char ∈ digits, char.isDigit = true)
    (long : places < digits.length) :
    IsNumeralOf
      (digits.take (digits.length - places) ++ '.' :: digits.drop (digits.length - places))
      (Nat.ofDigitChars 10 digits 0 / 10 ^ places) := by
  have nonempty : digits.take (digits.length - places) ≠ [] := by
    rw [ne_eq, List.take_eq_nil_iff, not_or]
    exact ⟨by omega, List.ne_nil_of_length_pos (by omega)⟩
  have numeral := isNumeralOf_point nonempty
    (fun char member => isDigit char (List.mem_of_mem_take member))
    (fun char member => isDigit char (List.drop_subset (digits.length - places) digits member))
  rw [List.take_append_drop, List.length_drop, Nat.sub_sub_self long.le] at numeral
  exact numeral

end Digits

/-! ## Decimals -/

namespace Decimal

theorem number_of_nonneg {decimal : Decimal} (notNegative : 0 ≤ decimal.exponent) :
    decimal.number = (10 ^ decimal.exponent.toNat * decimal.digits : Nat) := by
  unfold number
  rw [← Int.toNat_of_nonneg notNegative, zpow_natCast, Int.toNat_natCast]
  push_cast
  exact mul_comm _ _

theorem number_of_neg {decimal : Decimal} (negative : ¬ 0 ≤ decimal.exponent) :
    decimal.number = decimal.digits / 10 ^ (-decimal.exponent).toNat := by
  have exponent : decimal.exponent = -((-decimal.exponent).toNat : Int) := by omega
  unfold number
  rw [exponent, zpow_neg, zpow_natCast, ← div_eq_mul_inv, neg_neg, Int.toNat_natCast]

end Decimal

/-- What is written without exponent and without mark is a numeral of the number. -/
theorem isNumeralOf_positional (decimal : Decimal) :
    IsNumeralOf (positional false decimal).toList decimal.number := by
  have isDigit : ∀ char ∈ Nat.toDigits 10 decimal.digits, char.isDigit = true := isDigit_toDigits
  have nonempty : Nat.toDigits 10 decimal.digits ≠ [] := Nat.toDigits_ne_nil
  have spell : Nat.ofDigitChars 10 (Nat.toDigits 10 decimal.digits) 0 = decimal.digits :=
    Nat.ofDigitChars_ten_toDigits
  unfold positional
  dsimp only
  generalize Nat.toDigits 10 decimal.digits = digits at *
  split
  case isTrue notNegative =>
    have text : (String.ofList digits ++
        String.ofList (List.replicate decimal.exponent.toNat '0') ++ "").toList =
          digits ++ List.replicate decimal.exponent.toNat '0' := by
      simp
    have numeral := isNumeralOf_zeros_after nonempty isDigit decimal.exponent.toNat
    rw [spell, ← Decimal.number_of_nonneg notNegative, ← text] at numeral
    exact numeral
  case isFalse negative =>
    rw [Decimal.number_of_neg negative, ← spell]
    generalize (-decimal.exponent).toNat = places
    split
    case isTrue short =>
      have text : ("0." ++ String.ofList (List.replicate (places - digits.length) '0') ++
          String.ofList digits).toList =
            ['0'] ++ '.' :: (List.replicate (places - digits.length) '0' ++ digits) := by
        simp
      have numeral := isNumeralOf_zeros_before isDigit short
      rw [← text] at numeral
      exact numeral
    case isFalse long =>
      have text : (String.ofList (digits.take (digits.length - places)) ++ "." ++
          String.ofList (digits.drop (digits.length - places))).toList =
            digits.take (digits.length - places) ++ '.' ::
              digits.drop (digits.length - places) := by
        simp
      rw [text]
      exact isNumeralOf_point_within isDigit (Nat.lt_of_not_le long)

end FaultDrill.Numeral
