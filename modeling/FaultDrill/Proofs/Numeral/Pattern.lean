import FaultDrill.Numeral.BinaryFormat
import Mathlib.Algebra.Order.Field.Rat
import Mathlib.Order.WithBot
import Mathlib.Tactic.FieldSimp
import Mathlib.Tactic.Ring

/-!
The numbers that patterns of 32 bits stand for.

Owns:
- the rational numbers between two infinities, and the one that a value of a format is;
- the fields of a pattern, and the number that they make.

Main statement: the value of a pattern is the number that its fields make (`extended?_ofBits`).
-/

namespace FaultDrill.Numeral

/-- The rational numbers between two infinities. -/
abbrev ExtendedRat := WithBot (WithTop ℚ)

/-- The number that a value of a format is, if it is one. -/
def BinaryFormat.extended? (format : BinaryFormat) : BinaryValue → Option ExtendedRat
  | .notANumber => none
  | .infinite negative => some (if negative then ⊥ else ⊤)
  | .finite negative units =>
    some (((if negative then -1 else 1) * (units / 2 ^ format.fractionBits) : ℚ) : WithTop ℚ)

namespace Pattern

/-- The uppermost bit, which is the sign. -/
def negative (bits : UInt32) : Bool := bits.toNat / 2 ^ 31 % 2 = 1

/-- The eight bits below the sign. -/
def exponent (bits : UInt32) : Nat := bits.toNat / 2 ^ 23 % 2 ^ 8

/-- The lower 23 bits. -/
def fraction (bits : UInt32) : Nat := bits.toNat % 2 ^ 23

/-- The number that a pattern stands for. A one stands before the fraction, except with the least
exponent; the greatest exponent is that of the infinities and of all that is no number. -/
def number? (bits : UInt32) : Option ExtendedRat :=
  let sign : ℚ := if negative bits then -1 else 1
  let part : ℚ := fraction bits / 2 ^ 23
  if exponent bits = 255 then
    if fraction bits = 0 then some (if negative bits then ⊥ else ⊤) else none
  else if exponent bits = 0 then some ((sign * (part * 2 ^ (-126 : ℤ)) : ℚ) : WithTop ℚ)
  else some ((sign * ((1 + part) * 2 ^ ((exponent bits : ℤ) - 127)) : ℚ) : WithTop ℚ)

theorem ofBits_fields (bits : UInt32) :
    binary32.ofBits bits.toNat =
      if exponent bits = 255 then
        if fraction bits = 0 then .infinite (negative bits) else .notANumber
      else if exponent bits = 0 then .finite (negative bits) (fraction bits)
      else .finite (negative bits) ((2 ^ 23 + fraction bits) * 2 ^ (exponent bits - 1)) := by
  have position : binary32.signPosition = 31 := by decide +kernel
  have greatest : binary32.magnitudeBits (Nat.pow 2 binary32.ceilingBits) = 255 * 2 ^ 23 := by
    decide +kernel
  have hidden : Nat.pow 2 (binary32.precision - 1) = 2 ^ 23 := by decide
  have sign : bits.toNat.testBit 31 = negative bits := Nat.testBit_eq_decide_div_mod_eq
  have upper : exponent bits = bits.toNat % 2 ^ 31 / 2 ^ 23 := by
    unfold exponent
    omega
  have lower : fraction bits = bits.toNat % 2 ^ 31 % 2 ^ 23 := by
    unfold fraction
    omega
  have small : bits.toNat % 2 ^ 31 < 256 * 2 ^ 23 := Nat.mod_lt _ (by decide)
  have word : Nat.pow 2 31 = 2 ^ 31 := rfl
  unfold BinaryFormat.ofBits
  simp only [position, greatest, hidden, sign, word]
  rw [upper, lower]
  generalize bits.toNat % 2 ^ 31 = magnitude at small ⊢
  by_cases beyond : 255 * 2 ^ 23 < magnitude
  · rw [if_pos beyond, if_pos (by omega), if_neg (by omega)]
  · rw [if_neg beyond]
    by_cases top : magnitude = 255 * 2 ^ 23
    · rw [if_pos top, if_pos (by omega), if_pos (by omega)]
    · rw [if_neg top]
      by_cases least : magnitude < 2 ^ 23
      · rw [if_pos least, if_neg (by omega), if_pos (by omega), Nat.mod_eq_of_lt least]
      · rw [if_neg least, if_neg (by omega), if_neg (by omega)]
        rfl

/-- The value of a pattern is the number that it stands for. -/
theorem extended?_ofBits (bits : UInt32) :
    binary32.extended? (binary32.ofBits bits.toNat) = number? bits := by
  have units : binary32.fractionBits = 23 + 126 := rfl
  rw [ofBits_fields]
  unfold number?
  dsimp only
  by_cases greatest : exponent bits = 255
  · rw [if_pos greatest, if_pos greatest]
    split <;> rfl
  · rw [if_neg greatest, if_neg greatest]
    by_cases least : exponent bits = 0
    · rw [if_pos least, if_pos least]
      unfold BinaryFormat.extended?
      dsimp only
      rw [units, pow_add, ← div_div, zpow_neg, ← div_eq_mul_inv]
      rfl
    · rw [if_neg least, if_neg least]
      unfold BinaryFormat.extended?
      dsimp only
      have scale : (2 : ℚ) ^ ((exponent bits : ℤ) - 127) = 2 ^ (exponent bits - 1) / 2 ^ 126 := by
        rw [← zpow_natCast, ← zpow_natCast, ← zpow_sub₀ (by norm_num)]
        congr 1
        omega
      have same : ((2 ^ 23 + fraction bits) * 2 ^ (exponent bits - 1) : ℚ) / 2 ^ (23 + 126) =
          (1 + fraction bits / 2 ^ 23) * (2 ^ (exponent bits - 1) / 2 ^ 126) := by
        rw [pow_add]
        field_simp
      rw [scale, ← same, units]
      push_cast
      rfl

end Pattern

end FaultDrill.Numeral
