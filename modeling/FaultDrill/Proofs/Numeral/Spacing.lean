import FaultDrill.Proofs.Numeral.Decimal
import Mathlib.Algebra.Order.Round
import Mathlib.Data.Rat.Floor

/-!
Distances between numbers and their nearest counts.

Owns:
- a held count as a multiple of its spacing, and the counts at which the spacing changes;
- that a number is at most half a step away from its nearest count, and that less than half a step
  makes a count the nearest.

Does not own: which steps a ratio is rounded with (`Proofs.Numeral.Rounding`).
-/

namespace FaultDrill.Numeral.BinaryFormat

variable {format : BinaryFormat} {number : ℚ} {units significand shift : Nat}

/-- What is held is a multiple of its spacing, by a significand that has all bits unless the spacing
is one. -/
theorem Holds.exists_significand (holds : format.Holds units) (fine : 0 < format.precision) :
    ∃ significand, units = significand * 2 ^ format.spacingBits units ∧
      significand < 2 ^ format.precision ∧
      (format.spacingBits units = 0 ∨ 2 ^ (format.precision - 1) ≤ significand) := by
  have small := lt_two_pow_spacingBits format units
  have multiple : 2 ^ format.spacingBits units ∣ units := by
    rcases Nat.eq_zero_or_pos (format.spacingBits units) with none | spaced
    · rw [none]
      exact one_dvd units
    · exact holds.dvd_of_le fine (two_pow_spacingBits_le fine spaced)
  have same : units = units / 2 ^ format.spacingBits units * 2 ^ format.spacingBits units :=
    (Nat.div_mul_cancel multiple).symm
  refine ⟨units / 2 ^ format.spacingBits units, same, ?_, ?_⟩
  · rw [Nat.pow_add, Nat.mul_comm] at small
    exact Nat.div_lt_of_lt_mul small
  · rcases Nat.eq_zero_or_pos (format.spacingBits units) with none | spaced
    · exact Or.inl none
    · right
      rw [Nat.le_div_iff_mul_le (Nat.two_pow_pos _), ← Nat.pow_add]
      exact two_pow_spacingBits_le fine spaced

/-! ## From distances to nearest counts -/

theorem Spaced.isNearest_of_half (spaced : Spaced format number shift)
    (fine : 2 ≤ format.precision)
    (near : |number - (significand * 2 ^ shift : Nat)| < 2 ^ shift / 2 ∨
      |number - (significand * 2 ^ shift : Nat)| ≤ 2 ^ shift / 2 ∧ significand % 2 = 0) :
    format.IsNearest number (significand * 2 ^ shift) := by
  apply spaced.isNearest fine
  have step : (0 : ℚ) < 2 ^ shift := by positivity
  have scaled := abs_sub_multiple (Nat.two_pow_pos shift) number significand
  rw [scaled, Nat.cast_pow, Nat.cast_ofNat] at near
  rw [Nat.cast_pow, Nat.cast_ofNat]
  rcases near with less | ⟨atMost, even⟩
  · left
    nlinarith
  · have half : |number / 2 ^ shift - significand| ≤ 1 / 2 := by nlinarith
    exact half.lt_or_eq.imp_right fun same => ⟨same, even⟩

/-- The spacing below the count is half of the one above it. -/
def AtBottom (format : BinaryFormat) (units : Nat) : Prop :=
  0 < format.spacingBits units ∧
    units = 2 ^ (format.precision - 1) * 2 ^ format.spacingBits units

/-- A number near to a count lies where the spacing of the count is the step, unless it lies below a
count at which the spacing changes. -/
theorem Holds.spaced_of_half (holds : format.Holds units) (fine : 0 < format.precision)
    (within : ¬ format.AtBottom units ∨ (units : ℚ) ≤ number)
    (near : |number - units| ≤ 2 ^ format.spacingBits units / 2) :
    Spaced format number (format.spacingBits units) := by
  obtain ⟨significand, same, small, normal⟩ := holds.exists_significand fine
  have step : (0 : ℚ) < 2 ^ format.spacingBits units := by positivity
  have multiple : (units : ℚ) = significand * 2 ^ format.spacingBits units := by
    exact_mod_cast same
  rw [abs_le] at near
  constructor
  case below =>
    have atMost : (significand + 1 : ℚ) ≤ 2 ^ format.precision := by exact_mod_cast small
    have scaled := mul_le_mul_of_nonneg_right atMost step.le
    rw [Nat.cast_pow, Nat.cast_ofNat, pow_add]
    linarith
  case least =>
    rcases Nat.eq_zero_or_pos (format.spacingBits units) with none | spaced
    · exact Or.inl none
    · right
      rw [Nat.cast_pow, Nat.cast_ofNat, pow_add]
      rcases (normal.resolve_left spaced.ne').lt_or_eq with greater | rfl
      · have above : (2 ^ (format.precision - 1) + 1 : ℚ) ≤ significand := by
          exact_mod_cast greater
        have scaled := mul_le_mul_of_nonneg_right above step.le
        linarith
      · have atLeast := within.resolve_left (not_not_intro ⟨spaced, same⟩)
        rw [Nat.cast_pow, Nat.cast_ofNat] at multiple
        linarith

/-- A count is the nearest to the numbers less than half a spacing away from it. -/
theorem Holds.isNearest_of_half (holds : format.Holds units) (fine : 2 ≤ format.precision)
    (within : ¬ format.AtBottom units ∨ (units : ℚ) ≤ number)
    (near : |number - units| < 2 ^ format.spacingBits units / 2 ∨
      |number - units| ≤ 2 ^ format.spacingBits units / 2 ∧
        units / 2 ^ format.spacingBits units % 2 = 0) :
    format.IsNearest number units := by
  have spaced := holds.spaced_of_half (by omega) within (near.elim le_of_lt And.left)
  obtain ⟨significand, same, -, -⟩ := holds.exists_significand (by omega)
  rw [Nat.div_eq_of_eq_mul_left (Nat.two_pow_pos _) same] at near
  generalize format.spacingBits units = shift at *
  subst same
  exact spaced.isNearest_of_half fine near

/-! ## From nearest counts to distances -/

/-- Below a range with a step, no number is farther than half of it from its nearest count. -/
theorem IsNearest.abs_sub_le_half (nearest : format.IsNearest number units)
    (fine : 2 ≤ format.precision) (notNegative : 0 ≤ number)
    (below : number < (2 ^ (format.precision + shift) : Nat)) :
    |number - units| ≤ 2 ^ shift / 2 := by
  have step : (0 : ℚ) < 2 ^ shift := by positivity
  have whole : (0 : ℤ) ≤ round (number / 2 ^ shift) := by
    rw [round_eq, Int.floor_nonneg]
    positivity
  obtain ⟨multiple, same⟩ := Int.eq_ofNat_of_zero_le whole
  have near : |number / 2 ^ shift - multiple| ≤ 1 / 2 := by
    have rounded := abs_sub_round (number / 2 ^ shift)
    rw [same] at rounded
    exact_mod_cast rounded
  have small : multiple ≤ 2 ^ format.precision := by
    apply le_two_pow_precision _ below
    rw [Nat.cast_pow, Nat.cast_ofNat]
    exact near
  have distance := nearest.nearest _ (holds_multiple fine small shift)
  rw [abs_sub_multiple (Nat.two_pow_pos shift), Nat.cast_pow, Nat.cast_ofNat] at distance
  calc |number - units| ≤ |number / 2 ^ shift - multiple| * 2 ^ shift := distance
    _ ≤ 1 / 2 * 2 ^ shift := mul_le_mul_of_nonneg_right near step.le
    _ = 2 ^ shift / 2 := by ring

/-- A number is at most half a spacing away from its nearest count. -/
theorem IsNearest.abs_sub_le_half_spacing (nearest : format.IsNearest number units)
    (proper : format.Proper) (notNegative : 0 ≤ number) :
    |number - units| ≤ 2 ^ format.spacingBits units / 2 := by
  apply nearest.abs_sub_le_half proper.precise notNegative
  by_contra notBelow
  have beyond := (proper.holds_two_pow _).isNearest_self.mono (le_of_not_gt notBelow) nearest
  exact absurd (lt_two_pow_spacingBits format units) (Nat.not_lt.mpr beyond)

/-- Between two numbers with the same nearest count lie none with another. -/
theorem IsNearest.of_between {lesser greater : ℚ} (proper : format.Proper)
    (isLesser : format.IsNearest lesser units) (isGreater : format.IsNearest greater units)
    (notNegative : 0 ≤ number) (above : lesser ≤ number) (below : number ≤ greater) :
    format.IsNearest number units := by
  obtain ⟨between, nearest⟩ := proper.exists_isNearest notNegative
  have same : between = units :=
    le_antisymm (nearest.mono below isGreater) (isLesser.mono above nearest)
  rw [← same]
  exact nearest

end FaultDrill.Numeral.BinaryFormat
