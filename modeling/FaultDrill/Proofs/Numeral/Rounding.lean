import FaultDrill.Numeral.BinaryFormat
import Mathlib.Algebra.Order.Field.Rat
import Mathlib.Data.Nat.Cast.Order.Field
import Mathlib.Tactic.FieldSimp
import Mathlib.Tactic.Linarith
import Mathlib.Tactic.Positivity
import Mathlib.Tactic.Ring

/-!
Rounding of rational numbers to the values of a format, ties to even.

Owns:
- the counts of units that a format can hold, and those that it holds with an even significand;
- what makes one of them the nearest to a number, and what makes a value the rounded one;
- that a number has one rounded value, and that a greater number has no lesser one.

Main statement: `BinaryFormat.nearest` gives the rounded value of a ratio (`roundsTo_nearest`).

Nearness is told with the range open at its upper end. A number whose nearest count reaches the
ceiling rounds to infinity.
-/

namespace FaultDrill.Numeral

/-- The order of the values that are not negative. -/
inductive BinaryValue.AtMost : BinaryValue → BinaryValue → Prop
  | finite {lesser greater : Nat} (atMost : lesser ≤ greater) :
    AtMost (.finite false lesser) (.finite false greater)
  | beyond (lesser : Nat) : AtMost (.finite false lesser) (.infinite false)
  | infinite : AtMost (.infinite false) (.infinite false)

namespace BinaryFormat

open BinaryValue (AtMost)

/-- The counts of units that a format holds, its range aside: fewer than `2 ^ precision` times a
power of two. -/
def Holds (format : BinaryFormat) (units : Nat) : Prop :=
  ∃ significand shift, significand < 2 ^ format.precision ∧ units = significand * 2 ^ shift

/-- The counts of units that a format holds with an even significand. -/
def HoldsEvenly (format : BinaryFormat) (units : Nat) : Prop :=
  ∃ half shift, 2 * half < 2 ^ format.precision ∧ units = 2 * half * 2 ^ shift

/-- The count of units nearest to a number; if another one is as near, the significand is even. -/
structure IsNearest (format : BinaryFormat) (number : ℚ) (units : Nat) : Prop where
  holds : format.Holds units
  nearest : ∀ other, format.Holds other → |number - units| ≤ |number - other|
  even : ∀ other, format.Holds other → other ≠ units → |number - units| = |number - other| →
    format.HoldsEvenly units

/-- The rounded value of a number that is not negative. -/
inductive RoundsTo (format : BinaryFormat) (number : ℚ) : BinaryValue → Prop
  | finite {units : Nat} (nearest : format.IsNearest (number * 2 ^ format.fractionBits) units)
      (below : units < 2 ^ format.ceilingBits) : RoundsTo format number (.finite false units)
  | infinite {units : Nat} (nearest : format.IsNearest (number * 2 ^ format.fractionBits) units)
      (beyond : 2 ^ format.ceilingBits ≤ units) : RoundsTo format number (.infinite false)

/-! ## Nearness -/

/-- The lesser of two numbers is as near as the greater one up to the middle between them. -/
theorem abs_sub_le_iff_of_lt {lesser greater : ℚ} (less : lesser < greater) (number : ℚ) :
    |number - lesser| ≤ |number - greater| ↔ 2 * number ≤ lesser + greater := by
  rcases abs_cases (number - lesser) with ⟨one, _⟩ | ⟨one, _⟩ <;>
    rcases abs_cases (number - greater) with ⟨two, _⟩ | ⟨two, _⟩ <;>
    rw [one, two] <;> constructor <;> intro <;> linarith

theorem abs_sub_ge_iff_of_lt {lesser greater : ℚ} (less : lesser < greater) (number : ℚ) :
    |number - greater| ≤ |number - lesser| ↔ lesser + greater ≤ 2 * number := by
  rcases abs_cases (number - lesser) with ⟨one, _⟩ | ⟨one, _⟩ <;>
    rcases abs_cases (number - greater) with ⟨two, _⟩ | ⟨two, _⟩ <;>
    rw [one, two] <;> constructor <;> intro <;> linarith

section Nearness

variable {format : BinaryFormat} {first second : Nat} {number : ℚ}

/-- Two multiples of a step are a step apart. -/
theorem add_le_of_dvd {step : Nat} (firstMultiple : step ∣ first) (secondMultiple : step ∣ second)
    (less : first < second) : first + step ≤ second := by
  have apart := Nat.le_of_dvd (Nat.sub_pos_of_lt less)
    (Nat.dvd_sub secondMultiple firstMultiple)
  omega

theorem dvd_of_even {half shift least : Nat} (atMost : least ≤ shift) :
    2 * 2 ^ least ∣ 2 * half * 2 ^ shift := by
  rw [Nat.mul_right_comm]
  exact Dvd.dvd.mul_right (Nat.mul_dvd_mul_left 2 (Nat.pow_dvd_pow 2 atMost)) half

/-- Between two counts with even significands lies another one. -/
theorem exists_between (lower : format.HoldsEvenly first) (upper : format.HoldsEvenly second)
    (less : first < second) : ∃ between, format.Holds between ∧ first < between ∧
      between < second := by
  obtain ⟨lowHalf, lowShift, lowSmall, rfl⟩ := lower
  obtain ⟨highHalf, highShift, highSmall, rfl⟩ := upper
  -- The finer of the two grids has a point next to the count that lies on it.
  by_cases finer : lowShift ≤ highShift
  · have apart := add_le_of_dvd (dvd_of_even le_rfl) (dvd_of_even finer) less
    have positive : 0 < 2 ^ lowShift := Nat.two_pow_pos lowShift
    have odd : 2 * lowHalf + 1 < 2 ^ format.precision := by
      cases precision : format.precision with
      | zero =>
          have nought : highHalf = 0 := by rw [precision] at highSmall; omega
          rw [nought, Nat.mul_zero, Nat.zero_mul] at less
          omega
      | succ rest =>
          rw [precision, Nat.pow_succ] at lowSmall
          rw [Nat.pow_succ]
          omega
    refine ⟨(2 * lowHalf + 1) * 2 ^ lowShift, ⟨_, _, odd, rfl⟩, ?_, ?_⟩ <;>
      rw [Nat.add_mul] <;> omega
  · have coarser : highShift ≤ lowShift := Nat.le_of_not_le finer
    have apart := add_le_of_dvd (dvd_of_even coarser) (dvd_of_even le_rfl) less
    have positive : 0 < 2 ^ highShift := Nat.two_pow_pos highShift
    refine ⟨(2 * highHalf - 1) * 2 ^ highShift, ⟨_, _, by omega, rfl⟩, ?_, ?_⟩ <;>
      rw [Nat.sub_mul] <;> omega

theorem IsNearest.not_lt (isFirst : format.IsNearest number first)
    (isSecond : format.IsNearest number second) : ¬ first < second := by
  intro less
  have order : (first : ℚ) < second := Nat.cast_lt.mpr less
  have nearFirst := isFirst.nearest second isSecond.holds
  have nearSecond := isSecond.nearest first isFirst.holds
  have tie := le_antisymm nearFirst nearSecond
  have lower := isFirst.even second isSecond.holds less.ne' tie
  have upper := isSecond.even first isFirst.holds less.ne tie.symm
  obtain ⟨between, holds, above, below⟩ := exists_between lower upper less
  have above' : (first : ℚ) < between := Nat.cast_lt.mpr above
  have below' : (between : ℚ) < second := Nat.cast_lt.mpr below
  -- The number lies in the middle, hence nearer to what lies between.
  have low := (abs_sub_le_iff_of_lt above' number).mp (isFirst.nearest between holds)
  have middle := (abs_sub_ge_iff_of_lt order number).mp nearSecond
  linarith

/-- Only one count is the nearest. -/
theorem IsNearest.unique (isFirst : format.IsNearest number first)
    (isSecond : format.IsNearest number second) : first = second := by
  have notLess := isFirst.not_lt isSecond
  have notGreater := isSecond.not_lt isFirst
  omega

/-- A greater number has no lesser count nearest to it. -/
theorem IsNearest.mono {greater : ℚ} (atMost : number ≤ greater)
    (isFirst : format.IsNearest number first) (isSecond : format.IsNearest greater second) :
    first ≤ second := by
  by_contra notAtMost
  have less : second < first := Nat.lt_of_not_le notAtMost
  have order : (second : ℚ) < first := Nat.cast_lt.mpr less
  have lower := (abs_sub_ge_iff_of_lt order number).mp
    (isFirst.nearest second isSecond.holds)
  have upper := (abs_sub_le_iff_of_lt order greater).mp
    (isSecond.nearest first isFirst.holds)
  have same : number = greater := by linarith
  rw [same] at isFirst
  exact less.ne (isSecond.unique isFirst)

/-- A count that is held is the nearest to itself. -/
theorem Holds.isNearest_self {units : Nat} (holds : format.Holds units) :
    format.IsNearest units units where
  holds := holds
  nearest := by
    intro other _
    rw [sub_self, abs_zero]
    exact abs_nonneg _
  even := by
    intro other _ differ tie
    rw [sub_self, abs_zero, eq_comm, abs_eq_zero, sub_eq_zero, Nat.cast_inj] at tie
    exact absurd tie.symm differ

end Nearness

/-! ## Multiples of the spacing -/

section Multiples

/-- The distance of a ratio from its rounded count is at most one half, and then only if the count
is even. -/
theorem abs_sub_roundHalfEven (numerator : Nat) {denominator : Nat} (positive : 0 < denominator) :
    |(numerator / denominator : ℚ) - roundHalfEven numerator denominator| < 1 / 2 ∨
      |(numerator / denominator : ℚ) - roundHalfEven numerator denominator| = 1 / 2 ∧
        roundHalfEven numerator denominator % 2 = 0 := by
  have above : (0 : ℚ) < denominator := Nat.cast_pos.mpr positive
  have parts : (numerator / denominator : ℚ) =
      (numerator / denominator : Nat) + (numerator % denominator : Nat) / denominator := by
    rw [eq_comm, ← eq_sub_iff_add_eq']
    field_simp
    have division : (denominator : ℚ) * (numerator / denominator : Nat) +
        (numerator % denominator : Nat) = numerator := by
      exact_mod_cast Nat.div_add_mod numerator denominator
    linarith
  have rest : (0 : ℚ) ≤ (numerator % denominator : Nat) / denominator := by positivity
  have restBelow : ((numerator % denominator : Nat) / denominator : ℚ) < 1 := by
    rw [div_lt_one above]
    exact Nat.cast_lt.mpr (Nat.mod_lt _ positive)
  rw [parts]
  unfold roundHalfEven
  dsimp only
  split
  · next low =>
      left
      have low' : ((numerator % denominator : Nat) / denominator : ℚ) < 1 / 2 := by
        rw [div_lt_div_iff₀ above two_pos]
        exact_mod_cast (by omega)
      rw [abs_lt]
      constructor <;> linarith
  · next notLow =>
      split
      · next high =>
          left
          have high' : (1 / 2 : ℚ) < (numerator % denominator : Nat) / denominator := by
            rw [div_lt_div_iff₀ two_pos above]
            exact_mod_cast (by omega)
          rw [abs_lt, Nat.cast_add, Nat.cast_one]
          constructor <;> linarith
      · next notHigh =>
          right
          have half : ((numerator % denominator : Nat) / denominator : ℚ) = 1 / 2 := by
            rw [div_eq_div_iff above.ne' two_ne_zero]
            exact_mod_cast (by omega)
          rw [half]
          rcases Nat.mod_two_eq_zero_or_one (numerator / denominator) with even | odd
          · rw [even]
            refine ⟨?_, by omega⟩
            rw [abs_eq (by norm_num)]
            left
            push_cast
            ring
          · rw [odd]
            refine ⟨?_, by omega⟩
            rw [abs_eq (by norm_num)]
            right
            push_cast
            ring

theorem abs_sub_multiple {spacing : Nat} (positive : 0 < spacing) (number : ℚ) (count : Nat) :
    |number - (count * spacing : Nat)| = |number / spacing - count| * spacing := by
  have above : (0 : ℚ) < spacing := Nat.cast_pos.mpr positive
  rw [← abs_of_pos above, ← abs_mul, abs_of_pos above, sub_mul, div_mul_cancel₀ _ above.ne',
    Nat.cast_mul]

/-- Half a step from one multiple is no more than the distance from any other. -/
theorem half_le_of_ne {number : ℚ} {count other : Nat} (near : |number - count| ≤ 1 / 2)
    (differ : other ≠ count) : 1 / 2 ≤ |number - other| := by
  have apart : (1 : ℚ) ≤ |(count : ℚ) - other| := by
    have whole : (1 : Int) ≤ |(count : Int) - other| :=
      Int.one_le_abs (sub_ne_zero.mpr (by exact_mod_cast differ.symm))
    exact_mod_cast whole
  have way := abs_sub_le (count : ℚ) number other
  rw [abs_sub_comm (count : ℚ) number] at way
  linarith

variable {format : BinaryFormat}

theorem lt_two_pow_spacingBits (format : BinaryFormat) (units : Nat) :
    units < 2 ^ (format.precision + format.spacingBits units) := by
  unfold spacingBits
  exact Nat.lt_of_lt_of_le Nat.lt_log2_self (Nat.pow_le_pow_right two_pos (by omega))

theorem two_pow_spacingBits_le {units : Nat} (fine : 0 < format.precision)
    (spaced : 0 < format.spacingBits units) :
    2 ^ (format.precision - 1 + format.spacingBits units) ≤ units := by
  unfold spacingBits at spaced ⊢
  have nonzero : units ≠ 0 := by
    intro zero
    rw [zero, Nat.log2_zero] at spaced
    omega
  have exponent : format.precision - 1 + (units.log2 + 1 - format.precision) = units.log2 := by
    omega
  rw [exponent]
  exact Nat.log2_self_le nonzero

/-- What is held and large is a multiple of a large step. -/
theorem Holds.dvd_of_le {units shift : Nat} (holds : format.Holds units)
    (fine : 0 < format.precision) (large : 2 ^ (format.precision - 1 + shift) ≤ units) :
    2 ^ shift ∣ units := by
  obtain ⟨significand, exponent, small, rfl⟩ := holds
  by_cases coarse : shift ≤ exponent
  · exact Dvd.dvd.mul_left (Nat.pow_dvd_pow 2 coarse) significand
  · have below : significand * 2 ^ exponent < 2 ^ format.precision * 2 ^ exponent :=
      Nat.mul_lt_mul_of_pos_right small (Nat.two_pow_pos exponent)
    rw [← Nat.pow_add] at below
    have exponents : format.precision + exponent ≤ format.precision - 1 + shift := by omega
    have atMost := Nat.pow_le_pow_right two_pos exponents
    omega

theorem holds_multiple {count : Nat} (fine : 2 ≤ format.precision)
    (small : count ≤ 2 ^ format.precision) (shift : Nat) : format.Holds (count * 2 ^ shift) := by
  rcases small.lt_or_eq with below | rfl
  · exact ⟨count, shift, below, rfl⟩
  · refine ⟨1, format.precision + shift, Nat.one_lt_two_pow (by omega), ?_⟩
    rw [Nat.one_mul, Nat.pow_add]

theorem holdsEvenly_multiple {count : Nat} (fine : 2 ≤ format.precision)
    (small : count ≤ 2 ^ format.precision) (even : count % 2 = 0) (shift : Nat) :
    format.HoldsEvenly (count * 2 ^ shift) := by
  rcases small.lt_or_eq with below | rfl
  · refine ⟨count / 2, shift, by omega, ?_⟩
    rw [Nat.mul_div_cancel' (Nat.dvd_of_mod_eq_zero even)]
  · obtain ⟨rest, precision⟩ := Nat.exists_eq_add_of_le fine
    refine ⟨1, 1 + rest + shift, ?_, ?_⟩
    · rw [precision, Nat.pow_add]
      have positive := Nat.two_pow_pos rest
      omega
    · rw [precision, Nat.mul_one, ← Nat.pow_add, ← Nat.pow_succ']
      congr 1
      omega

variable {number : ℚ} {count shift : Nat}

theorem abs_sub_le_multiple (near : |number / (2 ^ shift : Nat) - count| ≤ 1 / 2) (other : Nat) :
    |number - (count * 2 ^ shift : Nat)| ≤ |number - (other * 2 ^ shift : Nat)| := by
  rw [abs_sub_multiple (Nat.two_pow_pos shift), abs_sub_multiple (Nat.two_pow_pos shift)]
  by_cases same : other = count
  · rw [same]
  · apply mul_le_mul_of_nonneg_right (near.trans (half_le_of_ne near same))
    exact Nat.cast_nonneg _

theorem le_two_pow_precision (near : |number / (2 ^ shift : Nat) - count| ≤ 1 / 2)
    (below : number < (2 ^ (format.precision + shift) : Nat)) :
    count ≤ 2 ^ format.precision := by
  have scaled : number / (2 ^ shift : Nat) < (2 ^ format.precision : Nat) := by
    rw [div_lt_iff₀ (Nat.cast_pos.mpr (Nat.two_pow_pos shift)), ← Nat.cast_mul, ← Nat.pow_add]
    exact below
  rw [abs_le] at near
  have close : (count : ℚ) < (2 ^ format.precision + 1 : Nat) := by
    rw [Nat.cast_add, Nat.cast_one]
    linarith [near.1]
  exact Nat.lt_succ_iff.mp (Nat.cast_lt.mp close)

/-- A number lies among the multiples of a step that are held, or in the range where there is no
finer step. -/
structure Spaced (format : BinaryFormat) (number : ℚ) (shift : Nat) : Prop where
  below : number < (2 ^ (format.precision + shift) : Nat)
  least : shift = 0 ∨ (2 ^ (format.precision - 1 + shift) : Nat) ≤ number

/-- What is held is a multiple of the step, or it lies below all numbers that are so spaced. -/
theorem Spaced.multiple_or_farther (spaced : Spaced format number shift)
    (fine : 0 < format.precision) (near : |number / (2 ^ shift : Nat) - count| ≤ 1 / 2)
    {other : Nat} (holds : format.Holds other) :
    (∃ multiple, other = multiple * 2 ^ shift) ∨
      |number - (count * 2 ^ shift : Nat)| < |number - other| := by
  by_cases large : shift = 0 ∨ 2 ^ (format.precision - 1 + shift) ≤ other
  · left
    rcases large with zero | large
    · exact ⟨other, by rw [zero, Nat.pow_zero, Nat.mul_one]⟩
    · obtain ⟨multiple, same⟩ := holds.dvd_of_le fine large
      exact ⟨multiple, by rw [same, Nat.mul_comm]⟩
  · right
    rw [not_or, not_le] at large
    have least := spaced.least.resolve_left large.1
    have toLeast := abs_sub_le_multiple near (2 ^ (format.precision - 1))
    rw [← Nat.pow_add, abs_of_nonneg (sub_nonneg.mpr least)] at toLeast
    have below : (other : ℚ) < (2 ^ (format.precision - 1 + shift) : Nat) :=
      Nat.cast_lt.mpr large.2
    rw [abs_of_pos (by linarith : 0 < number - other)]
    linarith

/-- The multiple of the step that is nearest, ties to even, is the nearest count that is held. -/
theorem Spaced.isNearest (spaced : Spaced format number shift) (fine : 2 ≤ format.precision)
    (rounded : |number / (2 ^ shift : Nat) - count| < 1 / 2 ∨
      |number / (2 ^ shift : Nat) - count| = 1 / 2 ∧ count % 2 = 0) :
    format.IsNearest number (count * 2 ^ shift) := by
  have near : |number / (2 ^ shift : Nat) - count| ≤ 1 / 2 := by
    rcases rounded with less | ⟨same, -⟩
    · exact less.le
    · exact same.le
  have small := le_two_pow_precision near spaced.below
  constructor
  case holds => exact holds_multiple fine small shift
  case nearest =>
    intro other holds
    rcases spaced.multiple_or_farther (by omega) near holds with ⟨multiple, rfl⟩ | farther
    · exact abs_sub_le_multiple near multiple
    · exact farther.le
  case even =>
    intro other holds differ tie
    rcases spaced.multiple_or_farther (by omega) near holds with ⟨multiple, rfl⟩ | farther
    · have positive : (0 : ℚ) < (2 ^ shift : Nat) := Nat.cast_pos.mpr (Nat.two_pow_pos shift)
      rw [abs_sub_multiple (Nat.two_pow_pos shift), abs_sub_multiple (Nat.two_pow_pos shift),
        mul_left_inj' positive.ne'] at tie
      have half := half_le_of_ne near fun same => differ (congrArg (· * 2 ^ shift) same)
      rcases rounded with less | ⟨-, even⟩
      · linarith
      · exact holdsEvenly_multiple fine small even shift
    · exact absurd tie farther.ne

theorem spaced_spacingBits (fine : 0 < format.precision) (numerator : Nat) {denominator : Nat}
    (positive : 0 < denominator) :
    Spaced format (numerator / denominator) (format.spacingBits (numerator / denominator)) where
  below := by
    rw [div_lt_iff₀ (Nat.cast_pos.mpr positive)]
    have floor := lt_two_pow_spacingBits format (numerator / denominator)
    rw [Nat.div_lt_iff_lt_mul positive] at floor
    exact_mod_cast floor
  least := by
    rcases Nat.eq_zero_or_pos (format.spacingBits (numerator / denominator)) with none | some
    · exact Or.inl none
    · exact Or.inr ((Nat.cast_le.mpr (two_pow_spacingBits_le fine some)).trans Nat.cast_div_le)

/-- The rounded count of a ratio is the one nearest to it. -/
theorem isNearest_roundUnits (fine : 2 ≤ format.precision) (numerator : Nat) {denominator : Nat}
    (positive : 0 < denominator) :
    format.IsNearest (numerator / denominator) (format.roundUnits numerator denominator) := by
  apply (spaced_spacingBits (by omega) numerator positive).isNearest fine
  have rounded := abs_sub_roundHalfEven numerator
    (Nat.mul_pos positive (Nat.two_pow_pos (format.spacingBits (numerator / denominator))))
  rw [Nat.cast_mul, ← div_div] at rounded
  exact rounded

end Multiples

/-! ## Values -/

section Values

variable {format : BinaryFormat} {number : ℚ} {first second : BinaryValue}

/-- The value of a nearest count is the rounded one. -/
theorem IsNearest.roundsTo {units : Nat}
    (nearest : format.IsNearest (number * 2 ^ format.fractionBits) units) :
    format.RoundsTo number (format.ofUnits false units) := by
  unfold ofUnits
  split
  · next below => exact RoundsTo.finite nearest below
  · next beyond => exact RoundsTo.infinite nearest (Nat.le_of_not_lt beyond)

theorem RoundsTo.exists_nearest (rounds : format.RoundsTo number first) :
    ∃ units, format.IsNearest (number * 2 ^ format.fractionBits) units ∧
      first = format.ofUnits false units := by
  cases rounds with
  | finite nearest below => exact ⟨_, nearest, (if_pos below).symm⟩
  | infinite nearest beyond => exact ⟨_, nearest, (if_neg (Nat.not_lt.mpr beyond)).symm⟩

/-- A number has only one rounded value. -/
theorem RoundsTo.unique (isFirst : format.RoundsTo number first)
    (isSecond : format.RoundsTo number second) : first = second := by
  obtain ⟨firstUnits, firstNearest, rfl⟩ := isFirst.exists_nearest
  obtain ⟨secondUnits, secondNearest, rfl⟩ := isSecond.exists_nearest
  rw [firstNearest.unique secondNearest]

/-- A count that is held is the value of the number that it stands for. -/
theorem Holds.roundsTo {units : Nat} (holds : format.Holds units)
    (below : units < 2 ^ format.ceilingBits) :
    format.RoundsTo (units / 2 ^ format.fractionBits) (.finite false units) := by
  apply RoundsTo.finite _ below
  rw [div_mul_cancel₀ _ (by positivity)]
  exact holds.isNearest_self

/-- The value nearest to a ratio is its rounded value. -/
theorem roundsTo_nearest (fine : 2 ≤ format.precision) (numerator : Nat) {denominator : Nat}
    (positive : 0 < denominator) (ratio : number * 2 ^ format.fractionBits =
      numerator / denominator) :
    format.RoundsTo number (format.nearest false numerator denominator) := by
  apply IsNearest.roundsTo
  rw [ratio]
  exact isNearest_roundUnits fine numerator positive

theorem ofUnits_atMost {lesser greater : Nat} (atMost : lesser ≤ greater) :
    AtMost (format.ofUnits false lesser) (format.ofUnits false greater) := by
  unfold ofUnits
  by_cases within : greater < Nat.pow 2 format.ceilingBits
  · rw [if_pos within, if_pos (Nat.lt_of_le_of_lt atMost within)]
    exact AtMost.finite atMost
  · rw [if_neg within]
    split
    · exact AtMost.beyond lesser
    · exact AtMost.infinite

/-- A greater number has no lesser rounded value. -/
theorem RoundsTo.mono {greater : ℚ} (atMost : number ≤ greater)
    (isFirst : format.RoundsTo number first) (isSecond : format.RoundsTo greater second) :
    AtMost first second := by
  obtain ⟨firstUnits, firstNearest, rfl⟩ := isFirst.exists_nearest
  obtain ⟨secondUnits, secondNearest, rfl⟩ := isSecond.exists_nearest
  apply ofUnits_atMost
  apply firstNearest.mono _ secondNearest
  exact mul_le_mul_of_nonneg_right atMost (by positivity)

end Values

end BinaryFormat

end FaultDrill.Numeral
