import FaultDrill.Numeral.Shortest
import FaultDrill.Proofs.Numeral.Spacing

/-!
Shortest decimals read back.

Owns:
- the number that a decimal stands for;
- that the numbers in the interval around a count round to that count;
- that the search finds a grid with a point in that interval.

Does not own: how a decimal is written (`Proofs.Numeral.Layout`).

Main statement: the shortest decimal of a count rounds to that count (`roundsTo_shortest`).
-/

namespace FaultDrill.Numeral

open BinaryFormat (RoundsTo Spaced lt_two_pow_spacingBits roundsTo_zero toDigits_bounds
  two_pow_spacingBits_le zpow_eq_ratio)

variable {format : BinaryFormat} {units : Nat}

/-! ## Decimals -/

namespace Decimal

/-- The number that a decimal stands for. -/
def number (decimal : Decimal) : ℚ := decimal.digits * (10 : ℚ) ^ decimal.exponent

theorem number_trimmed (decimal : Decimal) (bound : Nat) :
    (decimal.trimmed bound).number = decimal.number := by
  induction bound generalizing decimal with
  | zero => rfl
  | succ bound inductionHypothesis =>
      unfold trimmed
      split
      · next ends =>
          have digits : (decimal.digits : ℚ) = (decimal.digits / 10 : Nat) * 10 := by
            exact_mod_cast (Nat.div_mul_cancel (Nat.dvd_of_mod_eq_zero ends.2)).symm
          rw [inductionHypothesis]
          unfold number
          rw [digits, zpow_add_one₀ (by norm_num)]
          ring
      · rfl

end Decimal

/-! ## Intervals -/

namespace RoundingInterval

/-- A number of quarter units lies in an interval. -/
def Includes (interval : RoundingInterval) (quarters : ℚ) : Prop :=
  (interval.lower < quarters ∧ quarters < interval.upper) ∨
    interval.closed = true ∧ interval.lower ≤ quarters ∧ quarters ≤ interval.upper

theorem contains_iff (interval : RoundingInterval) (numerator : Nat) {denominator : Nat}
    (positive : 0 < denominator) :
    interval.contains numerator denominator = true ↔
      interval.Includes (numerator / denominator) := by
  have above : (0 : ℚ) < denominator := Nat.cast_pos.mpr positive
  obtain ⟨lower, upper, closed⟩ := interval
  unfold contains Includes
  rw [lt_div_iff₀ above, div_lt_iff₀ above, le_div_iff₀ above, div_le_iff₀ above]
  cases closed with
  | false =>
      simp only [Bool.false_eq_true, if_false, Bool.and_eq_true, decide_eq_true_eq, false_and,
        or_false]
      exact_mod_cast Iff.rfl
  | true =>
      simp only [if_true, Bool.and_eq_true, decide_eq_true_eq, true_and]
      norm_cast
      constructor
      · exact Or.inr
      · rintro (⟨above, below⟩ | inside)
        · exact ⟨above.le, below.le⟩
        · exact inside

theorem Includes.bounds {interval : RoundingInterval} {quarters : ℚ}
    (inside : interval.Includes quarters) :
    interval.lower ≤ quarters ∧ quarters ≤ interval.upper := by
  rcases inside with ⟨above, below⟩ | ⟨-, inside⟩
  · exact ⟨above.le, below.le⟩
  · exact inside

/-! ## The interval around a count -/

theorem spacing_le (fine : 0 < format.precision) (positive : 0 < units) :
    2 ^ format.spacingBits units ≤ units := by
  rcases Nat.eq_zero_or_pos (format.spacingBits units) with none | spaced
  · rw [none]
    exact positive
  · exact (Nat.pow_le_pow_right two_pos (Nat.le_add_left _ _)).trans
      (two_pow_spacingBits_le fine spaced)

theorem upper_around (format : BinaryFormat) (units : Nat) :
    ((around format units).upper : ℚ) = 4 * units + 2 * 2 ^ format.spacingBits units := by
  have upper : (around format units).upper = 4 * units + 2 * 2 ^ format.spacingBits units := rfl
  rw [upper]
  push_cast
  ring

theorem lower_of_atBottom (fine : 0 < format.precision) (positive : 0 < units)
    (bottom : format.AtBottom units) :
    ((around format units).lower : ℚ) = 4 * units - 2 ^ format.spacingBits units := by
  have step := spacing_le fine positive
  have wide : Nat.pow 2 (format.spacingBits units) ≠ 1 :=
    (Nat.one_lt_two_pow bottom.1.ne').ne'
  have lower : (around format units).lower = 4 * units - 2 ^ format.spacingBits units := by
    unfold around
    dsimp only
    rw [if_pos ⟨wide, bottom.2⟩]
    rfl
  rw [lower, Nat.cast_sub (by omega)]
  push_cast
  ring

theorem lower_of_not_atBottom (fine : 0 < format.precision) (positive : 0 < units)
    (notBottom : ¬ format.AtBottom units) :
    ((around format units).lower : ℚ) = 4 * units - 2 * 2 ^ format.spacingBits units := by
  have step := spacing_le fine positive
  have lower : (around format units).lower = 4 * units - 2 * 2 ^ format.spacingBits units := by
    unfold around
    dsimp only
    rw [if_neg]
    · rfl
    · rintro ⟨wide, bottom⟩
      refine notBottom ⟨Nat.pos_of_ne_zero fun none => wide ?_, bottom⟩
      rw [none]
  rw [lower, Nat.cast_sub (by omega)]
  push_cast
  ring

theorem lower_around_le (fine : 0 < format.precision) (positive : 0 < units) :
    ((around format units).lower : ℚ) ≤ 4 * units - 2 ^ format.spacingBits units := by
  have step : (0 : ℚ) < 2 ^ format.spacingBits units := by positivity
  by_cases bottom : format.AtBottom units
  · rw [lower_of_atBottom fine positive bottom]
  · rw [lower_of_not_atBottom fine positive bottom]
    linarith

theorem le_lower_around (fine : 0 < format.precision) (positive : 0 < units) :
    (4 * units - 2 * 2 ^ format.spacingBits units : ℚ) ≤ (around format units).lower := by
  have step : (0 : ℚ) < 2 ^ format.spacingBits units := by positivity
  by_cases bottom : format.AtBottom units
  · rw [lower_of_atBottom fine positive bottom]
    linarith
  · rw [lower_of_not_atBottom fine positive bottom]

/-- Everywhere but below a count at which the spacing changes, the interval reaches half a spacing
away. -/
theorem Includes.isNearest_of_half {number : ℚ} (fine : 2 ≤ format.precision)
    (positive : 0 < units) (holds : format.Holds units)
    (within : ¬ format.AtBottom units ∨ (units : ℚ) ≤ number)
    (inside : (around format units).Includes (4 * number)) : format.IsNearest number units := by
  have lower := le_lower_around (by omega : 0 < format.precision) positive
  have upper := upper_around format units
  apply holds.isNearest_of_half fine within
  rcases inside with ⟨above, below⟩ | ⟨closed, above, below⟩
  · left
    rw [abs_lt]
    constructor <;> linarith
  · right
    refine ⟨?_, beq_iff_eq.mp closed⟩
    rw [abs_le]
    constructor <;> linarith

/-- The numbers in the interval around a count round to it. -/
theorem Includes.isNearest {number : ℚ} (fine : 2 ≤ format.precision) (positive : 0 < units)
    (holds : format.Holds units) (inside : (around format units).Includes (4 * number)) :
    format.IsNearest number units := by
  by_cases within : ¬ format.AtBottom units ∨ (units : ℚ) ≤ number
  · exact inside.isNearest_of_half fine positive holds within
  · -- The count is a multiple of the smaller spacing too, by a significand just out of range.
    rw [not_or, not_not, not_le] at within
    obtain ⟨bottom, below⟩ := within
    have lower := inside.bounds.1
    rw [lower_of_atBottom (by omega) positive bottom] at lower
    obtain ⟨spaced, same⟩ := bottom
    obtain ⟨shift, spacing⟩ := Nat.exists_eq_succ_of_ne_zero spaced.ne'
    rw [spacing, Nat.succ_eq_add_one] at same lower
    have whole : units = 2 ^ format.precision * 2 ^ shift := by
      calc units = 2 ^ (format.precision - 1) * 2 ^ (shift + 1) := same
        _ = 2 ^ (format.precision - 1 + 1) * 2 ^ shift := by ring
        _ = 2 ^ format.precision * 2 ^ shift := by rw [Nat.sub_add_cancel (by omega)]
    have half : (units : ℚ) = 2 * 2 ^ (format.precision - 1 + shift) := by
      rw [same]
      push_cast
      ring
    have step : (2 : ℚ) ^ shift ≤ 2 ^ (format.precision - 1 + shift) :=
      pow_le_pow_right₀ (by norm_num) (Nat.le_add_left _ _)
    rw [pow_succ] at lower
    have spaced : Spaced format number shift := by
      constructor
      case below => rwa [Nat.pow_add, ← whole]
      case least =>
        right
        rw [Nat.cast_pow, Nat.cast_ofNat]
        linarith
    have near : |number - units| ≤ 2 ^ shift / 2 := by
      rw [abs_le]
      constructor <;> linarith
    rw [whole] at near ⊢
    have even : 2 ^ format.precision % 2 = 0 :=
      Nat.mod_eq_zero_of_dvd (dvd_pow_self 2 (by omega))
    exact spaced.isNearest_of_half fine (Or.inr ⟨near, even⟩)

/-- A number less than a quarter of a spacing below a count lies in the interval around it. -/
theorem includes_of_le {number : ℚ} (fine : 0 < format.precision) (positive : 0 < units)
    (atMost : number ≤ units) (near : 4 * units < 4 * number + 2 ^ format.spacingBits units) :
    (around format units).Includes (4 * number) := by
  have step : (0 : ℚ) < 2 ^ format.spacingBits units := by positivity
  have lower := lower_around_le fine positive
  left
  rw [upper_around]
  constructor <;> linarith

end RoundingInterval

/-! ## Grids -/

section Grids

variable {tie : TieRule} {exponent : Int} {point : Nat}

open RoundingInterval (around contains_iff includes_of_le)

/-- The test of the search asks whether a point of a grid lies in the interval. -/
theorem contains_point_iff :
    (around format units).contains
        (4 * Nat.pow 2 format.fractionBits * point * Nat.pow 10 exponent.toNat)
        (Nat.pow 10 (-exponent).toNat) = true ↔
      (around format units).Includes
        (4 * ((Decimal.mk point exponent).number * 2 ^ format.fractionBits)) := by
  have positive : 0 < Nat.pow 10 (-exponent).toNat := Nat.pow_pos (by decide)
  have same : ((4 * 2 ^ format.fractionBits * point * 10 ^ exponent.toNat : Nat) : ℚ) /
      (10 ^ (-exponent).toNat : Nat) =
        4 * ((Decimal.mk point exponent).number * 2 ^ format.fractionBits) := by
    unfold Decimal.number
    rw [zpow_eq_ratio]
    push_cast
    ring
  rw [contains_iff _ _ positive, ← same]
  rfl

/-- The point of a grid just below a count. -/
def floorPoint (format : BinaryFormat) (units : Nat) (exponent : Int) : Nat :=
  units * 10 ^ (-exponent).toNat / (2 ^ format.fractionBits * 10 ^ exponent.toNat)

/-- The search takes a point that lies in the interval, and takes one if the point just below the
count does. -/
theorem gridPoint?_outcome (format : BinaryFormat) (tie : TieRule) (units : Nat) (exponent : Int) :
    (gridPoint? format tie units exponent = none ∧
        ¬ (around format units).Includes
          (4 * ((Decimal.mk (floorPoint format units exponent) exponent).number *
            2 ^ format.fractionBits))) ∨
      ∃ point, gridPoint? format tie units exponent = some point ∧
        (around format units).Includes
          (4 * ((Decimal.mk point exponent).number * 2 ^ format.fractionBits)) := by
  simp only [← contains_point_iff]
  unfold gridPoint? floorPoint
  dsimp only
  split
  · next unread _ => exact Or.inl ⟨rfl, Bool.eq_false_iff.mp unread⟩
  · next reads _ => exact Or.inr ⟨_, rfl, reads⟩
  · next _ reads => exact Or.inr ⟨_, rfl, reads⟩
  · next floorReads nextReads =>
      right
      split
      · exact ⟨_, rfl, floorReads⟩
      · split
        · exact ⟨_, rfl, nextReads⟩
        · split
          · exact ⟨_, rfl, nextReads⟩
          · refine ⟨_, rfl, ?_⟩
            rcases Nat.mod_two_eq_zero_or_one (units * Nat.pow 10 (-exponent).toNat /
              (Nat.pow 2 format.fractionBits * Nat.pow 10 exponent.toNat)) with even | odd
            · rw [even]
              exact floorReads
            · rw [odd]
              exact nextReads

/-- The point just below a count is less than a step of the grid away from it. -/
theorem floorPoint_bounds (format : BinaryFormat) (units : Nat) (exponent : Int) :
    (Decimal.mk (floorPoint format units exponent) exponent).number * 2 ^ format.fractionBits ≤
        units ∧
      (units : ℚ) <
        (Decimal.mk (floorPoint format units exponent) exponent).number *
          2 ^ format.fractionBits + (10 : ℚ) ^ exponent * 2 ^ format.fractionBits := by
  have positive : 0 < 2 ^ format.fractionBits * 10 ^ exponent.toNat := by positivity
  have atMost : floorPoint format units exponent * (2 ^ format.fractionBits * 10 ^ exponent.toNat) ≤
      units * 10 ^ (-exponent).toNat := Nat.div_mul_le_self _ _
  have below : units * 10 ^ (-exponent).toNat <
      (2 ^ format.fractionBits * 10 ^ exponent.toNat) * (floorPoint format units exponent + 1) :=
    Nat.lt_mul_div_succ _ positive
  have number : (Decimal.mk (floorPoint format units exponent) exponent).number *
      2 ^ format.fractionBits = floorPoint format units exponent *
        (2 ^ format.fractionBits * 10 ^ exponent.toNat) / 10 ^ (-exponent).toNat := by
    unfold Decimal.number
    rw [zpow_eq_ratio]
    ring
  have step : (10 : ℚ) ^ exponent * 2 ^ format.fractionBits =
      2 ^ format.fractionBits * 10 ^ exponent.toNat / 10 ^ (-exponent).toNat := by
    rw [zpow_eq_ratio]
    ring
  rw [number, step, ← add_div, div_le_iff₀ (by positivity), lt_div_iff₀ (by positivity),
    ← add_one_mul, mul_comm (_ + 1 : ℚ)]
  exact ⟨by exact_mod_cast atMost, by exact_mod_cast below⟩

/-- A grid is fine enough if four of its steps make no more than a spacing. -/
theorem gridPoint?_ne_none_of_le (fine : 0 < format.precision) (positive : 0 < units)
    (small : 4 * ((10 : ℚ) ^ exponent * 2 ^ format.fractionBits) ≤
      2 ^ format.spacingBits units) :
    gridPoint? format tie units exponent ≠ none := by
  obtain ⟨atMost, near⟩ := floorPoint_bounds format units exponent
  rcases gridPoint?_outcome format tie units exponent with ⟨-, outside⟩ | ⟨point, found, -⟩
  · exact absurd (includes_of_le fine positive atMost (by linarith)) outside
  · rw [found]
    nofun

end Grids

/-! ## Places -/

section Places

theorem leadingPlaces_spec {numerator denominator bound : Nat}
    (enough : denominator ≤ numerator * 10 ^ bound) :
    denominator ≤ numerator * 10 ^ leadingPlaces numerator denominator bound := by
  induction bound generalizing numerator with
  | zero => exact enough
  | succ bound inductionHypothesis =>
      unfold leadingPlaces
      split
      · next atMost =>
          rw [Nat.pow_zero, Nat.mul_one]
          exact atMost
      · rw [Nat.pow_succ', ← Nat.mul_assoc]
        apply inductionHypothesis
        rw [Nat.mul_assoc, ← Nat.pow_succ']
        exact enough

/-- A count has no fewer places before the point than its order says. -/
theorem decimalOrder_le (format : BinaryFormat) (positive : 0 < units) :
    (10 : ℚ) ^ (decimalOrder format units - 1) * 2 ^ format.fractionBits ≤ units := by
  unfold decimalOrder
  split
  · next whole =>
      have some : 0 < units / 2 ^ format.fractionBits :=
        Nat.div_pos whole (Nat.two_pow_pos _)
      have bound := (toDigits_bounds some).1
      rw [Nat.le_div_iff_mul_le (Nat.two_pow_pos _)] at bound
      have length : 0 < (Nat.toDigits 10 (units / 2 ^ format.fractionBits)).length :=
        Nat.length_toDigits_pos
      have places : ((Nat.toDigits 10 (units / Nat.pow 2 format.fractionBits)).length : Int) - 1 =
          ((Nat.toDigits 10 (units / 2 ^ format.fractionBits)).length - 1 : Nat) := by
        rw [Nat.cast_sub length, Nat.cast_one]
        rfl
      rw [places, zpow_natCast]
      exact_mod_cast bound
  · have enough : 2 ^ format.fractionBits ≤ units * 10 ^ format.fractionBits :=
      (Nat.pow_le_pow_left (by decide) _).trans (Nat.le_mul_of_pos_left _ positive)
    have bound := leadingPlaces_spec enough
    have places : (1 : Int) -
          leadingPlaces units (Nat.pow 2 format.fractionBits) format.fractionBits - 1 =
        -(leadingPlaces units (2 ^ format.fractionBits) format.fractionBits : Int) := by
      rw [sub_right_comm, sub_self, zero_sub]
      rfl
    rw [places, zpow_neg, zpow_natCast, inv_mul_le_iff₀ (by positivity), mul_comm]
    exact_mod_cast bound

/-- With as many decimal places as a significand has bits, a grid is fine enough. -/
theorem gridPoint?_precision_ne_none (fine : 3 ≤ format.precision) (positive : 0 < units)
    (tie : TieRule) :
    gridPoint? format tie units (decimalOrder format units - format.precision) ≠ none := by
  apply gridPoint?_ne_none_of_le (by omega) positive
  have order : (10 : ℚ) ^ (decimalOrder format units - 1) =
      10 ^ (decimalOrder format units - format.precision) * 10 ^ (format.precision - 1) := by
    rw [← zpow_natCast, ← zpow_add₀ (by norm_num)]
    congr 1
    omega
  have powers : (4 * 2 ^ format.precision : ℚ) ≤ 10 ^ (format.precision - 1) := by
    obtain ⟨rest, precision⟩ := Nat.exists_eq_add_of_le' fine
    have base : (2 : ℚ) ^ rest ≤ 10 ^ rest := pow_le_pow_left₀ (by norm_num) (by norm_num) rest
    have positive : (0 : ℚ) < 10 ^ rest := by positivity
    rw [precision, Nat.add_sub_assoc (by decide), pow_add, pow_add]
    norm_num
    linarith
  have bound := decimalOrder_le format positive
  have small : (units : ℚ) < 2 ^ format.precision * 2 ^ format.spacingBits units := by
    rw [← pow_add]
    exact_mod_cast lt_two_pow_spacingBits format units
  have scale : (0 : ℚ) < 10 ^ (format.precision - 1) := by positivity
  have spacing : (0 : ℚ) < 2 ^ format.spacingBits units := by positivity
  apply le_of_mul_le_mul_right _ scale
  calc 4 * ((10 : ℚ) ^ (decimalOrder format units - format.precision) *
        2 ^ format.fractionBits) * 10 ^ (format.precision - 1) =
      4 * ((10 : ℚ) ^ (decimalOrder format units - 1) * 2 ^ format.fractionBits) := by
        rw [order]
        ring
    _ ≤ 4 * (2 ^ format.precision * 2 ^ format.spacingBits units) := by linarith
    _ = 4 * 2 ^ format.precision * 2 ^ format.spacingBits units := by ring
    _ ≤ 10 ^ (format.precision - 1) * 2 ^ format.spacingBits units :=
      mul_le_mul_of_nonneg_right powers spacing.le
    _ = 2 ^ format.spacingBits units * 10 ^ (format.precision - 1) := mul_comm _ _

end Places

/-! ## The search -/

section Search

variable {tie : TieRule}

open RoundingInterval (around)

/-- A search that gets to a grid with a point in the interval ends with such a point. -/
theorem includes_shortestFrom {order : Int} {last : Nat}
    (finest : gridPoint? format tie units (order - last) ≠ none) {place bound : Nat}
    (reaches : place + bound = last + 1) (atMost : place ≤ last) :
    (around format units).Includes
      (4 * ((shortestFrom format tie units order place bound).number *
        2 ^ format.fractionBits)) := by
  induction bound generalizing place with
  | zero => omega
  | succ bound inductionHypothesis =>
      unfold shortestFrom
      rcases gridPoint?_outcome format tie units (order - place) with
        ⟨missed, -⟩ | ⟨digits, found, inside⟩
      · rw [missed]
        apply inductionHypothesis
        · omega
        · refine Nat.succ_le_of_lt (atMost.lt_of_ne ?_)
          rintro rfl
          exact finest missed
      · rw [found]
        dsimp only
        rw [Decimal.number_trimmed]
        exact inside

/-- The shortest decimal of a count rounds to that count. -/
theorem roundsTo_shortest (fine : 3 ≤ format.precision) (tie : TieRule)
    (holds : format.Holds units) (below : units < 2 ^ format.ceilingBits) :
    format.RoundsTo (shortest format tie units).number (.finite false units) := by
  unfold shortest
  split
  · next nought =>
      have number : (Decimal.mk 0 0).number = 0 := by
        unfold Decimal.number
        rw [Nat.cast_zero, zero_mul]
      rw [nought, number]
      exact roundsTo_zero le_rfl (by norm_num)
  · next some =>
      have positive := Nat.pos_of_ne_zero some
      have inside := includes_shortestFrom
        (gridPoint?_precision_ne_none fine positive tie) (Nat.add_comm 1 format.precision)
        (by omega)
      exact RoundsTo.finite (inside.isNearest (by omega) positive holds) below

end Search

end FaultDrill.Numeral
