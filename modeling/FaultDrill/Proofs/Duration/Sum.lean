import FaultDrill.Duration.Grammar

/-!
Sums of lengths of time.

Owns:
- when an addition fails by carrying a full second into the largest count of seconds;
- the same for one written term, whose whole number is added before its fraction.

Main statement: a term overruns exactly if its whole number or its fraction is no more than one
second of nanoseconds and would bring the sum to `2 ^ 64` seconds (`addTerm_overflow_iff`).
-/

namespace FaultDrill

namespace Duration

/-! ## Counts -/

/-- A number that leaves the 64-bit range is an error of its own, so an overrun comes from what is
done with the number. -/
theorem wordOf_bind_overflow_iff {α : Type} (number : Nat) (next : Nat → Except DurationError α) :
    (wordOf number >>= next) = .error .secondsOverflow ↔
      number < wordLimit ∧ next number = .error .secondsOverflow := by
  unfold wordOf
  split
  · next small => simp [small, bind, Except.bind]
  · next large => simp [large, bind, Except.bind]

theorem ofCounts_overflow_iff {seconds nanoseconds : Nat} (small : seconds < wordLimit) :
    ofCounts seconds nanoseconds = .error .secondsOverflow ↔
      nanosecondsPerSecond ≤ nanoseconds ∧ seconds + 1 = wordLimit := by
  unfold ofCounts
  split
  · next below => simp; omega
  · next above =>
      split
      · next more => simp; omega
      · next full => simp; omega

theorem add_overflow_iff (sum : Duration) (seconds nanoseconds : Nat) :
    sum.add seconds nanoseconds = .error .secondsOverflow ↔
      sum.nanoseconds + nanoseconds = nanosecondsPerSecond ∧
        sum.seconds + seconds + 1 = wordLimit := by
  unfold add
  rw [wordOf_bind_overflow_iff]
  split
  · next carried =>
      -- What is left of the nanoseconds is below one second, so nothing is carried once more.
      have rest : (sum.nanoseconds + nanoseconds) % nanosecondsPerSecond < nanosecondsPerSecond :=
        Nat.mod_lt _ (by decide)
      rw [wordOf_bind_overflow_iff, wordOf_bind_overflow_iff]
      constructor
      · rintro ⟨-, -, small, exceeds⟩
        exact absurd ((ofCounts_overflow_iff small).mp exceeds).1 (Nat.not_le.mpr rest)
      · rintro ⟨one, -⟩
        omega
  · next kept =>
      have word : nanosecondsPerSecond < wordLimit := by decide
      rw [wordOf_bind_overflow_iff]
      constructor
      · rintro ⟨-, small, exceeds⟩
        have ⟨full, last⟩ := (ofCounts_overflow_iff small).mp exceeds
        exact ⟨Nat.le_antisymm (Nat.not_lt.mp kept) full, last⟩
      · rintro ⟨one, last⟩
        have small : sum.seconds + seconds < wordLimit := by omega
        exact ⟨by omega, small, (ofCounts_overflow_iff small).mpr ⟨by omega, last⟩⟩

/-! ## Amounts -/

/-- The nanoseconds are no more than one second, and with them the sum would be just `2 ^ 64`
seconds. -/
def Reaches (sum : Duration) (nanoseconds : Nat) : Prop :=
  nanoseconds ≤ nanosecondsPerSecond ∧
    sum.total + nanoseconds = wordLimit * nanosecondsPerSecond

/-- Only the largest count of seconds can be carried into. -/
theorem reaches_iff (sum : Duration) (nanoseconds : Nat) :
    sum.Reaches nanoseconds ↔
      sum.nanoseconds + nanoseconds = nanosecondsPerSecond ∧ sum.seconds + 1 = wordLimit := by
  have low := sum.nanoseconds_lt
  have bounded := sum.seconds_lt
  unfold Reaches total nanosecondsPerSecond wordLimit at *
  omega

theorem add_seconds_ne_overflow (sum : Duration) (seconds : Nat) :
    sum.add seconds 0 ≠ .error .secondsOverflow := by
  intro exceeds
  have ⟨one, _⟩ := (sum.add_overflow_iff seconds 0).mp exceeds
  have low := sum.nanoseconds_lt
  omega

theorem add_nanoseconds_overflow_iff (sum : Duration) (nanoseconds : Nat) :
    sum.add 0 nanoseconds = .error .secondsOverflow ↔ sum.Reaches nanoseconds := by
  rw [add_overflow_iff, reaches_iff, Nat.add_zero]

theorem addMeasure_overflow_iff (sum : Duration) (number : Nat) (measure : TimeUnit.Measure) :
    sum.addMeasure number measure = .error .secondsOverflow ↔
      ∃ count, measure = .nanoseconds count ∧ sum.Reaches (number * count) := by
  cases measure with
  | nanoseconds count =>
      show (wordOf (number * count) >>= sum.add 0) = _ ↔ _
      rw [wordOf_bind_overflow_iff, add_nanoseconds_overflow_iff]
      constructor
      · intro ⟨_, reached⟩
        exact ⟨count, rfl, reached⟩
      · rintro ⟨_, ⟨rfl⟩, reached⟩
        exact ⟨Nat.lt_of_le_of_lt reached.1 (by decide), reached⟩
  | seconds count =>
      show (wordOf (number * count) >>= (sum.add · 0)) = _ ↔ _
      rw [wordOf_bind_overflow_iff]
      simp [add_seconds_ne_overflow]

/-- A fraction that leaves a remainder is refused before anything is added. -/
theorem addFraction_overflow_iff (sum : Duration) (fraction : DecimalFraction)
    (measure : TimeUnit.Measure) :
    sum.addFraction fraction measure = .error .secondsOverflow ↔
      ∃ count, measure = .nanoseconds count ∧ fraction.numerator * count < wordLimit ∧
        fraction.denominator ∣ fraction.numerator * count ∧
          sum.Reaches (fraction.numerator * count / fraction.denominator) := by
  cases measure with
  | nanoseconds count =>
      unfold addFraction
      rw [wordOf_bind_overflow_iff]
      split
      · next whole =>
          rw [add_nanoseconds_overflow_iff]
          simp [Nat.dvd_of_mod_eq_zero whole]
      · next rest => simp [Nat.dvd_iff_mod_eq_zero, rest]
  | seconds count =>
      unfold addFraction
      rw [wordOf_bind_overflow_iff]
      split <;> simp [add_seconds_ne_overflow]

/-! ## Terms -/

/-- Adding a number of some unit and then a fraction of it carries past the last second, with the
one or with the other. -/
inductive TermOverrun (sum : Duration) (number : Nat) (fraction : Option DecimalFraction)
    (unit : TimeUnit) : Prop where
  | whole {count : Nat} (counted : unit.measure = .nanoseconds count)
      (reached : sum.Reaches (number * count))
  | fraction {whole : Duration} {part : DecimalFraction} {count : Nat}
      (added : sum.addMeasure number unit.measure = .ok whole) (written : fraction = some part)
      (counted : unit.fractionMeasure? = some (.nanoseconds count))
      (inRange : part.numerator * count < wordLimit)
      (divides : part.denominator ∣ part.numerator * count)
      (reached : whole.Reaches (part.numerator * count / part.denominator))

/-- A unit that is no unit is an error of its own. -/
theorem addTerm_overflow_iff (sum : Duration) (number : Nat) (fraction : Option DecimalFraction)
    (unitText : String) :
    sum.addTerm number fraction unitText = .error .secondsOverflow ↔
      ∃ unit, TimeUnit.ofText? unitText = some unit ∧ sum.TermOverrun number fraction unit := by
  unfold addTerm
  cases TimeUnit.ofText? unitText with
  | none => simp
  | some unit =>
      simp only [Option.some.injEq, exists_eq_left']
      constructor
      · intro exceeds
        cases added : sum.addMeasure number unit.measure with
        | error cause =>
            rw [added] at exceeds
            cases exceeds
            have ⟨count, counted, reached⟩ := (addMeasure_overflow_iff ..).mp added
            exact .whole counted reached
        | ok whole =>
            rw [added] at exceeds
            cases written : fraction with
            | none => simp [written, bind, Except.bind] at exceeds
            | some part =>
                cases finer : unit.fractionMeasure? with
                | none => simp [written, finer, bind, Except.bind] at exceeds
                | some measure =>
                    simp only [written, finer, bind, Except.bind] at exceeds
                    have ⟨count, counted, inRange, divides, reached⟩ :=
                      (addFraction_overflow_iff ..).mp exceeds
                    exact .fraction added rfl (by rw [finer, counted]) inRange divides reached
      · intro exceeds
        cases exceeds with
        | whole counted reached =>
            rw [(addMeasure_overflow_iff ..).mpr ⟨_, counted, reached⟩]
            rfl
        | fraction added written counted inRange divides reached =>
            rw [added, written]
            simp only [counted, bind, Except.bind]
            exact (addFraction_overflow_iff ..).mpr ⟨_, rfl, inRange, divides, reached⟩

end Duration

end FaultDrill
