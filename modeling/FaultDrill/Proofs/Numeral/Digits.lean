import FaultDrill.Numeral.Literal

/-!
The decimal digits of whole numbers.

Owns: the first digit of a number, and the reading of its digits.

Main statement: the digits of a number spell it (`whole?_toDigits`).
-/

namespace FaultDrill.Numeral

theorem isDigit_toDigits {number : Nat} :
    ∀ char ∈ Nat.toDigits 10 number, char.isDigit = true :=
  fun _ member => Nat.isDigit_of_mem_toDigits (by decide) (by decide) member

/-- Only nought begins with a nought. -/
theorem head?_toDigits (number : Nat) (nought : (Nat.toDigits 10 number).head? = some '0') :
    number = 0 := by
  induction number using Nat.strongRecOn with
  | ind number inductionHypothesis =>
      rw [Nat.toDigits_eq_if (by decide)] at nought
      split at nought
      · next small =>
          have digits : ∀ digit < 10, Nat.digitChar digit = '0' → digit = 0 := by decide
          exact digits number small (by simpa using nought)
      · next large =>
          have nonempty : Nat.toDigits 10 (number / 10) ≠ [] := Nat.toDigits_ne_nil
          rw [List.head?_append, List.head?_eq_some_head nonempty, Option.some_or,
            ← List.head?_eq_some_head nonempty] at nought
          have zero := inductionHypothesis (number / 10) (by omega) nought
          omega

theorem digit?_eq {char : Char} (isDigit : char.isDigit = true) :
    digit? char = some (char.toNat - '0'.toNat) ∧ char.toNat - '0'.toNat < 10 := by
  unfold Char.isDigit at isDigit
  rw [Bool.and_eq_true, decide_eq_true_eq, decide_eq_true_eq] at isDigit
  have inside : '0' ≤ char ∧ char ≤ '9' := isDigit
  have small : char.toNat ≤ '9'.toNat := isDigit.2
  unfold digit?
  rw [if_pos inside]
  exact ⟨rfl, by change char.toNat - 48 < 10; change char.toNat ≤ 57 at small; omega⟩

theorem wholeFrom?_digits {digits : List Char} (isDigit : ∀ char ∈ digits, char.isDigit = true)
    (start : Nat) : wholeFrom? 10 start digits = some (Nat.ofDigitChars 10 digits start) := by
  induction digits generalizing start with
  | nil => rfl
  | cons char digits inductionHypothesis =>
      obtain ⟨read, small⟩ := digit?_eq (isDigit char List.mem_cons_self)
      unfold wholeFrom?
      rw [read]
      dsimp only
      rw [if_pos small,
        inductionHypothesis fun other member => isDigit other (List.mem_cons_of_mem _ member),
        Nat.ofDigitChars_cons, Nat.mul_comm]

theorem whole?_toDigits (number : Nat) : whole? 10 (Nat.toDigits 10 number) = some number := by
  have nonempty : (Nat.toDigits 10 number).isEmpty = false := by
    simp [Nat.toDigits_ne_nil]
  unfold whole?
  rw [nonempty, if_neg (by decide), wholeFrom?_digits isDigit_toDigits,
    Nat.ofDigitChars_ten_toDigits]

end FaultDrill.Numeral
