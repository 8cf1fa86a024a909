import FaultDrill.Json.Number
import FaultDrill.Proofs.Json.Reading
import FaultDrill.Proofs.Text.Utf8

/-!
Whole numbers of JSON are read as what their digits say.

Owns: decimals without a needless nought, the reading of such a number, and the bytes of a number
that is written.

Main statements: a decimal is read up to a byte that cannot go on with it (`takes_number`), and
what is written for a number is a decimal of it (`decimalOf_decimalText`).
-/

namespace FaultDrill.Json

open Text

namespace Number

/-- The next byte, if there is one, cannot belong to a number. -/
def Ended (rest : List UInt8) : Prop :=
  ∀ byte, rest.head? = some byte →
    isDigit byte = false ∧ byte ≠ 0x2E ∧ byte ≠ 0x65 ∧ byte ≠ 0x45

/-- Digits with the number that they stand for. A nought comes first only if it stands alone. -/
structure DecimalOf (digits : List UInt8) (number : Nat) : Prop where
  isDigit : ∀ digit ∈ digits, isDigit digit = true
  nonempty : digits ≠ []
  value : digitsValue digits = number
  leading : digits.head? = some 0x30 → digits = [0x30]

theorem le_foldl (value : Nat) (digits : List UInt8) :
    value ≤ digits.foldl (fun value digit => value * 10 + digitValue digit) value := by
  induction digits generalizing value with
  | nil => exact Nat.le_refl value
  | cons digit digits inductionHypothesis =>
      have later := inductionHypothesis (value * 10 + digitValue digit)
      rw [List.foldl_cons]
      omega

/-- All digits are used while the number fits. -/
theorem accumulate_eq (value : Nat) (digits : List UInt8)
    (fits : digits.foldl (fun value digit => value * 10 + digitValue digit) value < wordLimit) :
    accumulate value digits =
      (digits.foldl (fun value digit => value * 10 + digitValue digit) value, 0) := by
  induction digits generalizing value with
  | nil => rfl
  | cons digit digits inductionHypothesis =>
      rw [List.foldl_cons] at fits ⊢
      have within := le_foldl (value * 10 + digitValue digit) digits
      unfold accumulate
      rw [if_pos (Nat.lt_of_le_of_lt within fits)]
      exact inductionHypothesis _ fits

end Number

namespace Reader

open Number

variable {rest : List UInt8}

theorem takes_numberTail (ended : Ended rest) (positive : Bool) (significand : Nat) :
    Takes (number.numberTail positive significand 0) [] rest
      (ofSignificand positive significand) := by
  refine Takes.bind_look (takes_peek_head rest) ?_
  split
  · next point => exact absurd rfl (ended _ point).2.1
  · next mark => exact absurd rfl (ended _ mark).2.2.1
  · next mark => exact absurd rfl (ended _ mark).2.2.2
  · rw [if_pos rfl]
    exact takes_pure _ rest

theorem all_not_isDigit_of_ended (ended : Ended rest) :
    rest.head?.all (!isDigit ·) = true := by
  cases next : rest.head? with
  | none => rfl
  | some byte => simp [(ended byte next).1]

/-- A decimal is read as its number. -/
theorem takes_number {digits : List UInt8} {value : Nat} (decimal : DecimalOf digits value)
    (fits : value < Number.wordLimit) (ended : Ended rest) :
    Takes (number true) digits rest (.integer value) := by
  obtain ⟨first, more, rfl⟩ := List.exists_cons_of_ne_nil decimal.nonempty
  have tail := takes_numberTail ended true value
  have ends := all_not_isDigit_of_ended ended
  have sum : more.foldl (fun value digit => value * 10 + digitValue digit) (digitValue first) =
      value := by
    rw [← decimal.value]
    unfold digitsValue
    rw [List.foldl_cons, Nat.zero_mul, Nat.zero_add]
  refine Takes.bind_byte (takes_next first (more ++ rest)) ?_
  dsimp only
  by_cases nought : first = 0x30
  · subst nought
    cases decimal.leading rfl
    have zero : value = 0 := sum.symm
    subst zero
    rw [if_pos rfl]
    refine Takes.bind_look (takes_nextIs_not ends) ?_
    rw [if_neg Bool.false_ne_true]
    exact tail
  · rw [if_neg nought, if_pos (decimal.isDigit first List.mem_cons_self)]
    have inside : ∀ digit ∈ more, isDigit digit = true :=
      fun digit member => decimal.isDigit digit (List.mem_cons_of_mem first member)
    refine Takes.bind_done (takes_takeWhile more inside ends) ?_
    rw [accumulate_eq _ _ (by rwa [sum]), sum]
    exact tail

end Reader

/-! ## Numbers that are written -/

namespace Number

private theorem digitChar_byte :
    ∀ digit < 10, Utf8.encode [Nat.digitChar digit] = [UInt8.ofNat (0x30 + digit)] ∧
      isDigit (UInt8.ofNat (0x30 + digit)) = true ∧
      digitValue (UInt8.ofNat (0x30 + digit)) = digit := by
  decide

theorem digitsValue_append_singleton (digits : List UInt8) (digit : UInt8) :
    digitsValue (digits ++ [digit]) = digitsValue digits * 10 + digitValue digit := by
  unfold digitsValue
  rw [List.foldl_append]
  rfl

/-- What is written for a number is a decimal of it. -/
theorem decimalOf_decimalText (number : Nat) :
    DecimalOf (Utf8.encode (Numeral.decimalText number).toList) number := by
  unfold Numeral.decimalText
  rw [String.toList_ofList]
  induction number using Nat.strongRecOn with
  | ind number inductionHypothesis =>
      rw [Nat.toDigits_eq_if (by decide)]
      split
      · next small =>
          obtain ⟨byte, isDigit, value⟩ := digitChar_byte number small
          rw [byte]
          refine ⟨by simpa using isDigit, by simp, ?_, fun nought => ?_⟩
          · unfold digitsValue
            rw [List.foldl_cons, value, List.foldl_nil]
            omega
          · rw [List.head?_cons, Option.some.injEq] at nought
            rw [nought]
      · next large =>
          have front := inductionHypothesis (number / 10) (by omega)
          obtain ⟨byte, isDigit, value⟩ := digitChar_byte (number % 10) (by omega)
          rw [Utf8.encode_append, byte]
          generalize Utf8.encode (Nat.toDigits 10 (number / 10)) = digits at front ⊢
          refine ⟨?_, by simp, ?_, fun nought => ?_⟩
          · intro digit member
            rcases List.mem_append.mp member with inFront | last
            · exact front.isDigit digit inFront
            · rwa [List.mem_singleton.mp last]
          · rw [digitsValue_append_singleton, front.value, value]
            omega
          · -- The digits before the last stand for a number that is not nought.
            rw [List.head?_append, List.head?_eq_some_head front.nonempty, Option.some_or,
              ← List.head?_eq_some_head front.nonempty] at nought
            have alone := front.value
            rw [front.leading nought] at alone
            have none : digitsValue [0x30] = 0 := rfl
            omega

end Number

end FaultDrill.Json
