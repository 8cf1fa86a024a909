import FaultDrill.Proofs.Yaml.Plain
import FaultDrill.Proofs.Yaml.Quoted

/-!
What is written for a scalar.

Owns: what each style promises of its texts, and which characters are written.

Main statement: only characters are written that a text may hold (`scalarText_allowed`).
-/

namespace FaultDrill.Yaml

/-- What a style promises of the texts that are written in it. -/
theorem styleOf_cases (chars : List Char) :
    styleOf chars = .double ∨
    styleOf chars = .plain ∧ chars ≠ [] ∧ plainAllowed chars = true ∨
    styleOf chars = .single ∧ SingleText chars ∨
    styleOf chars = .literal ∧ chars ≠ [] ∧ ∀ char ∈ chars, isPrintable char = true := by
  unfold styleOf
  cases feeds : chars.contains '\n' with
  | true =>
      cases allowed : literalAllowed chars with
      | false => exact .inl rfl
      | true =>
          have nonempty : chars ≠ [] := by
            rintro rfl
            cases feeds
          refine .inr (.inr (.inr ⟨rfl, nonempty, ?_⟩))
          unfold literalAllowed isRegular at allowed
          simp only [Bool.and_eq_true, List.all_eq_true] at allowed
          exact allowed.1.1
  | false =>
      cases plain : !isAmbiguous chars && plainAllowed chars with
      | true =>
          rw [Bool.and_eq_true] at plain
          have nonempty : chars ≠ [] := by
            rintro rfl
            cases plain.1
          exact .inr (.inl ⟨rfl, nonempty, plain.2⟩)
      | false =>
          cases allowed : singleAllowed chars with
          | false => exact .inl rfl
          | true =>
              refine .inr (.inr (.inl ⟨rfl, ?_⟩))
              unfold singleAllowed isRegular at allowed
              simp only [Bool.and_eq_true, List.all_eq_true, Bool.not_eq_true'] at allowed
              refine ⟨fun char member => ⟨allowed.1.1 char member, ?_⟩, allowed.1.2, allowed.2⟩
              rintro rfl
              simp [member] at feeds

/-! ## Characters -/

/-- All characters may stand in a text. -/
def AllAllowed (chars : List Char) : Prop :=
  ∀ char ∈ chars, isAllowed char = true

theorem allAllowed_append {first second : List Char} (inFirst : AllAllowed first)
    (inSecond : AllAllowed second) : AllAllowed (first ++ second) := by
  intro char member
  rcases List.mem_append.mp member with early | late
  · exact inFirst char early
  · exact inSecond char late

theorem allAllowed_cons {char : Char} {chars : List Char} (first : isAllowed char = true)
    (others : AllAllowed chars) : AllAllowed (char :: chars) := by
  intro other member
  rcases List.mem_cons.mp member with rfl | later
  · exact first
  · exact others other later

theorem allAllowed_padding (count : Nat) : AllAllowed (padding count) := by
  intro char member
  rw [List.eq_of_mem_replicate member]
  rfl

theorem isAllowed_of_isPrintable {char : Char} (printable : isPrintable char = true) :
    isAllowed char = true := by
  unfold isPrintable at printable
  unfold isAllowed
  simp only [Bool.or_eq_true, Bool.and_eq_true] at printable ⊢
  rcases printable with ((feed | ascii) | ⟨⟨low, high⟩, -⟩) | wide
  · simp [feed]
  · simp [ascii]
  · simp [low, high]
  · simp [wide]

theorem allAllowed_upperHex (count value : Nat) : AllAllowed (upperHex count value) := by
  have digits : ∀ digit < 16, isAllowed (upperHexDigit digit) = true := by decide
  induction count generalizing value with
  | zero => exact fun char member => absurd member List.not_mem_nil
  | succ count inductionHypothesis =>
      refine allAllowed_append (inductionHypothesis _) ?_
      exact allAllowed_cons (digits _ (Nat.mod_lt _ (by decide))) (by simp [AllAllowed])

theorem allAllowed_doubleChar (char : Char) : AllAllowed (doubleChar char) := by
  unfold doubleChar
  split
  · next letter short =>
      have isAllowedLetter : isAllowed letter = true := by
        unfold escapeLetter? at short
        split at short <;> cases short <;> decide
      exact allAllowed_cons rfl (allAllowed_cons isAllowedLetter (by simp [AllAllowed]))
  · split
    · next printable =>
        exact allAllowed_cons (isAllowed_of_isPrintable printable) (by simp [AllAllowed])
    · split
      · exact allAllowed_cons rfl (allAllowed_cons rfl (allAllowed_upperHex _ _))
      · exact allAllowed_cons rfl (allAllowed_cons rfl (allAllowed_upperHex _ _))

theorem allAllowed_singleBody {chars : List Char} (allowed : AllAllowed chars) (indent : Nat)
    (afterBreak : Bool) : AllAllowed (singleBody indent afterBreak chars) := by
  have blanks (isAfter : Bool) : AllAllowed (if isAfter then padding indent else []) := by
    cases isAfter with
    | true => exact allAllowed_padding indent
    | false => simp [AllAllowed]
  induction chars generalizing afterBreak with
  | nil => exact blanks afterBreak
  | cons char chars inductionHypothesis =>
      have here := allowed char List.mem_cons_self
      have later (isAfter : Bool) := inductionHypothesis
        (fun other member => allowed other (List.mem_cons_of_mem _ member)) isAfter
      unfold singleBody
      split
      · exact allAllowed_cons here (later true)
      · refine allAllowed_append (allAllowed_append (blanks afterBreak) ?_) (later false)
        split
        · simp [AllAllowed, isAllowed]
        · exact allAllowed_cons here (by simp [AllAllowed])

theorem allAllowed_literalBody {chars : List Char} (allowed : AllAllowed chars) (indent : Nat)
    (atStart : Bool) : AllAllowed (literalBody indent atStart chars) := by
  have blanks (isAtStart : Bool) : AllAllowed (if isAtStart then padding indent else []) := by
    cases isAtStart with
    | true => exact allAllowed_padding indent
    | false => simp [AllAllowed]
  induction chars generalizing atStart with
  | nil =>
      cases atStart with
      | true => simp [AllAllowed, literalBody]
      | false => exact allAllowed_cons rfl (by simp [AllAllowed])
  | cons char chars inductionHypothesis =>
      have here := allowed char List.mem_cons_self
      have later (isAtStart : Bool) := inductionHypothesis
        (fun other member => allowed other (List.mem_cons_of_mem _ member)) isAtStart
      unfold literalBody
      split
      · exact allAllowed_cons here (later true)
      · exact allAllowed_append (blanks atStart) (allAllowed_cons here (later false))

theorem allAllowed_literalHeader (chars : List Char) : AllAllowed (literalHeader chars) := by
  unfold literalHeader
  refine allAllowed_cons rfl (allAllowed_append ?_ ?_)
  · split <;> simp [AllAllowed, isAllowed]
  · split
    · split
      · simp [AllAllowed, isAllowed]
      · split <;> simp [AllAllowed, isAllowed]
    · simp [AllAllowed, isAllowed]

/-- Only characters are written that a text may hold. -/
theorem scalarText_allowed (indent : Nat) (chars : List Char) :
    AllAllowed (scalarText indent chars) := by
  unfold scalarText
  rcases styleOf_cases chars with isDouble | ⟨isPlain, -, plain⟩ | ⟨isSingle, single⟩ |
    ⟨isLiteral, -, printable⟩
  · rw [isDouble]
    refine allAllowed_cons rfl (allAllowed_append ?_ (by simp [AllAllowed, isAllowed]))
    intro char member
    obtain ⟨source, -, written⟩ := List.mem_flatMap.mp member
    exact allAllowed_doubleChar source char written
  · rw [isPlain]
    unfold plainAllowed isRegular at plain
    simp only [Bool.and_eq_true, List.all_eq_true] at plain
    refine allAllowed_append (fun char member => ?_) (by simp [AllAllowed, isAllowed])
    exact isAllowed_of_isPrintable (plain.1.1.1.1.1.1.1 char member)
  · rw [isSingle]
    refine allAllowed_cons rfl (allAllowed_append (allAllowed_singleBody ?_ indent false)
      (by simp [AllAllowed, isAllowed]))
    exact fun char member => isAllowed_of_isPrintable (single.printable char member).1
  · rw [isLiteral]
    refine allAllowed_append (allAllowed_literalHeader chars)
      (allAllowed_cons rfl (allAllowed_literalBody ?_ indent true))
    exact fun char member => isAllowed_of_isPrintable (printable char member)

end FaultDrill.Yaml
