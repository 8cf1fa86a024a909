import FaultDrill.Proofs.Path.Descent
import FaultDrill.Workspace

/-!
What the names of runs and of their files look like.

Owns:
- the characters of sanitized names and of decimal texts;
- plain names among the names inside a workspace;
- names of different runs, which are different.

Main statements: a sanitized name is empty or plain (`plainName_sanitize`), and each of the three
names that belong to a run tells it from all others (`workspaceDirectory_injective`,
`network_injective`, `baseImage_injective`).
-/

namespace FaultDrill.Naming

open Path (PlainName)

/-! ## Characters -/

theorem isNameChar_of_mem_sanitizeChars (inRun : Bool) (chars : List Char) {char : Char}
    (member : char ∈ sanitizeChars inRun chars) : isNameChar char = true := by
  induction chars generalizing inRun with
  | nil => simp [sanitizeChars] at member
  | cons head rest inductionHypothesis =>
      unfold sanitizeChars at member
      split at member
      · next allowed =>
          rcases List.mem_cons.mp member with rfl | later
          · exact allowed
          · exact inductionHypothesis false later
      · split at member
        · exact inductionHypothesis true member
        · rcases List.mem_cons.mp member with rfl | later
          · rfl
          · exact inductionHypothesis true later

/-- A name of allowed characters is plain unless it is empty. -/
theorem plainName_of_isNameChar {name : String} (nonempty : name ≠ "")
    (allowed : ∀ char ∈ name.toList, isNameChar char = true) : PlainName name where
  nonempty := nonempty
  notDot := by
    rintro rfl
    exact absurd (allowed '.' (by decide)) (by decide)
  notDots := by
    rintro rfl
    exact absurd (allowed '.' (by decide)) (by decide)
  noSeparator := fun member => absurd (allowed '/' member) (by decide)
  noNul := fun member => absurd (allowed '\x00' member) (by decide)

theorem isNameChar_of_mem_sanitize (text : String) {char : Char}
    (member : char ∈ (sanitize text).toList) : isNameChar char = true := by
  unfold sanitize at member
  rw [String.toList_ofList] at member
  exact isNameChar_of_mem_sanitizeChars false text.toList member

theorem plainName_sanitize (text : String) : sanitize text = "" ∨ PlainName (sanitize text) := by
  by_cases empty : sanitize text = ""
  · exact Or.inl empty
  · exact Or.inr (plainName_of_isNameChar empty fun _ => isNameChar_of_mem_sanitize text)

theorem sanitizeChars_of_all {inRun : Bool} {chars : List Char}
    (allowed : ∀ char ∈ chars, isNameChar char = true) : sanitizeChars inRun chars = chars := by
  induction chars generalizing inRun with
  | nil => rfl
  | cons char rest inductionHypothesis =>
      rw [List.forall_mem_cons] at allowed
      unfold sanitizeChars
      rw [if_pos allowed.1, inductionHypothesis allowed.2]

/-- Where no underscore stands, nothing has been replaced. -/
theorem eq_of_sanitizeChars {chars name : List Char} (noUnderscore : '_' ∉ name)
    (same : sanitizeChars false chars = name) : chars = name := by
  induction chars generalizing name with
  | nil => exact same
  | cons char rest inductionHypothesis =>
      unfold sanitizeChars at same
      split at same
      · subst same
        rw [List.mem_cons, not_or] at noUnderscore
        rw [← inductionHypothesis noUnderscore.2 rfl]
      · subst same
        exact absurd List.mem_cons_self noUnderscore

/-- A name of allowed characters without an underscore stands for no other text. -/
theorem sanitize_eq_iff {text name : String} (allowed : name.toList.all isNameChar = true)
    (noUnderscore : '_' ∉ name.toList) : sanitize text = name ↔ text = name := by
  unfold sanitize
  constructor
  · intro same
    refine String.toList_injective (eq_of_sanitizeChars noUnderscore ?_)
    rw [← same, String.toList_ofList]
  · rintro rfl
    rw [sanitizeChars_of_all (List.all_eq_true.mp allowed), String.ofList_toList]

theorem isNameChar_of_mem_decimalText (number : Nat) {char : Char}
    (member : char ∈ (Numeral.decimalText number).toList) : isNameChar char = true := by
  unfold Numeral.decimalText at member
  rw [String.toList_ofList] at member
  have digit := Nat.isDigit_of_mem_toDigits (by decide) (by decide) member
  simp [isNameChar, Char.isAlphanum, digit]

/-! ## Names of runs -/

theorem workspaceDirectory_ne_empty (run : RunId) : workspaceDirectory run ≠ "" := by
  intro empty
  have letters : (workspaceDirectory run).toList = [] := by
    rw [empty]
    rfl
  unfold workspaceDirectory at letters
  rw [String.toList_append] at letters
  exact absurd (List.append_eq_nil_iff.mp letters).1 (by decide)

theorem plainName_workspaceDirectory (run : RunId) : PlainName (workspaceDirectory run) := by
  have stem : "chaosflow_compose_".toList.all isNameChar = true := by decide
  refine plainName_of_isNameChar ?_ ?_
  · exact workspaceDirectory_ne_empty run
  · intro char member
    unfold workspaceDirectory at member
    rw [String.toList_append, List.mem_append] at member
    rcases member with inStem | inNumber
    · exact List.all_eq_true.mp stem char inStem
    · exact isNameChar_of_mem_decimalText run.toNat inNumber

theorem decimalText_injective : Function.Injective Numeral.decimalText := by
  intro first second same
  have digits : Nat.toDigits 10 first = Nat.toDigits 10 second := String.ofList_injective same
  have values := congrArg (fun chars => Nat.ofDigitChars 10 chars 0) digits
  rw [Nat.ofDigitChars_ten_toDigits, Nat.ofDigitChars_ten_toDigits] at values
  exact values

/-- Names that end in the number of a run tell it from all others. -/
private theorem numbered_injective (stem : String) :
    Function.Injective fun run : RunId => stem ++ Numeral.decimalText run.toNat := by
  intro first second same
  have letters := congrArg String.toList same
  rw [String.toList_append, String.toList_append] at letters
  have numbers := decimalText_injective (String.toList_injective (List.append_cancel_left letters))
  exact UInt32.toNat_inj.mp numbers

theorem workspaceDirectory_injective : Function.Injective workspaceDirectory :=
  numbered_injective "chaosflow_compose_"

theorem network_injective : Function.Injective network :=
  numbered_injective "chaosflow_"

theorem baseImage_injective : Function.Injective baseImage :=
  numbered_injective "chaosflow_journey_base_"

end FaultDrill.Naming
