import FaultDrill.Proofs.Manifest.Lines
import FaultDrill.Recipe

/-!
What the script of a journey holds.

Owns:
- the text of a script, step by step;
- the steps that can be read from a script (`stepsOf?`).

Main statement: after its two first lines a script holds a numbered line and the text of the step
for each step, in their order and whatever the step; a step more adds its own two parts at the
end; and steps of a single line each can be told from the script (`script_verbatim`).

A step that goes on over several lines may read like two steps (`join_stepTexts_of_lines`).
-/

namespace FaultDrill.Recipe

/-! ## Parts -/

theorem script_eq (journey : Journey) :
    script journey = "#!/bin/sh\nset -e\n" ++ String.join (stepTexts 1 journey.steps) := rfl

theorem decimalText_eq_toString (number : Nat) : Numeral.decimalText number = toString number := rfl

theorem stepTexts_eq_mapIdx (number : Nat) (steps : List String) :
    stepTexts number steps = steps.mapIdx fun index step => stepText step (number + index) := by
  induction steps generalizing number with
  | nil => rfl
  | cons step steps inductionHypothesis =>
      have further : (fun index step => stepText step (number + 1 + index)) =
          fun index step => stepText step (number + (index + 1)) := by
        funext index step
        rw [Nat.add_assoc, Nat.add_comm 1 index]
      rw [List.mapIdx_cons, stepTexts, inductionHypothesis, further, Nat.add_zero]

theorem stepTexts_append (number : Nat) (steps more : List String) :
    stepTexts number (steps ++ more) =
      stepTexts number steps ++ stepTexts (number + steps.length) more := by
  induction steps generalizing number with
  | nil => rfl
  | cons step steps inductionHypothesis =>
      rw [List.cons_append, stepTexts, stepTexts, inductionHypothesis, List.cons_append,
        List.length_cons, Nat.add_assoc, Nat.add_comm 1 steps.length]

/-! ## Lines -/

/-- The lines of a script about some steps of a single line each, and the number of the first. -/
def stepLines : Nat → List String → List String
  | _, [] => []
  | number, step :: steps =>
    ("# step " ++ toString number) :: step :: stepLines (number + 1) steps

theorem join_stepTexts (number : Nat) (steps : List String) :
    String.join (stepTexts number steps) =
      String.join ((stepLines number steps).map (· ++ "\n")) := by
  induction steps generalizing number with
  | nil => rfl
  | cons step steps inductionHypothesis =>
      rw [stepTexts, stepLines, List.map_cons, List.map_cons, String.join_cons, String.join_cons,
        String.join_cons, inductionHypothesis, stepText, decimalText_eq_toString]
      simp only [String.append_assoc]

/-- The two lines that every script begins with. -/
def headerLines : List String := ["#!/bin/sh", "set -e"]

theorem join_headerLines :
    String.join (headerLines.map (· ++ "\n")) = "#!/bin/sh\nset -e\n" := by
  decide +kernel

theorem noLineBreak_number (number : Nat) : '\n' ∉ ("# step " ++ toString number).toList := by
  rw [String.toList_append, List.mem_append]
  rintro (inWords | inDigits)
  · exact absurd inWords (by decide)
  · exact absurd (Naming.isNameChar_of_mem_decimalText number inDigits) (by decide)

theorem noLineBreak_stepLines {steps : List String} (single : ∀ step ∈ steps, '\n' ∉ step.toList)
    (number : Nat) : ∀ line ∈ stepLines number steps, '\n' ∉ line.toList := by
  induction steps generalizing number with
  | nil => simp [stepLines]
  | cons step steps inductionHypothesis =>
      rw [List.forall_mem_cons] at single
      rw [stepLines, List.forall_mem_cons, List.forall_mem_cons]
      exact ⟨noLineBreak_number number, single.1, inductionHypothesis single.2 (number + 1)⟩

/-! ## Steps that are read -/

/-- Every second of some lines. -/
def everySecond : List String → List String
  | _ :: second :: rest => second :: everySecond rest
  | _ => []

theorem everySecond_stepLines (number : Nat) (steps : List String) :
    everySecond (stepLines number steps) = steps := by
  induction steps generalizing number with
  | nil => rfl
  | cons step steps inductionHypothesis =>
      rw [stepLines, everySecond, inductionHypothesis]

/-- The steps of a script, as far as they are of a single line each: they stand behind the two first
lines, each after the line with its number. -/
def stepsOf? (script : String) : Option (List String) :=
  (Text.lines? script).map fun lines => everySecond (lines.drop 2)

theorem stepsOf?_script {journey : Journey} (single : ∀ step ∈ journey.steps, '\n' ∉ step.toList) :
    stepsOf? (script journey) = some journey.steps := by
  have text : script journey =
      String.join ((headerLines ++ stepLines 1 journey.steps).map (· ++ "\n")) := by
    rw [script_eq, join_stepTexts, List.map_append, String.join_append, join_headerLines]
  have noBreak : ∀ line ∈ headerLines ++ stepLines 1 journey.steps, '\n' ∉ line.toList := by
    rw [List.forall_mem_append]
    exact ⟨by decide, noLineBreak_stepLines single 1⟩
  rw [stepsOf?, text, Text.lines?_join noBreak]
  exact congrArg some (everySecond_stepLines 1 journey.steps)

/-! ## Scripts -/

/-- A step that goes on over several lines, as if another step followed, is not told from two. -/
theorem join_stepTexts_of_lines (number : Nat) (first second : String) :
    String.join (stepTexts number
        [first ++ "\n" ++ "# step " ++ toString (number + 1) ++ "\n" ++ second]) =
      String.join (stepTexts number [first, second]) := by
  simp only [stepTexts, stepText, decimalText_eq_toString, String.join_cons, String.join_nil,
    String.append_empty, String.append_assoc]

/-- A script holds its steps as they are written and in their order. -/
theorem script_verbatim (journey : Journey) :
    script journey = "#!/bin/sh\n" ++ "set -e\n" ++
      String.join (journey.steps.mapIdx fun index step =>
        "# step " ++ toString (index + 1) ++ "\n" ++ (step ++ "\n")) ∧
    (∀ step, script { journey with steps := journey.steps ++ [step] } =
      script journey ++ ("# step " ++ toString (journey.steps.length + 1) ++ "\n") ++
        (step ++ "\n")) ∧
    ∀ other : Journey, (∀ step ∈ journey.steps, '\n' ∉ step.toList) →
      (∀ step ∈ other.steps, '\n' ∉ step.toList) →
      script journey = script other → journey.steps = other.steps := by
  refine ⟨?_, fun step => ?_, fun other single otherSingle same => ?_⟩
  · have parts : (fun index step => stepText step (1 + index)) =
        fun index step => "# step " ++ toString (index + 1) ++ "\n" ++ (step ++ "\n") := by
      funext index step
      rw [stepText, decimalText_eq_toString, Nat.add_comm, String.append_assoc]
    have header : "#!/bin/sh\nset -e\n" = "#!/bin/sh\n" ++ "set -e\n" := rfl
    rw [script_eq, header, stepTexts_eq_mapIdx, parts]
  · have last : String.join (stepTexts (1 + journey.steps.length) [step]) =
        "# step " ++ toString (journey.steps.length + 1) ++ "\n" ++ (step ++ "\n") := by
      rw [stepTexts, stepTexts, String.join_cons, String.join_nil, String.append_empty, stepText,
        decimalText_eq_toString, Nat.add_comm, String.append_assoc]
    rw [script_eq, script_eq, stepTexts_append, String.join_append, last]
    simp only [String.append_assoc]
  · have read := stepsOf?_script single
    rw [same, stepsOf?_script otherSingle] at read
    exact (Option.some.inj read).symm

/-- A step may look like the line before another, or like a part of a template: scripts still tell
it from two steps. -/
theorem script_verbatim_of_lookalikes :
    script { steps := ["# step 2", "\x7b\x7b step \x7d\x7d"] } ≠ script { steps := ["# step 2"] } := by
  intro same
  have steps := (script_verbatim { steps := ["# step 2", "\x7b\x7b step \x7d\x7d"] }).2.2
    { steps := ["# step 2"] } (by decide) (by decide) same
  exact absurd steps (by decide)

end FaultDrill.Recipe
