import FaultDrill.Proofs.Duration.Reader
import FaultDrill.Scenario

/-!
What checking a document comes to.

Owns:
- the fault of each field of a stage, and the first fault of a stage and of a document;
- the documents on whose lengths of time the check carries past the last second.

Does not own: which texts of lengths of time do that (`Proofs.Duration.Reader`).

Main statements: checking a document fails with its first fault, stage by stage and field by field
(`errorOf?_ofDocument`); a document is checked, or an error names one of its stages and the text of
one of its fields, and that error is the carry past the last second exactly on the documents whose
first fault it is (`Scenario.ofDocument_outcome`).
-/

namespace FaultDrill

/-! ## First errors -/

/-- The error of a result, if it is one. -/
def errorOf? {Cause Value : Type} : Except Cause Value → Option Cause
  | .ok _ => none
  | .error cause => some cause

section

variable {Cause Fault Item Value Result : Type}

theorem errorOf?_eq_some_iff {result : Except Cause Value} {cause : Cause} :
    errorOf? result = some cause ↔ result = .error cause := by
  cases result <;> simp [errorOf?]

theorem errorOf?_eq_none_iff {result : Except Cause Value} :
    errorOf? result = none ↔ ∃ value, result = .ok value := by
  cases result <;> simp [errorOf?]

/-- If what follows a check has the same error for every value, the check's own error comes
first. -/
theorem errorOf?_mapError_bind (first : Except Cause Value) (named : Cause → Fault)
    {next : Value → Except Fault Result} {later : Option Fault}
    (same : ∀ value, errorOf? (next value) = later) :
    errorOf? (first.mapError named >>= next) = ((errorOf? first).map named).or later := by
  cases first with
  | ok value => exact same value
  | error cause => rfl

theorem findSome?_cons_or (find : Item → Option Value) (item : Item) (items : List Item) :
    (item :: items).findSome? find = (find item).or (items.findSome? find) := by
  rw [List.findSome?_cons]
  cases find item <;> rfl

theorem errorOf?_mapM (items : List Item) (check : Item → Except Cause Value) :
    errorOf? (items.mapM check) = items.findSome? fun item => errorOf? (check item) := by
  induction items with
  | nil => rfl
  | cons item items inductionHypothesis =>
      rw [List.mapM_cons, findSome?_cons_or, ← inductionHypothesis]
      cases check item with
      | error cause => rfl
      | ok value => cases items.mapM check <;> rfl

end

/-! ## Faults of stages and documents -/

/-- The text that an error is about. -/
def TextError.text : TextError → String
  | .probability text => text
  | .duration text _ => text

/-- The text of a field. -/
def StageEntry.text (entry : StageEntry) : StageField → String
  | .duration => entry.duration
  | .diskCorruption => entry.diskCorruption
  | .networkFailure => entry.networkFailure
  | .fullOutage => entry.fullOutage

/-- What is wrong with the text of a field. -/
def StageField.fault? : StageField → String → Option TextError
  | .duration, text => errorOf? (readDuration text)
  | _, text => errorOf? (readProbability text)

/-- The fields in the order in which they are looked at. -/
def StageField.order : List StageField :=
  [.duration, .diskCorruption, .networkFailure, .fullOutage]

/-- The first fault of a stage. -/
def StageEntry.firstFault? (entry : StageEntry) : Option StageError :=
  StageField.order.findSome? fun field =>
    (field.fault? (entry.text field)).map (⟨entry.name, field, ·⟩)

/-- A stage fails with the fault of the first of its fields that has one. -/
theorem errorOf?_ofEntry (entry : StageEntry) :
    errorOf? (Stage.ofEntry entry) = entry.firstFault? := by
  let fault (field : StageField) : Option StageError :=
    (field.fault? (entry.text field)).map (StageError.mk entry.name field)
  show _ = [StageField.duration, .diskCorruption, .networkFailure, .fullOutage].findSome? fault
  simp only [findSome?_cons_or, List.findSome?_nil]
  unfold Stage.ofEntry
  apply errorOf?_mapError_bind (readDuration entry.duration)
  intro duration
  apply errorOf?_mapError_bind (readProbability entry.diskCorruption)
  intro diskCorruption
  apply errorOf?_mapError_bind (readProbability entry.networkFailure)
  intro networkFailure
  apply errorOf?_mapError_bind (readProbability entry.fullOutage)
  intro fullOutage
  rfl

/-- A document fails with the first fault of the first of its stages that has one. -/
theorem errorOf?_ofDocument (document : Document) :
    errorOf? (Scenario.ofDocument document) =
      document.stages.findSome? StageEntry.firstFault? := by
  have stages : errorOf? (Scenario.ofDocument document) =
      errorOf? (document.stages.mapM Stage.ofEntry) := by
    unfold Scenario.ofDocument
    cases document.stages.mapM Stage.ofEntry <;> rfl
  rw [stages, errorOf?_mapM]
  simp only [errorOf?_ofEntry]

/-! ## Faults and texts -/

theorem fault?_duration_eq_some_iff (text : String) (fault : TextError) :
    StageField.duration.fault? text = some fault ↔
      ∃ cause, Duration.ofText text = .error cause ∧ fault = .duration text cause := by
  show errorOf? ((Duration.ofText text).mapError (.duration text)) = some fault ↔ _
  cases Duration.ofText text with
  | ok duration =>
      show none = some fault ↔ _
      simp
  | error cause =>
      show some (.duration text cause) = some fault ↔ _
      simp [eq_comm]

theorem fault?_probability {field : StageField} (chance : field ≠ .duration) {text : String}
    {fault : TextError} (found : field.fault? text = some fault) : fault = .probability text := by
  have unread : readProbability text = .error fault := by
    cases field with
    | duration => contradiction
    | _ => exact errorOf?_eq_some_iff.mp found
  unfold readProbability at unread
  split at unread
  · contradiction
  · exact (Except.error.inj unread).symm

/-- An error is about the text of its field. -/
theorem text_of_fault? {field : StageField} {text : String} {fault : TextError}
    (found : field.fault? text = some fault) : fault.text = text := by
  by_cases length : field = .duration
  · subst length
    have ⟨cause, _, same⟩ := (fault?_duration_eq_some_iff text fault).mp found
    rw [same]
    rfl
  · rw [fault?_probability length found]
    rfl

/-- The error is the carry past the last second. -/
def TextError.Overflows : TextError → Prop
  | .duration _ cause => cause = .secondsOverflow
  | .probability _ => False

theorem overflows_of_fault? {field : StageField} {text : String} {fault : TextError}
    (found : field.fault? text = some fault) :
    fault.Overflows ↔ field = .duration ∧ Duration.Overruns text := by
  by_cases length : field = .duration
  · subst length
    have ⟨cause, unread, same⟩ := (fault?_duration_eq_some_iff text fault).mp found
    rw [same, ← Duration.ofText_overflow_iff, unread]
    simp [TextError.Overflows]
  · rw [fault?_probability length found]
    simp [TextError.Overflows, length]

/-- The first fault of a stage is one of its fields'. -/
theorem exists_field_of_firstFault? {entry : StageEntry} {error : StageError}
    (found : entry.firstFault? = some error) :
    ∃ field cause, field.fault? (entry.text field) = some cause ∧
      error = ⟨entry.name, field, cause⟩ := by
  have ⟨field, _, fault⟩ := List.exists_of_findSome?_eq_some found
  have ⟨cause, unread, same⟩ := Option.map_eq_some_iff.mp fault
  exact ⟨field, cause, unread, same.symm⟩

/-- The length of time is looked at first, so nothing comes before its carry. -/
theorem firstFault?_of_overruns {entry : StageEntry} (exceeds : Duration.Overruns entry.duration) :
    entry.firstFault? =
      some ⟨entry.name, .duration, .duration entry.duration .secondsOverflow⟩ := by
  have fault : StageField.duration.fault? entry.duration =
      some (.duration entry.duration .secondsOverflow) :=
    (fault?_duration_eq_some_iff ..).mpr
      ⟨_, (Duration.ofText_overflow_iff _).mpr exceeds, rfl⟩
  unfold StageEntry.firstFault? StageField.order
  rw [findSome?_cons_or, show entry.text .duration = entry.duration from rfl, fault]
  rfl

/-! ## Documents -/

/-- The length of time of a stage carries past the last second, after stages that are checked. -/
def Document.Overruns (document : Document) : Prop :=
  ∃ earlier entry later, document.stages = earlier ++ entry :: later ∧
    (∀ stage ∈ earlier, ∃ checked, Stage.ofEntry stage = .ok checked) ∧
      Duration.Overruns entry.duration

theorem firstFault?_eq_none_iff (entry : StageEntry) :
    entry.firstFault? = none ↔ ∃ checked, Stage.ofEntry entry = .ok checked := by
  rw [← errorOf?_ofEntry, errorOf?_eq_none_iff]

/-- An error is the first fault of a stage whose predecessors are checked. -/
theorem ofDocument_error_iff (document : Document) (error : StageError) :
    Scenario.ofDocument document = .error error ↔
      ∃ earlier entry later, document.stages = earlier ++ entry :: later ∧
        entry.firstFault? = some error ∧
          ∀ stage ∈ earlier, ∃ checked, Stage.ofEntry stage = .ok checked := by
  rw [← errorOf?_eq_some_iff, errorOf?_ofDocument, List.findSome?_eq_some_iff]
  simp only [firstFault?_eq_none_iff]

/-- Checking a document gives a scenario or an error that names a stage of the document and is about
the text of one of its fields. Only on the documents of `Document.Overruns` is the error the carry
past the last second. -/
theorem Scenario.ofDocument_outcome (document : Document) :
    ((∃ scenario, Scenario.ofDocument document = .ok scenario) ∨
      ∃ entry ∈ document.stages, ∃ field cause,
        Scenario.ofDocument document = .error ⟨entry.name, field, cause⟩ ∧
          cause.text = entry.text field) ∧
      ((∃ error, Scenario.ofDocument document = .error error ∧ error.cause.Overflows) ↔
        document.Overruns) := by
  apply And.intro
  · cases outcome : Scenario.ofDocument document with
    | ok scenario => exact Or.inl ⟨scenario, rfl⟩
    | error error =>
        have ⟨earlier, entry, later, stages, found, _⟩ :=
          (ofDocument_error_iff document error).mp outcome
        have ⟨field, cause, unread, same⟩ := exists_field_of_firstFault? found
        have member : entry ∈ document.stages := by simp [stages]
        exact Or.inr ⟨entry, member, field, cause, by rw [same], text_of_fault? unread⟩
  · constructor
    · rintro ⟨error, outcome, overflows⟩
      have ⟨earlier, entry, later, stages, found, checked⟩ :=
        (ofDocument_error_iff document error).mp outcome
      have ⟨field, cause, unread, same⟩ := exists_field_of_firstFault? found
      rw [same] at overflows
      have ⟨length, exceeds⟩ := (overflows_of_fault? unread).mp overflows
      rw [length] at exceeds
      exact ⟨earlier, entry, later, stages, checked, exceeds⟩
    · rintro ⟨earlier, entry, later, stages, checked, exceeds⟩
      have found := firstFault?_of_overruns exceeds
      have outcome := (ofDocument_error_iff document _).mpr
        ⟨earlier, entry, later, stages, found, checked⟩
      exact ⟨_, outcome, rfl⟩

/-- The largest count of seconds and one second of nanoseconds. -/
theorem Scenario.ofDocument_overflow :
    Scenario.ofDocument
        ⟨[], [], [⟨"x", 0, "18446744073709551615s 1000000000ns", "0%", "0%", "0%"⟩]⟩ =
      .error ⟨"x", .duration,
        .duration "18446744073709551615s 1000000000ns" .secondsOverflow⟩ := rfl

end FaultDrill
