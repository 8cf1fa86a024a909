import FaultDrill.Proofs.Scenario
import Mathlib.Data.List.Forall2

/-!
Documents are checked as a whole.

Owns:
- the stage that an entry, and the scenario that a document is understood as;
- the first failure of a document, told by what stands before it.

Does not own: the faults of single fields and their order (`Proofs.Scenario`).

Main statement: a document is understood part by part and in its order, or checking reports its
first failure, on which nothing that stands behind it has an influence
(`Scenario.ofDocument_firstFailure`).
-/

namespace FaultDrill

/-! ## Understood documents -/

/-- An entry is understood as a stage: its name and its clients are taken as they are, and each of
its texts is read on its own. -/
structure StageEntry.UnderstoodAs (entry : StageEntry) (stage : Stage) : Prop where
  name : stage.name = entry.name
  clients : stage.clients = entry.clients
  duration : readDuration entry.duration = .ok stage.duration
  diskCorruption : readProbability entry.diskCorruption = .ok stage.diskCorruption
  networkFailure : readProbability entry.networkFailure = .ok stage.networkFailure
  fullOutage : readProbability entry.fullOutage = .ok stage.fullOutage

/-- A document is understood as a scenario: services and journeys are taken as they are, and the
stages are those that its entries are understood as, one for each and in their order. -/
structure Document.UnderstoodAs (document : Document) (scenario : Scenario) : Prop where
  services : scenario.services = document.services
  journeys : scenario.journeys = document.journeys
  stages : List.Forall₂ StageEntry.UnderstoodAs document.stages scenario.stages

section

variable {Cause Fault Item Value Result : Type}

theorem mapError_bind_eq_ok_iff (first : Except Cause Value) (named : Cause → Fault)
    (next : Value → Except Fault Result) (result : Result) :
    (first.mapError named >>= next) = .ok result ↔
      ∃ value, first = .ok value ∧ next value = .ok result := by
  cases first with
  | error cause =>
      show Except.error (named cause) = Except.ok result ↔ _
      simp
  | ok value =>
      show next value = .ok result ↔ _
      simp

theorem mapM_eq_ok_iff (check : Item → Except Cause Value) (items : List Item)
    (values : List Value) :
    items.mapM check = .ok values ↔
      List.Forall₂ (fun item value => check item = .ok value) items values := by
  induction items generalizing values with
  | nil => cases values <;> simp [pure, Except.pure]
  | cons item items inductionHypothesis =>
      rw [List.mapM_cons]
      cases checked : check item with
      | error cause => cases values <;> simp [checked, bind, Except.bind]
      | ok value =>
          cases later : items.mapM check with
          | error cause =>
              cases values <;> simp [checked, later, ← inductionHypothesis, bind, Except.bind]
          | ok others =>
              cases values <;>
                simp [checked, later, ← inductionHypothesis, bind, Except.bind, pure, Except.pure]

end

theorem ofEntry_eq_ok_iff (entry : StageEntry) (stage : Stage) :
    Stage.ofEntry entry = .ok stage ↔ entry.UnderstoodAs stage := by
  unfold Stage.ofEntry
  simp only [mapError_bind_eq_ok_iff]
  constructor
  · rintro ⟨duration, length, disk, corrupted, network, failed, outage, out, ⟨⟩⟩
    exact ⟨rfl, rfl, length, corrupted, failed, out⟩
  · rintro ⟨name, clients, length, corrupted, failed, out⟩
    refine ⟨_, length, _, corrupted, _, failed, _, out, ?_⟩
    rw [← name, ← clients]

theorem ofDocument_eq_ok_iff (document : Document) (scenario : Scenario) :
    Scenario.ofDocument document = .ok scenario ↔ document.UnderstoodAs scenario := by
  have stages (checked : List Stage) : document.stages.mapM Stage.ofEntry = .ok checked ↔
      List.Forall₂ StageEntry.UnderstoodAs document.stages checked := by
    simp only [mapM_eq_ok_iff, ofEntry_eq_ok_iff]
  unfold Scenario.ofDocument
  constructor
  · intro outcome
    cases checked : document.stages.mapM Stage.ofEntry with
    | error cause => rw [checked] at outcome; cases outcome
    | ok list =>
        rw [checked] at outcome
        cases outcome
        exact ⟨rfl, rfl, (stages list).mp checked⟩
  · rintro ⟨services, journeys, understood⟩
    rw [(stages _).mpr understood, ← services, ← journeys]
    rfl

/-! ## First failures -/

/-- How many fields of a stage are looked at before a field. -/
def StageField.rank (field : StageField) : Nat := StageField.order.idxOf field

theorem StageField.mem_order (field : StageField) : field ∈ StageField.order := by
  cases field <;> decide

theorem StageField.mem_iff_rank_lt {earlier later : List StageField} {field : StageField}
    (parts : StageField.order = earlier ++ field :: later) (other : StageField) :
    other ∈ earlier ↔ other.rank < field.rank := by
  have distinct : StageField.order.Nodup := by decide
  have absent : field ∉ earlier := by
    rw [parts] at distinct
    have ⟨_, _, apart⟩ := List.nodup_append.mp distinct
    exact fun member => apart field member field List.mem_cons_self rfl
  have position : field.rank = earlier.length := by
    unfold rank
    rw [parts, List.idxOf_append_of_notMem absent, List.idxOf_cons_self, Nat.add_zero]
  rw [position]
  unfold rank
  rw [parts]
  constructor
  · intro member
    rw [List.idxOf_append_of_mem member]
    exact List.idxOf_lt_length_of_mem member
  · intro less
    by_contra missing
    rw [List.idxOf_append_of_notMem missing] at less
    omega

/-- The text of a field is not read, and those of the fields before it are. -/
structure StageEntry.FailsAt (entry : StageEntry) (field : StageField) (cause : TextError) :
    Prop where
  fault : field.fault? (entry.text field) = some cause
  before : ∀ other : StageField, other.rank < field.rank → other.fault? (entry.text other) = none

/-- A document fails at a field of an entry: the entries before it are understood, and so are the
fields before that field. -/
structure Document.FailsAt (document : Document) (earlier : List StageEntry) (entry : StageEntry)
    (field : StageField) (cause : TextError) : Prop where
  begins : earlier ++ [entry] <+: document.stages
  understood : ∀ stage ∈ earlier, ∃ checked, stage.UnderstoodAs checked
  fails : entry.FailsAt field cause

theorem firstFault?_eq_some_iff (entry : StageEntry) (error : StageError) :
    entry.firstFault? = some error ↔
      ∃ field cause, entry.FailsAt field cause ∧ error = ⟨entry.name, field, cause⟩ := by
  unfold StageEntry.firstFault?
  constructor
  · intro found
    have ⟨earlier, field, later, parts, fault, before⟩ := List.findSome?_eq_some_iff.mp found
    have ⟨cause, unread, same⟩ := Option.map_eq_some_iff.mp fault
    refine ⟨field, cause, ⟨unread, ?_⟩, same.symm⟩
    intro other less
    exact Option.map_eq_none_iff.mp (before other ((field.mem_iff_rank_lt parts other).mpr less))
  · rintro ⟨field, cause, fails, rfl⟩
    have ⟨earlier, later, parts⟩ := List.append_of_mem field.mem_order
    refine List.findSome?_eq_some_iff.mpr ⟨earlier, field, later, parts, ?_, ?_⟩
    · rw [fails.fault]
      rfl
    · intro other member
      rw [fails.before other ((field.mem_iff_rank_lt parts other).mp member)]
      rfl

/-- Checking reports a failure exactly if the document fails there. -/
theorem ofDocument_eq_error_iff (document : Document) (error : StageError) :
    Scenario.ofDocument document = .error error ↔
      ∃ earlier entry field cause, document.FailsAt earlier entry field cause ∧
        error = ⟨entry.name, field, cause⟩ := by
  rw [ofDocument_error_iff]
  simp only [firstFault?_eq_some_iff, ofEntry_eq_ok_iff]
  constructor
  · rintro ⟨earlier, entry, later, stages, ⟨field, cause, fails, same⟩, understood⟩
    refine ⟨earlier, entry, field, cause, ⟨⟨later, ?_⟩, understood, fails⟩, same⟩
    rw [stages, List.append_assoc]
    rfl
  · rintro ⟨earlier, entry, field, cause, ⟨⟨later, stages⟩, understood, fails⟩, same⟩
    refine ⟨earlier, entry, later, ?_, ⟨field, cause, fails, same⟩, understood⟩
    rw [← stages, List.append_assoc]
    rfl

/-- Behind the field at which a document fails everything may be changed. -/
theorem Document.FailsAt.change {document other : Document} {earlier : List StageEntry}
    {entry changed : StageEntry} {field : StageField} {cause : TextError}
    (fails : document.FailsAt earlier entry field cause)
    (begins : earlier ++ [changed] <+: other.stages)
    (same : ∀ kept, kept.rank ≤ field.rank → changed.text kept = entry.text kept) :
    other.FailsAt earlier changed field cause where
  begins := begins
  understood := fails.understood
  fails := by
    constructor
    · rw [same field (Nat.le_refl _)]
      exact fails.fails.fault
    · intro before less
      rw [same before (Nat.le_of_lt less)]
      exact fails.fails.before before less

theorem exists_understoodAs_iff (document : Document) :
    (∃ scenario, Scenario.ofDocument document = .ok scenario) ↔
      ∀ entry ∈ document.stages, ∃ stage, entry.UnderstoodAs stage := by
  rw [← errorOf?_eq_none_iff, errorOf?_ofDocument, List.findSome?_eq_none_iff]
  simp only [firstFault?_eq_none_iff, ofEntry_eq_ok_iff]

/-- Where no length of time carries past the last second, a document is understood if and only if
each of its entries is, and then part by part and in its order. Otherwise checking reports the
first field that fails, in the first entry that has one, and why. It reports the same of every
document that has the same entries before, the same name and the same texts up to that field. -/
theorem Scenario.ofDocument_firstFailure (document : Document)
    (within : ∀ entry ∈ document.stages, ¬ Duration.Overruns entry.duration) :
    (∀ scenario, Scenario.ofDocument document = .ok scenario ↔ document.UnderstoodAs scenario) ∧
      ((∃ scenario, Scenario.ofDocument document = .ok scenario) ↔
        ∀ entry ∈ document.stages, ∃ stage, entry.UnderstoodAs stage) ∧
      ((∃ scenario, Scenario.ofDocument document = .ok scenario) ∨
        ∃ earlier entry field cause, document.FailsAt earlier entry field cause ∧
          ¬ cause.Overflows ∧
          Scenario.ofDocument document = .error ⟨entry.name, field, cause⟩ ∧
          ∀ (other : Document) (changed : StageEntry),
            earlier ++ [changed] <+: other.stages → changed.name = entry.name →
            (∀ kept, kept.rank ≤ field.rank → changed.text kept = entry.text kept) →
            Scenario.ofDocument other = .error ⟨entry.name, field, cause⟩) := by
  refine ⟨ofDocument_eq_ok_iff document, exists_understoodAs_iff document, ?_⟩
  cases outcome : Scenario.ofDocument document with
  | ok scenario => exact Or.inl ⟨scenario, rfl⟩
  | error error =>
      right
      have ⟨earlier, entry, field, cause, fails, same⟩ :=
        (ofDocument_eq_error_iff document error).mp outcome
      refine ⟨earlier, entry, field, cause, fails, ?_, by rw [same], ?_⟩
      · intro overflows
        have member : entry ∈ document.stages :=
          fails.begins.subset (List.mem_append_right earlier List.mem_cons_self)
        have ⟨length, exceeds⟩ := (overflows_of_fault? fails.fails.fault).mp overflows
        rw [length] at exceeds
        exact within entry member exceeds
      · intro other changed begins name kept
        exact (ofDocument_eq_error_iff other _).mpr
          ⟨earlier, changed, field, cause, fails.change begins kept, by rw [name]⟩

/-- A stage that is understood, one with a probability that is none, and one whose length of time is
none. -/
theorem Scenario.ofDocument_firstFailure_of_unread :
    ∃ document : Document,
      document.stages = [⟨"calm", 1, "1s", "1%", "1%", "1%"⟩,
        ⟨"broken", 2, "1m", "bad", "1%", "worse"⟩, ⟨"late", 3, "never", "1%", "1%", "1%"⟩] ∧
      (∀ entry ∈ document.stages, ¬ Duration.Overruns entry.duration) ∧
      ∃ earlier entry field cause, document.FailsAt earlier entry field cause ∧
        (⟨entry.name, field, cause⟩ : StageError) =
          ⟨"broken", .diskCorruption, .probability "bad"⟩ := by
  let document : Document := { stages := [⟨"calm", 1, "1s", "1%", "1%", "1%"⟩,
    ⟨"broken", 2, "1m", "bad", "1%", "worse"⟩, ⟨"late", 3, "never", "1%", "1%", "1%"⟩] }
  have within : ∀ entry ∈ document.stages, ¬ Duration.Overruns entry.duration := by
    simp only [← Duration.ofText_overflow_iff]
    decide +kernel
  have outcome : Scenario.ofDocument document =
      .error ⟨"broken", .diskCorruption, .probability "bad"⟩ := by
    decide +kernel
  refine ⟨document, rfl, within, ?_⟩
  rcases (ofDocument_firstFailure document within).2.2 with
    ⟨scenario, understood⟩ | ⟨earlier, entry, field, cause, fails, -, reported, -⟩
  · rw [outcome] at understood
    cases understood
  · rw [outcome] at reported
    exact ⟨earlier, entry, field, cause, fails, (Except.error.inj reported).symm⟩

end FaultDrill
