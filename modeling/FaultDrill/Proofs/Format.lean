import FaultDrill.Format

/-!
Documents that are written to a writer without limits.

Owns: what such a writer has accepted in the end.

Main statement: in every format a document can be written, and its bytes are what has been
accepted (`encode_unlimited`).
-/

namespace FaultDrill

theorem Writer.write_unlimited (accepted : List UInt8) (pieces : List (List UInt8)) :
    ({ accepted } : Writer).write pieces = (true, { accepted := accepted ++ pieces.flatten }) := by
  induction pieces generalizing accepted with
  | nil =>
      unfold write
      rw [List.flatten_nil, List.append_nil]
  | cons piece pieces inductionHypothesis =>
      have later := inductionHypothesis (accepted ++ piece)
      rw [List.append_assoc, ← List.flatten_cons] at later
      exact later

namespace Format

theorem writeSections_unlimited (accepted : List UInt8)
    (sections : List (List (List UInt8) × EncodeError)) :
    writeSections { accepted } sections =
      (.ok (), { accepted := accepted ++ (sections.map (·.1.flatten)).flatten }) := by
  induction sections generalizing accepted with
  | nil =>
      unfold writeSections
      rw [List.map_nil, List.flatten_nil, List.append_nil]
  | cons head sections inductionHypothesis =>
      obtain ⟨pieces, error⟩ := head
      have later := inductionHypothesis (accepted ++ pieces.flatten)
      unfold writeSections
      rw [Writer.write_unlimited]
      dsimp only
      rw [later, List.map_cons, List.flatten_cons, List.append_assoc]

/-- What a writer says when it refuses does not change the bytes of a document. -/
theorem bytes_eq (format : Format) (refusal : String) (document : Document) :
    format.bytes document = ((format.sections refusal document).map (·.1.flatten)).flatten := by
  cases format <;> rfl

/-- A writer without limits accepts the bytes of the document. -/
theorem encode_unlimited (format : Format) (document : Document) (refusals : Refusals) :
    format.encode document {} refusals = (.ok (), { accepted := format.bytes document }) := by
  unfold encode
  rw [writeSections_unlimited, ← bytes_eq, List.nil_append]
  rfl

/-- A document that is read back from its bytes is read back from what a writer accepts. -/
theorem exists_writer {format : Format} {document : Document}
    (read : format.decode (format.bytes document) none = .ok document) (refusals : Refusals) :
    ∃ writer, format.encode document {} refusals = (.ok (), writer) ∧
      writer.accepted = format.bytes document ∧
      format.decode writer.accepted none = .ok document :=
  ⟨_, encode_unlimited format document refusals, rfl, read⟩

end Format

end FaultDrill
