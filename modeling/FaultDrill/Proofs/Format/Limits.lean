import FaultDrill.Proofs.Format

/-!
Documents that are written to a writer of limited capacity.

Owns:
- what such a writer has accepted of pieces, and of sections, that it cannot hold;
- which error a format gives for a refused write.

Main statement: a document is written exactly if it fits and the writer finishes; otherwise the
writer has accepted the beginning of it, and the error tells whether the format or the destination
was at fault (`encode_limited`).

The pieces in which a format writes play no role in it, but that JSON writes its last byte alone.
-/

namespace FaultDrill

/-! ## Pieces -/

namespace Writer

variable {capacity : Nat} {finishes : Bool} {accepted : List UInt8}

theorem fits_iff {count : Nat} :
    ({ capacity := some capacity, finishes, accepted } : Writer).fits count = true ↔
      accepted.length + count ≤ capacity :=
  decide_eq_true_iff

/-- Pieces that fit altogether are all accepted. -/
theorem write_of_fits {pieces : List (List UInt8)}
    (fits : accepted.length + pieces.flatten.length ≤ capacity) :
    ({ capacity := some capacity, finishes, accepted } : Writer).write pieces =
      (true, { capacity := some capacity, finishes, accepted := accepted ++ pieces.flatten }) := by
  induction pieces generalizing accepted with
  | nil =>
      unfold write
      rw [List.flatten_nil, List.append_nil]
  | cons piece pieces inductionHypothesis =>
      rw [List.flatten_cons, List.length_append] at fits
      have small : accepted.length + piece.length ≤ capacity := by omega
      have later := @inductionHypothesis (accepted ++ piece) (by
        rw [List.length_append]
        omega)
      rw [List.append_assoc, ← List.flatten_cons] at later
      unfold write
      rw [if_pos (fits_iff.mpr small)]
      exact later

/-- Pieces that do not fit altogether are accepted up to the first that does not. -/
theorem write_of_exceeds {pieces : List (List UInt8)}
    (exceeds : capacity < accepted.length + pieces.flatten.length)
    (within : accepted.length ≤ capacity) :
    ∃ front, front <+: pieces.flatten ∧
      ({ capacity := some capacity, finishes, accepted } : Writer).write pieces =
        (false, { capacity := some capacity, finishes, accepted := accepted ++ front }) := by
  induction pieces generalizing accepted with
  | nil =>
      rw [List.flatten_nil, List.length_nil] at exceeds
      omega
  | cons piece pieces inductionHypothesis =>
      rw [List.flatten_cons, List.length_append] at exceeds
      by_cases small : accepted.length + piece.length ≤ capacity
      · have lengths : (accepted ++ piece).length = accepted.length + piece.length :=
          List.length_append
        obtain ⟨front, isFront, wrote⟩ :=
          @inductionHypothesis (accepted ++ piece) (by omega) (by omega)
        refine ⟨piece ++ front, ?_, ?_⟩
        · rw [List.flatten_cons]
          exact (List.prefix_append_right_inj piece).mpr isFront
        · unfold write
          rw [if_pos (fits_iff.mpr small), ← List.append_assoc]
          exact wrote
      · refine ⟨[], List.nil_prefix, ?_⟩
        unfold write
        rw [if_neg (fun fits => small (fits_iff.mp fits)), List.append_nil]

end Writer

/-! ## Sections -/

namespace Format

variable {capacity : Nat} {finishes : Bool} {accepted : List UInt8}
  {sections : List (List (List UInt8) × EncodeError)}

/-- The bytes of sections. -/
def sectionBytes (sections : List (List (List UInt8) × EncodeError)) : List UInt8 :=
  (sections.map (·.1.flatten)).flatten

theorem sectionBytes_cons (pieces : List (List UInt8)) (error : EncodeError)
    (sections : List (List (List UInt8) × EncodeError)) :
    sectionBytes ((pieces, error) :: sections) = pieces.flatten ++ sectionBytes sections := rfl

theorem writeSections_of_fits
    (fits : accepted.length + (sectionBytes sections).length ≤ capacity) :
    writeSections { capacity := some capacity, finishes, accepted } sections =
      (.ok (), { capacity := some capacity, finishes,
                 accepted := accepted ++ sectionBytes sections }) := by
  induction sections generalizing accepted with
  | nil =>
      unfold writeSections
      rw [show sectionBytes [] = [] from rfl, List.append_nil]
  | cons head sections inductionHypothesis =>
      obtain ⟨pieces, error⟩ := head
      rw [sectionBytes_cons, List.length_append] at fits
      have later := @inductionHypothesis (accepted ++ pieces.flatten) (by
        rw [List.length_append]
        omega)
      unfold writeSections
      rw [Writer.write_of_fits (by omega), sectionBytes_cons, ← List.append_assoc]
      exact later

/-- Sections that do not fit fail at the first that does not, with its error. What was accepted is
the beginning of their bytes. -/
theorem writeSections_of_exceeds
    (exceeds : capacity < accepted.length + (sectionBytes sections).length)
    (within : accepted.length ≤ capacity) :
    ∃ before pieces error after front, sections = before ++ (pieces, error) :: after ∧
      accepted.length + (sectionBytes before).length ≤ capacity ∧
      capacity < accepted.length + (sectionBytes before).length + pieces.flatten.length ∧
      front <+: sectionBytes sections ∧
      writeSections { capacity := some capacity, finishes, accepted } sections =
        (.error error, { capacity := some capacity, finishes, accepted := accepted ++ front }) := by
  induction sections generalizing accepted with
  | nil =>
      rw [show sectionBytes [] = [] from rfl, List.length_nil] at exceeds
      omega
  | cons head sections inductionHypothesis =>
      obtain ⟨pieces, error⟩ := head
      rw [sectionBytes_cons, List.length_append] at exceeds
      by_cases fits : accepted.length + pieces.flatten.length ≤ capacity
      · have lengths : (accepted ++ pieces.flatten).length =
            accepted.length + pieces.flatten.length := List.length_append
        obtain ⟨before, failing, cause, after, front, parts, fitted, exceeded, isFront, wrote⟩ :=
          @inductionHypothesis (accepted ++ pieces.flatten) (by omega) (by omega)
        rw [lengths] at fitted exceeded
        refine ⟨(pieces, error) :: before, failing, cause, after, pieces.flatten ++ front,
          by rw [parts, List.cons_append], ?_, ?_, ?_, ?_⟩
        · rw [sectionBytes_cons, List.length_append]
          omega
        · rw [sectionBytes_cons, List.length_append]
          omega
        · exact (List.prefix_append_right_inj pieces.flatten).mpr isFront
        · unfold writeSections
          rw [Writer.write_of_fits fits, ← List.append_assoc]
          exact wrote
      · obtain ⟨front, isFront, wrote⟩ :=
          @Writer.write_of_exceeds capacity finishes accepted pieces (by omega) within
        refine ⟨[], pieces, error, sections, front, rfl, within, ?_, ?_, ?_⟩
        · change capacity < accepted.length + 0 + pieces.flatten.length
          omega
        · exact isFront.trans (List.prefix_append pieces.flatten _)
        · unfold writeSections
          rw [wrote]

/-! ## Documents -/

/-- The error of a write that is refused when so many bytes of so many fit. The end of the last line
is no part of a JSON document, and in TOML no byte is written before all are known. -/
def refusalError (format : Format) (refusal : String) (capacity length : Nat) : EncodeError :=
  match format with
  | .json => if capacity + 1 = length then .destination refusal else .format .json refusal
  | .yaml => .format .yaml refusal
  | .toml => .destination refusal

theorem encode_of_fits {format : Format} {document : Document} (refusals : Refusals)
    (fits : (format.bytes document).length ≤ capacity) :
    format.encode document { capacity := some capacity, finishes } refusals =
      (if finishes then .ok () else .error (.destination refusals.finish),
        { capacity := some capacity, finishes, accepted := format.bytes document }) := by
  have wrote : writeSections { capacity := some capacity, finishes }
      (format.sections refusals.write document) =
        (.ok (), { capacity := some capacity, finishes, accepted := format.bytes document }) := by
    rw [bytes_eq format refusals.write] at fits ⊢
    apply writeSections_of_fits
    simpa [sectionBytes] using fits
  unfold encode
  rw [wrote]
  cases finishes with
  | true => rfl
  | false => rfl

/-- The first section that does not fit has the error of the format. -/
theorem refusalError_of_section {format : Format} {refusal : String} {document : Document}
    {before after : List (List (List UInt8) × EncodeError)} {pieces : List (List UInt8)}
    {error : EncodeError}
    (parts : format.sections refusal document = before ++ (pieces, error) :: after)
    (fitted : (sectionBytes before).length ≤ capacity)
    (exceeded : capacity < (sectionBytes before).length + pieces.flatten.length) :
    error = format.refusalError refusal capacity
      (sectionBytes (format.sections refusal document)).length := by
  cases format with
  | yaml =>
      cases before with
      | nil =>
          cases parts
          rfl
      | cons head before => simp [sections] at parts
  | toml =>
      cases before with
      | nil =>
          cases parts
          rfl
      | cons head before => simp [sections] at parts
  | json =>
      -- The end of the last line is a section of its own, one byte long.
      have total : (sectionBytes (json.sections refusal document)).length =
          ((Json.encode document).map fun text =>
            Text.Utf8.encode text.toList).flatten.length + 1 := by
        unfold sections
        rw [sectionBytes_cons, List.length_append]
        rfl
      unfold refusalError
      rw [total]
      cases before with
      | nil =>
          cases parts
          change capacity < 0 + _ at exceeded
          dsimp only
          rw [if_neg (by omega)]
      | cons head before =>
          cases before with
          | nil =>
              cases parts
              rw [sectionBytes_cons, List.length_append] at fitted exceeded
              change _ + 0 ≤ capacity at fitted
              change capacity < _ + 0 + 1 at exceeded
              dsimp only
              rw [if_pos (by omega)]
          | cons second before => simp [sections] at parts

theorem encode_of_exceeds {format : Format} {document : Document} (refusals : Refusals)
    (exceeds : capacity < (format.bytes document).length) :
    ∃ front, front <+: format.bytes document ∧
      format.encode document { capacity := some capacity, finishes } refusals =
        (.error (format.refusalError refusals.write capacity (format.bytes document).length),
          { capacity := some capacity, finishes, accepted := front }) := by
  have total := bytes_eq format refusals.write document
  change format.bytes document = sectionBytes (format.sections refusals.write document) at total
  rw [total] at exceeds ⊢
  obtain ⟨before, pieces, error, after, front, parts, fitted, exceeded, isFront, wrote⟩ :=
    @writeSections_of_exceeds capacity finishes [] _ (by simpa using exceeds) (by simp)
  refine ⟨front, isFront, ?_⟩
  rw [List.length_nil, Nat.zero_add] at fitted exceeded
  have which := refusalError_of_section parts fitted exceeded
  unfold encode
  rw [wrote, which]
  rfl

end Format

end FaultDrill
