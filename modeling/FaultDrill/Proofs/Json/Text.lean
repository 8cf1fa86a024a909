import FaultDrill.Json.Text
import FaultDrill.Proofs.Json.Reading
import FaultDrill.Proofs.Text.Utf8

/-!
Texts of JSON are read as what they stand for.

Owns:
- which bytes between quotes stand for which bytes;
- the reading of escapes, and of a text up to its closing quote;
- the bytes of a text that is written.

Main statements: a text is read from whatever stands for it (`takes_textTail`), and what is written
for a text stands for it (`transcribes_textLiteral`).
-/

namespace FaultDrill.Json

open Text

namespace Reader

variable {bytes rest : List UInt8}

/-! ## Escapes -/

theorem takes_nextInText (byte : UInt8) (rest : List UInt8) :
    Takes nextInText [byte] rest byte :=
  Takes.bind_done (takes_next byte rest) (takes_pure byte rest)

theorem takes_fourHexDigits {first second third fourth : UInt8} {a b c d : Nat}
    (one : hexValue? first = some a) (two : hexValue? second = some b)
    (three : hexValue? third = some c) (four : hexValue? fourth = some d) (rest : List UInt8) :
    Takes fourHexDigits [first, second, third, fourth] rest (((a * 16 + b) * 16 + c) * 16 + d) := by
  refine Takes.bind_byte (takes_nextInText first _) (Takes.bind_byte (takes_nextInText second _)
    (Takes.bind_byte (takes_nextInText third _) (Takes.bind_done (takes_nextInText fourth _) ?_)))
  rw [one, two, three, four]
  exact takes_pure _ rest

theorem takes_escape_letter {letter meant : UInt8} (short : letter ≠ 0x75)
    (stands : escapedByte? letter = some meant) (rest : List UInt8) :
    Takes escape [letter] rest [meant] := by
  refine Takes.bind_done (takes_nextInText letter rest) ?_
  rw [if_neg short, stands]
  exact takes_pure [meant] rest

/-- The escape of a code point that is no surrogate. -/
theorem takes_escape_codePoint {first second third fourth : UInt8} {a b c d number : Nat}
    (one : hexValue? first = some a) (two : hexValue? second = some b)
    (three : hexValue? third = some c) (four : hexValue? fourth = some d)
    (sum : ((a * 16 + b) * 16 + c) * 16 + d = number)
    (single : number < 0xD800 ∨ 0xDFFF < number) (rest : List UInt8) :
    Takes escape [0x75, first, second, third, fourth] rest
      (String.utf8EncodeChar (Char.ofNat number)) := by
  have digits := takes_fourHexDigits one two three four rest
  rw [sum] at digits
  refine Takes.bind (takes_nextInText 0x75 _) ?_
  rw [if_pos rfl]
  refine Takes.bind_done digits ?_
  rw [if_neg (by omega), if_pos (by omega)]
  exact takes_pure _ rest

/-! ## Texts -/

/-- Bytes between quotes with the bytes that they stand for. -/
inductive Transcribes : List UInt8 → List UInt8 → Prop where
  | nil : Transcribes [] []
  | plain {byte : UInt8} {source meant : List UInt8} (notQuote : byte ≠ 0x22)
      (notBackslash : byte ≠ 0x5C) (notControl : ¬ byte < 0x20) :
      Transcribes source meant → Transcribes (byte :: source) (byte :: meant)
  | escape {escaped piece source meant : List UInt8}
      (reads : ∀ rest, Takes escape escaped rest piece) :
      Transcribes source meant → Transcribes (0x5C :: (escaped ++ source)) (piece ++ meant)

namespace Transcribes

variable {source meant more moreMeant : List UInt8}

theorem append (first : Transcribes source meant) (second : Transcribes more moreMeant) :
    Transcribes (source ++ more) (meant ++ moreMeant) := by
  induction first with
  | nil => exact second
  | plain notQuote notBackslash notControl _ inductionHypothesis =>
      exact .plain notQuote notBackslash notControl inductionHypothesis
  | escape reads _ inductionHypothesis =>
      rw [List.cons_append, List.append_assoc, List.append_assoc]
      exact .escape reads inductionHypothesis

theorem single {escaped piece : List UInt8}
    (reads : ∀ rest, Takes Reader.escape escaped rest piece) :
    Transcribes (0x5C :: escaped) piece := by
  have alone := Transcribes.escape reads .nil
  rwa [List.append_nil, List.append_nil] at alone

/-- Bytes that need no escapes stand for themselves. -/
theorem self (plain : ∀ byte ∈ bytes, byte ≠ 0x22 ∧ byte ≠ 0x5C ∧ ¬ byte < 0x20) :
    Transcribes bytes bytes := by
  induction bytes with
  | nil => exact .nil
  | cons byte bytes inductionHypothesis =>
      obtain ⟨notQuote, notBackslash, notControl⟩ := plain byte List.mem_cons_self
      exact .plain notQuote notBackslash notControl
        (inductionHypothesis fun other member => plain other (List.mem_cons_of_mem byte member))

end Transcribes

/-- A text is read up to its closing quote. -/
theorem takes_textBytes {source meant : List UInt8} (stands : Transcribes source meant)
    (rest : List UInt8) :
    ∀ steps, source.length < steps → ∀ reversed,
      Takes (textBytes steps reversed) (source ++ [0x22]) rest (reversed.reverse ++ meant) := by
  -- An escape takes one step for several bytes, so the steps only have to suffice.
  induction stands with
  | nil =>
      intro steps enough reversed
      obtain ⟨steps, rfl, -⟩ := exists_step enough
      refine Takes.bind_done (takes_nextInText 0x22 rest) ?_
      rw [if_pos rfl, List.append_nil]
      exact takes_pure reversed.reverse rest
  | @plain byte source meant notQuote notBackslash notControl _ inductionHypothesis =>
      intro steps enough reversed
      rw [List.length_cons] at enough
      obtain ⟨steps, rfl, fewer⟩ := exists_step enough
      have later := inductionHypothesis steps (by omega) (byte :: reversed)
      rw [List.reverse_cons, List.append_assoc, List.singleton_append] at later
      refine Takes.bind_byte (takes_nextInText byte _) ?_
      rw [if_neg notQuote, if_neg notBackslash, if_neg notControl]
      exact later
  | @escape escaped piece source meant reads _ inductionHypothesis =>
      intro steps enough reversed
      rw [List.length_cons, List.length_append] at enough
      obtain ⟨steps, rfl, fewer⟩ := exists_step enough
      have later := inductionHypothesis steps (by omega) (piece.reverse ++ reversed)
      rw [List.reverse_append, List.reverse_reverse, List.append_assoc] at later
      rw [List.cons_append, List.append_assoc]
      refine Takes.bind_byte (takes_nextInText 0x5C _) ?_
      rw [if_neg (by decide), if_pos rfl]
      exact Takes.bind (reads _) later

/-- A text is read from what stands for its bytes. -/
theorem takes_textTail {source : List UInt8} {text : String}
    (stands : Transcribes source (Utf8.encode text.toList)) (rest : List UInt8) :
    Takes textTail (source ++ [0x22]) rest text := by
  refine takes_get_bind fun cursor left _ => ?_
  have enough : source.length < cursor.rest.length + 1 := by
    rw [left]
    simp only [List.length_append]
    omega
  refine Takes.bind_done (takes_textBytes stands rest _ enough []) ?_
  rw [List.reverse_nil, List.nil_append, Utf8.text?_encode]
  exact takes_pure text rest

end Reader

/-! ## Texts that are written -/

open Reader (Transcribes)

private theorem hexValue?_hexDigit :
    ∀ value < 16, hexValue? (UInt8.ofNat (hexDigit value).toNat) = some value ∧
      (hexDigit value).toNat < 0x80 := by
  decide

theorem transcribes_plainChar {char : Char} (notQuote : char ≠ '"')
    (notBackslash : char ≠ '\\') (notControl : ¬ char.toNat < 0x20) :
    Transcribes (String.utf8EncodeChar char) (String.utf8EncodeChar char) := by
  refine .self fun byte member => ?_
  rw [ne_eq, ne_eq, ← UInt8.toNat_inj, ← UInt8.toNat_inj, UInt8.lt_iff_toNat_lt]
  change ¬ byte.toNat = 0x22 ∧ ¬ byte.toNat = 0x5C ∧ ¬ byte.toNat < 0x20
  by_cases small : char.toNat < 0x80
  · rw [Utf8.utf8EncodeChar_of_small small, List.mem_singleton] at member
    have number : byte.toNat = char.toNat := by
      rw [member, UInt8.toNat_ofNat_of_lt' (Nat.lt_trans small (by decide))]
    rw [number]
    exact ⟨fun same => notQuote (Char.toNat_inj.mp same),
      fun same => notBackslash (Char.toNat_inj.mp same), notControl⟩
  · have high := Utf8.le_of_mem_utf8EncodeChar small member
    omega

/-- A control character without a letter of its own. -/
private theorem transcribes_control {char : Char} (control : char.toNat < 0x20) :
    Transcribes
      (Utf8.encode
        ['\\', 'u', '0', '0', hexDigit (char.toNat / 16), hexDigit (char.toNat % 16)])
      (String.utf8EncodeChar char) := by
  obtain ⟨high, highSmall⟩ := hexValue?_hexDigit (char.toNat / 16) (by omega)
  obtain ⟨low, lowSmall⟩ := hexValue?_hexDigit (char.toNat % 16) (by omega)
  have zero : hexValue? 0x30 = some 0 := rfl
  have sum : ((0 * 16 + 0) * 16 + char.toNat / 16) * 16 + char.toNat % 16 = char.toNat := by omega
  have reads := fun rest =>
    Reader.takes_escape_codePoint zero zero high low sum (Or.inl (by omega)) rest
  rw [Char.ofNat_toNat] at reads
  have bytes : Utf8.encode
      ['\\', 'u', '0', '0', hexDigit (char.toNat / 16), hexDigit (char.toNat % 16)] =
        [0x5C, 0x75, 0x30, 0x30, UInt8.ofNat (hexDigit (char.toNat / 16)).toNat,
          UInt8.ofNat (hexDigit (char.toNat % 16)).toNat] := by
    unfold Utf8.encode
    simp only [List.flatMap_cons, List.flatMap_nil, Utf8.utf8EncodeChar_of_small highSmall,
      Utf8.utf8EncodeChar_of_small lowSmall]
    rfl
  rw [bytes]
  exact .single reads

/-- What is written for a character stands for it. -/
theorem transcribes_textChar (char : Char) :
    Transcribes (Utf8.encode (textChar char)) (String.utf8EncodeChar char) := by
  have letter : ∀ {letter meant : UInt8}, letter ≠ 0x75 → escapedByte? letter = some meant →
      Transcribes [0x5C, letter] [meant] := fun short stands =>
    .single (Reader.takes_escape_letter short stands)
  unfold textChar
  split
  · exact letter (by decide) rfl
  · exact letter (by decide) rfl
  · exact letter (by decide) rfl
  · exact letter (by decide) rfl
  · exact letter (by decide) rfl
  · exact letter (by decide) rfl
  · exact letter (by decide) rfl
  · next notQuote notBackslash _ _ _ _ _ =>
      split
      · next control => exact transcribes_control control
      · next notControl =>
          have bare : Utf8.encode [char] = String.utf8EncodeChar char := List.append_nil _
          rw [bare]
          exact transcribes_plainChar notQuote notBackslash notControl

theorem transcribes_textChars (chars : List Char) :
    Transcribes (Utf8.encode (chars.flatMap textChar)) (Utf8.encode chars) := by
  induction chars with
  | nil => exact .nil
  | cons char chars inductionHypothesis =>
      rw [List.flatMap_cons, Utf8.encode_append]
      exact (transcribes_textChar char).append inductionHypothesis

end FaultDrill.Json
