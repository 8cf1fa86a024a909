import FaultDrill.Proofs.Json.Grammar

/-!
Texts and numbers of the grammar are read, or passed over.

Owns: how the readers of escapes, texts and numbers answer to the grammar.

Main statements: what the grammar says of a text is what it is read as (`transcribes_of_textOf`);
any text and any number can be passed over (`takes_skipTextTail`, `takes_skipNumber`).
-/

namespace FaultDrill.Json.Reader

open Grammar Number Text

variable {rest : List UInt8}

/-! ## Escapes -/

theorem hexValue?_of_hexDigit {digit : UInt8} {value : Nat} (digitOf : HexDigit digit value) :
    hexValue? digit = some value := by
  unfold hexValue?
  simp only [UInt8.le_iff_toNat_le, UInt8.reduceToNat]
  rcases digitOf with ⟨small, decimal⟩ | ⟨large, small, upper | lower⟩
  · rw [if_pos (by omega), decimal, Nat.add_sub_cancel_left]
  · rw [if_neg (by omega), if_pos (by omega), Option.some.injEq]
    omega
  · rw [if_neg (by omega), if_neg (by omega), if_pos (by omega), Option.some.injEq]
    omega

theorem takes_fourHexDigits_of {digits : List UInt8} {value : Nat}
    (digitsOf : FourHexDigits digits value) (rest : List UInt8) :
    Takes fourHexDigits digits rest value := by
  cases digitsOf with
  | mk one two three four =>
      exact takes_fourHexDigits (hexValue?_of_hexDigit one) (hexValue?_of_hexDigit two)
        (hexValue?_of_hexDigit three) (hexValue?_of_hexDigit four) rest

theorem escapedByte?_of_listed {letter : UInt8} {char : Char}
    (listed : (letter, char) ∈ letterEscapes) :
    letter ≠ 0x75 ∧ ∃ byte, escapedByte? letter = some byte ∧
      String.utf8EncodeChar char = [byte] := by
  have all : ∀ entry ∈ letterEscapes, entry.1 ≠ 0x75 ∧
      escapedByte? entry.1 = (String.utf8EncodeChar entry.2).head? ∧
        (String.utf8EncodeChar entry.2).length = 1 := by
    decide
  obtain ⟨short, stands, single⟩ := all _ listed
  obtain ⟨byte, alone⟩ := List.length_eq_one_iff.mp single
  rw [alone] at stands
  exact ⟨short, byte, stands, alone⟩

theorem takes_pairByte (byte : UInt8) (rest : List UInt8) :
    Takes (pairByte byte) [byte] rest () := by
  have looks : Takes peekInText [] (byte :: rest) byte :=
    Takes.bind_done (takes_peek byte rest) (takes_pure byte _)
  refine Takes.bind_look looks (Takes.bind_done (takes_drop byte rest) ?_)
  rw [if_neg (fun different => different rfl)]
  exact takes_pure () rest

/-- The escape of a character with more than four digits. -/
theorem takes_escape_halves {high low : List UInt8} {first second : Nat}
    (firstSmall : first < 0x400) (secondSmall : second < 0x400)
    (highOf : FourHexDigits high (0xD800 + first)) (lowOf : FourHexDigits low (0xDC00 + second))
    (rest : List UInt8) :
    Takes escape (0x75 :: (high ++ 0x5C :: 0x75 :: low)) rest
      (String.utf8EncodeChar (Char.ofNat (first * 1024 + second + 0x10000))) := by
  refine Takes.bind_byte (takes_nextInText 0x75 _) ?_
  rw [if_pos rfl]
  refine Takes.bind (takes_fourHexDigits_of highOf _) ?_
  rw [if_neg (by omega), if_neg (by omega)]
  refine Takes.bind_byte (takes_pairByte 0x5C _) (Takes.bind_byte (takes_pairByte 0x75 _)
    (Takes.bind_done (takes_fourHexDigits_of lowOf _) ?_))
  rw [if_pos (by omega), Nat.add_sub_cancel_left, Nat.add_sub_cancel_left]
  exact takes_pure _ rest

/-! ## Texts -/

theorem transcribes_of_charText {source : List UInt8} {char : Char}
    (charOf : CharText source char) : Transcribes source (String.utf8EncodeChar char) := by
  cases charOf with
  | plain notQuote notBackslash notControl =>
      exact transcribes_plainChar notQuote notBackslash notControl
  | letter listed =>
      obtain ⟨short, byte, stands, alone⟩ := escapedByte?_of_listed listed
      rw [alone]
      exact .single (takes_escape_letter short stands)
  | @number digits char digitsOf =>
      refine .single fun rest => ?_
      have single : ¬ (0xD800 ≤ char.toNat ∧ char.toNat ≤ 0xDFFF) := by
        have valid := char.valid
        change char.toNat < 0xD800 ∨ (0xDFFF < char.toNat ∧ char.toNat < 0x110000) at valid
        omega
      refine Takes.bind_byte (takes_nextInText 0x75 _) ?_
      rw [if_pos rfl]
      refine Takes.bind_done (takes_fourHexDigits_of digitsOf rest) ?_
      rw [if_neg (by omega), if_pos (by omega), Char.ofNat_toNat]
      exact takes_pure _ rest
  | @halves high low char first second firstSmall secondSmall highOf lowOf sum =>
      refine .single fun rest => ?_
      have read := takes_escape_halves firstSmall secondSmall highOf lowOf rest
      have number : first * 1024 + second + 0x10000 = char.toNat := by omega
      rwa [number, Char.ofNat_toNat] at read

/-- Bytes are read as the text that they stand for. -/
theorem transcribes_of_textOf {source : List UInt8} {chars : List Char}
    (textOf : TextOf source chars) : Transcribes source (Utf8.encode chars) := by
  induction textOf with
  | nil => exact .nil
  | cons here _ inductionHypothesis =>
      exact (transcribes_of_charText here).append inductionHypothesis

theorem takes_skipTextBytes {source : List UInt8} (anyText : AnyText source) (rest : List UInt8) :
    ∀ steps, source.length < steps →
      Takes (skipTextBytes steps) (source ++ [0x22]) rest () := by
  induction anyText with
  | nil =>
      intro steps enough
      obtain ⟨steps, rfl, -⟩ := exists_step enough
      exact Takes.bind_done (takes_nextInText 0x22 rest) (takes_pure () rest)
  | @plain byte others notQuote notBackslash notControl _ inductionHypothesis =>
      intro steps enough
      obtain ⟨steps, rfl, fewer⟩ := exists_step enough
      refine Takes.bind_byte (takes_nextInText byte _) ?_
      rw [if_neg notQuote, if_neg notBackslash, if_neg notControl]
      exact inductionHypothesis steps fewer
  | @letter letter char others listed _ inductionHypothesis =>
      intro steps enough
      rw [List.length_cons, List.length_cons] at enough
      obtain ⟨steps, rfl, fewer⟩ := exists_step enough
      obtain ⟨short, byte, stands, -⟩ := escapedByte?_of_listed listed
      have escaped : Takes skipEscape [letter] (others ++ [0x22] ++ rest) () := by
        refine Takes.bind_done (takes_nextInText letter _) ?_
        rw [if_neg short, stands]
        exact takes_pure () _
      refine Takes.bind_byte (takes_nextInText 0x5C _) ?_
      rw [if_neg (by decide), if_pos rfl]
      exact Takes.bind_byte escaped (inductionHypothesis steps (by omega))
  | @number digits others value digitsOf _ inductionHypothesis =>
      intro steps enough
      rw [List.length_cons, List.length_cons, List.length_append] at enough
      obtain ⟨steps, rfl, fewer⟩ := exists_step enough
      have escaped : Takes skipEscape (0x75 :: digits) (others ++ [0x22] ++ rest) () := by
        refine Takes.bind_byte (takes_nextInText 0x75 _) ?_
        rw [if_pos rfl]
        exact Takes.bind_done (takes_fourHexDigits_of digitsOf _) (takes_pure () _)
      have parts : 0x5C :: 0x75 :: (digits ++ others) ++ [0x22] =
          0x5C :: (0x75 :: digits ++ (others ++ [0x22])) := by
        simp
      rw [parts]
      refine Takes.bind_byte (takes_nextInText 0x5C _) ?_
      rw [if_neg (by decide), if_pos rfl]
      exact Takes.bind escaped (inductionHypothesis steps (by omega))

/-- Any text is passed over up to its closing quote. -/
theorem takes_skipTextTail {source : List UInt8} (anyText : AnyText source) (rest : List UInt8) :
    Takes skipTextTail (source ++ [0x22]) rest () := by
  refine takes_get_bind fun cursor left _ => takes_skipTextBytes anyText rest _ ?_
  rw [left]
  simp only [List.length_append]
  omega

/-! ## Numbers -/

theorem takes_skipDigits {digits : List UInt8} (digitsOf : Digits digits)
    (ends : rest.head?.all (!isDigit ·) = true) :
    Takes skipExponent.skipDigits digits rest () := by
  obtain ⟨first, more, rfl⟩ := List.exists_cons_of_ne_nil digitsOf.nonempty
  have inside : ∀ digit ∈ more, isDigit digit = true :=
    fun digit member => digitsOf.isDigit digit (List.mem_cons_of_mem first member)
  refine Takes.bind_byte (takes_next first _) ?_
  dsimp only
  rw [if_pos (digitsOf.isDigit first List.mem_cons_self)]
  exact Takes.bind_done (takes_takeWhile more inside ends) (takes_pure () rest)

theorem takes_skipExponent {mark : UInt8} {sign digits : List UInt8}
    (signed : sign = [] ∨ sign = [0x2B] ∨ sign = [0x2D]) (digitsOf : Digits digits)
    (ends : rest.head?.all (!isDigit ·) = true) :
    Takes skipExponent (mark :: (sign ++ digits)) rest () := by
  have onward := takes_skipDigits digitsOf ends
  refine Takes.bind_byte (takes_drop mark _) ?_
  rcases signed with rfl | rfl | rfl
  · obtain ⟨first, more, rfl⟩ := List.exists_cons_of_ne_nil digitsOf.nonempty
    have unsigned : (first == 0x2B || first == 0x2D) = false := by
      have isDigit := digitsOf.isDigit first List.mem_cons_self
      unfold Number.isDigit at isDigit
      simp only [Bool.and_eq_true, decide_eq_true_eq, UInt8.le_iff_toNat_le, UInt8.reduceToNat,
        Bool.or_eq_false_iff, beq_eq_false_iff_ne, ne_eq, ← UInt8.toNat_inj] at isDigit ⊢
      omega
    refine Takes.bind_look (takes_nextIs _ first _) ?_
    rw [unsigned]
    exact onward
  · refine Takes.bind_look (takes_nextIs _ 0x2B _) ?_
    exact Takes.bind_byte (takes_drop 0x2B _) onward
  · refine Takes.bind_look (takes_nextIs _ 0x2D _) ?_
    exact Takes.bind_byte (takes_drop 0x2D _) onward

/-- What follows the whole part of a number, and then the number, cannot begin with a digit. -/
theorem head?_not_isDigit {fraction exponent : List UInt8} (fractionOf : Fraction fraction)
    (exponentOf : Exponent exponent) (ended : Ended rest) :
    (fraction ++ exponent ++ rest).head?.all (!isDigit ·) = true := by
  cases fractionOf with
  | some _ => rfl
  | none =>
      cases exponentOf with
      | some marked _ _ => rcases marked with rfl | rfl <;> rfl
      | none => exact all_not_isDigit_of_ended ended

theorem takes_skipNumberTail {fraction exponent : List UInt8} (fractionOf : Fraction fraction)
    (exponentOf : Exponent exponent) (ended : Ended rest) :
    Takes skipNumber.numberTail (fraction ++ exponent) rest () := by
  have ends := all_not_isDigit_of_ended ended
  cases fractionOf with
  | @some digits digitsOf =>
      have after := head?_not_isDigit .none exponentOf ended
      refine Takes.bind_look (takes_peek 0x2E _) (Takes.bind_byte (takes_drop 0x2E _) ?_)
      refine Takes.bind (takes_takeWhile digits digitsOf.isDigit after) ?_
      rw [if_neg digitsOf.nonempty]
      cases exponentOf with
      | @some mark sign digits marked signed digitsOf =>
          have isMark : isExponentMark mark = true := by rcases marked with rfl | rfl <;> rfl
          refine Takes.bind_look (takes_nextIs _ mark _) ?_
          rw [isMark]
          exact takes_skipExponent signed digitsOf ends
      | none =>
          have noMark : rest.head?.all (!isExponentMark ·) = true := by
            cases next : rest.head? with
            | none => rfl
            | some byte => simp [isExponentMark, (ended byte next).2.2]
          exact Takes.bind_look (takes_nextIs_not noMark) (takes_pure () rest)
  | none =>
      cases exponentOf with
      | @some mark sign digits marked signed digitsOf =>
          refine Takes.bind_look (takes_peek mark _) ?_
          rcases marked with rfl | rfl
          · exact takes_skipExponent signed digitsOf ends
          · exact takes_skipExponent signed digitsOf ends
      | none =>
          refine Takes.bind_look (takes_peek_head rest) ?_
          split
          · next point => exact absurd rfl (ended _ point).2.1
          · next mark => exact absurd rfl (ended _ mark).2.2.1
          · next mark => exact absurd rfl (ended _ mark).2.2.2
          · exact takes_pure () rest

/-- Any number is passed over. -/
theorem takes_skipNumber {number : List UInt8} (numberOf : NumberText number)
    (ended : Ended rest) : Takes skipNumber number rest () := by
  cases numberOf with
  | @mk whole fraction exponent value wholeOf fractionOf exponentOf =>
      have onward := takes_skipNumberTail fractionOf exponentOf ended
      have ends := head?_not_isDigit fractionOf exponentOf ended
      obtain ⟨first, more, rfl⟩ := List.exists_cons_of_ne_nil wholeOf.nonempty
      refine Takes.bind_byte (takes_next first _) ?_
      dsimp only
      by_cases nought : first = 0x30
      · subst nought
        cases wholeOf.leading rfl
        rw [if_pos rfl]
        refine Takes.bind_look (takes_nextIs_not ends) ?_
        rw [if_neg Bool.false_ne_true]
        exact onward
      · rw [if_neg nought, if_pos (wholeOf.isDigit first List.mem_cons_self)]
        have inside : ∀ digit ∈ more, isDigit digit = true :=
          fun digit member => wholeOf.isDigit digit (List.mem_cons_of_mem first member)
        exact Takes.bind (takes_takeWhile more inside ends) onward

end FaultDrill.Json.Reader
