import FaultDrill.Proofs.Toml.Reading
import FaultDrill.Toml.Encoder
import FaultDrill.Toml.Text

/-!
Texts of TOML are read as what they stand for.

Owns:
- which characters between quotes stand for which characters;
- the reading of escapes, and of a text up to its closing quotes;
- the characters that are written for a text in each of the four kinds of quotes.

Main statement: what is written for a text is read as this text, unless a quote follows
(`takes_textLiteral`).
-/

namespace FaultDrill.Toml

namespace Reader

/-! ## Escapes -/

theorem takes_lift {Value : Type} {found : Option Value} {value : Value}
    (known : found = some value) (rest : List Char) :
    Takes (liftM found : Reader Value) [] rest value := by
  rw [known]
  exact takes_pure value rest

theorem takes_hexNumber {digits : List Char} {values : List Nat}
    (each : digits.map hexDigit? = values.map some) (start : Nat) (rest : List Char) :
    Takes (hexNumber digits.length start) digits rest
      (values.foldl (fun value digit => value * 16 + digit) start) := by
  induction digits generalizing start values with
  | nil =>
      cases values with
      | nil => exact takes_pure start rest
      | cons value values => cases each
  | cons digit digits inductionHypothesis =>
      cases values with
      | nil => cases each
      | cons value values =>
          rw [List.map_cons, List.map_cons, List.cons.injEq] at each
          refine Takes.bind_cons (takes_one rfl _) ?_
          exact Takes.bind_look (takes_lift each.1 _) (inductionHypothesis each.2 _)

theorem takes_escape_letter {letter meant : Char} (short : letter ≠ 'u' ∧ letter ≠ 'U')
    (stands : escapedChar? letter = some meant) (rest : List Char) :
    Takes escape [letter] rest meant := by
  refine Takes.bind_done (takes_one rfl rest) ?_
  split
  · exact absurd rfl short.1
  · exact absurd rfl short.2
  · exact takes_lift stands rest

/-- The escape of a code point below the surrogates. -/
theorem takes_escape_codePoint {digits : List Char} {values : List Nat} {char : Char}
    (four : digits.length = 4) (each : digits.map hexDigit? = values.map some)
    (number : values.foldl (fun value digit => value * 16 + digit) 0 = char.toNat)
    (low : char.toNat < 0xD800) (rest : List Char) :
    Takes escape ('u' :: digits) rest char := by
  have read := takes_hexNumber each 0 rest
  rw [four, number] at read
  have isChar : charOf? char.toNat = some char := by
    unfold charOf?
    rw [if_pos (Or.inl low), Char.ofNat_toNat]
  exact Takes.bind_cons (takes_one rfl _) (Takes.bind_done read (takes_lift isChar rest))

/-! ## Texts -/

/-- Characters between quotes with the characters that they stand for. So many quotes stand right
before them, and up to a limit quotes may stand side by side; only texts of several lines have such
a limit, and may hold line breaks. -/
inductive Spells (quote : Char) (escapes : Bool) (limit : Nat) :
    (run : Nat) → List Char → List Char → Prop where
  | nil {run : Nat} : Spells quote escapes limit run [] []
  | quote {run : Nat} {source meant : List Char} (few : run < limit) :
      Spells quote escapes limit (run + 1) source meant →
      Spells quote escapes limit run (quote :: source) (quote :: meant)
  | lineBreak {run : Nat} {source meant : List Char} (several : 0 < limit) :
      Spells quote escapes limit 0 source meant →
      Spells quote escapes limit run ('\n' :: source) ('\n' :: meant)
  | plain {run : Nat} {char : Char} {source meant : List Char} (isPlain : isPlain char = true)
      (notQuote : char ≠ quote) (notBackslash : escapes = true → char ≠ '\\') :
      Spells quote escapes limit 0 source meant →
      Spells quote escapes limit run (char :: source) (char :: meant)
  | escape {run : Nat} {letter char : Char} {escaped source meant : List Char}
      (allowed : escapes = true) (visible : isBlank letter = false ∧ letter ≠ '\n' ∧ letter ≠ '\r')
      (reads : ∀ rest, Takes Reader.escape (letter :: escaped) rest char) :
      Spells quote escapes limit 0 source meant →
      Spells quote escapes limit run ('\\' :: letter :: (escaped ++ source)) (char :: meant)

theorem ne_of_isPlain {char : Char} (plain : isPlain char = true) : char ≠ '\n' ∧ char ≠ '\r' := by
  constructor
  · rintro rfl
    exact absurd plain (by decide)
  · rintro rfl
    exact absurd plain (by decide)

/-- A text in double quotes is read up to the closing one. -/
theorem takes_basicTail {run : Nat} {source meant : List Char}
    (spells : Spells '"' true 0 run source meant) (rest : List Char) :
    ∀ steps, source.length < steps → Takes (basicTail steps) (source ++ ['"']) rest meant := by
  induction spells with
  | nil =>
      intro steps enough
      obtain ⟨steps, rfl, -⟩ := exists_step enough
      exact Takes.bind_done (takes_one (by decide) rest) (takes_pure [] rest)
  | quote few _ _ => exact absurd few (Nat.not_lt_zero _)
  | lineBreak several _ _ => exact absurd several (Nat.lt_irrefl 0)
  | @plain run char source meant isPlain notQuote notBackslash _ inductionHypothesis =>
      intro steps enough
      obtain ⟨steps, rfl, fewer⟩ := exists_step enough
      refine Takes.bind_cons (takes_one isPlain _) ?_
      split
      · exact absurd rfl notQuote
      · exact absurd rfl (notBackslash rfl)
      · exact Takes.bind_done (inductionHypothesis steps fewer) (takes_pure _ rest)
  | @escape run letter char escaped source meant allowed visible reads _ inductionHypothesis =>
      intro steps enough
      obtain ⟨steps, rfl, fewer⟩ := exists_step enough
      simp only [List.length_cons, List.length_append] at fewer
      have source_eq : '\\' :: letter :: (escaped ++ source) ++ ['"'] =
          '\\' :: (letter :: escaped ++ (source ++ ['"'])) := by simp
      rw [source_eq]
      refine Takes.bind_cons (takes_one (by decide) _) (Takes.bind (reads _) ?_)
      exact Takes.bind_done (inductionHypothesis steps (by omega)) (takes_pure _ rest)

/-- A text in single quotes is read up to the closing one. -/
theorem takes_literalTail {text : List Char}
    (plain : ∀ char ∈ text, (isPlain char && char != '\'') = true) (rest : List Char) :
    Takes literalTail (text ++ ['\'']) rest text :=
  Takes.bind (takes_takeWhile text plain (by simp))
    (Takes.bind_done (takes_char '\'' rest) (takes_pure text rest))

/-! ## Texts of several lines -/

section Multiline

variable {quote : Char} {rest : List Char}

theorem takeWhile_quotes (run : Nat) (other : rest.head? ≠ some quote) :
    (List.replicate run quote ++ rest).takeWhile (· == quote) = List.replicate run quote := by
  rw [List.takeWhile_append_of_pos (by simp +contextual [List.mem_replicate])]
  cases rest with
  | nil => simp
  | cons char rest =>
      have different : char ≠ quote := fun same => other (by rw [same, List.head?_cons])
      simp [different]

theorem takes_closingQuotes_inside {run : Nat} (few : run < 3) (other : rest.head? ≠ some quote) :
    Takes (closingQuotes quote) (List.replicate run quote) rest none := by
  have skipped := takes_skip (List.replicate run quote) rest
  rw [List.length_replicate] at skipped
  refine takes_rest_bind ?_
  dsimp only
  rw [takeWhile_quotes run other, List.length_replicate, if_pos few]
  exact Takes.bind_done skipped (takes_pure none rest)

/-- Of the quotes at the end, up to two belong to the text. -/
theorem takes_closingQuotes {run : Nat} (few : run ≤ 2) (other : rest.head? ≠ some quote) :
    Takes (closingQuotes quote) (List.replicate (run + 3) quote) rest
      (some (List.replicate run quote)) := by
  have inside : min (run + 3 - 3) 2 = run := by omega
  have skipped := takes_skip (List.replicate (run + 3) quote) rest
  rw [List.length_replicate] at skipped
  refine takes_rest_bind ?_
  dsimp only
  rw [takeWhile_quotes (run + 3) other, List.length_replicate, if_neg (by omega), inside]
  exact Takes.bind_done skipped (takes_pure _ rest)

variable {escapes : Bool} {tail meant : List Char}

/-- Quotes inside a text are taken at once. -/
theorem takes_multilineTail_quotes {run : Nat} (few : run ≤ 2)
    (other : (tail ++ rest).head? ≠ some quote)
    (later : ∀ steps, tail.length < steps →
      Takes (multilineTail quote escapes steps) tail rest meant) :
    ∀ steps, run + tail.length < steps →
      Takes (multilineTail quote escapes steps) (List.replicate run quote ++ tail) rest
        (List.replicate run quote ++ meant) := by
  intro steps enough
  cases run with
  | zero => exact later steps (by omega)
  | succ run =>
      obtain ⟨steps, rfl, fewer⟩ := exists_step enough
      have some' : (!(List.replicate (run + 1) quote).isEmpty) = true := rfl
      unfold multilineTail
      refine takes_rest_bind ?_
      dsimp only
      rw [List.append_assoc, takeWhile_quotes (run + 1) other, if_pos some']
      refine Takes.bind (takes_closingQuotes_inside (by omega) other) ?_
      exact Takes.bind_done (later steps (by omega)) (takes_pure _ rest)

/-- A character other than a quote. -/
theorem takes_multilineTail_char {first char : Char} {more : List Char} {steps : Nat}
    (notQuote : first ≠ quote)
    (reads : Takes
      (do
        if ← lineBreak? then return '\n' :: (← multilineTail quote escapes steps)
        else
          let char ← one isPlain
          if escapes && char == '\\' then
            if ← escapedLineEnd? then multilineTail quote escapes steps
            else
              let char ← escape
              return char :: (← multilineTail quote escapes steps)
          else return char :: (← multilineTail quote escapes steps))
      (first :: more) rest (char :: meant)) :
    Takes (multilineTail quote escapes (steps + 1)) (first :: more) rest (char :: meant) := by
  have none : (first :: more ++ rest).takeWhile (· == quote) = [] := by simp [notQuote]
  unfold multilineTail
  refine takes_rest_bind ?_
  dsimp only
  rw [none]
  exact reads

theorem takes_escapedLineEnd_not {letter : Char} {rest : List Char}
    (visible : isBlank letter = false ∧ letter ≠ '\n' ∧ letter ≠ '\r') :
    Takes escapedLineEnd? [] (letter :: rest) false := by
  have unblank : Unblank (letter :: rest) := by simp [Unblank, visible.1]
  intro position
  obtain ⟨between, ran⟩ := takes_blanks_none unblank position
  have noBreak : Takes lineBreak? [] (letter :: rest) false :=
    takes_lineBreak_not (by simp [visible.2.1]) (by simp [visible.2.2])
  obtain ⟨after, ranOn⟩ := noBreak between
  refine ⟨position, ?_⟩
  rw [List.nil_append] at ran ranOn ⊢
  unfold escapedLineEnd?
  simp only [bind, StateT.bind, get, getThe, MonadStateOf.get, StateT.get, pure,
    Option.bind_some, ran, ranOn]
  rfl

/-- A text of several lines is read up to its closing quotes. -/
theorem takes_multilineTail {run : Nat} {source : List Char}
    (spells : Spells quote escapes 2 run source meant) (isMark : quote = '"' ∨ quote = '\'')
    (other : rest.head? ≠ some quote) (few : run ≤ 2) :
    ∀ steps, run + (source ++ List.replicate 3 quote).length < steps →
      Takes (multilineTail quote escapes steps)
        (List.replicate run quote ++ (source ++ List.replicate 3 quote)) rest
        (List.replicate run quote ++ meant) := by
  have marks : quote ≠ '\n' ∧ quote ≠ '\\' := by
    rcases isMark with rfl | rfl <;> decide
  induction spells with
  | @nil run =>
      intro steps enough
      obtain ⟨steps, rfl, -⟩ := exists_step enough
      have some' : (!(List.replicate (run + 3) quote).isEmpty) = true := rfl
      rw [List.nil_append, List.replicate_append_replicate, List.append_nil]
      unfold multilineTail
      refine takes_rest_bind ?_
      dsimp only
      rw [takeWhile_quotes (run + 3) other, if_pos some']
      exact Takes.bind_done (takes_closingQuotes few other) (takes_pure _ rest)
  | @quote run source meant fewer _ inductionHypothesis =>
      -- The quote joins those before it.
      have joined : ∀ chars, List.replicate run quote ++ quote :: chars =
          List.replicate (run + 1) quote ++ chars := by
        intro chars
        rw [List.replicate_succ', List.append_assoc, List.singleton_append]
      intro steps enough
      rw [List.cons_append, List.length_cons] at enough
      rw [List.cons_append, joined, joined]
      exact inductionHypothesis (by omega) steps (by omega)
  | @lineBreak run source meant _ _ inductionHypothesis =>
      have apart : ('\n' :: source ++ List.replicate 3 quote ++ rest).head? ≠ some quote := by
        simpa using marks.1.symm
      refine takes_multilineTail_quotes few apart fun steps enough => ?_
      obtain ⟨steps, rfl, fewer⟩ := exists_step enough
      refine takes_multilineTail_char marks.1.symm (Takes.bind_cons (takes_lineBreak _) ?_)
      have later := inductionHypothesis (by omega) steps
        (by simp at fewer ⊢; omega)
      exact Takes.bind_done later (takes_pure _ rest)
  | @plain run char source meant isPlain notQuote notBackslash _ inductionHypothesis =>
      have apart : (char :: source ++ List.replicate 3 quote ++ rest).head? ≠ some quote := by
        simpa using notQuote
      refine takes_multilineTail_quotes few apart fun steps enough => ?_
      obtain ⟨steps, rfl, fewer⟩ := exists_step enough
      obtain ⟨noFeed, noReturn⟩ := ne_of_isPlain isPlain
      have later := inductionHypothesis (by omega) steps
        (by simp at fewer ⊢; omega)
      have unescaped : (escapes && char == '\\') = false := by
        cases escapes with
        | false => rfl
        | true => simpa using notBackslash rfl
      refine takes_multilineTail_char notQuote ?_
      refine Takes.bind_look (takes_lineBreak_not (by simpa using noFeed) (by simpa using noReturn))
        (Takes.bind_cons (takes_one isPlain _) ?_)
      rw [unescaped]
      exact Takes.bind_done later (takes_pure _ rest)
  | @escape run letter char escaped source meant allowed visible reads _ inductionHypothesis =>
      have apart : ('\\' :: letter :: (escaped ++ source) ++ List.replicate 3 quote ++ rest).head? ≠
          some quote := by
        simpa using marks.2.symm
      refine takes_multilineTail_quotes few apart fun steps enough => ?_
      obtain ⟨steps, rfl, fewer⟩ := exists_step enough
      have later := inductionHypothesis (by omega) steps
        (by simp at fewer ⊢; omega)
      subst allowed
      have parts : '\\' :: letter :: (escaped ++ source) ++ List.replicate 3 quote =
          '\\' :: (letter :: escaped ++ (source ++ List.replicate 3 quote)) := by simp
      rw [parts]
      refine takes_multilineTail_char marks.2.symm ?_
      refine Takes.bind_look (takes_lineBreak_not (by simp) (by simp))
        (Takes.bind_cons (takes_one (by decide) _) ?_)
      refine Takes.bind_look (takes_escapedLineEnd_not visible) (Takes.bind (reads _) ?_)
      exact Takes.bind_done later (takes_pure _ rest)

end Multiline

/-! ## Quotes -/

section Quoted

variable {quote : Char} {escapes : Bool} {limit run : Nat} {source meant rest : List Char}

/-- Where quotes may not stand at all, none comes first. -/
theorem Spells.head_ne_quote (spells : Spells quote escapes 0 run source meant)
    (notEscape : quote ≠ '\\') : source.head? ≠ some quote := by
  cases spells with
  | nil => simp
  | quote few => exact absurd few (Nat.not_lt_zero run)
  | lineBreak several => exact absurd several (Nat.lt_irrefl 0)
  | plain _ notQuote => simpa using notQuote
  | escape => simpa using notEscape.symm

/-- A line break comes first only if it is meant. -/
theorem Spells.head_ne_lineBreak (spells : Spells quote escapes limit run source meant)
    (isMark : quote = '"' ∨ quote = '\'') (oneLine : '\n' ∉ meant) :
    source.head? ≠ some '\n' ∧ source.head? ≠ some '\r' := by
  cases spells with
  | nil => simp
  | quote => rcases isMark with rfl | rfl <;> simp
  | lineBreak => exact absurd List.mem_cons_self oneLine
  | plain isPlain =>
      obtain ⟨noFeed, noReturn⟩ := ne_of_isPlain isPlain
      exact ⟨by simpa using noFeed, by simpa using noReturn⟩
  | escape => simp

/-- A text on one line begins with a single quote. -/
theorem takes_text_line (apart : source.head? ≠ some quote) (other : rest.head? ≠ some quote)
    (reads : Takes (lineText quote) (quote :: (source ++ [quote])) rest meant) :
    Takes (Reader.text quote) (quote :: (source ++ [quote])) rest meant := by
  refine Takes.bind_look (takes_tryTake_not ?_) reads
  rintro ⟨more, stands⟩
  cases source with
  | nil =>
      have same : quote :: more = rest := by simpa using stands
      exact other (by rw [← same, List.head?_cons])
  | cons char source =>
      have same : char = quote := by
        have heads := congrArg (fun chars => chars[1]?) stands
        simpa using heads.symm
      exact apart (by rw [same, List.head?_cons])

theorem takes_basic (spells : Spells '"' true 0 0 source meant) (other : rest.head? ≠ some '"') :
    Takes (Reader.text '"') ('"' :: (source ++ ['"'])) rest meant := by
  refine takes_text_line (spells.head_ne_quote (by decide)) other ?_
  refine Takes.bind_cons (takes_skip ['"'] _) (takes_rest_bind ?_)
  exact takes_basicTail spells rest _ (by simp only [List.length_append]; omega)

theorem takes_literal {text : List Char}
    (plain : ∀ char ∈ text, (isPlain char && char != '\'') = true)
    (other : rest.head? ≠ some '\'') :
    Takes (Reader.text '\'') ('\'' :: (text ++ ['\''])) rest text := by
  have apart : text.head? ≠ some '\'' := by
    intro first
    have inside := plain _ (List.mem_of_head? first)
    simp at inside
  refine takes_text_line apart other ?_
  exact Takes.bind_cons (takes_skip ['\''] _) (takes_literalTail plain rest)

/-- A text of several lines begins with three quotes, and may begin with a line break that does
not count. -/
theorem takes_several (spells : Spells quote (quote == '"') 2 0 source meant)
    (isMark : quote = '"' ∨ quote = '\'') (other : rest.head? ≠ some quote) {lead : List Char}
    (leads : lead = ['\n'] ∨ lead = [] ∧ '\n' ∉ meant) :
    Takes (Reader.text quote)
      (List.replicate 3 quote ++ (lead ++ (source ++ List.replicate 3 quote))) rest meant := by
  have body : Takes (do multilineTail quote (quote == '"') ((← Reader.rest).length + 1))
      (source ++ List.replicate 3 quote) rest meant :=
    takes_rest_bind (takes_multilineTail spells isMark other (Nat.zero_le 2) _
      (by simp only [List.length_append]; omega))
  refine Takes.bind (takes_tryTake _ _) ?_
  rcases leads with rfl | ⟨rfl, oneLine⟩
  · exact Takes.bind (takes_lineBreak _) body
  · obtain ⟨noFeed, noReturn⟩ := spells.head_ne_lineBreak isMark oneLine
    have first : (source ++ List.replicate 3 quote ++ rest).head? = source.head? ∨
        (source ++ List.replicate 3 quote ++ rest).head? = some quote := by
      cases source <;> simp [List.replicate]
    refine Takes.bind_look (takes_lineBreak_not ?_ ?_) body <;>
      rcases first with same | same <;> rw [List.nil_append, same] <;>
      first | assumption | (rcases isMark with rfl | rfl <;> simp)

end Quoted

end Reader

/-! ## Texts that are written -/

open Reader

private theorem hexDigit?_upperHexDigit :
    ∀ value < 16, hexDigit? (upperHexDigit value) = some value := by
  decide

theorem isPlain_of_not_control {char : Char} (free : isControl char = false)
    (noFeed : char ≠ '\n') : isPlain char = true := by
  have tab : char = '\t' ↔ char.toNat = 9 := Char.toNat_inj.symm
  have feed : char = '\n' ↔ char.toNat = 10 := Char.toNat_inj.symm
  have last : char = '\x7F' ↔ char.toNat = 127 := Char.toNat_inj.symm
  have low : ' ' ≤ char ↔ 32 ≤ char.toNat := Iff.rfl
  have high : char ≤ '~' ↔ char.toNat ≤ 126 := Iff.rfl
  unfold isControl at free
  unfold isPlain
  simp only [Bool.or_eq_false_iff, Bool.and_eq_false_iff, decide_eq_false_iff_not,
    bne_eq_false_iff_eq, beq_eq_false_iff_ne, Bool.or_eq_true, Bool.and_eq_true, decide_eq_true_eq,
    beq_iff_eq, ne_eq, tab, feed, last, low, high] at free noFeed ⊢
  omega

/-- The limit for quotes side by side. -/
def quoteLimit (multiline : Bool) : Nat := if multiline then 2 else 0

/-- A control character without a letter of its own. -/
private theorem takes_escape_control {char : Char} (control : isControl char = true)
    (rest : List Char) :
    Takes Reader.escape
      ['u', '0', '0', upperHexDigit (char.toNat / 16), upperHexDigit (char.toNat % 16)] rest
      char := by
  have small : char.toNat < 0x80 := by
    have last : char = '\x7F' ↔ char.toNat = 127 := Char.toNat_inj.symm
    unfold isControl at control
    simp only [Bool.or_eq_true, Bool.and_eq_true, decide_eq_true_eq, beq_iff_eq, last] at control
    omega
  have digits : ['0', '0', upperHexDigit (char.toNat / 16), upperHexDigit (char.toNat % 16)].map
      hexDigit? = [0, 0, char.toNat / 16, char.toNat % 16].map some := by
    have zero : hexDigit? '0' = some 0 := rfl
    simp [zero, hexDigit?_upperHexDigit _ (show char.toNat / 16 < 16 by omega),
      hexDigit?_upperHexDigit _ (show char.toNat % 16 < 16 by omega)]
  have number : [0, 0, char.toNat / 16, char.toNat % 16].foldl
      (fun value digit => value * 16 + digit) 0 = char.toNat := by
    simp only [List.foldl_cons, List.foldl_nil]
    omega
  exact takes_escape_codePoint rfl digits number (by omega) rest

/-- What is written for a character other than a quote stands for it. -/
theorem spells_escape (multiline : Bool) {run : Nat} {char : Char} {source meant : List Char}
    (notQuote : char ≠ '"') (later : Spells '"' true (quoteLimit multiline) 0 source meant) :
    Spells '"' true (quoteLimit multiline) run
      ((escape? multiline char).getD [char] ++ source) (char :: meant) := by
  have letter : ∀ {letter char : Char}, (letter ≠ 'u' ∧ letter ≠ 'U') →
      escapedChar? letter = some char → (isBlank letter = false ∧ letter ≠ '\n' ∧ letter ≠ '\r') →
      Spells '"' true (quoteLimit multiline) run (['\\', letter] ++ source) (char :: meant) :=
    fun short stands visible =>
      .escape rfl visible (fun rest => takes_escape_letter short stands rest) later
  unfold escape?
  split
  · exact letter (by decide) rfl (by decide)
  · exact letter (by decide) rfl (by decide)
  · cases multiline with
    | true => exact .lineBreak (by decide) later
    | false => exact letter (by decide) rfl (by decide)
  · exact letter (by decide) rfl (by decide)
  · exact letter (by decide) rfl (by decide)
  · exact letter (by decide) rfl (by decide)
  · next _ _ noFeed _ _ noBackslash =>
      split
      · next control =>
          exact .escape rfl (by decide) (fun rest => takes_escape_control control rest) later
      · next free =>
          exact .plain (isPlain_of_not_control (by simpa using free) noFeed) notQuote
            (fun _ => noBackslash) later

/-- A text that is written with escapes. -/
theorem spells_escaped (multiline : Bool) (run : Nat) (text : List Char) :
    Spells '"' true (quoteLimit multiline) run (escaped multiline run text) text := by
  induction text generalizing run with
  | nil => exact .nil
  | cons char text inductionHypothesis =>
      unfold escaped
      split
      · next isQuote =>
          subst isQuote
          by_cases few : run < quoteLimit multiline
          · rw [if_pos (show run < if multiline then 2 else 0 from few)]
            exact .quote few (inductionHypothesis (run + 1))
          · rw [if_neg (show ¬ run < if multiline then 2 else 0 from few)]
            exact .escape rfl (by decide)
              (fun rest => takes_escape_letter (by decide) rfl rest) (inductionHypothesis 0)
      · next notQuote => exact spells_escape multiline notQuote (inductionHypothesis 0)

theorem le_longestRun (wanted : Char) (run : Nat) (text : List Char) :
    run ≤ longestRun wanted run text := by
  induction text generalizing run with
  | nil => exact Nat.le_refl run
  | cons char text inductionHypothesis =>
      unfold longestRun
      split
      · exact Nat.le_of_succ_le (inductionHypothesis (run + 1))
      · exact Nat.le_max_left _ _

theorem not_mem_of_longestRun {wanted : Char} {run : Nat} {text : List Char}
    (none : longestRun wanted run text = 0) : wanted ∉ text := by
  induction text generalizing run with
  | nil => exact List.not_mem_nil
  | cons char text inductionHypothesis =>
      unfold longestRun at none
      split at none
      · have some' := le_longestRun wanted (run + 1) text
        omega
      · next other =>
          have later := inductionHypothesis (Nat.max_eq_zero_iff.mp none).2
          simp [later, Ne.symm other]

/-- A text without control characters and with few quotes side by side stands for itself. -/
theorem spells_self {run : Nat} {text : List Char} (free : text.any isControl = false)
    (few : longestRun '\'' run text ≤ 2) : Spells '\'' false 2 run text text := by
  induction text generalizing run with
  | nil => exact .nil
  | cons char text inductionHypothesis =>
      rw [List.any_cons, Bool.or_eq_false_iff] at free
      unfold longestRun at few
      split at few
      · next isQuote =>
          subst isQuote
          have before := le_longestRun '\'' (run + 1) text
          exact .quote (by omega) (inductionHypothesis free.2 few)
      · next notQuote =>
          have later := inductionHypothesis free.2 (Nat.le_trans (Nat.le_max_right _ _) few)
          by_cases feed : char = '\n'
          · subst feed
            exact .lineBreak (by decide) later
          · exact .plain (isPlain_of_not_control free.1 feed) notQuote (by simp) later

/-- The quotes of a text, and what single ones say about it. -/
theorem quotingOf_cases (text : List Char) :
    quotingOf text = ⟨'"', false⟩ ∨ quotingOf text = ⟨'"', true⟩ ∨
    (quotingOf text = ⟨'\'', false⟩ ∧ text.any isControl = false ∧ '\n' ∉ text ∧ '\'' ∉ text) ∨
    (quotingOf text = ⟨'\'', true⟩ ∧ text.any isControl = false ∧
      longestRun '\'' 0 text ≤ 2) := by
  unfold quotingOf
  dsimp only
  split
  · exact .inl rfl
  split
  · next single =>
      simp only [Bool.and_eq_true, Bool.not_eq_true', beq_iff_eq] at single
      obtain ⟨⟨free, none⟩, oneLine⟩ := single
      exact .inr (.inr (.inl ⟨rfl, free, by simpa using oneLine, not_mem_of_longestRun none⟩))
  split
  · exact .inr (.inl rfl)
  split
  · next single =>
      simp only [Bool.and_eq_true, Bool.not_eq_true', decide_eq_true_eq] at single
      exact .inr (.inr (.inr ⟨rfl, single⟩))
  · cases text.contains '\n' with
    | false => exact .inl rfl
    | true => exact .inr (.inl rfl)

/-- What is written for a text begins with a quote and is read as this text, unless a quote
follows. -/
theorem takes_textLiteral (text : List Char) {rest : List Char} (noDouble : rest.head? ≠ some '"')
    (noSingle : rest.head? ≠ some '\'') :
    ∃ quote, (quote = '"' ∨ quote = '\'') ∧ (textLiteral text).head? = some quote ∧
      Takes (Reader.text quote) (textLiteral text) rest text := by
  have leads : ∀ lines : Bool, lines = text.contains '\n' →
      (if true && lines then ['\n'] else []) = ['\n'] ∨
        (if true && lines then ['\n'] else []) = [] ∧ '\n' ∉ text := by
    rintro (_ | _) same
    · exact .inr ⟨rfl, by simpa using same.symm⟩
    · exact .inl rfl
  obtain quoting | quoting | ⟨quoting, free, oneLine, none⟩ | ⟨quoting, free, few⟩ :=
    quotingOf_cases text
  · refine ⟨'"', .inl rfl, by simp [textLiteral, quoting], ?_⟩
    have read := takes_basic (spells_escaped false 0 text) noDouble
    simpa [textLiteral, quoting, Quoting.escapes] using read
  · refine ⟨'"', .inl rfl, by simp [textLiteral, quoting, List.replicate], ?_⟩
    have read := takes_several (spells_escaped true 0 text) (.inl rfl) noDouble (leads _ rfl)
    simpa [textLiteral, quoting, Quoting.escapes] using read
  · refine ⟨'\'', .inr rfl, by simp [textLiteral, quoting], ?_⟩
    have plain : ∀ char ∈ text, (isPlain char && char != '\'') = true := by
      intro char member
      have noFeed : char ≠ '\n' := fun same => oneLine (same ▸ member)
      have notQuote : char ≠ '\'' := fun same => none (same ▸ member)
      have freeHere : isControl char = false := by simpa using List.any_eq_false.mp free char member
      simp [isPlain_of_not_control freeHere noFeed, notQuote]
    have read := takes_literal plain noSingle
    simpa [textLiteral, quoting, Quoting.escapes] using read
  · refine ⟨'\'', .inr rfl, by simp [textLiteral, quoting, List.replicate], ?_⟩
    have read := takes_several (spells_self free few) (.inr rfl) noSingle (leads _ rfl)
    simpa [textLiteral, quoting, Quoting.escapes] using read

end FaultDrill.Toml
