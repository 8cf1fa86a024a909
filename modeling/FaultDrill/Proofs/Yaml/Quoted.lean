import FaultDrill.Proofs.Yaml.Scanning
import FaultDrill.Yaml.Token.Quoted

/-!
Scalars in quotes are read as the texts that they are written for.

Owns:
- the escapes that are written in double quotes;
- texts in double quotes, where only blanks are gaps;
- texts in single quotes, where line breaks that need no escape go on at a column of their own.

Main statements: every text is read back from double quotes (`takes_double`), and a text whose line
breaks have no blank beside them from single quotes (`takes_single`).
-/

namespace FaultDrill.Yaml

open Scan

variable {rest : List Char} {line : Nat}

/-! ## Escapes -/

theorem charOf?_toNat (char : Char) : charOf? char.toNat = some char := by
  have valid : char.toNat < 0xD800 ∨ (0xDFFF < char.toNat ∧ char.toNat < 0x110000) := char.valid
  unfold charOf?
  rw [if_pos valid, Char.ofNat_toNat]

theorem hexNumber?_eq {digits : List Char} {values : List Nat}
    (each : digits.map hexDigit? = values.map some) (start : Nat) (after : List Char) :
    hexNumber? digits.length start (digits ++ after) =
      some (values.foldl (fun value digit => value * 16 + digit) start) := by
  induction digits generalizing start values with
  | nil =>
      cases values with
      | nil => rfl
      | cons value values => cases each
  | cons digit digits inductionHypothesis =>
      cases values with
      | nil => cases each
      | cons value values =>
          rw [List.map_cons, List.map_cons, List.cons.injEq] at each
          rw [List.length_cons, List.cons_append]
          unfold hexNumber?
          rw [each.1]
          exact inductionHypothesis each.2 _

private theorem hexDigit?_upperHexDigit :
    ∀ value < 16, hexDigit? (upperHexDigit value) = some value := by
  decide

theorem hexDigit?_upperHexDigit_mod (value : Nat) :
    hexDigit? (upperHexDigit (value % 16)) = some (value % 16) :=
  hexDigit?_upperHexDigit _ (Nat.mod_lt _ (by decide))

/-- The reader of a character after its backslash, with the letter of the escape. -/
structure EscapeOf (char letter : Char) (digits : List Char) : Prop where
  visible : isBreak letter = false
  takes : ∀ {line : Nat} {rest : List Char},
    Takes (From 1 line) (escape letter (digits ++ rest)) (letter :: digits) rest char (From 1 line)

theorem escapeOf_letter {letter char : Char} (short : escapeDigits? letter = none)
    (visible : isBreak letter = false) (stands : escapedChar? letter = some char) :
    EscapeOf char letter [] where
  visible := visible
  takes := by
    intro line rest
    unfold escape
    rw [short]
    refine Takes.bind_look (takes_option stands _ _) ?_
    exact Takes.bind_done (takes_skip_from 1 line [letter] rest) (takes_pure _ char rest)

theorem escapeOf_number {letter char : Char} {digits : List Char} {values : List Nat}
    (long : escapeDigits? letter = some digits.length) (visible : isBreak letter = false)
    (each : digits.map hexDigit? = values.map some)
    (number : values.foldl (fun value digit => value * 16 + digit) 0 = char.toNat) :
    EscapeOf char letter digits where
  visible := visible
  takes := by
    intro line rest
    have read := hexNumber?_eq each 0 rest
    rw [number] at read
    have skipped := takes_skip_from 1 line (letter :: digits) rest
    rw [List.length_cons, Nat.add_comm] at skipped
    unfold escape
    rw [long]
    refine Takes.bind_look (takes_option read _ _) ?_
    refine Takes.bind_look (takes_option (charOf?_toNat char) _ _) ?_
    exact Takes.bind_done skipped (takes_pure _ char rest)

theorem escapeLetter?_of_isGap {char : Char} (gap : isGap char = true) :
    char = ' ' ∨ escapeLetter? char ≠ none := by
  unfold isGap isBlank isBreak at gap
  simp only [Bool.or_eq_true, beq_iff_eq] at gap
  rcases gap with (rfl | rfl) | (((rfl | rfl) | rfl) | rfl) | rfl
  · exact .inl rfl
  all_goals exact .inr (by decide)

/-- A character in double quotes stands for itself or is written as an escape. -/
theorem doubleChar_cases (char : Char) :
    (doubleChar char = [char] ∧ (isGap char = true → char = ' ') ∧ char ≠ '"' ∧ char ≠ '\\') ∨
    ∃ letter digits, doubleChar char = '\\' :: letter :: digits ∧ EscapeOf char letter digits := by
  by_cases short : escapeLetter? char = none
  · have written : doubleChar char = if isPrintable char then [char]
        else if char.toNat < 0x100 then '\\' :: 'x' :: upperHex 2 char.toNat
        else '\\' :: 'u' :: upperHex 4 char.toNat := by
      unfold doubleChar
      rw [short]
    rw [written]
    split
    · refine .inl ⟨rfl, fun gap => (escapeLetter?_of_isGap gap).resolve_right (· short), ?_, ?_⟩
      · rintro rfl
        cases short
      · rintro rfl
        cases short
    next unprintable =>
    have digit := hexDigit?_upperHexDigit_mod
    split
    · next small =>
        have number : [char.toNat / 16 % 16, char.toNat % 16].foldl
            (fun value digit => value * 16 + digit) 0 = char.toNat := by
          simp only [List.foldl_cons, List.foldl_nil]
          omega
        exact .inr ⟨_, _, rfl, escapeOf_number rfl rfl (by simp [upperHex, digit]) number⟩
    · have below : char.toNat < 0x10000 := by
        unfold isPrintable at unprintable
        simp only [Bool.or_eq_true, decide_eq_true_eq, not_or, Nat.not_le] at unprintable
        exact unprintable.2
      have number : [char.toNat / 16 / 16 / 16 % 16, char.toNat / 16 / 16 % 16,
          char.toNat / 16 % 16, char.toNat % 16].foldl
            (fun value digit => value * 16 + digit) 0 = char.toNat := by
        simp only [List.foldl_cons, List.foldl_nil]
        omega
      exact .inr ⟨_, _, rfl, escapeOf_number rfl rfl (by simp [upperHex, digit]) number⟩
  · right
    have letter : ∀ {letter char : Char}, escapeDigits? letter = none → isBreak letter = false →
        escapedChar? letter = some char → doubleChar char = ['\\', letter] →
        ∃ letter digits, doubleChar char = '\\' :: letter :: digits ∧
          EscapeOf char letter digits :=
      fun short visible stands written => ⟨_, [], written, escapeOf_letter short visible stands⟩
    unfold escapeLetter? at short
    split at short
    all_goals
      first
      | exact letter rfl rfl rfl rfl
      | exact absurd rfl short

/-! ## Double quotes -/

theorem startsIn_append {class' : Char → Bool} {text : List Char} (nonempty : text ≠ [])
    (rest : List Char) : startsIn class' (text ++ rest) = startsIn class' text := by
  cases text with
  | nil => exact absurd rfl nonempty
  | cons char text => rfl

/-- A blank joins those before it. -/
theorem padding_append_space (count : Nat) (more : List Char) :
    padding count ++ ' ' :: more = padding (count + 1) ++ more := by
  rw [padding, padding, List.replicate_succ', List.append_assoc, List.singleton_append]

/-- Blanks before a character that is none are taken at once. -/
theorem takes_doubleQuoted_spaces (count : Nat) {tail meant : List Char}
    (ends : startsIn isGap (tail ++ rest) = false)
    (later : ∀ steps, tail.length < steps →
      Takes (From 1 line) (doubleQuoted steps) tail rest meant (From 1 line)) :
    ∀ steps, (padding count ++ tail).length < steps →
      Takes (From 1 line) (doubleQuoted steps) (padding count ++ tail) rest (padding count ++ meant)
        (From 1 line) := by
  intro steps enough
  cases count with
  | zero => exact later steps enough
  | succ count =>
      obtain ⟨steps, rfl, fewer⟩ := exists_step enough
      have shorter : tail.length < steps := by
        simp only [padding, List.length_append, List.length_replicate] at fewer
        omega
      have taken : Takes (From 1 line) gap (padding (count + 1)) (tail ++ rest)
          (padding (count + 1)) (From 1 line) := takes_gap_spaces ends 1 line
      have all : Takes (From 1 line)
          (do
            let gap ← gap
            return gapText gap ++ (← doubleQuoted steps)) (padding (count + 1) ++ tail) rest
          (padding (count + 1) ++ meant) (From 1 line) := by
        refine Takes.bind taken (Takes.bind_done (later steps shorter) ?_)
        rw [gapText_spaces]
        exact takes_pure _ _ rest
      exact takes_notMarker (by decide) (takes_rest_bind all)

section Character

variable {char : Char} {tail meant : List Char}
  (later : ∀ steps, tail.length < steps →
    Takes (From 1 line) (doubleQuoted steps) tail rest meant (From 1 line))

include later

theorem takes_doubleQuoted_char (visible : isGap char = false) (notQuote : char ≠ '"')
    (notBackslash : char ≠ '\\') :
    ∀ steps, (char :: tail).length < steps →
      Takes (From 1 line) (doubleQuoted steps) (char :: tail) rest (char :: meant)
        (From 1 line) := by
  intro steps enough
  obtain ⟨steps, rfl, fewer⟩ := exists_step enough
  refine takes_notMarker (by decide) (takes_rest_bind ?_)
  have taken : Takes (From 1 line) (do
      skip 1
      return char :: (← doubleQuoted steps)) (char :: tail) rest (char :: meant) (From 1 line) :=
    Takes.bind_cons (takes_skip_from 1 line [char] _)
      (Takes.bind_done (later steps fewer) (takes_pure _ _ rest))
  split
  · next same => cases same
  · next same => exact absurd (List.cons.inj same).1 notQuote
  · next same => exact absurd (List.cons.inj same).1 notBackslash
  · next same =>
      obtain ⟨rfl, -⟩ := List.cons.inj same
      rw [if_neg notBackslash, visible]
      exact taken

theorem takes_doubleQuoted_escape {letter : Char} {digits : List Char}
    (escapeOf : EscapeOf char letter digits) :
    ∀ steps, ('\\' :: letter :: (digits ++ tail)).length < steps →
      Takes (From 1 line) (doubleQuoted steps) ('\\' :: letter :: (digits ++ tail)) rest
        (char :: meant) (From 1 line) := by
  intro steps enough
  obtain ⟨steps, rfl, fewer⟩ := exists_step enough
  have shorter : tail.length < steps := by
    simp only [List.length_cons, List.length_append] at fewer
    omega
  refine takes_notMarker (by decide) (takes_rest_bind ?_)
  have parts : '\\' :: letter :: (digits ++ tail) = '\\' :: (letter :: digits ++ tail) := by simp
  rw [parts]
  refine Takes.bind_cons (takes_skip_from 1 line ['\\'] _) ?_
  rw [escapeOf.visible]
  have remaining : Takes (From 1 line) (do return char :: (← doubleQuoted steps)) tail rest
      (char :: meant) (From 1 line) :=
    Takes.bind_done (later steps shorter) (takes_pure _ _ rest)
  have read := @escapeOf.takes line (tail ++ rest)
  rw [← List.append_assoc] at read
  exact Takes.bind read remaining

end Character

theorem takes_doubleQuoted_end :
    ∀ steps, ['"'].length < steps →
      Takes (From 1 line) (doubleQuoted steps) ['"'] rest [] (From 1 line) := by
  intro steps enough
  obtain ⟨steps, rfl, -⟩ := exists_step enough
  refine takes_notMarker (by decide) (takes_rest_bind ?_)
  exact Takes.bind_done (takes_skip_from 1 line ['"'] rest) (takes_pure _ [] rest)

/-- A text in double quotes is read up to the closing one. -/
theorem takes_doubleQuoted (chars : List Char) :
    ∀ count steps, (padding count ++ (chars.flatMap doubleChar ++ ['"'])).length < steps →
      Takes (From 1 line) (doubleQuoted steps)
        (padding count ++ (chars.flatMap doubleChar ++ ['"'])) rest (padding count ++ chars)
        (From 1 line) := by
  induction chars with
  | nil => exact fun count => takes_doubleQuoted_spaces count rfl takes_doubleQuoted_end
  | cons char chars inductionHypothesis =>
      intro count
      by_cases space : char = ' '
      · subst space
        have written : doubleChar ' ' = [' '] := by decide
        rw [List.flatMap_cons, written, List.singleton_append, List.cons_append,
          padding_append_space, padding_append_space]
        exact inductionHypothesis (count + 1)
      have later := inductionHypothesis 0
      rw [List.flatMap_cons, List.append_assoc]
      rcases doubleChar_cases char with ⟨written, gap, notQuote, notBackslash⟩ |
        ⟨letter, digits, written, escapeOf⟩
      · have visible : isGap char = false := by
          cases isGap' : isGap char with
          | false => rfl
          | true => exact absurd (gap isGap') space
        rw [written, List.singleton_append]
        exact takes_doubleQuoted_spaces count visible
          (takes_doubleQuoted_char later visible notQuote notBackslash)
      · rw [written, List.cons_append, List.cons_append]
        exact takes_doubleQuoted_spaces count rfl (takes_doubleQuoted_escape later escapeOf)

/-- A text in double quotes is read as this text. -/
theorem takes_double (chars rest : List Char) (line : Nat) :
    Takes (From 1 line) (quoted false) ('"' :: chars.flatMap doubleChar ++ ['"']) rest chars
      (From 1 line) := by
  refine Takes.bind_cons (takes_skip_from 1 line ['"'] _) (takes_rest_bind ?_)
  exact takes_doubleQuoted chars 0 _ (by simp [padding])

/-! ## Single quotes -/

theorem hasPair_cons (first second : Char → Bool) (char : Char) (rest : List Char) :
    hasPair first second (char :: rest) =
      (first char && startsIn second rest || hasPair first second rest) := by
  cases rest with
  | nil => simp [hasPair, startsIn]
  | cons next rest => rfl

/-- Line breaks that are written as themselves and stand for themselves in single quotes. -/
def KeptBreaks (chars : List Char) : Prop :=
  ∀ char ∈ chars, isBreak char = true ∧ isPrintable char = true ∧ char ≠ '\n'

theorem kept_of_printable {char : Char} (break' : isBreak char = true)
    (printable : isPrintable char = true) (noFeed : char ≠ '\n') :
    char = '\u2028' ∨ char = '\u2029' := by
  unfold isBreak at break'
  simp only [Bool.or_eq_true, beq_iff_eq] at break'
  rcases break' with (((rfl | rfl) | rfl) | same) | same
  · exact absurd printable (by decide)
  · exact absurd rfl noFeed
  · exact absurd printable (by decide)
  · exact .inl same
  · exact .inr same

theorem KeptBreaks.allBreaks {breaks : List Char} (kept : KeptBreaks breaks) :
    AllBreaks breaks := by
  intro char member
  obtain ⟨break', printable, noFeed⟩ := kept char member
  refine ⟨break', ?_⟩
  rcases kept_of_printable break' printable noFeed with rfl | rfl <;> decide

theorem gapText_kept {breaks : List Char} (nonempty : breaks ≠ []) (kept : KeptBreaks breaks)
    (column : Nat) : gapText (breaks ++ padding column) = breaks := by
  have normal : breaks.map normalBreak = breaks := by
    rw [List.map_congr_left (g := id), List.map_id]
    intro char member
    obtain ⟨break', printable, noFeed⟩ := kept char member
    rcases kept_of_printable break' printable noFeed with rfl | rfl <;> decide
  unfold gapText
  rw [lineBreaks_breaks kept.allBreaks, normal]
  obtain ⟨first, more, rfl⟩ := List.exists_cons_of_ne_nil nonempty
  have noFeed : first ≠ '\n' := (kept first List.mem_cons_self).2.2
  dsimp only
  unfold foldBreaks
  split
  · next same => exact absurd (List.cons.inj same).1 noFeed
  · next same => exact absurd (List.cons.inj same).1 noFeed
  · rfl

/-- A gap is taken at once. -/
theorem takes_singleQuoted_gap {first : Char} {more gap' tail meant : List Char}
    (isGap' : isGap first = true) (stands : gapText (first :: more) = gap')
    (taken : Takes (From 1 line) gap (first :: more) (tail ++ rest) (first :: more) (From 1 line))
    (later : ∀ steps, tail.length < steps →
      Takes (From 1 line) (singleQuoted steps) tail rest meant (From 1 line)) :
    ∀ steps, (first :: more ++ tail).length < steps →
      Takes (From 1 line) (singleQuoted steps) (first :: more ++ tail) rest (gap' ++ meant)
        (From 1 line) := by
  intro steps enough
  obtain ⟨steps, rfl, fewer⟩ := exists_step enough
  have shorter : tail.length < steps := by
    simp only [List.length_append, List.length_cons] at fewer
    omega
  have all : Takes (From 1 line)
      (do
        let gap ← gap
        return gapText gap ++ (← singleQuoted steps)) (first :: more ++ tail) rest (gap' ++ meant)
      (From 1 line) := by
    refine Takes.bind taken (Takes.bind_done (later steps shorter) ?_)
    rw [stands]
    exact takes_pure _ _ rest
  have notQuote : first ≠ '\'' := by
    rintro rfl
    cases isGap'
  refine takes_notMarker (by decide) (takes_rest_bind ?_)
  split
  · next same => cases same
  · next same => exact absurd (List.cons.inj same).1 notQuote
  · next same => exact absurd (List.cons.inj same).1 notQuote
  · next same =>
      obtain ⟨rfl, -⟩ := List.cons.inj same
      rw [isGap']
      exact all

theorem isGap_of_printable {char : Char} (printable : isPrintable char = true) (space : char ≠ ' ')
    (noBreak : ¬ isBreak char = true) : isGap char = false := by
  unfold isGap isBlank
  rw [Bool.eq_false_iff.mpr noBreak, Bool.or_false]
  have noTab : char ≠ '\t' := by
    rintro rfl
    cases printable
  simp [space, noTab]

/-- A character as it stands in single quotes. -/
def singleChar (char : Char) : List Char := if char = '\'' then ['\'', '\''] else [char]

theorem startsIn_isGap_singleChar {char : Char} (visible : isGap char = false)
    (more : List Char) : startsIn isGap (singleChar char ++ more) = false := by
  unfold singleChar
  split
  · rfl
  · exact visible

theorem takes_singleQuoted_char {char : Char} (visible : isGap char = false)
    {tail meant : List Char}
    (later : ∀ steps, tail.length < steps →
      Takes (From 1 line) (singleQuoted steps) tail rest meant (From 1 line)) :
    ∀ steps, (singleChar char ++ tail).length < steps →
      Takes (From 1 line) (singleQuoted steps) (singleChar char ++ tail) rest (char :: meant)
        (From 1 line) := by
  intro steps enough
  obtain ⟨steps, rfl, fewer⟩ := exists_step enough
  unfold singleChar at fewer ⊢
  have shorter : tail.length < steps := by
    rw [List.length_append] at fewer
    split at fewer <;> simp only [List.length_cons, List.length_nil] at fewer <;> omega
  have remaining : Takes (From 1 line) (do return char :: (← singleQuoted steps)) tail rest
      (char :: meant) (From 1 line) :=
    Takes.bind_done (later steps shorter) (takes_pure _ _ rest)
  refine takes_notMarker (by decide) ?_
  by_cases quote : char = '\''
  · subst quote
    rw [if_pos rfl]
    exact takes_rest_bind (Takes.bind (takes_skip_from 1 line ['\'', '\''] _) remaining)
  · rw [if_neg quote]
    refine takes_rest_bind ?_
    split
    · next same => cases same
    · next same => exact absurd (List.cons.inj same).1 quote
    · next same => exact absurd (List.cons.inj same).1 quote
    · next same =>
        obtain ⟨rfl, -⟩ := List.cons.inj same
        rw [visible]
        exact Takes.bind_cons (takes_skip_from 1 line [char] _) remaining

theorem takes_singleQuoted_end (after : startsIn (· == '\'') rest = false) :
    ∀ steps, ['\''].length < steps →
      Takes (From 1 line) (singleQuoted steps) ['\''] rest [] (From 1 line) := by
  intro steps enough
  obtain ⟨steps, rfl, -⟩ := exists_step enough
  have taken : Takes (From 1 line) (do
      skip 1
      return ([] : List Char)) ['\''] rest [] (From 1 line) :=
    Takes.bind_done (takes_skip_from 1 line ['\''] rest) (takes_pure _ [] rest)
  refine takes_notMarker (by decide) (takes_rest_bind ?_)
  split
  · next same => cases same
  · next same =>
      have doubled : rest = _ := (List.cons.inj same).2
      rw [doubled] at after
      cases after
  · exact taken
  · next notQuote same => exact absurd (List.cons.inj same).1.symm notQuote

section Single

variable {indent : Nat} (positive : 0 < indent)

include positive in
/-- Blanks, or line breaks with the blanks of the next line, before the rest of a text. -/
theorem takes_singleQuoted_gaps {tail meant : List Char}
    (ends : startsIn isGap (tail ++ rest) = false)
    (later : ∀ steps, tail.length < steps →
      Takes (From 1 line) (singleQuoted steps) tail rest meant (From 1 line)) :
    (∀ count steps, (padding count ++ tail).length < steps →
      Takes (From 1 line) (singleQuoted steps) (padding count ++ tail) rest (padding count ++ meant)
        (From 1 line)) ∧
    ∀ breaks steps, breaks ≠ [] → KeptBreaks breaks →
      (breaks ++ padding indent ++ tail).length < steps →
      Takes (From 1 line) (singleQuoted steps) (breaks ++ padding indent ++ tail) rest
        (breaks ++ meant) (From 1 line) := by
  constructor
  · intro count
    cases count with
    | zero => exact later
    | succ count =>
        have taken : Takes (From 1 line) gap (padding (count + 1)) (tail ++ rest)
            (padding (count + 1)) (From 1 line) := takes_gap_spaces ends 1 line
        exact takes_singleQuoted_gap (by decide) (gapText_spaces (count + 1)) taken later
  · intro breaks steps nonempty kept
    have taken : Takes (From 1 line) gap (breaks ++ padding indent) (tail ++ rest)
        (breaks ++ padding indent) (From 1 line) := by
      refine (takes_gap_breaks nonempty kept.allBreaks indent ends 1 line).mono
        (fun _ place => place) ?_
      rintro mark ⟨onColumn, onLine⟩
      exact ⟨by omega, Nat.le_of_lt onLine⟩
    have stands := gapText_kept nonempty kept indent
    obtain ⟨first, more, rfl⟩ := List.exists_cons_of_ne_nil nonempty
    have gap := all_isGap_breaks kept.allBreaks 0 first (by simp)
    exact takes_singleQuoted_gap gap stands taken later steps

/-- Characters of a text that may stand in single quotes. -/
structure SingleText (chars : List Char) : Prop where
  printable : ∀ char ∈ chars, isPrintable char = true ∧ char ≠ '\n'
  noSpaceBreak : hasPair isSpace isBreak chars = false
  noBreakSpace : hasPair isBreak isSpace chars = false

theorem SingleText.tail {char : Char} {chars : List Char} (single : SingleText (char :: chars)) :
    SingleText chars ∧ (isSpace char = true → startsIn isBreak chars = false) ∧
      (isBreak char = true → startsIn isSpace chars = false) := by
  have before := single.noSpaceBreak
  have behind := single.noBreakSpace
  rw [hasPair_cons, Bool.or_eq_false_iff, Bool.and_eq_false_iff] at before behind
  refine ⟨⟨fun char member => single.printable char (List.mem_cons_of_mem _ member), before.2,
    behind.2⟩, fun space => ?_, fun break' => ?_⟩
  · exact before.1.resolve_left (by simp [space])
  · exact behind.1.resolve_left (by simp [break'])

include positive in
/-- A text in single quotes is read up to the closing one, after blanks or line breaks that belong
to it. -/
theorem takes_singleQuoted (after : startsIn (· == '\'') rest = false) {chars : List Char}
    (single : SingleText chars) :
    (∀ count steps, (count = 0 ∨ startsIn isBreak chars = false) →
      (padding count ++ (singleBody indent false chars ++ ['\''])).length < steps →
      Takes (From 1 line) (singleQuoted steps)
        (padding count ++ (singleBody indent false chars ++ ['\''])) rest (padding count ++ chars)
        (From 1 line)) ∧
    ∀ breaks steps, breaks ≠ [] → KeptBreaks breaks → startsIn isSpace chars = false →
      (breaks ++ (singleBody indent true chars ++ ['\''])).length < steps →
      Takes (From 1 line) (singleQuoted steps)
        (breaks ++ (singleBody indent true chars ++ ['\''])) rest (breaks ++ chars)
        (From 1 line) := by
  induction chars with
  | nil =>
      obtain ⟨spaces, breaks⟩ :=
        takes_singleQuoted_gaps positive rfl (takes_singleQuoted_end after)
      refine ⟨fun count steps _ enough => ?_, fun found steps nonempty kept _ enough => ?_⟩
      · have read := spaces count steps enough
        exact read
      · have read := breaks found steps nonempty kept (by simpa [singleBody] using enough)
        simpa [singleBody] using read
  | cons char chars inductionHypothesis =>
      obtain ⟨tail, noBreak, noSpace⟩ := single.tail
      obtain ⟨printable, noFeed⟩ := single.printable char List.mem_cons_self
      obtain ⟨afterSpaces, afterBreaks⟩ := inductionHypothesis tail
      by_cases space : char = ' '
      · subst space
        refine ⟨fun count steps _ enough => ?_, fun _ _ _ _ noStart => by cases noStart⟩
        have body : singleBody indent false (' ' :: chars) = ' ' :: singleBody indent false chars :=
          rfl
        rw [body, List.cons_append, padding_append_space] at enough ⊢
        rw [padding_append_space]
        exact afterSpaces (count + 1) steps (.inr (noBreak rfl)) enough
      by_cases break' : isBreak char = true
      · have body : ∀ mode, singleBody indent mode (char :: chars) =
            char :: singleBody indent true chars := by
          intro mode
          rw [singleBody, if_pos break']
        have one : KeptBreaks [char] := by
          intro other member
          rw [List.mem_singleton.mp member]
          exact ⟨break', printable, noFeed⟩
        refine ⟨fun count steps allowed enough => ?_, fun breaks steps nonempty kept _ enough => ?_⟩
        · obtain rfl : count = 0 := allowed.resolve_right (by simp [startsIn, break'])
          rw [body] at enough ⊢
          exact afterBreaks [char] steps (List.cons_ne_nil _ _) one (noSpace break') enough
        · -- The line break joins those before it.
          have joined : ∀ more, breaks ++ char :: more = breaks ++ [char] ++ more := by simp
          have keptMore : KeptBreaks (breaks ++ [char]) := by
            intro other member
            rcases List.mem_append.mp member with inBreaks | last
            · exact kept other inBreaks
            · exact one other last
          rw [body, List.cons_append, joined (singleBody indent true chars ++ _)] at enough ⊢
          rw [joined chars]
          exact afterBreaks _ steps (by simp) keptMore (noSpace break') enough
      have visible := isGap_of_printable printable space break'
      have body : ∀ mode, singleBody indent mode (char :: chars) ++ ['\''] =
          (if mode then padding indent else []) ++
            (singleChar char ++ (singleBody indent false chars ++ ['\''])) := by
        intro mode
        rw [singleBody, if_neg break', List.append_assoc, List.append_assoc]
        rfl
      have later := takes_singleQuoted_char visible fun steps shorter =>
        afterSpaces 0 steps (.inl rfl) shorter
      have ends := startsIn_isGap_singleChar visible
        (singleBody indent false chars ++ ['\''] ++ rest)
      rw [← List.append_assoc] at ends
      obtain ⟨spaces, breaks⟩ := takes_singleQuoted_gaps positive ends later
      refine ⟨fun count steps _ enough => ?_, fun found steps nonempty kept _ enough => ?_⟩
      · rw [body] at enough ⊢
        exact spaces count steps enough
      · rw [body, if_pos rfl, ← List.append_assoc] at enough ⊢
        exact breaks found steps nonempty kept enough

include positive in
/-- A text in single quotes is read as this text. -/
theorem takes_single {chars : List Char} (single : SingleText chars) (rest : List Char)
    (after : startsIn (· == '\'') rest = false) (line : Nat) :
    Takes (From 1 line) (quoted true) ('\'' :: singleBody indent false chars ++ ['\'']) rest chars
      (From 1 line) := by
  refine Takes.bind_cons (takes_skip_from 1 line ['\''] _) (takes_rest_bind ?_)
  exact (takes_singleQuoted positive after single).1 0 _ (.inl rfl) (by simp [padding])

end Single

end FaultDrill.Yaml
