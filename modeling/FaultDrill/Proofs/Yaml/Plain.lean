import FaultDrill.Proofs.Yaml.Quoted
import FaultDrill.Yaml.Token.Plain

/-!
Scalars without quotes are read as the texts that they are written for.

Owns:
- words, which end at white space or at a colon before it;
- the words of a text that may be written without quotes.

Main statements: such a text is read up to a line that stands further left (`takes_plain`), and a
word up to its colon (`takes_plain_key`).
-/

namespace FaultDrill.Yaml

open Scan

variable {rest : List Char} {line : Nat}

/-! ## Words -/

/-- Characters without white space. No colon among them ends a word, with certain characters after
them. -/
inductive Word (after : List Char) : List Char → Prop where
  | nil : Word after []
  | cons {char : Char} {word : List Char} (visible : isGap char = false)
      (noColon : (char == ':' && atWordEnd (word ++ after)) = false) :
      Word after word → Word after (char :: word)

theorem Word.visible {after word : List Char} (isWord : Word after word) :
    ∀ char ∈ word, isGap char = false := by
  induction isWord with
  | nil => simp
  | cons visible _ _ inductionHypothesis =>
      intro other member
      rcases List.mem_cons.mp member with rfl | later
      · exact visible
      · exact inductionHypothesis other later

/-- Characters that are neither white space nor colons are a word. -/
theorem word_of_visible {word : List Char}
    (visible : ∀ char ∈ word, isGap char = false ∧ char ≠ ':') (after : List Char) :
    Word after word := by
  induction word with
  | nil => exact .nil
  | cons char word inductionHypothesis =>
      rw [List.forall_mem_cons] at visible
      have noColon : (char == ':') = false := beq_eq_false_iff_ne.mpr visible.1.2
      exact .cons visible.1.1 (by rw [noColon, Bool.false_and]) (inductionHypothesis visible.2)

/-- What comes after a word ends it. -/
def EndsWord (after : List Char) : Prop :=
  plainWord? false after = some []

theorem endsWord_of_gap {after : List Char} (gap : startsIn isGap after = true) :
    EndsWord after := by
  cases after with
  | nil => rfl
  | cons char after =>
      have isGap' : isGap char = true := gap
      unfold EndsWord plainWord?
      rw [if_pos isGap']

theorem endsWord_colon {after : List Char} (ends : atWordEnd after = true) :
    EndsWord (':' :: after) := by
  unfold EndsWord plainWord?
  rw [ends]
  rfl

theorem Word.plainWord? {after word : List Char} (isWord : Word after word)
    (ends : EndsWord after) : plainWord? false (word ++ after) = some word := by
  induction isWord with
  | nil => exact ends
  | @cons char word visible noColon _ inductionHypothesis =>
      rw [List.cons_append]
      unfold Yaml.plainWord?
      rw [inductionHypothesis, noColon, visible]
      rfl

theorem Word.takes {after word : List Char} (isWord : Word after word) (ends : EndsWord after)
    (before : Mark → Prop) :
    Takes before (plainWord false) word after word
      fun mark => ∃ start, before start ∧ mark = start.after word.length := by
  refine takes_rest_bind (Takes.bind_look (takes_option (isWord.plainWord? ends) _ _) ?_)
  exact Takes.bind_done (takes_skip before word after) (takes_pure _ word after)

/-- A word is read up to a colon that ends it. -/
theorem takes_plain_key {word : List Char} (isWord : Word (':' :: rest) word)
    (ends : atWordEnd rest = true) (indent : Nat) (start : Mark) :
    Takes (· = start) (plain false indent) word (':' :: rest) (word, false)
      (· = start.after word.length) := by
  have noGap : startsIn isGap (':' :: rest) = false := rfl
  refine Takes.bind_done (isWord.takes (endsWord_colon ends) _) (takes_rest_bind ?_)
  have tail : Takes (fun mark => ∃ from', from' = start ∧ mark = from'.after word.length)
      (plainTail false indent (([] ++ ':' :: rest).length + 1)) [] (':' :: rest) ([], false)
      (· = start.after word.length) := by
    have nothing : ∀ char ∈ ([] : List Char), isGap char = true := by simp
    refine Takes.bind_look (takes_takeWhile nothing noGap _) ?_
    rw [if_pos rfl]
    refine (takes_pure _ _ _).mono (fun _ place => place) ?_
    rintro mark ⟨_, ⟨_, rfl, rfl⟩, rfl⟩
    rfl
  refine Takes.bind_done tail ?_
  have whole : (word ++ [], false) = (word, false) := by rw [List.append_nil]
  rw [← whole]
  exact takes_pure _ _ _

/-! ## Texts -/

/-- Words with blanks before each; none begins a comment. -/
inductive Words (after : List Char) : List Char → Prop where
  | nil : Words after []
  | cons {count : Nat} {first : Char} {word more : List Char}
      (isWord : Word (more ++ after) (first :: word)) (noComment : first ≠ '#') :
      Words after more → Words after (padding (count + 1) ++ (first :: word ++ more))

theorem Words.endsWord {after chars : List Char} (words : Words after chars)
    (ends : startsIn isGap after = true) : EndsWord (chars ++ after) := by
  cases words with
  | nil => exact endsWord_of_gap ends
  | cons => exact endsWord_of_gap rfl

theorem tabsBefore_of_noTab {gap : List Char} (noTab : '\t' ∉ gap) (indent : Nat)
    (column : Option Nat) : tabsBefore indent column gap = false := by
  induction gap generalizing column with
  | nil => rfl
  | cons char gap inductionHypothesis =>
      rw [List.mem_cons, not_or] at noTab
      have other : (char == '\t') = false := beq_eq_false_iff_ne.mpr (Ne.symm noTab.1)
      unfold tabsBefore
      split
      · exact inductionHypothesis noTab.2 _
      · split
        · exact inductionHypothesis noTab.2 _
        · rw [other, Bool.false_and, Bool.false_or]
          exact inductionHypothesis noTab.2 _

theorem Word.takes_before {column : Nat} {word more : List Char}
    (isWord : Word (more ++ ('\n' :: padding column ++ rest)) word)
    (words : Words ('\n' :: padding column ++ rest) more) (indent line : Nat) :
    Takes (From indent line) (plainWord false) word (more ++ '\n' :: padding column ++ rest) word
      (From indent line) := by
  rw [List.append_assoc]
  refine (isWord.takes (words.endsWord rfl) _).mono (fun _ place => place) ?_
  rintro _ ⟨start, place, rfl⟩
  exact place.after _

/-- Nothing belongs to a text after a line break before a line that stands further left. -/
theorem takes_plainTail_end {column indent : Nat} (left : column < indent)
    (after : startsIn isGap rest = false) :
    ∀ steps, ('\n' :: padding column).length < steps →
      Takes (From indent line) (plainTail false indent steps) ('\n' :: padding column) rest
        ([], true) (Below column line) := by
  intro steps enough
  obtain ⟨steps, rfl, -⟩ := exists_step enough
  have breaks : AllBreaks ['\n'] := by
    intro char member
    rw [List.mem_singleton.mp member]
    decide
  have taken : Takes (From indent line) gap ('\n' :: padding column) rest
      ('\n' :: padding column) (Below column line) :=
    takes_gap_breaks (List.cons_ne_nil _ _) breaks column after indent line
  have noTab : '\t' ∉ '\n' :: padding column := by
    simp [padding, List.mem_replicate]
  have passed : (!(lineBreaks ('\n' :: padding column)).isEmpty) = true := by
    have one := lineBreaks_breaks breaks column
    rw [List.singleton_append] at one
    rw [one]
    rfl
  refine Takes.bind_done taken ?_
  rw [if_neg (List.cons_ne_nil _ _), passed, tabsBefore_of_noTab noTab]
  refine Takes.bind_look (takes_require rfl _ _) (takes_get_bind fun mark place => ?_)
  have stands : (!false && decide (mark.column < indent)) = true := by
    simpa [place.1] using left
  rw [stands]
  refine (takes_pure _ _ rest).mono ?_ fun _ place => place
  rintro _ rfl
  exact place

theorem takes_plainTail_word {indent count : Nat} {first : Char} {word tail meant : List Char}
    {after : Mark → Prop} (positive : 0 < indent) (visible : isGap first = false)
    (noComment : first ≠ '#')
    (read : Takes (From indent line) (plainWord false) (first :: word) (tail ++ rest)
      (first :: word) (From indent line))
    (later : ∀ steps, tail.length < steps →
      Takes (From indent line) (plainTail false indent steps) tail rest (meant, true) after) :
    ∀ steps, (padding (count + 1) ++ (first :: word ++ tail)).length < steps →
      Takes (From indent line) (plainTail false indent steps)
        (padding (count + 1) ++ (first :: word ++ tail)) rest
        (padding (count + 1) ++ (first :: word ++ meant), true) after := by
  intro steps enough
  obtain ⟨steps, rfl, fewer⟩ := exists_step enough
  have shorter : tail.length < steps := by
    simp only [padding, List.length_append, List.length_cons, List.length_replicate] at fewer
    omega
  have noTab : '\t' ∉ padding (count + 1) := by
    simp [padding, List.mem_replicate]
  have visibleNext : startsIn isGap (first :: word ++ tail ++ rest) = false := visible
  have taken : Takes (From indent line) gap (padding (count + 1)) (first :: word ++ tail ++ rest)
      (padding (count + 1)) (From indent line) := takes_gap_spaces visibleNext indent line
  refine Takes.bind taken ?_
  have some' : padding (count + 1) ≠ [] := List.cons_ne_nil _ _
  rw [if_neg some', tabsBefore_of_noTab noTab]
  refine Takes.bind_look (takes_require rfl _ _) (takes_get_bind fun mark place => ?_)
  have onLine : ¬ mark.column < indent := Nat.not_lt.mpr place.1
  have notFirst : (mark.column == 0) = false := by
    rw [beq_eq_false_iff_ne]
    exact Nat.ne_of_gt (Nat.lt_of_lt_of_le positive place.1)
  have goesOn :
      (!false && decide (mark.column < indent) ||
        Cursor.atDocumentMarker ⟨first :: word ++ tail ++ rest, mark⟩ ||
        startsIn (· == '#') (first :: word ++ tail ++ rest)) = false := by
    simp [Cursor.atDocumentMarker, Cursor.startsWithTriple, notFirst, onLine, startsIn,
      noComment]
  rw [goesOn]
  have all : Takes (From indent line) (do
      let word ← plainWord false
      if word = [] then return ([], !(lineBreaks (padding (count + 1))).isEmpty)
      let read ← plainTail false indent steps
      return (gapText (padding (count + 1)) ++ word ++ read.1, read.2))
      (first :: word ++ tail) rest (padding (count + 1) ++ (first :: word ++ meant), true)
      after := by
    refine Takes.bind read ?_
    rw [if_neg (List.cons_ne_nil _ _)]
    refine Takes.bind_done (later steps shorter) ?_
    rw [gapText_spaces, ← List.append_assoc]
    exact takes_pure _ _ rest
  refine all.mono ?_ fun _ place => place
  rintro _ rfl
  exact place

/-- The words of a text are read up to a line that stands further left. -/
theorem takes_plainTail {chars : List Char} {column indent : Nat}
    (left : column < indent) (after : startsIn isGap rest = false)
    (words : Words ('\n' :: padding column ++ rest) chars) :
    ∀ steps, (chars ++ '\n' :: padding column).length < steps →
      Takes (From indent line) (plainTail false indent steps) (chars ++ '\n' :: padding column) rest
        (chars, true) (Below column line) := by
  induction words with
  | nil => exact takes_plainTail_end left after
  | @cons count first word more isWord noComment words inductionHypothesis =>
      have source : padding (count + 1) ++ (first :: word ++ more) ++ '\n' :: padding column =
          padding (count + 1) ++ (first :: word ++ (more ++ '\n' :: padding column)) := by
        simp only [List.append_assoc]
      rw [source]
      exact takes_plainTail_word (Nat.zero_lt_of_lt left)
        (isWord.visible first List.mem_cons_self) noComment
        (isWord.takes_before words indent line) inductionHypothesis

/-- A text of words is read up to a line that stands further left. -/
theorem takes_plain {word more : List Char} {column indent : Nat}
    (left : column < indent) (after : startsIn isGap rest = false)
    (isWord : Word (more ++ ('\n' :: padding column ++ rest)) word)
    (words : Words ('\n' :: padding column ++ rest) more) :
    Takes (From indent line) (plain false indent) (word ++ more ++ '\n' :: padding column) rest
      (word ++ more, true) (Below column line) := by
  rw [List.append_assoc]
  refine Takes.bind (isWord.takes_before words indent line) (takes_rest_bind ?_)
  exact Takes.bind_done (takes_plainTail left after words _
    (by simp only [List.length_append]; omega)) (takes_pure _ _ rest)

theorem atWordEnd_append {after : List Char} (ends : atWordEnd after = true) (chars : List Char) :
    atWordEnd (chars ++ after) = atWordEnd chars := by
  cases chars with
  | nil => exact ends
  | cons char chars => rfl

/-- A text without colons that end words, number signs that begin them, or a blank at the end
consists of words. -/
theorem exists_words {after : List Char} (ends : atWordEnd after = true) {chars : List Char}
    (spaces : ∀ char ∈ chars, isGap char = true → char = ' ')
    (noSpace : chars.getLast?.any isSpace = false) {previous : Char}
    (noIndicator : hasIndicator previous chars = false) :
    ∃ word more, chars = word ++ more ∧ Word (more ++ after) word ∧ Words after more := by
  induction chars generalizing previous with
  | nil => exact ⟨[], [], rfl, .nil, .nil⟩
  | cons char chars inductionHypothesis =>
      unfold hasIndicator at noIndicator
      simp only [Bool.or_eq_false_iff] at noIndicator
      obtain ⟨⟨noColon, -⟩, later⟩ := noIndicator
      have noSpaceLater : chars.getLast?.any isSpace = false := by
        cases chars with
        | nil => rfl
        | cons next chars => rwa [List.getLast?_cons_cons] at noSpace
      obtain ⟨word, more, rfl, isWord, words⟩ := inductionHypothesis
        (fun other member => spaces other (List.mem_cons_of_mem _ member)) noSpaceLater later
      cases gap : isGap char with
      | false =>
          refine ⟨char :: word, more, rfl, .cons gap ?_ isWord, words⟩
          rwa [← List.append_assoc, atWordEnd_append ends]
      | true =>
          -- A blank begins the gap before the next word.
          obtain rfl := spaces char List.mem_cons_self gap
          refine ⟨[], ' ' :: (word ++ more), rfl, .nil, ?_⟩
          cases isWord with
          | nil =>
              cases words with
              | nil => cases noSpace
              | @cons count first word more isWord noComment words =>
                  have joined : Words after (padding (count + 1 + 1) ++ (first :: word ++ more)) :=
                    .cons isWord noComment words
                  exact joined
          | @cons first word visible noColonHere isWord =>
              have parts : (first == ':' && atWordEnd (word ++ more) ||
                  first == '#' && isGap ' ' || hasIndicator first (word ++ more)) = false := later
              have noComment : first ≠ '#' := by
                rintro rfl
                simp only [Bool.or_eq_false_iff] at parts
                cases parts.1.2
              have one : Words after (padding (0 + 1) ++ (first :: word ++ more)) :=
                .cons (.cons visible noColonHere isWord) noComment words
              exact one

/-- White space in a text that may be written without quotes is blanks. -/
theorem eq_space_of_plain {chars : List Char} (plain : plainAllowed chars = true) :
    ∀ char ∈ chars, isGap char = true → char = ' ' := by
  intro char member gap
  unfold plainAllowed isRegular at plain
  simp only [Bool.and_eq_true, Bool.not_eq_true', List.all_eq_true] at plain
  obtain ⟨⟨⟨⟨⟨⟨⟨printable, -⟩, noBreak⟩, -⟩, -⟩, -⟩, -⟩, -⟩ := plain
  have notBreak : isBreak char = false := by
    simpa using List.any_eq_false.mp noBreak char member
  have visible := printable char member
  unfold isGap isBlank at gap
  rw [notBreak, Bool.or_false, Bool.or_eq_true, beq_iff_eq, beq_iff_eq] at gap
  rcases gap with same | rfl
  · exact same
  · cases visible

/-- A text that may be written without quotes begins with a character that may begin such a text. -/
theorem begins_of_plain {char : Char} {chars : List Char}
    (plain : plainAllowed (char :: chars) = true) :
    isGap char = false ∧ startsWithIndicator (char :: chars) = false := by
  have spaces := eq_space_of_plain plain char List.mem_cons_self
  unfold plainAllowed at plain
  simp only [Bool.and_eq_true, Bool.not_eq_true'] at plain
  obtain ⟨⟨⟨⟨⟨-, noSpace⟩, -⟩, -⟩, noIndicator⟩, -⟩ := plain
  refine ⟨?_, noIndicator⟩
  cases gap : isGap char with
  | false => rfl
  | true =>
      rw [spaces gap] at noSpace
      cases noSpace

/-- A text that may be written without quotes consists of words, the first at its start. -/
theorem exists_words_of_plain {after chars : List Char} (ends : atWordEnd after = true)
    (plain : plainAllowed chars = true) :
    ∃ word more, chars = word ++ more ∧ Word (more ++ after) word ∧ Words after more := by
  have spaces := eq_space_of_plain plain
  unfold plainAllowed at plain
  simp only [Bool.and_eq_true, Bool.not_eq_true'] at plain
  obtain ⟨⟨⟨⟨-, noSpace⟩, -⟩, -⟩, noIndicator⟩ := plain
  exact exists_words ends spaces noSpace noIndicator

end FaultDrill.Yaml
