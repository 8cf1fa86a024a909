import FaultDrill.Proofs.Yaml.Quoted
import FaultDrill.Yaml.Token.Block

/-!
Literal scalars are read as the texts that they are written for.

Owns:
- indentation and empty lines;
- texts as lines with line breaks after them, and the header that tells how they begin and end;
- reading line by line, up to a line that stands further left.

Main statement: a text of several lines is read back if it may be written literally
(`takes_block`).
-/

namespace FaultDrill.Yaml

open Scan

variable {rest : List Char} {line : Nat}

/-! ## Lines -/

theorem takes_skip_below (count line : Nat) (rest : List Char) :
    Takes (Below 0 line) (skip count) (padding count) rest () (Below count line) := by
  have skipped := takes_skip (Below 0 line) (padding count) rest
  rw [padding, List.length_replicate] at skipped
  refine skipped.mono (fun _ place => place) ?_
  rintro _ ⟨start, ⟨onColumn, onLine⟩, rfl⟩
  refine ⟨?_, onLine⟩
  change start.column + count = count
  omega

theorem takeWhile_padding (count : Nat) {rest : List Char} (ends : startsIn isSpace rest = false) :
    ((padding count ++ rest).takeWhile (· == ' ')).length = count := by
  have inside : ∀ char ∈ padding count, (char == ' ') = true := by
    intro char member
    rw [List.eq_of_mem_replicate member]
    rfl
  rw [(takeWhile_of_ends inside ends).1, padding, List.length_replicate]

/-- The blanks before a line that stands further left. -/
theorem takes_indentation_left {column indent : Nat} (left : column < indent)
    (noSpace : startsIn isSpace rest = false) (noTab : startsIn (· == '\t') rest = false)
    (line : Nat) :
    Takes (Below 0 line) (indentation (some indent)) (padding column) rest ()
      (Below column line) := by
  refine takes_get_bind fun mark place => ?_
  have count : min ((padding column ++ rest).takeWhile (· == ' ')).length
      (indent - mark.column) = column := by
    rw [takeWhile_padding column noSpace, place.1]
    omega
  dsimp only
  rw [count]
  refine Takes.bind_done ((takes_skip_below column line rest).mono ?_ fun _ place => place) ?_
  · rintro _ rfl
    exact place
  · refine takes_get_bind fun mark' place' => ?_
    have inside : (!(decide (mark'.column < indent) && startsIn (· == '\t') rest)) = true := by
      rw [noTab, Bool.and_false]
      rfl
    refine (takes_require inside _ _).mono (fun _ same => same) ?_
    rintro _ rfl
    exact place'

/-- The blanks that indent a line of the scalar. -/
theorem takes_indentation (indent line : Nat) (rest : List Char) :
    Takes (Below 0 line) (indentation (some indent)) (padding indent) rest ()
      (Below indent line) := by
  refine takes_get_bind fun mark place => ?_
  have count : min ((padding indent ++ rest).takeWhile (· == ' ')).length
      (indent - mark.column) = indent := by
    have inside : ∀ char ∈ padding indent, (char == ' ') = true := by
      intro char member
      rw [List.eq_of_mem_replicate member]
      rfl
    rw [List.takeWhile_append_of_pos inside, List.length_append, place.1, padding,
      List.length_replicate]
    omega
  dsimp only
  rw [count]
  refine Takes.bind_done ((takes_skip_below indent line rest).mono ?_ fun _ place => place) ?_
  · rintro _ rfl
    exact place
  · refine takes_get_bind fun mark' place' => ?_
    have outside : (!(decide (mark'.column < indent) && startsIn (· == '\t') rest)) = true := by
      rw [place'.1, decide_eq_false (Nat.lt_irrefl indent)]
      rfl
    refine (takes_require outside _ _).mono (fun _ same => same) ?_
    rintro _ rfl
    exact place'

/-- Line breaks that are written as themselves in a literal scalar. -/
def PlainBreaks (chars : List Char) : Prop :=
  ∀ char ∈ chars, isBreak char = true ∧ normalBreak char = char ∧ char ≠ '\r'

theorem takes_lineBreak {char : Char} (break' : isBreak char = true)
    (normal : normalBreak char = char) (notReturn : char ≠ '\r') {before : Mark → Prop}
    (onLine : ∀ mark, before mark → line ≤ mark.line) (rest : List Char) :
    Takes before lineBreak [char] rest [char] (Below 0 line) := by
  intro mark holds
  have one : breakLength (char :: rest) = 1 := by
    unfold breakLength
    split
    · next same => exact absurd (List.cons.inj same).1 notReturn
    · rfl
  refine ⟨mark.afterBreak 1, ?_, rfl, Nat.lt_succ_of_le (onLine mark holds)⟩
  change (if isBreak char then do
      modify Cursor.skipBreak
      return [normalBreak char]
    else return [] : Scan (List Char)) ⟨char :: rest, mark⟩ = _
  rw [if_pos break', normal]
  change some ([char], Cursor.mk ((char :: rest).drop (breakLength (char :: rest)))
    (mark.afterBreak (breakLength (char :: rest)))) = _
  rw [one]
  rfl

theorem takes_lineBreak_none (noBreak : startsIn isBreak rest = false) (before : Mark → Prop) :
    Takes before lineBreak [] rest [] before := by
  refine takes_rest_bind ?_
  rw [List.nil_append]
  cases rest with
  | nil => exact takes_pure before [] []
  | cons char rest =>
      have other : isBreak char = false := noBreak
      dsimp only
      rw [other]
      exact takes_pure before [] _

/-- After the last empty line only the blanks of the next line are taken. -/
theorem takes_emptyLines_last {column : Nat} {indent : Option Nat}
    (noBreak : startsIn isBreak rest = false)
    (last : Takes (Below 0 line) (indentation indent) (padding column) rest () (Below column line))
    (steps widest : Nat) :
    Takes (Below 0 line) (emptyLines indent (steps + 1) widest) (padding column) rest
      ([], max widest column) (Below column line) := by
  refine Takes.bind_done last (takes_get_bind fun mark place => ?_)
  refine Takes.bind_look (takes_lineBreak_none noBreak _) ?_
  rw [← place.1]
  refine (takes_pure _ _ rest).mono (fun _ same => same) ?_
  rintro _ rfl
  exact ⟨rfl, place.2⟩

/-- Empty lines are taken with the blanks of the line after them. -/
theorem takes_emptyLines {column indent : Nat} {breaks : List Char} (plain : PlainBreaks breaks)
    (positive : 0 < indent) (noBreak : startsIn isBreak rest = false)
    (last : Takes (Below 0 line) (indentation (some indent)) (padding column) rest ()
      (Below column line)) :
    ∀ steps widest, breaks.length < steps →
      Takes (Below 0 line) (emptyLines (some indent) steps widest) (breaks ++ padding column) rest
        (breaks, max widest column) (Below column line) := by
  induction breaks with
  | nil =>
      intro steps widest enough
      obtain ⟨steps, rfl, -⟩ := exists_step enough
      exact takes_emptyLines_last noBreak last steps widest
  | cons char breaks inductionHypothesis =>
      intro steps widest enough
      obtain ⟨steps, rfl, fewer⟩ := exists_step enough
      obtain ⟨break', normal, notReturn⟩ := plain char List.mem_cons_self
      have notBlank : char ≠ ' ' ∧ char ≠ '\t' := by
        constructor
        · rintro rfl
          cases break'
        · rintro rfl
          cases break'
      have noIndent : Takes (Below 0 line) (indentation (some indent)) []
          (char :: breaks ++ padding column ++ rest) () (Below 0 line) :=
        takes_indentation_left positive (by simp [startsIn, isSpace, notBlank.1])
          (by simp [startsIn, notBlank.2]) line
      have later := inductionHypothesis
        (fun other member => plain other (List.mem_cons_of_mem _ member)) steps (max widest 0) fewer
      rw [Nat.max_zero] at later
      refine Takes.bind_look noIndent (takes_get_bind fun mark place => ?_)
      have taken : Takes (· = mark) lineBreak [char] (breaks ++ padding column ++ rest) [char]
          (Below 0 line) := by
        refine takes_lineBreak break' normal notReturn ?_ _
        rintro _ rfl
        exact Nat.le_of_lt place.2
      refine Takes.bind_cons taken ?_
      dsimp only
      rw [place.1, Nat.max_zero]
      exact Takes.bind_done later (takes_pure _ _ rest)

/-! ## Texts of lines -/

/-- What happens at the end of a text: nothing after a last line without line break, one line break
that is kept, or several. -/
inductive Lines : Chomping → List Char → Prop where
  | last {first : Char} {others : List Char}
      (line : ∀ char ∈ first :: others, isBreak char = false) : Lines .strip (first :: others)
  | ended {first break' : Char} {others : List Char}
      (line : ∀ char ∈ first :: others, isBreak char = false) (plain : PlainBreaks [break']) :
      Lines .clip (first :: others ++ [break'])
  | spaced {first break' next : Char} {others breaks : List Char}
      (line : ∀ char ∈ first :: others, isBreak char = false)
      (plain : PlainBreaks (break' :: next :: breaks)) :
      Lines .keep (first :: others ++ break' :: next :: breaks)
  | more {chomping : Chomping} {first break' : Char} {others breaks chars : List Char}
      (line : ∀ char ∈ first :: others, isBreak char = false)
      (plain : PlainBreaks (break' :: breaks)) :
      Lines chomping chars → Lines chomping (first :: others ++ (break' :: breaks ++ chars))

theorem Lines.starts {chomping : Chomping} {chars : List Char} (lines : Lines chomping chars) :
    ∃ first others, chars = first :: others ∧ isBreak first = false := by
  cases lines with
  | last line => exact ⟨_, _, rfl, line _ List.mem_cons_self⟩
  | ended line => exact ⟨_, _, rfl, line _ List.mem_cons_self⟩
  | spaced line => exact ⟨_, _, rfl, line _ List.mem_cons_self⟩
  | more line => exact ⟨_, _, rfl, line _ List.mem_cons_self⟩

theorem Lines.cons {chomping : Chomping} {chars : List Char} (lines : Lines chomping chars)
    {char : Char} (noBreak : isBreak char = false) : Lines chomping (char :: chars) := by
  have longer : ∀ {line : List Char}, (∀ other ∈ line, isBreak other = false) →
      ∀ other ∈ char :: line, isBreak other = false := by
    intro line each other member
    rcases List.mem_cons.mp member with rfl | later
    · exact noBreak
    · exact each other later
  cases lines with
  | last line => exact .last (longer line)
  | ended line plain => exact .ended (longer line) plain
  | spaced line plain => exact .spaced (longer line) plain
  | more line plain lines => exact .more (longer line) plain lines

/-- Line breaks of printable texts are written and read as themselves. -/
theorem plain_of_printable {char : Char} (break' : isBreak char = true)
    (printable : isPrintable char = true) : normalBreak char = char ∧ char ≠ '\r' := by
  by_cases feed : char = '\n'
  · subst feed
    exact ⟨rfl, by decide⟩
  · rcases kept_of_printable break' printable feed with rfl | rfl <;> decide

/-- Every printable text consists of line breaks and of lines after them. -/
theorem exists_lines {chars : List Char} (printable : ∀ char ∈ chars, isPrintable char = true) :
    ∃ breaks lines, chars = breaks ++ lines ∧ PlainBreaks breaks ∧
      (lines = [] ∨ ∃ chomping, Lines chomping lines) := by
  induction chars with
  | nil => exact ⟨[], [], rfl, by simp [PlainBreaks], .inl rfl⟩
  | cons char chars inductionHypothesis =>
      obtain ⟨breaks, lines, rfl, plain, isLines⟩ := inductionHypothesis
        fun other member => printable other (List.mem_cons_of_mem _ member)
      cases break' : isBreak char with
      | true =>
          refine ⟨char :: breaks, lines, rfl, ?_, isLines⟩
          intro other member
          rcases List.mem_cons.mp member with rfl | later
          · exact ⟨break', plain_of_printable break' (printable other List.mem_cons_self)⟩
          · exact plain other later
      | false =>
          have alone : ∀ other ∈ [char], isBreak other = false := by
            intro other member
            rw [List.mem_singleton.mp member]
            exact break'
          refine ⟨[], char :: (breaks ++ lines), rfl, by simp [PlainBreaks], .inr ?_⟩
          rcases isLines with rfl | ⟨chomping, isLines⟩
          · rw [List.append_nil]
            match breaks, plain with
            | [], _ => exact ⟨.strip, .last alone⟩
            | [break'], plain => exact ⟨.clip, .ended alone plain⟩
            | break' :: next :: breaks, plain => exact ⟨.keep, .spaced alone plain⟩
          · match breaks, plain with
            | [], _ => exact ⟨chomping, isLines.cons break'⟩
            | _ :: _, plain => exact ⟨chomping, .more alone plain isLines⟩

/-! ## The lines of a scalar -/

section Body

variable {indent : Nat}

theorem literalBody_line {line : List Char} (noBreak : ∀ char ∈ line, isBreak char = false)
    (more : List Char) :
    literalBody indent false (line ++ more) = line ++ literalBody indent false more := by
  induction line with
  | nil => rfl
  | cons char line inductionHypothesis =>
      have here := noBreak char List.mem_cons_self
      rw [List.cons_append, literalBody, here,
        inductionHypothesis fun other member => noBreak other (List.mem_cons_of_mem _ member)]
      rfl

theorem literalBody_breaks {breaks : List Char} (plain : PlainBreaks breaks) (more : List Char) :
    literalBody indent true (breaks ++ more) = breaks ++ literalBody indent true more := by
  induction breaks with
  | nil => rfl
  | cons char breaks inductionHypothesis =>
      rw [List.cons_append, literalBody, (plain char List.mem_cons_self).1,
        inductionHypothesis fun other member => plain other (List.mem_cons_of_mem _ member)]
      rfl

theorem literalBody_break {break' : Char} {breaks : List Char}
    (plain : PlainBreaks (break' :: breaks)) (mode : Bool) (more : List Char) :
    literalBody indent mode (break' :: breaks ++ more) =
      break' :: breaks ++ literalBody indent true more := by
  have later : PlainBreaks breaks :=
    fun other member => plain other (List.mem_cons_of_mem _ member)
  rw [List.cons_append, literalBody, (plain break' List.mem_cons_self).1,
    literalBody_breaks later]
  rfl

theorem Lines.literalBody {chomping : Chomping} {chars : List Char} (lines : Lines chomping chars) :
    literalBody indent true chars = padding indent ++ literalBody indent false chars := by
  obtain ⟨first, others, rfl, noBreak⟩ := lines.starts
  rw [Yaml.literalBody, Yaml.literalBody, noBreak]
  rfl

/-- A line of the scalar is taken with the line breaks after it and the blanks of the next line. -/
theorem takes_blockLine {first break' : Char} {others breaks tail : List Char} {column steps : Nat}
    {block final : BlockText} {after : Mark → Prop}
    (line' : ∀ char ∈ first :: others, isBreak char = false)
    (plain : PlainBreaks (break' :: breaks)) (positive : 0 < indent)
    (noBreak : startsIn isBreak (tail ++ rest) = false)
    (last : Takes (Below 0 line) (indentation (some indent)) (padding column) (tail ++ rest) ()
      (Below column line))
    (blank : Bool)
    (later : Takes (Below column line)
      (blockLines false indent steps (startsIn isBlank [first])
        ⟨block.text ++ block.lastBreak ++ block.emptyLines ++ first :: others, [break'], breaks⟩)
      tail rest final after) :
    Takes (Below indent line) (blockLines false indent (steps + 1) blank block)
      (first :: others ++ (break' :: (breaks ++ padding column ++ tail))) rest final after := by
  obtain ⟨isBreak', normal, notReturn⟩ := plain break' List.mem_cons_self
  have plainLater : PlainBreaks breaks :=
    fun other member => plain other (List.mem_cons_of_mem _ member)
  have ends : startsIn (fun char => !isBreak char)
      (break' :: (breaks ++ padding column ++ tail) ++ rest) = false := by
    change (!isBreak break') = false
    rw [isBreak']
    rfl
  refine takes_get_bind fun mark place => ?_
  have inside : mark.column = indent ∧
      first :: others ++ (break' :: (breaks ++ padding column ++ tail)) ++ rest ≠ [] :=
    ⟨place.1, by simp⟩
  dsimp only
  rw [if_pos inside]
  have whole : Takes (· = mark) (takeWhile fun char => !isBreak char) (first :: others)
      (break' :: (breaks ++ padding column ++ tail) ++ rest) (first :: others)
      (fun mark' => line ≤ mark'.line) := by
    refine (takes_takeWhile (fun char member => by simp [line' char member]) ends _).mono
      (fun _ same => same) ?_
    rintro _ ⟨start, rfl, rfl⟩
    exact Nat.le_trans (Nat.le_of_lt place.2) (line_le_through _ _)
  refine Takes.bind whole ?_
  refine Takes.bind_cons (takes_lineBreak isBreak' normal notReturn (fun _ onLine => onLine) _) ?_
  refine takes_rest_bind ?_
  have empty := takes_emptyLines plainLater positive noBreak last
    ((breaks ++ padding column ++ tail ++ rest).length + 1) 0
    (by simp only [List.length_append]; omega)
  exact Takes.bind empty later

/-- Where the lines end, a line that stands further left ends the scalar. -/
theorem takes_blockLines_end {column : Nat} (left : column < indent) (steps : Nat) (blank : Bool)
    (block : BlockText) (rest : List Char) :
    Takes (Below column line) (blockLines false indent (steps + 1) blank block) [] rest block
      (Below column line) := by
  refine takes_get_bind fun mark place => ?_
  have outside : ¬ (mark.column = indent ∧ [] ++ rest ≠ []) := by
    rintro ⟨same, -⟩
    rw [place.1] at same
    exact absurd same (Nat.ne_of_lt left)
  dsimp only
  rw [if_neg outside]
  refine (takes_pure _ block rest).mono (fun _ same => same) ?_
  rintro _ rfl
  exact place

theorem plain_feed : PlainBreaks ['\n'] := by
  intro char member
  rw [List.mem_singleton.mp member]
  decide

/-- The last line of the scalar, with the line breaks after it. -/
theorem takes_lastLine {first break' : Char} {others breaks : List Char} {column : Nat}
    (left : column < indent) (after : startsIn isGap rest = false)
    (line' : ∀ char ∈ first :: others, isBreak char = false)
    (plain : PlainBreaks (break' :: breaks)) (blank : Bool) (block : BlockText) :
    ∀ steps, (first :: others ++ break' :: (breaks ++ padding column)).length < steps →
      Takes (Below indent line) (blockLines false indent steps blank block)
        (first :: others ++ break' :: (breaks ++ padding column)) rest
        ⟨block.text ++ block.lastBreak ++ block.emptyLines ++ first :: others, [break'], breaks⟩
        (Below column line) := by
  obtain ⟨noSpace, noTab, noBreak⟩ := startsIn_isSpace_of_gap after
  have positive : 0 < indent := Nat.lt_of_le_of_lt (Nat.zero_le column) left
  intro steps enough
  obtain ⟨steps, rfl⟩ : ∃ fewer, steps = fewer + 1 + 1 := by
    simp only [List.length_append, List.length_cons] at enough
    exact ⟨steps - 2, by omega⟩
  have outside : Takes (Below 0 line) (indentation (some indent)) (padding column) ([] ++ rest) ()
      (Below column line) := takes_indentation_left left noSpace noTab line
  have noBreakHere : startsIn isBreak ([] ++ rest) = false := noBreak
  have whole := takes_blockLine line' plain positive noBreakHere outside blank
    (takes_blockLines_end left steps (startsIn isBlank [first]) ⟨block.text ++ block.lastBreak ++
      block.emptyLines ++ first :: others, [break'], breaks⟩ rest)
  rw [List.append_nil] at whole
  exact whole

/-- The lines of a scalar are read up to a line that stands further left. -/
theorem takes_blockLines {chomping : Chomping} {chars : List Char} {column : Nat}
    (left : column < indent) (after : startsIn isGap rest = false)
    (lines : Lines chomping chars) :
    ∀ steps blank (block : BlockText),
      (literalBody indent false chars ++ padding column).length < steps →
      ∃ final : BlockText, final.chomped chomping =
          block.text ++ block.lastBreak ++ block.emptyLines ++ chars ∧
        Takes (Below indent line) (blockLines false indent steps blank block)
          (literalBody indent false chars ++ padding column) rest final (Below column line) := by
  have positive : 0 < indent := Nat.lt_of_le_of_lt (Nat.zero_le column) left
  induction lines with
  | @last first others line' =>
      intro steps blank block enough
      have source : literalBody indent false (first :: others) ++ padding column =
          first :: others ++ '\n' :: ([] ++ padding column) := by
        have body := @literalBody_line indent _ line' []
        rw [List.append_nil] at body
        rw [body, literalBody]
        simp
      rw [source] at enough ⊢
      exact ⟨_, rfl, takes_lastLine left after line' plain_feed blank block steps enough⟩
  | @ended first break' others line' plain =>
      intro steps blank block enough
      have source : literalBody indent false (first :: others ++ [break']) ++ padding column =
          first :: others ++ break' :: ([] ++ padding column) := by
        have tail := @literalBody_break indent _ _ plain false []
        rw [List.append_nil] at tail
        rw [literalBody_line line', tail, literalBody]
        simp
      rw [source] at enough ⊢
      refine ⟨_, ?_, takes_lastLine left after line' plain blank block steps enough⟩
      simp [BlockText.chomped]
  | @spaced first break' next others breaks line' plain =>
      intro steps blank block enough
      have source : literalBody indent false (first :: others ++ break' :: next :: breaks) ++
          padding column = first :: others ++ break' :: (next :: breaks ++ padding column) := by
        have tail := @literalBody_break indent _ _ plain false []
        rw [List.append_nil] at tail
        rw [literalBody_line line', tail, literalBody]
        simp
      rw [source] at enough ⊢
      refine ⟨_, ?_, takes_lastLine left after line' plain blank block steps enough⟩
      simp [BlockText.chomped]
  | @more chomping first break' others breaks chars line' plain lines inductionHypothesis =>
      intro steps blank block enough
      obtain ⟨steps, rfl, fewer⟩ := exists_step enough
      have source : literalBody indent false (first :: others ++ (break' :: breaks ++ chars)) ++
          padding column = first :: others ++ (break' :: (breaks ++ padding indent ++
            (literalBody indent false chars ++ padding column))) := by
        rw [literalBody_line line', literalBody_break plain false chars, lines.literalBody]
        simp
      rw [source] at fewer ⊢
      have shorter : (literalBody indent false chars ++ padding column).length < steps := by
        simp at fewer ⊢
        omega
      have nextLine : startsIn isBreak
          (literalBody indent false chars ++ padding column ++ rest) = false := by
        obtain ⟨letter, following, rfl, visible⟩ := lines.starts
        rw [literalBody, visible]
        exact visible
      obtain ⟨final, chomped, takes⟩ := inductionHypothesis steps (startsIn isBlank [first])
        ⟨block.text ++ block.lastBreak ++ block.emptyLines ++ first :: others, [break'], breaks⟩
        shorter
      refine ⟨final, ?_, takes_blockLine line' plain positive nextLine
        (takes_indentation indent line _) blank takes⟩
      rw [chomped]
      simp

end Body

/-! ## The header -/

/-- The mark for the line breaks at the end of a text. -/
def endMark (chars : List Char) : List Char :=
  match chars.reverse with
  | last :: previous =>
    if !isBreak last then ['-'] else if endsOr isBreak previous then ['+'] else []
  | [] => ['-']

/-- The mark that stands for what happens to line breaks at the end. -/
def Chomping.mark : Chomping → List Char
  | .strip => ['-']
  | .clip => []
  | .keep => ['+']

theorem endMark_append_line {line : List Char} (nonempty : line ≠ [])
    (noBreak : ∀ char ∈ line, isBreak char = false) (before : List Char) :
    endMark (before ++ line) = ['-'] := by
  obtain ⟨front, last, rfl⟩ := (List.eq_nil_or_concat line).resolve_left nonempty
  have here : isBreak last = false := noBreak last (by simp)
  unfold endMark
  simp [here]

theorem endMark_append_breaks {breaks : List Char} (nonempty : breaks ≠ [])
    (plain : PlainBreaks breaks) (before : List Char)
    (following : before = [] ∨ 1 < breaks.length) : endMark (before ++ breaks) = ['+'] := by
  obtain ⟨front, last, rfl⟩ := (List.eq_nil_or_concat breaks).resolve_left nonempty
  have here : isBreak last = true := (plain last (by simp)).1
  have previous : endsOr isBreak (front.reverse ++ before.reverse) = true := by
    rcases List.eq_nil_or_concat front with rfl | ⟨more, other, rfl⟩
    · rcases following with rfl | long
      · rfl
      · simp at long
    · have isBreak' : isBreak other = true := (plain other (by simp)).1
      simpa [endsOr] using isBreak'
  unfold endMark
  simp [here, previous]

theorem Lines.endMark {chomping : Chomping} {chars : List Char} (lines : Lines chomping chars)
    (before : List Char) : endMark (before ++ chars) = chomping.mark := by
  induction lines generalizing before with
  | last line => exact endMark_append_line (List.cons_ne_nil _ _) line before
  | @ended first break' others line plain =>
      obtain ⟨front, last, whole⟩ :=
        (List.eq_nil_or_concat (first :: others)).resolve_left (List.cons_ne_nil _ _)
      have notBreak : isBreak last = false := line last (by rw [whole]; simp)
      have isBreak' : isBreak break' = true := (plain break' List.mem_cons_self).1
      rw [whole]
      unfold Yaml.endMark
      simp [isBreak', notBreak, endsOr, Chomping.mark]
  | @spaced first break' next others breaks line plain =>
      have whole : before ++ (first :: others ++ break' :: next :: breaks) =
          before ++ first :: others ++ break' :: next :: breaks := by simp
      rw [whole]
      exact endMark_append_breaks (List.cons_ne_nil _ _) plain _ (.inr (by simp))
  | @more chomping first break' others breaks chars _ _ _ inductionHypothesis =>
      have whole : before ++ (first :: others ++ (break' :: breaks ++ chars)) =
          before ++ (first :: others ++ break' :: breaks) ++ chars := by simp
      rw [whole]
      exact inductionHypothesis _

theorem takes_blockHeader (chomping : Chomping) (hasDigit : Bool) (line : Nat) (rest : List Char) :
    Takes (From 1 line) blockHeader
      ((if hasDigit then ['2'] else []) ++ chomping.mark ++ ['\n']) rest
      (chomping, if hasDigit then some 2 else none) (Below 0 line) := by
  intro mark place
  have onLine := Nat.lt_succ_of_le place.2
  cases chomping <;> cases hasDigit <;> exact ⟨_, rfl, rfl, onLine⟩

/-! ## Whole scalars -/

/-- Whether the indentation of a text must be told by a digit. -/
def needsDigit (chars : List Char) : Bool :=
  startsIn (fun char => isSpace char || isBreak char) chars

theorem literalHeader_eq (chars : List Char) :
    literalHeader chars = '|' :: (if needsDigit chars then ['2'] else []) ++ endMark chars :=
  rfl

/-- Where no digit tells the indentation, the first line does. -/
theorem takes_indentation_free (indent line : Nat) (noSpace : startsIn isSpace rest = false)
    (noTab : startsIn (· == '\t') rest = false) :
    Takes (Below 0 line) (indentation none) (padding indent) rest () (Below indent line) := by
  refine takes_get_bind fun mark place => ?_
  dsimp only
  rw [takeWhile_padding indent noSpace]
  refine Takes.bind_done ((takes_skip_below indent line rest).mono ?_ fun _ place => place) ?_
  · rintro _ rfl
    exact place
  · refine takes_get_bind fun mark' place' => ?_
    have inside : (!(true && startsIn (· == '\t') rest)) = true := by
      rw [noTab]
      rfl
    refine (takes_require inside _ _).mono (fun _ same => same) ?_
    rintro _ rfl
    exact place'

section Whole

variable {least column : Nat}

/-- A scalar is read from its header, its first empty lines with the blanks after them, and its
lines. -/
theorem takes_block_of {chomping : Chomping} {hasDigit : Bool} {given : Option Nat}
    {indent middle widest : Nat} {breaks source chars : List Char} {after : Mark → Prop}
    (isGiven : (if hasDigit then some 2 else none).map (least - 1 + ·) = given)
    (isIndent : given.getD (max (max widest least) 1) = indent)
    (empty : ∀ steps, breaks.length < steps →
      Takes (Below 0 line) (emptyLines given steps 0) (breaks ++ padding middle) (source ++ rest)
        (breaks, widest) (Below middle line))
    (lines : ∀ steps, source.length < steps →
      ∃ final : BlockText, final.chomped chomping = chars ∧
        Takes (Below middle line)
          (blockLines false indent steps false { emptyLines := breaks }) source rest final after) :
    Takes (From 1 line) (block false least)
      ('|' :: ((if hasDigit then ['2'] else []) ++ chomping.mark ++ ['\n'] ++
        (breaks ++ padding middle ++ source))) rest chars after := by
  obtain ⟨final, chomped, read⟩ :=
    lines ((breaks ++ padding middle ++ source ++ rest).length + 1)
      (by simp only [List.length_append]; omega)
  refine Takes.bind_cons (takes_skip_from 1 line ['|'] _) ?_
  refine Takes.bind (takes_blockHeader chomping hasDigit line _) (takes_rest_bind ?_)
  dsimp only
  rw [isGiven]
  refine Takes.bind (empty _ (by simp only [List.length_append]; omega)) ?_
  dsimp only
  rw [isIndent, ← chomped]
  exact Takes.bind_done read (takes_pure _ _ rest)

theorem needsDigit_append {breaks : List Char} (nonempty : breaks ≠ []) (plain : PlainBreaks breaks)
    (more : List Char) : needsDigit (breaks ++ more) = true := by
  obtain ⟨break', breaks, rfl⟩ := List.exists_cons_of_ne_nil nonempty
  change (isSpace break' || isBreak break') = true
  rw [(plain break' List.mem_cons_self).1, Bool.or_true]

theorem indent_of_digit (positive : 0 < least) :
    (if true then some 2 else none).map (least - 1 + ·) = some (least + 1) := by
  simp only [if_true, Option.map_some, Option.some.injEq]
  omega

/-- Line breaks alone have their indentation told by a digit. -/
theorem takes_block_breaks (positive : 0 < least) (left : column < least)
    (after : startsIn isGap rest = false) {breaks : List Char} (nonempty : breaks ≠ [])
    (plain : PlainBreaks breaks) :
    Takes (From 1 line) (block false least)
      (literalHeader breaks ++ '\n' :: (literalBody (least + 1) true breaks ++ padding column)) rest
      breaks (Below column line) := by
  obtain ⟨noSpace, noTab, noBreak⟩ := startsIn_isSpace_of_gap after
  have leftOfLines : column < least + 1 := Nat.lt_succ_of_lt left
  have starts : needsDigit breaks = true := by
    rw [← List.append_nil breaks]
    exact needsDigit_append nonempty plain []
  have mark : endMark breaks = Chomping.keep.mark :=
    endMark_append_breaks nonempty plain [] (.inl rfl)
  have body : literalBody (least + 1) true breaks = breaks := by
    have whole : literalBody (least + 1) true (breaks ++ []) =
        breaks ++ literalBody (least + 1) true [] := literalBody_breaks plain []
    rwa [List.append_nil, literalBody, if_pos rfl, List.append_nil] at whole
  have empty : ∀ steps, breaks.length < steps →
      Takes (Below 0 line) (emptyLines (some (least + 1)) steps 0) (breaks ++ padding column)
        ([] ++ rest) (breaks, max 0 column) (Below column line) :=
    fun steps enough => takes_emptyLines plain (Nat.succ_pos least) noBreak
      (takes_indentation_left leftOfLines noSpace noTab line) steps 0 enough
  have ended : ∀ steps, ([] : List Char).length < steps →
      ∃ final : BlockText, final.chomped .keep = breaks ∧
        Takes (Below column line)
          (blockLines false (least + 1) steps false { emptyLines := breaks }) [] rest final
          (Below column line) := by
    intro steps enough
    obtain ⟨steps, rfl, -⟩ := exists_step enough
    exact ⟨_, rfl, takes_blockLines_end leftOfLines steps false { emptyLines := breaks } rest⟩
  have read := takes_block_of (indent_of_digit positive) rfl empty ended
  rw [literalHeader_eq, starts, mark, body]
  simpa using read

section Lines

variable {chomping : Chomping} {breaks lines : List Char} (left : column < least)
  (after : startsIn isGap rest = false) (isLines : Lines chomping lines)

include isLines in
theorem noBreak_of_lines (indent : Nat) (more : List Char) :
    startsIn isBreak (literalBody indent false lines ++ more) = false := by
  obtain ⟨first, others, start, visible⟩ := isLines.starts
  rw [start, literalBody, visible]
  exact visible

include left after isLines in
theorem takes_blockLines_of_breaks (breaks : List Char) :
    ∀ steps, (literalBody (least + 1) false lines ++ padding column).length < steps →
      ∃ final : BlockText, final.chomped chomping = breaks ++ lines ∧
        Takes (Below (least + 1) line)
          (blockLines false (least + 1) steps false { emptyLines := breaks })
          (literalBody (least + 1) false lines ++ padding column) rest final (Below column line) :=
  fun steps enough => takes_blockLines (Nat.lt_succ_of_lt left) after isLines steps false
    { emptyLines := breaks } enough

include left after isLines in
/-- A digit tells the indentation of lines. -/
theorem takes_block_digit (positive : 0 < least) (plain : PlainBreaks breaks)
    (starts : needsDigit (breaks ++ lines) = true) :
    Takes (From 1 line) (block false least)
      (literalHeader (breaks ++ lines) ++
        '\n' :: (literalBody (least + 1) true (breaks ++ lines) ++ padding column)) rest
      (breaks ++ lines) (Below column line) := by
  have nextLine := noBreak_of_lines isLines (least + 1) (padding column ++ rest)
  rw [← List.append_assoc] at nextLine
  have empty : ∀ steps, breaks.length < steps →
      Takes (Below 0 line) (emptyLines (some (least + 1)) steps 0)
        (breaks ++ padding (least + 1))
        (literalBody (least + 1) false lines ++ padding column ++ rest)
        (breaks, max 0 (least + 1)) (Below (least + 1) line) :=
    fun steps enough => takes_emptyLines plain (Nat.succ_pos least) nextLine
      (takes_indentation (least + 1) line _) steps 0 enough
  have read := takes_block_of (indent_of_digit positive) rfl empty
    (takes_blockLines_of_breaks left after isLines breaks)
  rw [literalHeader_eq, starts, isLines.endMark breaks, literalBody_breaks plain,
    isLines.literalBody]
  simpa using read

include left after isLines in
/-- The first character of lines shows their indentation. -/
theorem takes_block_shown (printable : ∀ char ∈ lines, isPrintable char = true)
    (starts : needsDigit lines = false) :
    Takes (From 1 line) (block false least)
      (literalHeader lines ++ '\n' :: (literalBody (least + 1) true lines ++ padding column)) rest
      lines (Below column line) := by
  have nextLine := noBreak_of_lines isLines (least + 1) (padding column ++ rest)
  have shows : startsIn isSpace (literalBody (least + 1) false lines ++ padding column ++ rest) =
        false ∧
      startsIn (· == '\t') (literalBody (least + 1) false lines ++ padding column ++ rest) =
        false := by
    obtain ⟨first, others, start, visible⟩ := isLines.starts
    rw [start] at starts printable
    have notBlank : (isSpace first || isBreak first) = false := starts
    rw [visible, Bool.or_false] at notBlank
    have isPrintable' := printable first List.mem_cons_self
    have noTabHere : (first == '\t') = false := by
      rw [beq_eq_false_iff_ne]
      rintro rfl
      cases isPrintable'
    rw [start, literalBody, visible]
    exact ⟨notBlank, noTabHere⟩
  rw [← List.append_assoc] at nextLine
  have empty : ∀ steps, ([] : List Char).length < steps →
      Takes (Below 0 line) (emptyLines none steps 0) ([] ++ padding (least + 1))
        (literalBody (least + 1) false lines ++ padding column ++ rest)
        ([], max 0 (least + 1)) (Below (least + 1) line) := by
    intro steps enough
    obtain ⟨steps, rfl, -⟩ := exists_step enough
    exact takes_emptyLines_last nextLine
      (takes_indentation_free (least + 1) line shows.1 shows.2) steps 0
  have indent : (none : Option Nat).getD (max (max (max 0 (least + 1)) least) 1) = least + 1 := by
    simp only [Option.getD_none]
    omega
  have noDigit : (if false then some 2 else none).map (least - 1 + ·) = none := rfl
  have read := takes_block_of noDigit indent empty
    (takes_blockLines_of_breaks left after isLines [])
  have mark := isLines.endMark []
  rw [List.nil_append] at mark
  rw [literalHeader_eq, starts, mark, isLines.literalBody]
  simpa using read

end Lines

/-- A printable text of several lines is read from its header and its lines. -/
theorem takes_block (positive : 0 < least) (left : column < least)
    (after : startsIn isGap rest = false) {chars : List Char} (nonempty : chars ≠ [])
    (printable : ∀ char ∈ chars, isPrintable char = true) :
    Takes (From 1 line) (block false least)
      (literalHeader chars ++ '\n' :: (literalBody (least + 1) true chars ++ padding column)) rest
      chars (Below column line) := by
  obtain ⟨breaks, lines, rfl, plain, isLines⟩ := exists_lines printable
  rcases isLines with rfl | ⟨chomping, isLines⟩
  · rw [List.append_nil] at nonempty ⊢
    exact takes_block_breaks positive left after nonempty plain
  cases starts : needsDigit (breaks ++ lines) with
  | true => exact takes_block_digit left after isLines positive plain starts
  | false =>
      have noBreaks : breaks = [] := Decidable.byContradiction fun some' => by
        rw [needsDigit_append some' plain] at starts
        cases starts
      subst noBreaks
      exact takes_block_shown left after isLines printable starts

end Whole

end FaultDrill.Yaml
