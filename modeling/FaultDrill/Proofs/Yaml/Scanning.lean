import FaultDrill.Proofs.Document
import FaultDrill.Yaml.Encoder
import FaultDrill.Yaml.Token.Folding

/-!
What the readers of YAML take from the characters that are left, and where they then stand.

Owns:
- places right of a column, and places after some characters;
- readers that take certain characters, with what must hold of the place before and what holds of
  the place after;
- gaps between words: blanks on a line, and line breaks with the blanks after them.

Columns decide how YAML is read, so the places are part of each statement.
-/

namespace FaultDrill.Yaml

variable {Value Other : Type}

/-! ## Places -/

/-- A place that is no further left than a column, on a line or after it. -/
def From (column line : Nat) (mark : Mark) : Prop :=
  column ≤ mark.column ∧ line ≤ mark.line

/-- A place at a column, after a line. -/
def Below (column line : Nat) (mark : Mark) : Prop :=
  mark.column = column ∧ line < mark.line

theorem From.after {column line : Nat} {mark : Mark} (place : From column line mark)
    (count : Nat) : From column line (mark.after count) :=
  ⟨Nat.le_trans place.1 (Nat.le_add_right _ _), place.2⟩

theorem after_after (mark : Mark) (first second : Nat) :
    (mark.after first).after second = mark.after (first + second) := by
  simp only [Mark.after, Nat.add_assoc]

theorem through_cons {char : Char} (notReturn : char ≠ '\r') (mark : Mark) (rest : List Char) :
    mark.through (char :: rest) =
      if isBreak char then (mark.afterBreak 1).through rest else (mark.after 1).through rest := by
  rw [Mark.through]
  exact fun _ same => absurd same notReturn

theorem through_spaces (mark : Mark) (count : Nat) :
    mark.through (padding count) = mark.after count := by
  induction count generalizing mark with
  | zero => rfl
  | succ count inductionHypothesis =>
      have step : mark.through (padding (count + 1)) = (mark.after 1).through (padding count) :=
        through_cons (by decide) mark (padding count)
      rw [step, inductionHypothesis, after_after, Nat.add_comm]

/-- Reading on never leads back to an earlier line. -/
theorem line_le_through (mark : Mark) (text : List Char) :
    mark.line ≤ (mark.through text).line := by
  fun_induction Mark.through mark text with
  | case1 mark => exact Nat.le_refl _
  | case2 mark rest inductionHypothesis =>
      exact Nat.le_trans (Nat.le_succ _) inductionHypothesis
  | case3 mark char rest _ _ inductionHypothesis =>
      exact Nat.le_trans (Nat.le_succ _) inductionHypothesis
  | case4 mark char rest _ _ inductionHypothesis => exact inductionHypothesis

/-- Line breaks that are written as themselves. -/
def AllBreaks (chars : List Char) : Prop :=
  ∀ char ∈ chars, isBreak char = true ∧ char ≠ '\r'

/-- After line breaks and blanks the place is at the column that the blanks lead to. -/
theorem through_breaks {breaks : List Char} (nonempty : breaks ≠ []) (each : AllBreaks breaks)
    (column : Nat) (mark : Mark) :
    Below column mark.line (mark.through (breaks ++ padding column)) := by
  induction breaks generalizing mark with
  | nil => exact absurd rfl nonempty
  | cons char breaks inductionHypothesis =>
      obtain ⟨isBreak', notReturn⟩ := each char List.mem_cons_self
      rw [List.cons_append, through_cons notReturn, if_pos isBreak']
      cases breaks with
      | nil =>
          rw [List.nil_append, through_spaces]
          exact ⟨Nat.zero_add column, Nat.lt_succ_self mark.line⟩
      | cons next breaks =>
          obtain ⟨onColumn, onLine⟩ := inductionHypothesis (List.cons_ne_nil _ _)
            (fun char member => each char (List.mem_cons_of_mem _ member)) (mark.afterBreak 1)
          exact ⟨onColumn, Nat.lt_trans (Nat.lt_succ_self mark.line) onLine⟩

/-! ## What follows -/

theorem startsIn_isSpace_of_gap {rest : List Char} (noGap : startsIn isGap rest = false) :
    startsIn isSpace rest = false ∧ startsIn (· == '\t') rest = false ∧
      startsIn isBreak rest = false := by
  cases rest with
  | nil => exact ⟨rfl, rfl, rfl⟩
  | cons char rest =>
      have visible : isGap char = false := noGap
      unfold isGap isBlank at visible
      simp only [Bool.or_eq_false_iff] at visible
      exact ⟨visible.1.1, visible.1.2, visible.2⟩

/-! ## Readers -/

namespace Scan

/-- From a place of one kind a reader takes some characters, leaves the rest and returns a value, at
a place of another kind. -/
def Takes (before : Mark → Prop) (scan : Scan Value) (text rest : List Char) (value : Value)
    (after : Mark → Prop) : Prop :=
  ∀ mark, before mark →
    ∃ mark', scan ⟨text ++ rest, mark⟩ = some (value, ⟨rest, mark'⟩) ∧ after mark'

variable {scan : Scan Value} {next : Value → Scan Other} {text more rest : List Char}
  {value : Value} {other : Other} {before between after : Mark → Prop}

theorem Takes.mono (takes : Takes before scan text rest value after) {stronger weaker : Mark → Prop}
    (implies : ∀ mark, stronger mark → before mark) (implied : ∀ mark, after mark → weaker mark) :
    Takes stronger scan text rest value weaker := by
  intro mark holds
  obtain ⟨mark', ran, holdsAfter⟩ := takes mark (implies mark holds)
  exact ⟨mark', ran, implied mark' holdsAfter⟩

theorem Takes.bind (first : Takes before scan text (more ++ rest) value between)
    (second : Takes between (next value) more rest other after) :
    Takes before (scan >>= next) (text ++ more) rest other after := by
  intro mark holds
  obtain ⟨mark', ran, holdsBetween⟩ := first mark holds
  obtain ⟨mark'', ranOn, holdsAfter⟩ := second mark' holdsBetween
  refine ⟨mark'', ?_, holdsAfter⟩
  rw [List.append_assoc]
  exact (run_bind ran).trans ranOn

theorem Takes.bind_cons {char : Char}
    (first : Takes before scan [char] (more ++ rest) value between)
    (second : Takes between (next value) more rest other after) :
    Takes before (scan >>= next) (char :: more) rest other after :=
  first.bind second

theorem Takes.bind_look (first : Takes before scan [] (text ++ rest) value between)
    (second : Takes between (next value) text rest other after) :
    Takes before (scan >>= next) text rest other after :=
  first.bind second

theorem Takes.bind_done (first : Takes before scan text rest value between)
    (second : Takes between (next value) [] rest other after) :
    Takes before (scan >>= next) text rest other after := by
  rw [← List.append_nil text]
  exact Takes.bind first second

theorem takes_pure (before : Mark → Prop) (value : Value) (rest : List Char) :
    Takes before (pure value) [] rest value before :=
  fun mark holds => ⟨mark, rfl, holds⟩

/-- What a reader does may depend on the characters that are left. -/
theorem takes_rest_bind {next : List Char → Scan Other}
    (second : Takes before (next (text ++ rest)) text rest other after) :
    Takes before (Scan.rest >>= next) text rest other after := by
  intro mark holds
  exact second mark holds

/-- What a reader does may depend on the characters that are left and on the place. -/
theorem takes_get_bind {next : Cursor → Scan Other}
    (second : ∀ mark, before mark →
      Takes (· = mark) (next ⟨text ++ rest, mark⟩) text rest other after) :
    Takes before (get >>= next) text rest other after := by
  intro mark holds
  exact second mark holds mark rfl

theorem takes_require {condition : Bool} (holds : condition = true) (before : Mark → Prop)
    (rest : List Char) : Takes before (require condition) [] rest () before := by
  rw [holds]
  exact takes_pure before () rest

theorem takes_option {found : Option Value} (known : found = some value) (before : Mark → Prop)
    (rest : List Char) : Takes before (liftM found : Scan Value) [] rest value before := by
  rw [known]
  exact takes_pure before value rest

theorem takes_skip (before : Mark → Prop) (text rest : List Char) :
    Takes before (skip text.length) text rest ()
      fun mark => ∃ start, before start ∧ mark = start.after text.length := by
  intro mark holds
  refine ⟨mark.after text.length, ?_, mark, holds, rfl⟩
  change some ((), Cursor.mk ((text ++ rest).drop text.length) _) = _
  rw [List.drop_left]

theorem takes_skip_from (column line : Nat) (text rest : List Char) :
    Takes (From column line) (skip text.length) text rest () (From column line) := by
  refine (takes_skip _ text rest).mono (fun _ place => place) ?_
  rintro _ ⟨start, place, rfl⟩
  exact place.after _

/-- Away from the first column no document starts or ends. -/
theorem takes_notMarker {column line : Nat} (positive : 0 < column) {next : Unit → Scan Other}
    (second : Takes (From column line) (next ()) text rest other after) :
    Takes (From column line) (get >>= fun cursor => require (!cursor.atDocumentMarker) >>= next)
      text rest other after := by
  refine takes_get_bind fun mark place => ?_
  have right : (mark.column == 0) = false := by
    simp only [beq_eq_false_iff_ne]
    exact Nat.ne_of_gt (Nat.lt_of_lt_of_le positive place.1)
  have noMarker : (!Cursor.atDocumentMarker ⟨text ++ rest, mark⟩) = true := by
    simp [Cursor.atDocumentMarker, Cursor.startsWithTriple, right]
  refine Takes.bind_look (takes_require noMarker _ _) (second.mono ?_ fun _ place => place)
  rintro _ rfl
  exact place

/-! ## Runs -/

theorem takeWhile_of_ends {class' : Char → Bool} {run rest : List Char}
    (inside : ∀ char ∈ run, class' char = true) (ends : startsIn class' rest = false) :
    (run ++ rest).takeWhile class' = run ∧ (run ++ rest).dropWhile class' = rest := by
  have ended : rest.takeWhile class' = [] ∧ rest.dropWhile class' = rest := by
    cases rest with
    | nil => exact ⟨rfl, rfl⟩
    | cons char rest =>
        have out : class' char = false := ends
        simp [out]
  rw [List.takeWhile_append_of_pos inside, List.dropWhile_append_of_pos inside, ended.1, ended.2,
    List.append_nil]
  exact ⟨rfl, rfl⟩

/-- A run ends where a character outside its class comes, or the end. -/
theorem takes_takeWhile {class' : Char → Bool} {run rest : List Char}
    (inside : ∀ char ∈ run, class' char = true) (ends : startsIn class' rest = false)
    (before : Mark → Prop) :
    Takes before (takeWhile class') run rest run
      fun mark => ∃ start, before start ∧ mark = start.through run := by
  intro mark holds
  refine ⟨mark.through run, ?_, mark, holds, rfl⟩
  obtain ⟨took, left⟩ := takeWhile_of_ends inside ends
  change some ((run ++ rest).takeWhile class', Cursor.mk ((run ++ rest).dropWhile class')
    (mark.through ((run ++ rest).takeWhile class'))) = _
  rw [took, left]

theorem all_isGap_padding (count : Nat) : ∀ char ∈ padding count, isGap char = true := by
  intro char member
  rw [List.eq_of_mem_replicate member]
  rfl

theorem all_isGap_breaks {breaks : List Char} (each : AllBreaks breaks) (column : Nat) :
    ∀ char ∈ breaks ++ padding column, isGap char = true := by
  intro char member
  rcases List.mem_append.mp member with inBreaks | inPadding
  · unfold isGap
    rw [(each char inBreaks).1, Bool.or_true]
  · exact all_isGap_padding column char inPadding

theorem takes_gap_spaces {count : Nat} {rest : List Char} (ends : startsIn isGap rest = false)
    (column line : Nat) :
    Takes (From column line) gap (padding count) rest (padding count) (From column line) := by
  refine (takes_takeWhile (all_isGap_padding count) ends _).mono (fun _ place => place) ?_
  rintro _ ⟨start, place, rfl⟩
  rw [through_spaces]
  exact place.after count

/-- A gap with line breaks ends at the column of its last blanks. -/
theorem takes_gap_breaks {breaks rest : List Char} (nonempty : breaks ≠ [])
    (each : AllBreaks breaks) (indent : Nat) (ends : startsIn isGap rest = false)
    (column line : Nat) :
    Takes (From column line) gap (breaks ++ padding indent) rest (breaks ++ padding indent)
      (Below indent line) := by
  refine (takes_takeWhile (all_isGap_breaks each indent) ends _).mono (fun _ place => place) ?_
  rintro _ ⟨start, place, rfl⟩
  obtain ⟨onColumn, onLine⟩ := through_breaks nonempty each indent start
  exact ⟨onColumn, Nat.lt_of_le_of_lt place.2 onLine⟩

end Scan

/-! ## What gaps stand for -/

theorem lineBreaks_cons {char : Char} (notReturn : char ≠ '\r') (rest : List Char) :
    lineBreaks (char :: rest) =
      if isBreak char then normalBreak char :: lineBreaks rest else lineBreaks rest := by
  rw [lineBreaks]
  exact fun _ same => absurd same notReturn

theorem lineBreaks_spaces (count : Nat) : lineBreaks (padding count) = [] := by
  induction count with
  | zero => rfl
  | succ count inductionHypothesis =>
      have step : lineBreaks (padding (count + 1)) = lineBreaks (padding count) :=
        lineBreaks_cons (by decide) (padding count)
      rw [step, inductionHypothesis]

theorem lineBreaks_breaks {breaks : List Char} (each : AllBreaks breaks) (column : Nat) :
    lineBreaks (breaks ++ padding column) = breaks.map normalBreak := by
  induction breaks with
  | nil => exact lineBreaks_spaces column
  | cons char breaks inductionHypothesis =>
      obtain ⟨isBreak', notReturn⟩ := each char List.mem_cons_self
      rw [List.cons_append, lineBreaks_cons notReturn, if_pos isBreak', List.map_cons,
        inductionHypothesis fun char member => each char (List.mem_cons_of_mem _ member)]

theorem gapText_spaces (count : Nat) : gapText (padding count) = padding count := by
  unfold gapText
  rw [lineBreaks_spaces]

end FaultDrill.Yaml
