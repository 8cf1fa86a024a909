import FaultDrill.Proofs.Json.Literals

/-!
Values that a document does not need are passed over.

Owns: the passing over of a value, and of what is in a list or an object.

Main statement: every value of the grammar, nested to any depth, is passed over as a whole
(`spells_skip`).

The steps that a value may take are those of its bytes: two for each, one to look at a value in a
list or an object and one to go on after it.
-/

namespace FaultDrill.Json.Reader

open Grammar Number

variable {blanks rest : List UInt8}

theorem takes_word (expected rest : List UInt8) : Takes (word expected) expected rest () := by
  induction expected with
  | nil => exact takes_pure () rest
  | cons byte expected inductionHypothesis =>
      refine Takes.bind_byte (takes_next byte _) ?_
      dsimp only
      rw [if_pos rfl]
      exact inductionHypothesis

/-- Bytes that are passed over as one value in at most twice as many steps. -/
structure Passes (bytes : List UInt8) : Prop where
  starts : ∃ first more, bytes = first :: more ∧ isBlank first = false ∧ first ≠ 0x5D
  takes : ∀ {blanks rest : List UInt8}, AllBlank blanks → Ended rest →
    ∀ steps, 2 * bytes.length ≤ steps → Takes (skipValue steps) (blanks ++ bytes) rest ()

/-- A value that is told by its first byte takes a step for that. -/
theorem Passes.of_first {first : UInt8} {more : List UInt8} (token : isBlank first = false)
    (notEnd : first ≠ 0x5D)
    (takes : ∀ {blanks rest : List UInt8}, AllBlank blanks → Ended rest →
      ∀ steps, 2 * more.length < steps →
        Takes (skipValue (steps + 1)) (blanks ++ first :: more) rest ()) :
    Passes (first :: more) where
  starts := ⟨first, more, rfl, token, notEnd⟩
  takes := by
    intro blanks rest blank ended steps enough
    rw [List.length_cons] at enough
    obtain ⟨fewer, rfl, -⟩ := exists_step (show 2 * more.length + 1 < steps by omega)
    exact takes blank ended fewer (by omega)

theorem passes_positive {number : List UInt8} (numberOf : NumberText number) :
    Passes number := by
  have whole := numberOf
  obtain ⟨wholeOf, -, -⟩ := numberOf
  obtain ⟨first, more, rfl⟩ := List.exists_cons_of_ne_nil wholeOf.nonempty
  have isDigit := wholeOf.isDigit first List.mem_cons_self
  obtain ⟨token, notEnd, -⟩ := isBlank_of_isDigit isDigit
  refine .of_first token notEnd fun blank ended steps _ => ?_
  refine Takes.bind (takes_peekToken blank token _) ?_
  split
  · next none => cases none
  iterate 7
    · next same =>
        cases same
        exact absurd isDigit (by decide)
  · next same =>
      cases same
      rw [if_pos isDigit]
      exact takes_skipNumber whole ended

theorem passes_negative {number : List UInt8} (numberOf : NumberText number) :
    Passes (0x2D :: number) :=
  .of_first rfl (by decide) fun blank ended _ _ =>
    Takes.bind (takes_peekToken blank rfl _)
      (Takes.bind_byte (takes_drop 0x2D _) (takes_skipNumber numberOf ended))

theorem passes_text {source : List UInt8} (anyText : AnyText source) :
    Passes (0x22 :: (source ++ [0x22])) :=
  .of_first rfl (by decide) fun blank _ _ _ =>
    Takes.bind (takes_peekToken blank rfl _)
      (Takes.bind_byte (takes_drop 0x22 _) (takes_skipTextTail anyText _))

/-! ## Elements between commas -/

/-- A loop that passes over one element in each step, and what comes between the elements. -/
structure Loops (closing : UInt8) (ended unexpected : Cause) (element : List UInt8 → Prop)
    (loop : Nat → Reader Unit) : Prop where
  token : isBlank closing = false
  noComma : closing ≠ 0x2C
  closes : ∀ rest, Ended (closing :: rest)
  enters : ∀ {blanks bytes rest : List UInt8}, element bytes → AllBlank blanks → Ended rest →
    ∀ steps, 2 * bytes.length ≤ steps →
      GoesOn (loop (steps + 1)) (separated closing ended unexpected (loop steps))
        (blanks ++ bytes) rest

theorem goesOn_separated {closing : UInt8} {ended unexpected : Cause} (blank : AllBlank blanks)
    (onward : Reader Unit) (rest : List UInt8) :
    GoesOn (separated closing ended unexpected onward) onward (blanks ++ [0x2C]) rest := by
  refine Takes.bind_goesOn (takes_peekToken blank rfl _) ?_
  dsimp only
  rw [if_pos rfl]
  exact (takes_drop 0x2C rest).goesOn fun _ => onward

namespace Loops

variable {closing : UInt8} {atEnd unexpected : Cause} {element : List UInt8 → Prop}
  {loop : Nat → Reader Unit} (loops : Loops closing atEnd unexpected element loop)

include loops

theorem takes_closing (blank : AllBlank blanks) (onward : Reader Unit) (rest : List UInt8) :
    Takes (separated closing atEnd unexpected onward) (blanks ++ [closing]) rest () := by
  refine Takes.bind (takes_peekToken blank loops.token _) ?_
  dsimp only
  rw [if_neg loops.noComma, if_pos rfl]
  exact takes_drop closing rest

/-- Before the end of a number may stand what comes after an element. -/
theorem ended {values : List Unit} {others : List UInt8}
    (elements : Elements (fun _ bytes => element bytes) false values others)
    (blank : AllBlank blanks) (rest : List UInt8) :
    Ended (others ++ (blanks ++ [closing]) ++ rest) := by
  rw [List.append_assoc, List.append_assoc]
  exact elements.ended (ended_of_blanks blank (loops.closes rest))

/-- The elements after one are passed over up to the closing bracket. -/
theorem takes_others {first : Bool} {values : List Unit} {others : List UInt8}
    (elements : Elements (fun _ bytes => element bytes) first values others)
    (notFirst : first = false) (blank : AllBlank blanks) (rest : List UInt8) :
    ∀ steps, 2 * others.length ≤ steps →
      Takes (separated closing atEnd unexpected (loop steps)) (others ++ (blanks ++ [closing]))
        rest () := by
  induction elements with
  | done first => exact fun steps _ => loops.takes_closing blank (loop steps) rest
  | @more first leading bytes later value values lead spelled more inductionHypothesis =>
      subst notFirst
      intro steps enough
      cases lead with
      | @next before after blankBefore blankAfter =>
          simp only [List.length_append, List.length_cons] at enough
          obtain ⟨steps, rfl, -⟩ :=
            exists_step (show 2 * bytes.length + 2 * later.length < steps by omega)
          have element := loops.enters spelled blankAfter (loops.ended more blank rest) steps
            (by omega)
          have parts : before ++ 0x2C :: after ++ (bytes ++ later) ++ (blanks ++ [closing]) =
              before ++ [0x2C] ++ (after ++ bytes ++ (later ++ (blanks ++ [closing]))) := by
            simp
          rw [parts]
          exact (goesOn_separated blankBefore _ _).takes
            (element.takes (inductionHypothesis rfl steps (by omega)))

/-- Elements are passed over from one on. -/
theorem takes_from {values : List Unit} {bytes others : List UInt8} (spelled : element bytes)
    (elements : Elements (fun _ bytes => element bytes) false values others)
    (blank : AllBlank blanks) (rest : List UInt8) {steps : Nat}
    (enough : 2 * (bytes.length + others.length) < steps) :
    Takes (loop steps) (bytes ++ (others ++ (blanks ++ [closing]))) rest () := by
  obtain ⟨steps, rfl, -⟩ := exists_step enough
  have element := loops.enters spelled allBlank_nil (loops.ended elements blank rest) steps
    (by omega)
  exact element.takes (loops.takes_others elements rfl blank rest steps (by omega))

end Loops

/-! ## Lists and objects -/

theorem loops_skipItems :
    Loops 0x5D .endOfList .expectedListCommaOrEnd Passes skipItems where
  token := rfl
  noComma := by decide
  closes := ended_cons (by decide)
  enters passes blank ended steps enough := (passes.takes blank ended steps enough).goesOn _

theorem passes_list {items : List Unit} {inside : List UInt8}
    (elements : Elements (fun _ item => Passes item) true items inside)
    (blank : AllBlank blanks) : Passes (0x5B :: (inside ++ blanks ++ [0x5D])) := by
  refine .of_first rfl (by decide) fun {before rest} blankBefore _ steps enough => ?_
  refine Takes.bind (takes_peekToken blankBefore rfl _) (Takes.bind_byte (takes_drop 0x5B _) ?_)
  cases elements with
  | done => exact Takes.bind (takes_peekToken blank rfl _) (takes_drop 0x5D rest)
  | @more _ leading item others _ _ lead passes elements =>
      cases lead with
      | first blankLead =>
          simp only [List.length_append] at enough
          have passed := loops_skipItems.takes_from passes elements blank rest
            (show _ < steps by omega)
          have parts : leading ++ (item ++ others) ++ blanks ++ [0x5D] =
              leading ++ (item ++ (others ++ (blanks ++ [0x5D]))) := by
            simp
          obtain ⟨byte, tail, rfl, token, notEnd⟩ := passes.starts
          rw [parts]
          refine Takes.bind (takes_peekToken blankLead token _) ?_
          split
          · next none => cases none
          · next ending => exact absurd (Option.some.inj ending) notEnd
          · exact passed

theorem loops_skipMembers :
    Loops 0x7D .endOfObject .expectedObjectCommaOrEnd (MemberText AnyText Passes)
      skipMembers where
  token := rfl
  noComma := by decide
  closes := ended_cons (by decide)
  enters := by
    intro blanks bytes rest member blank ended steps enough
    cases member with
    | @mk source before after value named blankBefore blankAfter passes =>
        simp only [List.length_append, List.length_cons] at enough
        have value := passes.takes blankAfter ended steps (by omega)
        exact Takes.bind_goesOn (takes_peekToken blank rfl _)
          (Takes.bind_goesOn (takes_drop 0x22 _)
            (Takes.bind_goesOn (takes_skipTextTail named _)
              (Takes.bind_goesOn (takes_peekToken blankBefore rfl _)
                (Takes.bind_goesOn (takes_drop 0x3A _) (value.goesOn _)))))

theorem passes_object {members : List Unit} {inside : List UInt8}
    (elements : Elements (fun _ member => MemberText AnyText Passes member) true members inside)
    (blank : AllBlank blanks) : Passes (0x7B :: (inside ++ blanks ++ [0x7D])) := by
  refine .of_first rfl (by decide) fun {before rest} blankBefore _ steps enough => ?_
  refine Takes.bind (takes_peekToken blankBefore rfl _) (Takes.bind_byte (takes_drop 0x7B _) ?_)
  cases elements with
  | done => exact Takes.bind (takes_peekToken blank rfl _) (takes_drop 0x7D rest)
  | @more _ leading member others _ _ lead spelled elements =>
      cases lead with
      | first blankLead =>
          simp only [List.length_append] at enough
          have passed := loops_skipMembers.takes_from spelled elements blank rest
            (show _ < steps by omega)
          have parts : leading ++ (member ++ others) ++ blanks ++ [0x7D] =
              leading ++ (member ++ (others ++ (blanks ++ [0x7D]))) := by
            simp
          rw [parts]
          cases spelled
          exact Takes.bind (takes_peekToken blankLead rfl _) passed

/-! ## Values -/

theorem passes_null : Passes [0x6E, 0x75, 0x6C, 0x6C] :=
  .of_first rfl (by decide) fun blank _ _ _ => Takes.bind (takes_peekToken blank rfl _)
    (Takes.bind_byte (takes_drop 0x6E _) (takes_word restOfNull _))

theorem passes_true : Passes [0x74, 0x72, 0x75, 0x65] :=
  .of_first rfl (by decide) fun blank _ _ _ => Takes.bind (takes_peekToken blank rfl _)
    (Takes.bind_byte (takes_drop 0x74 _) (takes_word restOfTrue _))

theorem passes_false : Passes [0x66, 0x61, 0x6C, 0x73, 0x65] :=
  .of_first rfl (by decide) fun blank _ _ _ => Takes.bind (takes_peekToken blank rfl _)
    (Takes.bind_byte (takes_drop 0x66 _) (takes_word restOfFalse _))

theorem passes_of_valueOver {inner : List UInt8 → Prop} {bytes : List UInt8}
    (value : ValueOver inner bytes) (each : ∀ bytes, inner bytes → Passes bytes) :
    Passes bytes := by
  cases value with
  | null => exact passes_null
  | true => exact passes_true
  | false => exact passes_false
  | positive numberOf => exact passes_positive numberOf
  | negative numberOf => exact passes_negative numberOf
  | text textOf => exact passes_text textOf
  | list elements blank =>
      exact passes_list (elements.map id fun _ _ bytes item => each bytes item) blank
  | object elements blank =>
      refine passes_object (elements.map id fun _ _ bytes member => ?_) blank
      cases member with
      | mk name blankBefore blankAfter valueOf =>
          exact .mk name blankBefore blankAfter (each _ valueOf)

theorem passes_of_isValue {depth : Nat} {bytes : List UInt8} (value : IsValue depth bytes) :
    Passes bytes := by
  induction depth generalizing bytes with
  | zero => exact passes_of_valueOver value fun _ none => none.elim
  | succ depth inductionHypothesis =>
      exact passes_of_valueOver value fun _ inner => inductionHypothesis inner

/-- A value is passed over, however deep it is nested. -/
theorem spells_skip {depth : Nat} {bytes : List UInt8} (value : IsValue depth bytes) :
    Spells skip bytes () where
  starts := (passes_of_isValue value).starts
  takes := by
    intro blanks rest blank ended
    refine takes_get_bind fun cursor left _ =>
      (passes_of_isValue value).takes blank ended _ ?_
    rw [left]
    simp only [List.length_append]
    omega

end FaultDrill.Json.Reader
