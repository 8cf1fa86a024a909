import FaultDrill.Proofs.Numeral.Digits
import FaultDrill.Proofs.Toml.Reading
import FaultDrill.Toml.Value

/-!
Whole numbers of TOML are read as what their digits say.

Owns: decimals without a needless nought, what may stand after a value, and the readers that such a
decimal is offered to: it is neither a moment nor a number with a fraction.

Main statements: a decimal is read as its number (`reads_numberItem`), and what is written for a
number is a decimal of it (`decimalOf_toDigits`).
-/

namespace FaultDrill.Toml

/-- After a value on a line stands the end of the line, or in an array a comma or its end. -/
def Ended (rest : List Char) : Prop :=
  ∃ mark more, rest = mark :: more ∧ mark ∈ ['\n', ',', ']']

/-- Digits with the number that they stand for. A nought comes first only if it stands alone. -/
structure DecimalOf (digits : List Char) (number : Nat) : Prop where
  isDigit : ∀ digit ∈ digits, digit.isDigit = true
  nonempty : digits ≠ []
  value : Numeral.decimalValue digits = number
  leading : digits.head? = some '0' → digits = ['0']

theorem ended_cons {mark : Char} (isMark : mark ∈ ['\n', ',', ']']) (more : List Char) :
    Ended (mark :: more) :=
  ⟨mark, more, rfl, isMark⟩

theorem Ended.head_ne {rest : List Char} (ended : Ended rest) {char : Char}
    (other : char ∉ ['\n', ',', ']']) : rest.head? ≠ some char := by
  obtain ⟨mark, more, rfl, isMark⟩ := ended
  intro same
  rw [List.head?_cons, Option.some.injEq] at same
  exact other (same ▸ isMark)

theorem Ended.all_not {rest : List Char} (ended : Ended rest) {class' : Char → Bool}
    (outside : ['\n', ',', ']'].all (!class' ·) = true) :
    rest.head?.all (!class' ·) = true := by
  obtain ⟨mark, more, rfl, isMark⟩ := ended
  exact List.all_eq_true.mp outside mark isMark

namespace Reader

variable {Other : Type} {run rest : List Char}

/-! ## What a decimal is not -/

theorem refuses_require_bind {condition : Bool} {next : Unit → Reader Other}
    (later : condition = true → Refuses (next ()) rest) :
    Refuses (require condition >>= next) rest := by
  cases condition with
  | false => exact Refuses.bind (refuses_require rfl rest)
  | true => exact Takes.bind_look_refuses (takes_require rfl rest) (later rfl)

/-- A run of digits may be too short for a number of so many digits; else it goes on after them. -/
theorem refuses_digits_bind {count : Nat} {next : Nat → Reader Other}
    (ends : rest.head?.all (!Char.isDigit ·) = true)
    (later : ∀ value, Refuses (next value) (run.drop count ++ rest)) :
    Refuses (digits count >>= next) (run ++ rest) := by
  by_cases long : count ≤ run.length
  · have taken : (run ++ rest).take count = run.take count := List.take_append_of_le_length long
    have skipped := takes_skip (run.take count) (run.drop count ++ rest)
    rw [List.length_take, Nat.min_eq_left long] at skipped
    have parts : run ++ rest = run.take count ++ (run.drop count ++ rest) := by
      rw [← List.append_assoc, List.take_append_drop]
    unfold digits
    rw [bind_assoc]
    refine Takes.bind_look_refuses (takes_rest _) ?_
    rw [bind_assoc]
    refine refuses_require_bind fun _ => ?_
    rw [bind_assoc, taken, parts]
    exact Takes.bind_refuses skipped (Takes.bind_look_refuses (takes_pure _ _) (later _))
  · unfold digits
    refine Refuses.bind (Takes.bind_look_refuses (takes_rest _) (Refuses.bind ?_))
    refine refuses_require ?_ _
    -- So many characters reach past the digits.
    cases rest with
    | nil =>
        have short : decide (((run ++ []).take count).length = count) = false := by
          rw [List.append_nil, List.length_take]
          exact decide_eq_false (by omega)
        rw [short, Bool.false_and]
    | cons char rest =>
        have notDigit : char.isDigit = false := by simpa using ends
        have inside : char ∈ (run ++ char :: rest).take count := by
          rw [List.mem_take_iff_getElem]
          exact ⟨run.length, by simp; omega, by simp⟩
        have notAll : ((run ++ char :: rest).take count).all Char.isDigit = false :=
          List.all_eq_false.mpr ⟨char, inside, by simp [notDigit]⟩
        rw [notAll, Bool.and_false]

section Decimal

variable (inside : ∀ char ∈ run, char.isDigit = true) (ended : Ended rest)

include inside ended

/-- In what is left of a run of digits only a digit or the mark after it comes first. -/
theorem head?_drop_ne {char : Char} (notDigit : char.isDigit = false)
    (other : char ∉ ['\n', ',', ']']) (count : Nat) :
    (run.drop count ++ rest).head? ≠ some char := by
  intro first
  cases left : run.drop count with
  | nil =>
      rw [left, List.nil_append] at first
      exact ended.head_ne other first
  | cons digit more =>
      rw [left, List.cons_append, List.head?_cons, Option.some.injEq] at first
      have member : digit ∈ run := List.mem_of_mem_drop (left ▸ List.mem_cons_self)
      rw [first] at member
      exact absurd (inside char member) (by simp [notDigit])

theorem refuses_moment : Refuses moment (run ++ rest) := by
  have ends : rest.head?.all (!Char.isDigit ·) = true := ended.all_not (by decide)
  unfold moment
  refine Refuses.orElse_refuses (Refuses.bind ?_) ?_
  · refine refuses_digits_bind ends fun value => Refuses.bind (refuses_char ?_)
    exact head?_drop_ne inside ended (by decide) (by decide) 4
  · refine refuses_digits_bind ends fun value => refuses_require_bind fun _ => ?_
    refine Refuses.bind (refuses_char ?_)
    exact head?_drop_ne inside ended (by decide) (by decide) 2

end Decimal

/-! ## Digits -/

theorem takes_groupedDigits {class' : Char → Bool} (inside : ∀ char ∈ run, class' char = true)
    (nonempty : run ≠ []) (ends : rest.head?.all (!class' ·) = true)
    (noGroup : rest.head? ≠ some '_') :
    ∀ steps, run.length ≤ steps → Takes (groupedDigits class' steps) run rest run := by
  induction run with
  | nil => exact absurd rfl nonempty
  | cons digit run inductionHypothesis =>
      intro steps enough
      obtain ⟨steps, rfl, fewer⟩ := exists_step (Nat.lt_of_lt_of_le (Nat.lt_succ_self _) enough)
      have here := inside digit List.mem_cons_self
      refine Takes.bind_cons (takes_one here _) (takes_rest_bind ?_)
      cases run with
      | nil =>
          cases rest with
          | nil => exact takes_pure [digit] []
          | cons mark rest =>
              have out : class' mark = false := by simpa using ends
              have other : mark ≠ '_' := by simpa using noGroup
              simp only [List.nil_append, out, other]
              exact takes_pure [digit] _
      | cons next run =>
          have later := inductionHypothesis
            (fun char member => inside char (List.mem_cons_of_mem _ member))
            (List.cons_ne_nil next run) steps fewer
          have nextInside := inside next (by simp)
          simp only [List.cons_append, nextInside, if_true]
          exact Takes.bind_done later (takes_pure _ rest)

theorem takes_allDigits {class' : Char → Bool} (inside : ∀ char ∈ run, class' char = true)
    (nonempty : run ≠ []) (ends : rest.head?.all (!class' ·) = true)
    (noGroup : rest.head? ≠ some '_') : Takes (allDigits class') run rest run :=
  takes_rest_bind (takes_groupedDigits inside nonempty ends noGroup _ (by simp))

variable {number : Nat}

/-! ## Decimals -/

section Whole

variable (decimal : DecimalOf run number) (ended : Ended rest)

include decimal ended

theorem takes_sign : Takes sign [] (run ++ rest) false := by
  have apart : ∀ char : Char, char.isDigit = false → char ∉ ['\n', ',', ']'] →
      (run ++ rest).head? ≠ some char :=
    fun char notDigit other => head?_drop_ne decimal.isDigit ended notDigit other 0
  refine Takes.bind_look (takes_tryTake_head (apart '-' (by decide) (by decide))) ?_
  exact Takes.bind_look (takes_tryTake_head (apart '+' (by decide) (by decide)))
    (takes_pure false _)

theorem takes_wholeDigits : Takes wholeDigits run rest run := by
  by_cases nought : run.head? = some '0'
  · rw [decimal.leading nought]
    exact Takes.bind_done (takes_tryTake ['0'] rest) (takes_pure ['0'] rest)
  · obtain ⟨first, more, rfl⟩ := List.exists_cons_of_ne_nil decimal.nonempty
    have other : (first :: more ++ rest).head? ≠ some '0' := by simpa using nought
    refine Takes.bind_look (takes_tryTake_head other) ?_
    exact takes_allDigits decimal.isDigit decimal.nonempty (ended.all_not (by decide))
      (ended.head_ne (by decide))

theorem refuses_real : Refuses real (run ++ rest) := by
  have apart : ∀ char : Char, char.isDigit = false → char ∉ ['\n', ',', ']'] →
      (run ++ rest).head? ≠ some char :=
    fun char notDigit other => head?_drop_ne decimal.isDigit ended notDigit other 0
  refine Takes.bind_look_refuses (takes_sign decimal ended) (Refuses.orElse_refuses ?_ ?_)
  · refine Takes.bind_refuses (takes_wholeDigits decimal ended) ?_
    refine Takes.bind_look_refuses (takes_tryTake_head (ended.head_ne (by decide))) ?_
    exact Refuses.bind (Refuses.bind (refuses_one (ended.all_not (by decide))))
  · refine Takes.bind_look_refuses
      (takes_tryTake_head (apart 'i' (by decide) (by decide))) ?_
    refine Takes.bind_look_refuses
      (takes_tryTake_head (apart 'n' (by decide) (by decide))) ?_
    exact refuses_failure _

theorem takes_integer (fits : number < Nat.pow 2 63) : Takes integer run rest number := by
  obtain ⟨first, more, rfl⟩ := List.exists_cons_of_ne_nil decimal.nonempty
  -- After a nought stands no letter that would name a base.
  have noBase : ∀ mark : Char, mark ∉ ['\n', ',', ']'] →
      ¬ ['0', mark] <+: first :: more ++ rest := by
    rintro mark other ⟨tail, stands⟩
    rw [List.cons_append, List.cons_append, List.cons_append, List.cons.injEq] at stands
    obtain ⟨rfl, stands⟩ := stands
    cases decimal.leading rfl
    simp only [List.nil_append] at stands
    exact ended.head_ne other (by rw [← stands, List.head?_cons])
  have inRange : (-(Nat.pow 2 63 : Int) ≤ number && (number : Int) < Nat.pow 2 63) = true := by
    simp only [Bool.and_eq_true, decide_eq_true_eq]
    omega
  refine Takes.bind_look (takes_tryTake_not (noBase 'x' (by decide))) ?_
  refine Takes.bind_look (takes_tryTake_not (noBase 'o' (by decide))) ?_
  refine Takes.bind_look (takes_tryTake_not (noBase 'b' (by decide))) ?_
  refine Takes.bind_look (takes_sign decimal ended) ?_
  refine Takes.bind_done (takes_wholeDigits decimal ended) ?_
  rw [decimal.value]
  exact Takes.bind_look (takes_require inRange _) (takes_pure _ rest)

/-- A decimal is read as its number. -/
theorem reads_numberItem (fits : number < Nat.pow 2 63) :
    Reads numberItem run rest fun item => ∃ span, item = .integer span number := by
  unfold numberItem
  refine Refuses.orElse (Refuses.bind (refuses_moment decimal.isDigit ended).withSpan) ?_
  refine Refuses.orElse (Refuses.bind (refuses_real decimal ended).withSpan) ?_
  have read : Reads integer run rest (· = (number : Int)) :=
    (takes_integer decimal ended fits).reads rfl
  refine Reads.bind_done read.withSpan ?_
  rintro ⟨value, span⟩ rfl
  exact (takes_pure _ rest).reads ⟨span, rfl⟩

end Whole

end Reader

/-! ## Numbers that are written -/

theorem decimalOf_toDigits (number : Nat) : DecimalOf (Nat.toDigits 10 number) number where
  isDigit := Numeral.isDigit_toDigits
  nonempty := Nat.toDigits_ne_nil
  value := by
    have values : ∀ digits start, digits.foldl
        (fun value digit => value * 10 + (digit.toNat - '0'.toNat)) start =
          Nat.ofDigitChars 10 digits start := by
      intro digits start
      unfold Nat.ofDigitChars
      simp only [Nat.mul_comm]
    exact (values _ 0).trans Nat.ofDigitChars_ten_toDigits
  leading := by
    intro nought
    cases Numeral.head?_toDigits number nought
    rfl

end FaultDrill.Toml
