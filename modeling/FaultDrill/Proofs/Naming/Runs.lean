import Mathlib.Algebra.GroupWithZero.Nat
import Mathlib.Data.List.SplitBy
import FaultDrill.Proofs.Naming

/-!
Names as texts in which runs of characters have been replaced.

Owns:
- the runs of a text: its longest stretches of characters that may all stand in a name, or that may
  all not;
- the names of texts that are put one after the other.

Main statement: a name is made of the runs of its text, with one underscore for each that may not
stand in a name; all laws of names follow from that, or from what a name is of two texts in a row
(`sanitize_replaces_runs`).
-/

namespace FaultDrill.Naming

variable {inRun : Bool} {chars front back run other : List Char}

/-! ## Texts one after the other -/

/-- Whether characters leave a run that has begun and may go on; `inRun` says that one had begun
before them. -/
def endsInRun (inRun : Bool) (chars : List Char) : Bool :=
  match chars.getLast? with
  | some char => !isNameChar char
  | none => inRun

theorem endsInRun_cons (inRun : Bool) (char : Char) (rest : List Char) :
    endsInRun inRun (char :: rest) = endsInRun (!isNameChar char) rest := by
  unfold endsInRun
  rw [List.getLast?_cons]
  cases rest.getLast? with
  | none => rfl
  | some last => rfl

theorem sanitizeChars_append (inRun : Bool) (front back : List Char) :
    sanitizeChars inRun (front ++ back) =
      sanitizeChars inRun front ++ sanitizeChars (endsInRun inRun front) back := by
  induction front generalizing inRun with
  | nil => rfl
  | cons char rest inductionHypothesis =>
      rw [endsInRun_cons, List.cons_append, sanitizeChars, sanitizeChars]
      by_cases allowed : isNameChar char = true
      · rw [if_pos allowed, if_pos allowed, inductionHypothesis, allowed]
        rfl
      · rw [if_neg allowed, if_neg allowed, inductionHypothesis, Bool.eq_false_iff.mpr allowed]
        cases inRun with
        | true => rfl
        | false => rfl

/-- Whether a run had begun does not matter to characters that do not go on with it. -/
theorem sanitizeChars_true (apart : ∀ char ∈ chars.head?, isNameChar char = true) :
    sanitizeChars true chars = sanitizeChars false chars := by
  cases chars with
  | nil => rfl
  | cons char rest =>
      have allowed : isNameChar char = true := apart char rfl
      rw [sanitizeChars, sanitizeChars, if_pos allowed, if_pos allowed]

/-- Names are put one after the other where the texts do not meet in the midst of a run. -/
theorem sanitizeChars_append_of_apart
    (apart : (∀ char ∈ front.getLast?, isNameChar char = true) ∨
      (∀ char ∈ back.head?, isNameChar char = true)) :
    sanitizeChars false (front ++ back) =
      sanitizeChars false front ++ sanitizeChars false back := by
  rw [sanitizeChars_append]
  congr 1
  cases ends : endsInRun false front with
  | false => rfl
  | true =>
      rcases apart with allowed | allowed
      · unfold endsInRun at ends
        cases last : front.getLast? with
        | none =>
            rw [last] at ends
            cases ends
        | some char =>
            rw [last] at ends
            dsimp only at ends
            rw [allowed char last] at ends
            cases ends
      · exact sanitizeChars_true allowed

/-! ## Runs -/

/-- Characters of which none may stand in a name. -/
def Foreign (chars : List Char) : Prop := ∀ char ∈ chars, isNameChar char = false

instance (chars : List Char) : Decidable (Foreign chars) := List.decidableBAll _ chars

theorem sanitizeChars_true_of_foreign (foreign : Foreign chars) :
    sanitizeChars true chars = [] := by
  induction chars with
  | nil => rfl
  | cons char rest inductionHypothesis =>
      have first := foreign char List.mem_cons_self
      have later : Foreign rest := fun other member => foreign other (List.mem_cons_of_mem _ member)
      rw [sanitizeChars, first]
      exact inductionHypothesis later

/-- A run stands for one underscore. -/
theorem sanitizeChars_of_foreign (foreign : Foreign chars) (nonempty : chars ≠ []) :
    sanitizeChars false chars = ['_'] := by
  obtain ⟨char, rest, rfl⟩ := List.exists_cons_of_ne_nil nonempty
  have first := foreign char List.mem_cons_self
  have later : Foreign rest := fun other member => foreign other (List.mem_cons_of_mem _ member)
  rw [sanitizeChars, first]
  exact congrArg ('_' :: ·) (sanitizeChars_true_of_foreign later)

theorem endsInRun_of_foreign (foreign : Foreign chars) (nonempty : chars ≠ []) :
    endsInRun inRun chars = true := by
  unfold endsInRun
  rw [List.getLast?_eq_some_getLast nonempty]
  dsimp only
  rw [foreign _ (List.getLast_mem nonempty)]
  rfl

/-- One run is as good as another, wherever it stands. -/
theorem sanitizeChars_of_other_run (foreign : Foreign run) (nonempty : run ≠ [])
    (otherForeign : Foreign other) (otherNonempty : other ≠ []) :
    sanitizeChars false (front ++ run ++ back) = sanitizeChars false (front ++ other ++ back) := by
  have same : sanitizeChars (endsInRun false front) run =
      sanitizeChars (endsInRun false front) other := by
    cases endsInRun false front with
    | true =>
        rw [sanitizeChars_true_of_foreign foreign, sanitizeChars_true_of_foreign otherForeign]
    | false =>
        rw [sanitizeChars_of_foreign foreign nonempty,
          sanitizeChars_of_foreign otherForeign otherNonempty]
  simp only [List.append_assoc, sanitizeChars_append, same,
    endsInRun_of_foreign foreign nonempty, endsInRun_of_foreign otherForeign otherNonempty]

/-- Whether two characters may both stand in a name, or may both not. -/
def sameKind (first second : Char) : Bool := isNameChar first == isNameChar second

/-- The longest stretches of characters of the same kind, one after the other. -/
def runs (chars : List Char) : List (List Char) := chars.splitBy sameKind

/-- What stands for a run: it stays if it may stand in a name. -/
def standIn (run : List Char) : List Char := if run.all isNameChar then run else ['_']

/-- All characters of a run are of one kind. -/
theorem allowed_or_foreign (uniform : run.IsChain fun first second => sameKind first second) :
    (∀ char ∈ run, isNameChar char = true) ∨ Foreign run := by
  cases run with
  | nil => exact Or.inl fun _ member => by cases member
  | cons first rest =>
      have alike : ∀ char ∈ first :: rest, isNameChar char = isNameChar first := by
        induction rest generalizing first with
        | nil => simp
        | cons second rest inductionHypothesis =>
            rw [List.isChain_cons_cons] at uniform
            have next : isNameChar first = isNameChar second := by
              simpa [sameKind] using uniform.1
            have later := inductionHypothesis second uniform.2
            intro char member
            rcases List.mem_cons.mp member with rfl | inRest
            · rfl
            · rw [later char inRest, next]
      cases kind : isNameChar first with
      | true => exact Or.inl fun char member => by rw [alike char member, kind]
      | false => exact Or.inr fun char member => by rw [alike char member, kind]

/-- Runs that are each of one kind, and of another kind than the next, are replaced one by one. -/
theorem sanitizeChars_flatten {groups : List (List Char)} (nonempty : [] ∉ groups)
    (uniform : ∀ run ∈ groups, run.IsChain fun first second => sameKind first second)
    (apart : groups.IsChain fun run next =>
      ∃ ends starts, sameKind (run.getLast ends) (next.head starts) = false) :
    sanitizeChars false groups.flatten = groups.flatMap standIn := by
  induction groups with
  | nil => rfl
  | cons run groups inductionHypothesis =>
      rw [List.mem_cons, not_or] at nonempty
      have later := inductionHypothesis nonempty.2
        (fun run member => uniform run (List.mem_cons_of_mem _ member)) apart.tail
      have some : run ≠ [] := fun none => nonempty.1 none.symm
      have separate : sanitizeChars false (run ++ groups.flatten) =
          sanitizeChars false run ++ sanitizeChars false groups.flatten := by
        apply sanitizeChars_append_of_apart
        cases groups with
        | nil => exact Or.inr fun _ member => by cases member
        | cons next groups =>
            obtain ⟨⟨ends, starts, differ⟩, -⟩ := List.isChain_cons_cons.mp apart
            -- Of two characters of different kinds one may stand in a name.
            rw [List.flatten_cons, List.head?_append_of_ne_nil _ starts,
              List.head?_eq_some_head starts, List.getLast?_eq_some_getLast ends]
            cases kind : isNameChar (run.getLast ends) with
            | true => exact Or.inl fun char here => by cases here; exact kind
            | false =>
                right
                intro char here
                cases here
                simpa [sameKind, kind] using differ
      rw [List.flatten_cons, separate, later, List.flatMap_cons]
      congr 1
      unfold standIn
      rcases allowed_or_foreign (uniform run List.mem_cons_self) with allowed | foreign
      · rw [sanitizeChars_of_all allowed, if_pos (List.all_eq_true.mpr allowed)]
      · rw [sanitizeChars_of_foreign foreign some, if_neg]
        intro allowed
        have last := List.all_eq_true.mp allowed _ (List.getLast_mem some)
        rw [foreign _ (List.getLast_mem some)] at last
        cases last

theorem sanitizeChars_eq_runs (chars : List Char) :
    sanitizeChars false chars = (runs chars).flatMap standIn := by
  have split := sanitizeChars_flatten (List.nil_notMem_splitBy sameKind chars)
    (fun run member => List.isChain_of_mem_splitBy member)
    (List.isChain_getLast_head_splitBy sameKind chars)
  rw [List.flatten_splitBy] at split
  exact split

/-! ## What follows for names -/

/-- No measure of characters by which an underscore is least grows. -/
theorem sum_sanitizeChars_le (size : Char → Nat) (least : ∀ char, size '_' ≤ size char)
    (inRun : Bool) (chars : List Char) :
    ((sanitizeChars inRun chars).map size).sum ≤ (chars.map size).sum := by
  induction chars generalizing inRun with
  | nil => exact Nat.le_refl 0
  | cons char rest inductionHypothesis =>
      have afterKept := inductionHypothesis false
      have afterRun := inductionHypothesis true
      have underscore := least char
      unfold sanitizeChars
      split
      · simp only [List.map_cons, List.sum_cons]
        omega
      · split
        · simp only [List.map_cons, List.sum_cons]
          omega
        · simp only [List.map_cons, List.sum_cons]
          omega

theorem sanitizeChars_eq_nil_iff : sanitizeChars false chars = [] ↔ chars = [] := by
  constructor
  · intro none
    cases chars with
    | nil => rfl
    | cons char rest =>
        unfold sanitizeChars at none
        split at none
        · cases none
        · cases none
  · rintro rfl
    rfl

theorem sanitizeChars_eq_self_iff :
    sanitizeChars false chars = chars ↔ ∀ char ∈ chars, isNameChar char = true := by
  constructor
  · intro same char member
    rw [← same] at member
    exact isNameChar_of_mem_sanitizeChars false chars member
  · exact sanitizeChars_of_all

theorem utf8ByteSize_eq_sum (text : String) :
    text.utf8ByteSize = (text.toList.map Char.utf8Size).sum := by
  have ofChars : ∀ chars : List Char,
      (String.ofList chars).utf8ByteSize = (chars.map Char.utf8Size).sum := by
    intro chars
    induction chars with
    | nil => rfl
    | cons char rest inductionHypothesis =>
        rw [String.ofList_cons, String.utf8ByteSize_append, String.utf8ByteSize_singleton,
          inductionHypothesis, List.map_cons, List.sum_cons]
  rw [← ofChars, String.ofList_toList]

/-- A name is its text with one underscore in the place of each longest run of characters that may
not stand in a name.

So it is made of allowed characters only, is empty only for the empty text, is no longer than the
text, in characters as in bytes, and is the text itself if the characters of that are all allowed,
as those of a name are. Texts that do not meet in the midst of a run have the names of both as
their name, and no run matters for more than that it is there. -/
theorem sanitize_replaces_runs (text : String) :
    (sanitize text).toList = (runs text.toList).flatMap standIn ∧
    (∀ char ∈ (sanitize text).toList, isNameChar char = true) ∧
    (sanitize text = "" ↔ text = "") ∧
    (sanitize text).length ≤ text.length ∧
    (sanitize text).utf8ByteSize ≤ text.utf8ByteSize ∧
    (sanitize text = text ↔ ∀ char ∈ text.toList, isNameChar char = true) ∧
    sanitize (sanitize text) = sanitize text ∧
    (∀ more : String,
      (∀ char ∈ text.toList.getLast?, isNameChar char = true) ∨
          (∀ char ∈ more.toList.head?, isNameChar char = true) →
        sanitize (text ++ more) = sanitize text ++ sanitize more) ∧
    (∀ front run other back : String,
      text = front ++ run ++ back → run ≠ "" → Foreign run.toList →
        other ≠ "" → Foreign other.toList →
          sanitize text = sanitize (front ++ other ++ back)) := by
  have chars : ∀ text : String, (sanitize text).toList = sanitizeChars false text.toList := by
    intro text
    unfold sanitize
    rw [String.toList_ofList]
  have sizes := fun size least => sum_sanitizeChars_le size least false text.toList
  have keeps : ∀ text : String,
      sanitize text = text ↔ ∀ char ∈ text.toList, isNameChar char = true := by
    intro text
    rw [← String.toList_inj, chars, sanitizeChars_eq_self_iff]
  refine ⟨?_, fun char => isNameChar_of_mem_sanitize text, ?_, ?_, ?_, keeps text, ?_, ?_, ?_⟩
  · rw [chars, sanitizeChars_eq_runs]
  · rw [← String.toList_inj, ← String.toList_inj, chars]
    exact sanitizeChars_eq_nil_iff
  · have counted := sizes (fun _ => 1) (fun _ => Nat.le_refl 1)
    rw [List.map_const', List.map_const', List.sum_replicate_nat, List.sum_replicate_nat,
      Nat.mul_one, Nat.mul_one] at counted
    rw [← String.length_toList, chars, ← String.length_toList]
    exact counted
  · rw [utf8ByteSize_eq_sum, utf8ByteSize_eq_sum, chars]
    exact sizes Char.utf8Size fun char => char.utf8Size_pos
  · exact (keeps (sanitize text)).mpr fun char => isNameChar_of_mem_sanitize text
  · intro more apart
    rw [← String.toList_inj, String.toList_append, chars, chars, chars, String.toList_append]
    exact sanitizeChars_append_of_apart apart
  · intro front run other back parts nonempty foreign otherNonempty otherForeign
    subst parts
    have some : ∀ part : String, part ≠ "" → part.toList ≠ [] := fun part nonempty none =>
      nonempty (String.toList_injective none)
    rw [← String.toList_inj, chars, chars]
    simp only [String.toList_append]
    exact sanitizeChars_of_other_run foreign (some run nonempty) otherForeign
      (some other otherNonempty)

/-- A text that ends in a run, another that does not begin with one, and the run in the first in
place of another. -/
theorem sanitize_replaces_runs_of_blanks :
    sanitize ("日本 _a ::" ++ "b") = sanitize "日本 _a ::" ++ sanitize "b" ∧
    sanitize "日本 _a ::" = sanitize ("日本 _a" ++ "-" ++ "") := by
  obtain ⟨-, -, -, -, -, -, -, append, replace⟩ := sanitize_replaces_runs "日本 _a ::"
  have begins : ∀ char ∈ "b".toList.head?, isNameChar char = true := by
    rintro char ⟨⟩
    decide
  exact ⟨append "b" (Or.inr begins),
    replace "日本 _a" " ::" "-" "" rfl (by decide) (by decide) (by decide) (by decide)⟩

example : sanitize "a  -/ b" = "a_b" := by decide

end FaultDrill.Naming
