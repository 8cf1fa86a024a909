import FaultDrill.Proofs.Yaml.Node
import FaultDrill.Yaml.Scalar

/-!
Values of YAML documents, of any kind.

Owns:
- values, and the value of a tree (`Node.value?`) and of a text (`Value.ofText?`);
- texts that mean themselves without quotes (`MeansItself`);
- tokens of trees that hold a given value, on some condition (`HoldsValue`).

Whole numbers beyond 64 bits are no values, the keys of a mapping are different scalars, and no
aliases are followed.

Main statement: a text is no number, truth value or word for nothing if its first character begins
none of these (`meaning_of_first`).
-/

namespace FaultDrill.Yaml

/-- What a document holds. -/
inductive Value where
  | scalar (found : FoundValue)
  | sequence (items : List Value)
  | mapping (entries : List (FoundValue × Value))
  deriving Repr

/-- The value of a scalar. -/
def Scalar.value? (tag : Option Tag) (style : ScalarStyle) (text : List Char) :
    Option FoundValue :=
  match Scalar.found tag style text with
  | .ok (.wideInteger _) => none
  | .ok found => some found
  | .error _ => none

namespace Node

/-- The value of a node that is a key. -/
def keyValue? : Node → Option FoundValue
  | .scalar _ _ tag style text => Scalar.value? tag style text
  | _ => none

mutual

/-- The value of a tree. -/
def value? : Node → Option Value
  | .alias .. => none
  | .scalar _ _ tag style text => (Scalar.value? tag style text).map .scalar
  | .sequence _ _ items => (itemValues? items).map .sequence
  | .mapping _ _ entries =>
    (entryValues? entries).bind fun entries =>
      if (entries.map Prod.fst).Nodup then some (.mapping entries) else none

@[inherit_doc value?]
def itemValues? : List Node → Option (List Value)
  | [] => some []
  | item :: items =>
    (value? item).bind fun value => (itemValues? items).map (value :: ·)

@[inherit_doc value?]
def entryValues? : List (Node × Node) → Option (List (FoundValue × Value))
  | [] => some []
  | (key, node) :: entries =>
    (keyValue? key).bind fun name => (value? node).bind fun value =>
      (entryValues? entries).map ((name, value) :: ·)

end

end Node

/-- The value that a text holds, nothing for a text without a document. -/
def Value.ofText? (text : List Char) : Option Value :=
  match Node.ofText? text with
  | none => none
  | some none => some (.scalar .nothing)
  | some (some node) => node.value?

theorem Value.ofText?_of_scan {text : List Char} {tokens : List Token}
    (scanned : Token.scan text = some tokens) :
    ofText? text =
      match Parsing.document { tokens } with
      | none => none
      | some (none, _) => some (.scalar .nothing)
      | some (some tree, _) => tree.value? := by
  unfold ofText? Node.ofText?
  rw [scanned, Option.bind_eq_bind, Option.bind_some]
  rcases Parsing.document { tokens } with _ | ⟨_ | _, _⟩ <;> rfl

theorem Value.ofText?_of_refused {text : List Char} (refused : Token.scan text = none) :
    ofText? text = none := by
  unfold ofText? Node.ofText?
  rw [refused]
  rfl

/-! ## Texts without quotes -/

/-- A text that needs no quotes is no number, truth value or word for nothing. -/
def MeansItself (text : String) : Prop := Scalar.meaning text.toList = .text text

instance (text : String) : Decidable (MeansItself text) :=
  inferInstanceAs (Decidable (_ = _))

theorem Scalar.value?_plain_iff (text : String) :
    value? none .plain text.toList = some (.text text) ↔ MeansItself text := by
  have found : Scalar.found none .plain text.toList = .ok (meaning text.toList) := rfl
  unfold value? MeansItself
  rw [found]
  cases meaning text.toList <;> simp

theorem Scalar.value?_quoted (text : List Char) :
    value? none .other text = some (.text (String.ofList text)) :=
  rfl

/-- Whether a character begins a number, a truth value or a word for nothing, the point aside. -/
def beginsOther (char : Char) : Bool :=
  char.isDigit || ['+', '-', '~', 'n', 'N', 't', 'T', 'f', 'F'].contains char

section Meaning

variable {first second : Char} {rest : List Char}

theorem ne_of_beginsOther {other : Char} (ordinary : beginsOther first = false)
    (begins : beginsOther other = true) : first ≠ other := by
  rintro rfl
  rw [ordinary] at begins
  cases begins

theorem ofList_ne_of_first (ordinary : beginsOther first = false) :
    ∀ word ∈ ["", "~", "null", "Null", "NULL", "true", "True", "TRUE", "false", "False", "FALSE"],
      (String.ofList (first :: rest) == word) = false := by
  have begins : ∀ word ∈ ["", "~", "null", "Null", "NULL", "true", "True", "TRUE", "false",
      "False", "FALSE"], word.toList.head?.all beginsOther = true := by decide
  intro word member
  rw [beq_eq_false_iff_ne]
  rintro rfl
  have first := begins _ member
  rw [String.toList_ofList, List.head?_cons, Option.all_some, ordinary] at first
  cases first

theorem ofList_ne_of_point (noPoint : first = '.' → second = '/') :
    ∀ word ∈ [".nan", ".NaN", ".NAN", ".inf", ".Inf", ".INF"],
      (String.ofList (first :: second :: rest) == word) = false := by
  have begins : ∀ word ∈ [".nan", ".NaN", ".NAN", ".inf", ".Inf", ".INF"],
      word.toList.head? = some '.' ∧ word.toList[1]? ≠ some '/' := by decide
  intro word member
  rw [beq_eq_false_iff_ne]
  rintro rfl
  obtain ⟨isPoint, notSlash⟩ := begins _ member
  rw [String.toList_ofList] at isPoint notSlash
  exact notSlash (congrArg some (noPoint (Option.some.inj isPoint)))

theorem notDigit_of_beginsOther (ordinary : beginsOther first = false) :
    first.isDigit = false := by
  unfold beginsOther at ordinary
  rw [Bool.or_eq_false_iff] at ordinary
  exact ordinary.1

theorem digit?_of_notDigit (notDigit : first.isDigit = false) :
    ∀ digit ∈ Numeral.digit? first, 10 ≤ digit := by
  intro digit member
  unfold Numeral.digit? at member
  split at member
  · next isDigit =>
      have isDigit' : first.isDigit = true := by
        unfold Char.isDigit
        rw [Bool.and_eq_true, decide_eq_true_iff, decide_eq_true_iff]
        exact isDigit
      rw [notDigit] at isDigit'
      cases isDigit'
  · split at member
    · rw [← Option.mem_some_iff.mp member]
      exact Nat.le_add_left 10 _
    · split at member
      · rw [← Option.mem_some_iff.mp member]
        exact Nat.le_add_left 10 _
      · cases member

theorem whole?_of_notDigit (notDigit : first.isDigit = false) :
    Numeral.whole? 10 (first :: rest) = none := by
  have large := digit?_of_notDigit notDigit
  unfold Numeral.whole? Numeral.wholeFrom?
  rw [if_neg (by simp)]
  split
  · next digit found =>
      exact if_neg (Nat.not_lt.mpr (large digit found))
  · rfl

theorem decimal?_of_notDigit (notDigit : first.isDigit = false)
    (noPoint : first = '.' → second.isDigit = false) :
    Numeral.decimal? (first :: second :: rest) = none := by
  unfold Numeral.decimal?
  by_cases point : first = '.'
  · subst point
    simp [notDigit, noPoint rfl]
  · simp [notDigit, point]

/-- A text means itself if its first character, and the one after a point, begin nothing else. -/
theorem meaning_of_first (ordinary : beginsOther first = false)
    (noPoint : first = '.' → second = '/') :
    Scalar.meaning (first :: second :: rest) =
      .text (String.ofList (first :: second :: rest)) := by
  have notDigit := notDigit_of_beginsOther ordinary
  have apart : ∀ {other : Char}, beginsOther other = true → first ≠ other :=
    ne_of_beginsOther ordinary
  have noPlus : first ≠ '+' := apart rfl
  have noMinus : first ≠ '-' := apart rfl
  have noNought : first ≠ '0' := apart rfl
  have noSurplus : Scalar.hasSurplusNought (first :: second :: rest) = false := by
    unfold Scalar.hasSurplusNought
    split
    · next same => exact absurd (List.cons.inj same).1 noPlus
    · next same => exact absurd (List.cons.inj same).1 noMinus
    · simp [noNought]
  have integer : Scalar.integer? (first :: second :: rest) = none := by
    have magnitude : Scalar.magnitude? (first :: second :: rest) = none := by
      unfold Scalar.magnitude?
      split
      · next same => exact absurd (List.cons.inj same).1 noNought
      · next same => exact absurd (List.cons.inj same).1 noNought
      · next same => exact absurd (List.cons.inj same).1 noNought
      · rw [noSurplus, whole?_of_notDigit notDigit]
        rfl
    unfold Scalar.integer?
    split
    · next same => exact absurd (List.cons.inj same).1 noPlus
    · next same => exact absurd (List.cons.inj same).1 noMinus
    · rw [magnitude]
      rfl
  have decimal : Numeral.decimal? (first :: second :: rest) = none := by
    refine decimal?_of_notDigit notDigit fun point => ?_
    rw [noPoint point]
    rfl
  have real : Scalar.real? (first :: second :: rest) = none := by
    have points := @ofList_ne_of_point _ _ rest noPoint
    simp only [List.forall_mem_cons] at points
    unfold Scalar.real?
    dsimp only
    simp only [points, Bool.or_false, Bool.false_eq_true, if_false]
    split
    · next same => exact absurd (List.cons.inj same).1 noPlus
    · next same => exact absurd (List.cons.inj same).1 noMinus
    · unfold Scalar.isInfinity Scalar.finite?
      simp only [points, Bool.or_false, Bool.false_eq_true, if_false, decimal]
  have words := @ofList_ne_of_first _ (second :: rest) ordinary
  simp only [List.forall_mem_cons] at words
  unfold Scalar.meaning Scalar.isNothing Scalar.boolean?
  dsimp only
  simp only [words, Bool.or_false, Bool.false_eq_true, if_false, integer, Option.bind_none,
    noSurplus, real]

end Meaning

/-! ## Trees -/

section Trees

open Parsing

/-- A tree holds a value on some condition. -/
def HoldsValue (value : Value) (condition : Prop) (tree : Node) : Prop :=
  tree.value? = some value ↔ condition

/-- Entries hold values under their names on some condition. -/
def HoldEntries (found : List (FoundValue × Value)) (condition : Prop)
    (entries : List (Node × Node)) : Prop :=
  Node.entryValues? entries = some found ↔ condition

variable {lexemes more : List Lexeme} {value : Value} {condition condition' : Prop}

theorem denotes_scalar_value (missing : List Lexeme) (dashes : Bool) (style : ScalarStyle)
    (text : List Char) (present : .scalar style text ∉ missing) (found : FoundValue) :
    Denotes missing dashes [.scalar style text]
      (HoldsValue (.scalar found) (Scalar.value? none style text = some found)) := by
  refine (denotes_scalar missing dashes style text present).mono ?_
  rintro _ ⟨mark, rfl⟩
  simp [HoldsValue, Node.value?]

theorem Parsing.Denotes.singleton_value
    (item : Denotes [.dash, .blockEnd] false lexemes (HoldsValue value condition))
    (missing : List Lexeme) (dashes : Bool) (present : .blockSequence ∉ missing) :
    Denotes missing dashes (.blockSequence :: .dash :: lexemes ++ [.blockEnd])
      (HoldsValue (.sequence [value]) condition) := by
  refine (item.singleton missing dashes present).mono ?_
  rintro _ ⟨mark, tree, rfl, holds⟩
  unfold HoldsValue at holds ⊢
  rw [← holds]
  simp [Node.value?, Node.itemValues?, Option.bind_eq_some_iff]

theorem denotes_emptyMap_value (missing : List Lexeme) (dashes : Bool)
    (present : .mapOpen ∉ missing) :
    Denotes missing dashes [.mapOpen, .mapClose] (HoldsValue (.mapping []) True) := by
  refine (denotes_emptyMap missing dashes present).mono ?_
  rintro _ ⟨mark, rfl⟩
  simp [HoldsValue, Node.value?, Node.entryValues?]

theorem denotesEntries_nil_value : DenotesEntries [.blockEnd] (HoldEntries [] True) := by
  refine denotesEntries_nil.mono ?_
  rintro _ rfl
  simp [HoldEntries, Node.entryValues?]

theorem denotesEntries_missing_value (name : String) :
    DenotesEntries [.key, .scalar .plain name.toList, .value, .blockEnd]
      (HoldEntries [(.text name, .scalar .nothing)] (MeansItself name)) := by
  refine (denotesEntries_missing name.toList).mono ?_
  rintro _ ⟨mark, markValue, rfl⟩
  have nothing : Scalar.value? none .plain [] = some .nothing := rfl
  simp [HoldEntries, Node.entryValues?, Node.keyValue?, Node.value?, Node.missing, nothing,
    ← Scalar.value?_plain_iff, Option.bind_eq_some_iff]

theorem Parsing.Denotes.cons_value
    (denotes : Denotes [.key, .value, .blockEnd] true lexemes (HoldsValue value condition))
    (name : String) {others : List (FoundValue × Value)}
    (later : DenotesEntries more (HoldEntries others condition')) :
    DenotesEntries ([.key, .scalar .plain name.toList, .value] ++ lexemes ++ more)
      (HoldEntries ((.text name, value) :: others)
        (MeansItself name ∧ condition ∧ condition')) := by
  refine (DenotesEntries.cons name.toList denotes later).mono ?_
  rintro _ ⟨mark, tree, rest, rfl, holds, holdOthers⟩
  unfold HoldEntries at holdOthers ⊢
  unfold HoldsValue at holds
  rw [← Scalar.value?_plain_iff, ← holds, ← holdOthers]
  simp only [Node.entryValues?, Node.keyValue?, Option.bind_eq_some_iff, Option.map_eq_some_iff,
    List.cons.injEq, Prod.mk.injEq]
  grind

/-- The names in a mapping differ. -/
theorem Parsing.DenotesEntries.denotes_value {found : List (FoundValue × Value)}
    (entries : DenotesEntries lexemes (HoldEntries found condition)) (missing : List Lexeme)
    (dashes : Bool) (present : .blockMapping ∉ missing) :
    Denotes missing dashes (.blockMapping :: lexemes)
      (HoldsValue (.mapping found) ((found.map Prod.fst).Nodup ∧ condition)) := by
  refine (entries.denotes missing dashes present).mono ?_
  rintro _ ⟨mark, nodes, rfl, hold⟩
  unfold HoldEntries at hold
  unfold HoldsValue
  rw [← hold]
  simp only [Node.value?, Option.bind_eq_some_iff, Option.ite_none_right_eq_some,
    Option.some.injEq, Value.mapping.injEq]
  grind

end Trees

end FaultDrill.Yaml
