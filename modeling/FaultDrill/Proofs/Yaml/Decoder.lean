import Mathlib.Data.List.Forall2
import FaultDrill.Proofs.Document
import FaultDrill.Proofs.Numeral.Digits
import FaultDrill.Yaml.Decoder

/-!
What readers of YAML read from trees.

Owns: the values of scalars without tags, of lists, and of the mappings that records are written as.

Main statements: a list holds what its items hold (`holds_list`), and a mapping whose entries set
different fields holds a record (`holds_record`).
-/

namespace FaultDrill.Yaml

/-- A reader reads a value from a node, wherever the node stands. -/
def Holds {Value : Type} (reader : Reader Value) (value : Value) (node : Node) : Prop :=
  ∀ path anchored limit count, reader ⟨node, path, anchored, limit⟩ count = .ok (value, count)

namespace Reader

variable {Value Other : Type}

theorem run_bind {reader : Reader Value} {next : Value → Reader Other} {place : Place}
    {count count' : Nat} {value : Value} (ran : reader place count = .ok (value, count')) :
    (reader >>= next) place count = next value place count' := by
  change (reader place count).bind _ = _
  rw [ran]
  rfl

end Reader

/-! ## Scalars -/

theorem magnitude?_toDigits (number : Nat) :
    Scalar.magnitude? (Nat.toDigits 10 number) = some number := by
  have isDigit := @Numeral.isDigit_toDigits number
  have noSurplus : Scalar.hasSurplusNought (Nat.toDigits 10 number) = false := by
    have noSign : ∀ sign digits, sign.isDigit = false →
        Nat.toDigits 10 number ≠ sign :: digits := by
      intro sign digits notDigit same
      rw [same] at isDigit
      rw [isDigit sign List.mem_cons_self] at notDigit
      cases notDigit
    unfold Scalar.hasSurplusNought
    split
    · next digits same => exact absurd same (noSign '+' digits rfl)
    · next digits same => exact absurd same (noSign '-' digits rfl)
    · dsimp only
      cases nought : (Nat.toDigits 10 number).head? == some '0' with
      | false => rw [Bool.and_false, Bool.false_and]
      | true =>
          cases Numeral.head?_toDigits number (by simpa using nought)
          rfl
  have whole := Numeral.whole?_toDigits number
  unfold Scalar.magnitude?
  split
  · next digits same =>
      rw [same] at isDigit
      exact absurd (isDigit 'x' (by simp)) (by decide)
  · next digits same =>
      rw [same] at isDigit
      exact absurd (isDigit 'o' (by simp)) (by decide)
  · next digits same =>
      rw [same] at isDigit
      exact absurd (isDigit 'b' (by simp)) (by decide)
  · rw [noSurplus, if_neg (by decide), whole]

theorem word?_toDigits {number : Nat} (small : number < Nat.pow 2 64) :
    Scalar.word? (Nat.toDigits 10 number) = some (number : Int) := by
  have isDigit := @Numeral.isDigit_toDigits number
  have integer : Scalar.integer? (Nat.toDigits 10 number) = some (number : Int) := by
    have magnitude := magnitude?_toDigits number
    unfold Scalar.integer?
    split
    · next digits same =>
        rw [same] at isDigit
        exact absurd (isDigit '+' (by simp)) (by decide)
    · next digits same =>
        rw [same] at isDigit
        exact absurd (isDigit '-' (by simp)) (by decide)
    · rw [magnitude]
      rfl
  unfold Scalar.word?
  split
  · next digits same =>
      rw [same] at isDigit
      exact absurd (isDigit '-' (by simp)) (by decide)
  · rw [integer]
    have fits : (number : Int) < Nat.pow 2 64 := Int.ofNat_lt.mpr small
    dsimp only
    rw [if_pos fits]

theorem Holds.map {Value Other : Type} {reader : Reader Value} {value : Value} {node : Node}
    (holds : Holds reader value node) (function : Value → Other) :
    Holds (function <$> reader) (function value) node := by
  intro path anchored limit count
  change (reader ⟨node, path, anchored, limit⟩ count).map _ = _
  rw [holds]
  rfl

theorem holds_text {node : Node} {style : ScalarStyle} {text : List Char}
    (isScalar : ∃ mark, node = .scalar mark none none style text) :
    Holds Reader.text (String.ofList text) node := by
  obtain ⟨mark, rfl⟩ := isScalar
  exact fun path anchored limit count => rfl

theorem holds_count_of {mark : Mark} {text : List Char} {value : Int} {count : UInt32}
    (word : Scalar.word? text = some value) (isCount : countOf? value = some count) :
    Holds Reader.count count (.scalar mark none none .plain text) := by
  intro path anchored limit followed
  unfold Reader.count Reader.resolved
  refine (Reader.run_bind rfl).trans ?_
  refine (Reader.run_bind rfl).trans ?_
  have allowed : Scalar.mayBeCount none .plain = true := rfl
  dsimp only
  rw [if_pos allowed, word]
  dsimp only
  rw [isCount]
  rfl

theorem holds_count {node : Node} {count : UInt32}
    (isScalar : ∃ mark, node = .scalar mark none none .plain (Nat.toDigits 10 count.toNat)) :
    Holds Reader.count count node := by
  obtain ⟨mark, rfl⟩ := isScalar
  have small : count.toNat < Nat.pow 2 64 := Nat.lt_of_lt_of_le count.toNat_lt (by decide)
  exact holds_count_of (word?_toDigits small) (countOf?_toNat count)

/-! ## Lists -/

theorem items_eq {Item : Type} {item : Reader Item} {values : List Item} {nodes : List Node}
    (hold : List.Forall₂ (Holds item) values nodes) :
    ∀ index node, Holds (Reader.items item index nodes) values node := by
  induction hold with
  | nil => exact fun index node path anchored limit count => rfl
  | @cons value node values nodes holds _ inductionHypothesis =>
      intro index outer path anchored limit count
      have here : Reader.within (.item index) node item ⟨outer, path, anchored, limit⟩ count =
          .ok (value, count) := holds (.item index :: path) anchored limit count
      refine (Reader.run_bind here).trans ?_
      have later := inductionHypothesis (index + 1) outer path anchored limit count
      exact (Reader.run_bind later).trans rfl

theorem holds_list {Item : Type} {item : Reader Item} {values : List Item} {node : Node}
    (isList : ∃ mark nodes, node = .sequence mark none nodes ∧
      List.Forall₂ (Holds item) values nodes) :
    Holds (Reader.list item) values node := by
  obtain ⟨mark, nodes, rfl, hold⟩ := isList
  exact items_eq hold 0 _

/-! ## Records -/

/-- The entries of a mapping, with the fields that they set and what these do to a record. -/
inductive Entries {Record : Type} (fields : List (ReadingField Reader Record)) :
    List (Node × Node) → List String → List (Record → Record) → Prop where
  | nil : Entries fields [] [] []
  | cons {mark : Mark} {node : Node} {field : ReadingField Reader Record}
      {change : Record → Record} {entries : List (Node × Node)} {names : List String}
      {changes : List (Record → Record)}
      (found : fields.find? (·.name == field.name) = some field)
      (holds : Holds field.read change node) :
      Entries fields entries names changes →
      Entries fields ((.scalar mark none none .plain field.name.toList, node) :: entries)
        (field.name :: names) (change :: changes)

theorem holds_entries {Record : Type} {fields : List (ReadingField Reader Record)}
    {entries : List (Node × Node)} {names : List String} {changes : List (Record → Record)}
    (sets : Entries fields entries names changes) :
    ∀ seen record, (seen ++ names).Nodup → ∀ node,
      Holds (Reader.entries fields entries seen record) (applyAll changes record) node := by
  induction sets with
  | nil => exact fun seen record distinct node path anchored limit count => rfl
  | @cons mark value field change entries names changes found holds _ inductionHypothesis =>
      intro seen record distinct node path anchored limit count
      have unseen : ¬ seen.contains field.name = true := by
        rw [List.nodup_append] at distinct
        intro isSeen
        exact distinct.2.2 _ (by simpa using isSeen) _ List.mem_cons_self rfl
      have others : (field.name :: seen ++ names).Nodup :=
        (List.perm_middle.nodup_iff).mp distinct
      have key : fields.find? (·.name == String.ofList field.name.toList) = some field := by
        rw [String.ofList_toList]
        exact found
      have here : Reader.within (.field field.name.toList) value field.read
          ⟨node, path, anchored, limit⟩ count = .ok (change, count) :=
        holds (.field field.name.toList :: path) anchored limit count
      unfold Reader.entries
      refine (Reader.run_bind rfl).trans ?_
      rw [key]
      dsimp only
      rw [if_neg unseen]
      refine (Reader.run_bind here).trans ?_
      exact inductionHypothesis _ _ others node path anchored limit count

theorem holds_record {Record : Type} (typeName : String) (blank : Record)
    {fields : List (ReadingField Reader Record)} {names : List String}
    {changes : List (Record → Record)} (distinct : names.Nodup) {node : Node}
    (isMapping : ∃ mark entries, node = .mapping mark none entries ∧
      Entries fields entries names changes) :
    Holds (Reader.record typeName blank fields) (applyAll changes blank) node := by
  obtain ⟨mark, entries, rfl, sets⟩ := isMapping
  intro path anchored limit count
  exact holds_entries sets [] blank distinct _ path anchored limit count

end FaultDrill.Yaml
