import Mathlib.Data.Finset.Card
import Mathlib.Data.List.Induction
import FaultDrill.Compile
import FaultDrill.Proofs.Collisions

/-!
Which collisions there are among names, position by position.

Owns:
- the positions of names that become what an earlier name became, and what is told of each;
- the number of collisions among some names.

Main statement: every such position is told of once, in the order of the names, together with the
last name before it that becomes the same, so there are as many collisions as there are names less
than there are names that they become; and a compilation warns of all of them, those of services
before those of journeys (`collisions_exact`).
-/

namespace FaultDrill

/-! ## Names that have been seen -/

/-- What some names have become, the last one first. -/
def seenIn (names : List String) : List (String × String) :=
  (names.map fun name => (Naming.sanitize name, name)).reverse

theorem seenIn_append_singleton (names : List String) (name : String) :
    seenIn (names ++ [name]) = (Naming.sanitize name, name) :: seenIn names := by
  simp [seenIn]

/-- At a position of some names stands the last of those that become a given name. -/
def LastOf (sanitized : String) (names : List String) (name : String) (position : Nat) : Prop :=
  names[position]? = some name ∧ Naming.sanitize name = sanitized ∧
    ∀ later other, position < later → names[later]? = some other →
      Naming.sanitize other ≠ sanitized

theorem lastOf_of_lookup {sanitized first : String} {names : List String}
    (found : (seenIn names).lookup sanitized = some first) :
    ∃ position, LastOf sanitized names first position := by
  induction names using List.reverseRecOn with
  | nil => cases found
  | append_singleton names name inductionHypothesis =>
      rw [seenIn_append_singleton, List.lookup_cons] at found
      by_cases here : sanitized = Naming.sanitize name
      · subst here
        rw [beq_self_eq_true] at found
        cases found
        refine ⟨names.length, by simp, rfl, ?_⟩
        intro later other after standing
        have bound := (List.getElem?_eq_some_iff.mp standing).1
        rw [List.length_append, List.length_singleton] at bound
        omega
      · rw [beq_eq_false_iff_ne.mpr here] at found
        obtain ⟨position, standing, same, last⟩ := inductionHypothesis found
        have bound := (List.getElem?_eq_some_iff.mp standing).1
        refine ⟨position, by rwa [List.getElem?_append_left bound], same, ?_⟩
        intro later other after standing
        by_cases before : later < names.length
        · rw [List.getElem?_append_left before] at standing
          exact last later other after standing
        · have isLast : other ∈ [name] := by
            rw [List.getElem?_append_right (by omega)] at standing
            exact List.mem_of_getElem? standing
          rw [List.mem_singleton.mp isLast]
          exact Ne.symm here

theorem ne_of_lookup {sanitized : String} {names : List String}
    (unseen : (seenIn names).lookup sanitized = none) :
    ∀ name ∈ names, Naming.sanitize name ≠ sanitized := by
  induction names using List.reverseRecOn with
  | nil => simp
  | append_singleton names name inductionHypothesis =>
      rw [seenIn_append_singleton, List.lookup_cons] at unseen
      by_cases here : sanitized = Naming.sanitize name
      · subst here
        rw [beq_self_eq_true] at unseen
        cases unseen
      · rw [beq_eq_false_iff_ne.mpr here] at unseen
        intro other member
        rcases List.mem_append.mp member with before | isLast
        · exact inductionHypothesis unseen other before
        · rw [List.mem_singleton.mp isLast]
          exact Ne.symm here

/-! ## Positions -/

/-- The name at a position becomes what one at an earlier position became. -/
def Repeats (names : List String) (position : Nat) : Prop :=
  ∃ earlier first second, earlier < position ∧ names[earlier]? = some first ∧
    names[position]? = some second ∧ Naming.sanitize first = Naming.sanitize second

theorem Repeats.lt_length {names : List String} {position : Nat}
    (repeats : Repeats names position) : position < names.length := by
  obtain ⟨-, -, second, -, -, standing, -⟩ := repeats
  exact (List.getElem?_eq_some_iff.mp standing).1

theorem repeats_length_iff (before : List String) (name : String) (names : List String) :
    Repeats (before ++ name :: names) before.length ↔
      ∃ other ∈ before, Naming.sanitize other = Naming.sanitize name := by
  constructor
  · rintro ⟨earlier, first, second, under, standing, here, same⟩
    rw [List.getElem?_append_left under] at standing
    rw [List.getElem?_append_right (Nat.le_refl _), Nat.sub_self, List.getElem?_cons_zero] at here
    cases here
    exact ⟨first, List.mem_of_getElem? standing, same⟩
  · rintro ⟨other, member, same⟩
    obtain ⟨earlier, under, standing⟩ := List.mem_iff_getElem.mp member
    refine ⟨earlier, other, name, under, ?_, by simp, same⟩
    rw [List.getElem?_append_left under, List.getElem?_eq_getElem under, standing]

/-- A collision tells of the name at a position, and of the last one before it that becomes the
same. -/
structure Collision.TellsOf (kind : NameKind) (names : List String) (collision : Collision)
    (position : Nat) : Prop where
  kind : collision.kind = kind
  second : names[position]? = some collision.second
  sanitized : Naming.sanitize collision.second = collision.sanitized
  first : ∃ earlier < position, names[earlier]? = some collision.first ∧
    Naming.sanitize collision.first = collision.sanitized ∧
    ∀ between other, earlier < between → between < position → names[between]? = some other →
      Naming.sanitize other ≠ collision.sanitized

/-- Collisions are told of at all positions from one on that repeat a name, in their order. -/
structure ExactFrom (kind : NameKind) (names : List String) (start : Nat)
    (found : List Collision) (positions : List Nat) : Prop where
  ascending : positions.Pairwise (· < ·)
  all : ∀ position, position ∈ positions ↔ start ≤ position ∧ Repeats names position
  told : List.Forall₂ (Collision.TellsOf kind names) found positions

section Scan

variable {kind : NameKind} {before names : List String} {name : String} {found : List Collision}
  {positions : List Nat}

/-- A name that repeats none before it is not told of. -/
theorem ExactFrom.skip
    (exact : ExactFrom kind (before ++ name :: names) (before.length + 1) found positions)
    (fresh : ¬ Repeats (before ++ name :: names) before.length) :
    ExactFrom kind (before ++ name :: names) before.length found positions where
  ascending := exact.ascending
  all := by
    intro position
    rw [exact.all]
    constructor
    · exact fun ⟨after, repeats⟩ => ⟨by omega, repeats⟩
    · rintro ⟨onwards, repeats⟩
      have other : position ≠ before.length := by
        rintro rfl
        exact fresh repeats
      exact ⟨by omega, repeats⟩
  told := exact.told

/-- A name that repeats one before it is told of first. -/
theorem ExactFrom.tell
    (exact : ExactFrom kind (before ++ name :: names) (before.length + 1) found positions)
    {collision : Collision}
    (tells : collision.TellsOf kind (before ++ name :: names) before.length)
    (repeats : Repeats (before ++ name :: names) before.length) :
    ExactFrom kind (before ++ name :: names) before.length (collision :: found)
      (before.length :: positions) where
  ascending := by
    rw [List.pairwise_cons]
    refine ⟨fun position member => ?_, exact.ascending⟩
    have after := ((exact.all position).mp member).1
    omega
  all := by
    intro position
    rw [List.mem_cons, exact.all]
    constructor
    · rintro (rfl | ⟨after, again⟩)
      · exact ⟨Nat.le_refl _, repeats⟩
      · exact ⟨by omega, again⟩
    · rintro ⟨onwards, again⟩
      rcases Nat.eq_or_lt_of_le onwards with here | after
      · exact Or.inl here.symm
      · exact Or.inr ⟨after, again⟩
  told := .cons tells exact.told

theorem tellsOf_of_lastOf {first : String} {earlier : Nat}
    (last : LastOf (Naming.sanitize name) before first earlier) :
    Collision.TellsOf kind (before ++ name :: names)
      ⟨kind, first, name, Naming.sanitize name⟩ before.length where
  kind := rfl
  second := by simp
  sanitized := rfl
  first := by
    obtain ⟨standing, same, none⟩ := last
    have under := (List.getElem?_eq_some_iff.mp standing).1
    refine ⟨earlier, under, by rwa [List.getElem?_append_left under], same, ?_⟩
    intro between other after ahead here
    rw [List.getElem?_append_left ahead] at here
    exact none between other after here

end Scan

/-- One pass over the names tells of every position that repeats a name. The names before are those
that the pass has seen. -/
theorem exactFrom_collisionsAfter (kind : NameKind) (before names : List String) :
    ∃ positions, ExactFrom kind (before ++ names) before.length
      (collisionsAfter kind (seenIn before) names) positions := by
  induction names generalizing before with
  | nil =>
      refine ⟨[], .nil, fun position => ?_, .nil⟩
      rw [List.append_nil]
      constructor
      · intro member
        cases member
      · rintro ⟨onwards, repeats⟩
        exact absurd repeats.lt_length (by omega)
  | cons name names inductionHypothesis =>
      obtain ⟨positions, exact⟩ := inductionHypothesis (before ++ [name])
      rw [seenIn_append_singleton, List.append_assoc, List.singleton_append, List.length_append,
        List.length_singleton] at exact
      unfold collisionsAfter
      dsimp only
      cases seen : (seenIn before).lookup (Naming.sanitize name) with
      | none =>
          have fresh := ne_of_lookup seen
          refine ⟨positions, exact.skip fun repeats => ?_⟩
          obtain ⟨other, member, same⟩ := (repeats_length_iff before name names).mp repeats
          exact fresh other member same
      | some first =>
          obtain ⟨earlier, last⟩ := lastOf_of_lookup seen
          have repeats := (repeats_length_iff before name names).mpr
            ⟨first, List.mem_of_getElem? last.1, last.2.1⟩
          exact ⟨_, exact.tell (tellsOf_of_lastOf last) repeats⟩

/-! ## Numbers -/

/-- How many names some names become. -/
def distinctNames (names : List String) : Nat := (names.map Naming.sanitize).toFinset.card

theorem distinctNames_append_singleton (names : List String) (name : String) :
    distinctNames (names ++ [name]) =
      if ∃ other ∈ names, Naming.sanitize other = Naming.sanitize name then distinctNames names
      else distinctNames names + 1 := by
  have member : Naming.sanitize name ∈ (names.map Naming.sanitize).toFinset ↔
      ∃ other ∈ names, Naming.sanitize other = Naming.sanitize name := by
    rw [List.mem_toFinset, List.mem_map]
  have inserted : ((names ++ [name]).map Naming.sanitize).toFinset =
      insert (Naming.sanitize name) (names.map Naming.sanitize).toFinset := by
    ext other
    simp
  unfold distinctNames
  rw [inserted]
  split
  · next seen => exact Finset.card_insert_of_mem (member.mpr seen)
  · next unseen => exact Finset.card_insert_of_notMem (mt member.mp unseen)

/-- Every name either becomes a new name or collides. -/
theorem length_collisionsAfter (kind : NameKind) (before names : List String) :
    (collisionsAfter kind (seenIn before) names).length + distinctNames (before ++ names) =
      names.length + distinctNames before := by
  induction names generalizing before with
  | nil => simp [collisionsAfter]
  | cons name names inductionHypothesis =>
      have further := inductionHypothesis (before ++ [name])
      rw [seenIn_append_singleton, List.append_assoc, List.singleton_append,
        distinctNames_append_singleton] at further
      unfold collisionsAfter
      dsimp only
      cases seen : (seenIn before).lookup (Naming.sanitize name) with
      | none =>
          have fresh : ¬ ∃ other ∈ before, Naming.sanitize other = Naming.sanitize name := by
            rintro ⟨other, member, same⟩
            exact ne_of_lookup seen other member same
          rw [if_neg fresh] at further
          dsimp only
          rw [List.length_cons]
          omega
      | some first =>
          obtain ⟨earlier, standing, same, -⟩ := lastOf_of_lookup seen
          rw [if_pos ⟨first, List.mem_of_getElem? standing, same⟩] at further
          dsimp only
          rw [List.length_cons, List.length_cons]
          omega

/-! ## Collisions of a scenario -/

/-- What is told of the collisions among some names. -/
structure ExactFor (kind : NameKind) (names : List String) (found : List Collision) : Prop where
  /-- Each position that repeats a name is told of once, and the positions go up. -/
  positions : ∃ positions : List Nat, positions.Pairwise (· < ·) ∧
    (∀ position, position ∈ positions ↔ Repeats names position) ∧
    List.Forall₂ (Collision.TellsOf kind names) found positions
  count : found.length + distinctNames names = names.length

theorem exactFor_collisions (kind : NameKind) (names : List String) :
    ExactFor kind names (collisions kind names) where
  positions := by
    obtain ⟨positions, exact⟩ := exactFrom_collisionsAfter kind [] names
    refine ⟨positions, exact.ascending, fun position => ?_, exact.told⟩
    rw [exact.all]
    simp
  count := by
    have count := length_collisionsAfter kind [] names
    simpa [distinctNames, seenIn, collisions] using count

-- Of three names that become the same, each is told of with the one right before it.
example : collisions .journey ["_base", "a b", "-base", "a/b", "a.b"] = [
    ⟨.journey, "_base", "-base", "_base"⟩,
    ⟨.journey, "a b", "a/b", "a_b"⟩,
    ⟨.journey, "a/b", "a.b", "a_b"⟩] := by
  decide

/-- The collisions of a scenario are those among its services and then those among its journeys,
as if a journey before all others had the name of the directory of the base image. A compilation
warns of them in this order, however it ends. -/
theorem Scenario.collisions_exact (scenario : Scenario) :
    (∃ services journeys, scenario.collisions = services ++ journeys ∧
      ExactFor .service (scenario.services.map (·.name)) services ∧
      ExactFor .journey ("_base" :: scenario.journeys.map (·.name)) journeys) ∧
    ∀ host root run, (scenario.compile host root run).2.warnings =
      host.warnings ++ scenario.collisions.map .collision := by
  refine ⟨⟨_, _, rfl, exactFor_collisions _ _, exactFor_collisions _ _⟩, ?_⟩
  intro host root run
  rfl

end FaultDrill
