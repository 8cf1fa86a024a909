import FaultDrill.Proofs.Document
import FaultDrill.Yaml.Node

/-!
Trees are made from the tokens that documents are written with.

Owns:
- the tokens that a tree is made from (`Parses`, `Denotes`);
- the trees of scalars, of lists, of mappings in blocks, and of a whole document;
- tokens that no tree is made from, since the name of an entry is left out (`RefusesEntries`).

Does not own: where the tokens come from, and what is read from the trees.

Main statements: the items of a list make its tree (`DenotesItems.denotes`), the entries of a
mapping make its tree (`DenotesEntries.denotes`), and this is the only document of a text
(`Denotes.document`), if no name is left out at any depth (`RefusesEntries.document`).
-/

namespace FaultDrill.Yaml

namespace Parsing

variable {Value : Type}

/-- From tokens of some kinds a process makes a value of some kind, whatever follows that does not
continue them. -/
def Parses (process : Parsing Value) (lexemes : List Lexeme) (ends : List Token → Prop)
    (good : Value → Prop) : Prop :=
  ∀ given rest handles anchors, given.map Token.lexeme = lexemes → ends rest →
    ∃ value, process ⟨given ++ rest, handles, anchors⟩ = some (value, ⟨rest, handles, anchors⟩) ∧
      good value

/-- Where the items of a list may stand no further right than the list, what follows is no item. -/
def Ends (dashes : Bool) (rest : List Token) : Prop :=
  dashes = true → ∃ token more, rest = token :: more ∧ token.lexeme ≠ .dash

/-- Tokens from which a node is made, the first of which does not show that it was left out. -/
structure Denotes (missing : List Lexeme) (dashes : Bool) (lexemes : List Lexeme)
    (good : Node → Prop) : Prop where
  begins : ∃ first later, lexemes = first :: later ∧ first ∉ missing
  parses : ∀ steps, 4 * lexemes.length + 2 ≤ steps →
    Parses (node true dashes steps) lexemes (Ends dashes) good

theorem Parses.mono {process : Parsing Value} {lexemes : List Lexeme} {ends : List Token → Prop}
    {good weaker : Value → Prop} (parses : Parses process lexemes ends good)
    (implies : ∀ value, good value → weaker value) : Parses process lexemes ends weaker := by
  intro given rest handles anchors tokens ended
  obtain ⟨value, ran, isGood⟩ := parses given rest handles anchors tokens ended
  exact ⟨value, ran, implies value isGood⟩

theorem Denotes.mono {missing : List Lexeme} {dashes : Bool} {lexemes : List Lexeme}
    {good weaker : Node → Prop} (denotes : Denotes missing dashes lexemes good)
    (implies : ∀ node, good node → weaker node) : Denotes missing dashes lexemes weaker :=
  ⟨denotes.begins, fun steps enough => (denotes.parses steps enough).mono implies⟩

/-- Where a token is told apart by its kind only, its place is all that is left open. -/
theorem exists_token {given : List Token} {first : Lexeme} {later : List Lexeme}
    (tokens : given.map Token.lexeme = first :: later) :
    ∃ mark more, given = ⟨mark, first⟩ :: more ∧ more.map Token.lexeme = later := by
  obtain ⟨⟨mark, lexeme⟩, more, rfl, same, others⟩ := List.map_eq_cons_iff.mp tokens
  obtain rfl : lexeme = first := same
  exact ⟨mark, more, rfl, others⟩

theorem run_peek (token : Token) (rest : List Token) (handles : List (List Char × Tag))
    (anchors : List (List Char × Nat)) :
    peek ⟨token :: rest, handles, anchors⟩ = some (token, ⟨token :: rest, handles, anchors⟩) :=
  rfl

theorem denotes_scalar (missing : List Lexeme) (dashes : Bool) (style : ScalarStyle)
    (text : List Char) (present : .scalar style text ∉ missing) :
    Denotes missing dashes [.scalar style text]
      (∃ mark, · = .scalar mark none none style text) := by
  refine ⟨⟨_, _, rfl, present⟩, fun steps enough given rest handles anchors tokens _ => ?_⟩
  obtain ⟨mark, more, rfl, others⟩ := exists_token tokens
  obtain rfl := List.map_eq_nil_iff.mp others
  obtain ⟨steps, rfl⟩ : ∃ fewer, steps = fewer + 1 := ⟨steps - 1, by simp at enough; omega⟩
  exact ⟨_, rfl, mark, rfl⟩

theorem denotes_empty (missing : List Lexeme) (dashes : Bool) (present : .listOpen ∉ missing) :
    Denotes missing dashes [.listOpen, .listClose] (∃ mark, · = .sequence mark none []) := by
  refine ⟨⟨_, _, rfl, present⟩, fun steps enough given rest handles anchors tokens _ => ?_⟩
  obtain ⟨mark, more, rfl, others⟩ := exists_token tokens
  obtain ⟨mark', more, rfl, none⟩ := exists_token others
  obtain rfl := List.map_eq_nil_iff.mp none
  obtain ⟨steps, rfl⟩ : ∃ fewer, steps = fewer + 1 + 1 := ⟨steps - 2, by simp at enough; omega⟩
  exact ⟨_, rfl, mark, rfl⟩

theorem denotes_emptyMap (missing : List Lexeme) (dashes : Bool) (present : .mapOpen ∉ missing) :
    Denotes missing dashes [.mapOpen, .mapClose] (∃ mark, · = .mapping mark none []) := by
  refine ⟨⟨_, _, rfl, present⟩, fun steps enough given rest handles anchors tokens _ => ?_⟩
  obtain ⟨mark, more, rfl, others⟩ := exists_token tokens
  obtain ⟨mark', more, rfl, none⟩ := exists_token others
  obtain rfl := List.map_eq_nil_iff.mp none
  obtain ⟨steps, rfl⟩ : ∃ fewer, steps = fewer + 1 + 1 := ⟨steps - 2, by simp at enough; omega⟩
  exact ⟨_, rfl, mark, rfl⟩

theorem Denotes.nodeOr {missing : List Lexeme} {dashes : Bool} {lexemes : List Lexeme}
    {good : Node → Prop} (denotes : Denotes missing dashes lexemes good) (mark : Option Mark) :
    ∀ steps, 4 * lexemes.length + 3 ≤ steps →
      Parses (nodeOr missing mark true dashes steps) lexemes (Ends dashes) good := by
  intro steps enough given rest handles anchors tokens ends
  obtain ⟨steps, rfl⟩ : ∃ fewer, steps = fewer + 1 := ⟨steps - 1, by omega⟩
  obtain ⟨first, later, rfl, present⟩ := denotes.begins
  obtain ⟨node, ran, isGood⟩ :=
    denotes.parses steps (by omega) given rest handles anchors tokens ends
  obtain ⟨mark', more, rfl, -⟩ := exists_token tokens
  refine ⟨node, ?_, isGood⟩
  have isPresent : ¬ missing.contains first = true := by simpa using present
  unfold Parsing.nodeOr
  refine (run_bind rfl).trans ?_
  rw [if_neg isPresent]
  exact ran

/-! ## Items -/

/-- Tokens from which the items of a list are made. -/
def DenotesItems (lexemes : List Lexeme) (good : List Node → Prop) : Prop :=
  ∀ steps, 4 * lexemes.length + 1 ≤ steps →
    Parses (dashItems steps) lexemes (Ends true) good

theorem denotesItems_nil : DenotesItems [] (· = []) := by
  intro steps enough given rest handles anchors tokens ends
  obtain ⟨steps, rfl⟩ : ∃ fewer, steps = fewer + 1 := ⟨steps - 1, by omega⟩
  obtain rfl := List.map_eq_nil_iff.mp tokens
  obtain ⟨⟨mark, lexeme⟩, more, rfl, noDash⟩ := ends rfl
  refine ⟨[], ?_, rfl⟩
  cases lexeme with
  | dash => exact absurd rfl noDash
  | _ => rfl

theorem DenotesItems.cons {lexemes more : List Lexeme} {good : Node → Prop}
    {others : List Node → Prop}
    (item : Denotes [.dash, .key, .value, .blockEnd] false lexemes good)
    (later : DenotesItems more others) :
    DenotesItems (.dash :: lexemes ++ more)
      fun nodes => ∃ node rest, nodes = node :: rest ∧ good node ∧ others rest := by
  intro steps enough given rest handles anchors tokens ends
  simp only [List.length_append, List.length_cons] at enough
  obtain ⟨steps, rfl⟩ : ∃ fewer, steps = fewer + 1 := ⟨steps - 1, by omega⟩
  obtain ⟨mark, following, rfl, others⟩ := exists_token tokens
  obtain ⟨here, after, rfl, tokensHere, tokensAfter⟩ := List.map_eq_append_iff.mp others
  obtain ⟨node, ran, isGood⟩ := item.nodeOr (some (mark.after 1)) steps (by omega) here
    (after ++ rest) handles anchors tokensHere (by simp [Ends])
  obtain ⟨nodes, ranOn, areGood⟩ :=
    later steps (by omega) after rest handles anchors tokensAfter ends
  refine ⟨node :: nodes, ?_, node, nodes, rfl, isGood, areGood⟩
  unfold dashItems
  refine (run_bind (run_peek _ _ _ _)).trans ?_
  refine (run_bind rfl).trans ?_
  rw [← List.append_assoc] at ran
  refine (run_bind ran).trans ?_
  exact (run_bind ranOn).trans rfl

/-- A list stands for a node where its items need not stand further right. -/
theorem DenotesItems.denotes {lexemes : List Lexeme} {good : List Node → Prop}
    (items : DenotesItems (.dash :: lexemes) good) :
    Denotes [.key, .value, .blockEnd] true (.dash :: lexemes)
      fun node => ∃ mark nodes, node = .sequence mark none nodes ∧ good nodes := by
  refine ⟨⟨_, _, rfl, by simp⟩, fun steps enough given rest handles anchors tokens ends => ?_⟩
  obtain ⟨steps, rfl⟩ : ∃ fewer, steps = fewer + 1 := ⟨steps - 1, by omega⟩
  obtain ⟨nodes, ran, areGood⟩ :=
    items steps (by omega) given rest handles anchors tokens ends
  obtain ⟨mark, following, rfl, -⟩ := exists_token tokens
  refine ⟨.sequence mark none nodes, ?_, mark, nodes, rfl, areGood⟩
  have made : node true true (steps + 1) ⟨⟨mark, .dash⟩ :: following ++ rest, handles, anchors⟩ =
      (do return .sequence mark none (← dashItems steps) : Parsing Node)
        ⟨⟨mark, .dash⟩ :: following ++ rest, handles, anchors⟩ := rfl
  rw [made]
  exact (run_bind ran).trans rfl

/-- A sequence in a block stands for a node, here one with a single item. -/
theorem Denotes.singleton {lexemes : List Lexeme} {good : Node → Prop}
    (item : Denotes [.dash, .blockEnd] false lexemes good) (missing : List Lexeme) (dashes : Bool)
    (present : .blockSequence ∉ missing) :
    Denotes missing dashes (.blockSequence :: .dash :: lexemes ++ [.blockEnd])
      fun node => ∃ mark tree, node = .sequence mark none [tree] ∧ good tree := by
  refine ⟨⟨_, _, rfl, present⟩, fun steps enough given rest handles anchors tokens _ => ?_⟩
  simp only [List.length_append, List.length_cons, List.length_nil] at enough
  obtain ⟨steps, rfl⟩ : ∃ fewer, steps = fewer + 1 + 1 + 1 := ⟨steps - 3, by omega⟩
  obtain ⟨mark, following, rfl, afterOpen⟩ := exists_token tokens
  obtain ⟨markDash, following, rfl, afterDash⟩ := exists_token afterOpen
  obtain ⟨here, after, rfl, tokensHere, tokensAfter⟩ := List.map_eq_append_iff.mp afterDash
  obtain ⟨markEnd, more, rfl, tokensEnd⟩ := exists_token tokensAfter
  obtain rfl := List.map_eq_nil_iff.mp tokensEnd
  obtain ⟨tree, ran, isGood⟩ := item.nodeOr (some (markDash.after 1)) (steps + 1) (by omega) here
    ([⟨markEnd, .blockEnd⟩] ++ rest) handles anchors tokensHere (by simp [Ends])
  refine ⟨.sequence mark none [tree], ?_, mark, tree, rfl, isGood⟩
  have made : node true dashes (steps + 1 + 1 + 1)
      ⟨⟨mark, .blockSequence⟩ :: ⟨markDash, .dash⟩ :: (here ++ [⟨markEnd, .blockEnd⟩]) ++ rest,
        handles, anchors⟩ =
      (do return .sequence mark none (← blockItems (steps + 1 + 1)) : Parsing Node)
        ⟨⟨markDash, .dash⟩ :: (here ++ [⟨markEnd, .blockEnd⟩]) ++ rest, handles, anchors⟩ := by
    cases dashes <;> rfl
  have items : blockItems (steps + 1 + 1)
      ⟨⟨markDash, .dash⟩ :: (here ++ [⟨markEnd, .blockEnd⟩]) ++ rest, handles, anchors⟩ =
      some ([tree], ⟨rest, handles, anchors⟩) := by
    rw [← List.append_assoc] at ran
    unfold blockItems
    refine (run_bind (run_peek _ _ _ _)).trans ?_
    refine (run_bind rfl).trans ?_
    exact (run_bind ran).trans rfl
  rw [made]
  exact (run_bind items).trans rfl

/-! ## Entries -/

/-- Tokens at the start of which an entry or the end of the entries stands, but no dash. -/
def BeginsEntry (lexemes : List Lexeme) : Prop :=
  ∃ first later, lexemes = first :: later ∧ first ≠ .dash

/-- Tokens from which the entries of a mapping in a block are made, with its end. -/
structure DenotesEntries (lexemes : List Lexeme) (good : List (Node × Node) → Prop) : Prop where
  begins : BeginsEntry lexemes
  parses : ∀ steps, 4 * lexemes.length + 1 ≤ steps →
    Parses (blockEntries steps) lexemes (fun _ => True) good

theorem denotesEntries_nil : DenotesEntries [.blockEnd] (· = []) := by
  refine ⟨⟨_, _, rfl, by simp⟩, fun steps enough given rest handles anchors tokens _ => ?_⟩
  obtain ⟨steps, rfl⟩ : ∃ fewer, steps = fewer + 1 := ⟨steps - 1, by simp at enough; omega⟩
  obtain ⟨mark, more, rfl, others⟩ := exists_token tokens
  obtain rfl := List.map_eq_nil_iff.mp others
  exact ⟨[], rfl, rfl⟩

theorem DenotesEntries.mono {lexemes : List Lexeme} {good weaker : List (Node × Node) → Prop}
    (entries : DenotesEntries lexemes good) (implies : ∀ nodes, good nodes → weaker nodes) :
    DenotesEntries lexemes weaker :=
  ⟨entries.begins, fun steps enough => (entries.parses steps enough).mono implies⟩

/-- The name of an entry is followed by its value and by the other entries. -/
theorem run_entry (mark markName markValue : Mark) (name : List Char) (steps : Nat)
    (rest : List Token) (handles : List (List Char × Tag)) (anchors : List (List Char × Nat)) :
    blockEntries (steps + 1 + 1 + 1)
      ⟨⟨mark, .key⟩ :: ⟨markName, .scalar .plain name⟩ :: ⟨markValue, .value⟩ :: rest, handles,
        anchors⟩ =
      (do
        let value ←
          nodeOr [.key, .value, .blockEnd] (some (markValue.after 1)) true true (steps + 1 + 1)
        return (.scalar markName none none .plain name, value) ::
          (← blockEntries (steps + 1 + 1)) : Parsing (List (Node × Node)))
        ⟨rest, handles, anchors⟩ := by
  have key : nodeOr [.key, .value, .blockEnd] (some (mark.after 1)) true true (steps + 1 + 1)
      ⟨⟨markName, .scalar .plain name⟩ :: ⟨markValue, .value⟩ :: rest, handles, anchors⟩ =
      some (.scalar markName none none .plain name,
        ⟨⟨markValue, .value⟩ :: rest, handles, anchors⟩) := rfl
  unfold blockEntries
  refine (run_bind (run_peek _ _ _ _)).trans ?_
  refine (run_bind rfl).trans ?_
  refine (run_bind key).trans ?_
  refine (run_bind (run_peek _ _ _ _)).trans ?_
  exact run_bind rfl

/-- The tokens of an entry, apart from those of its name, those of its value and those after it. -/
theorem exists_entry {given : List Token} {name : List Char} {lexemes more : List Lexeme}
    (tokens : given.map Token.lexeme = [.key, .scalar .plain name, .value] ++ lexemes ++ more) :
    ∃ mark markName markValue here after,
      given = ⟨mark, .key⟩ :: ⟨markName, .scalar .plain name⟩ :: ⟨markValue, .value⟩ ::
        (here ++ after) ∧
      here.map Token.lexeme = lexemes ∧ after.map Token.lexeme = more := by
  obtain ⟨mark, following, rfl, afterKey⟩ := exists_token tokens
  obtain ⟨markName, following, rfl, afterName⟩ := exists_token afterKey
  obtain ⟨markValue, following, rfl, afterValue⟩ := exists_token afterName
  obtain ⟨here, after, rfl, tokensHere, tokensAfter⟩ := List.map_eq_append_iff.mp afterValue
  exact ⟨mark, markName, markValue, here, after, rfl, tokensHere, tokensAfter⟩

/-- An entry whose value is made leaves the other entries. -/
theorem Denotes.run_entry {lexemes more : List Lexeme} {good : Node → Prop}
    (value : Denotes [.key, .value, .blockEnd] true lexemes good) (begins : BeginsEntry more)
    {name : List Char} {given : List Token}
    (tokens : given.map Token.lexeme = [.key, .scalar .plain name, .value] ++ lexemes ++ more)
    {steps : Nat} (enough : 4 * lexemes.length + 5 ≤ steps) (rest : List Token)
    (handles : List (List Char × Tag)) (anchors : List (List Char × Nat)) :
    ∃ mark node after, good node ∧ after.map Token.lexeme = more ∧
      blockEntries (steps + 1) ⟨given ++ rest, handles, anchors⟩ =
        (do return (.scalar mark none none .plain name, node) ::
          (← blockEntries steps) : Parsing (List (Node × Node)))
          ⟨after ++ rest, handles, anchors⟩ := by
  -- The name takes two steps, since it may be left out, too.
  obtain ⟨steps, rfl⟩ : ∃ fewer, steps = fewer + 1 + 1 := ⟨steps - 2, by omega⟩
  obtain ⟨mark, markName, markValue, here, after, rfl, tokensHere, tokensAfter⟩ :=
    exists_entry tokens
  have ends : Ends true (after ++ rest) := by
    obtain ⟨first, later, rfl, notDash⟩ := begins
    obtain ⟨mark, others, rfl, -⟩ := exists_token tokensAfter
    exact fun _ => ⟨_, others ++ rest, rfl, notDash⟩
  obtain ⟨node, ran, isGood⟩ := value.nodeOr (some (markValue.after 1)) (steps + 1 + 1) (by omega)
    here (after ++ rest) handles anchors tokensHere ends
  rw [← List.append_assoc] at ran
  exact ⟨markName, node, after, isGood, tokensAfter,
    (Parsing.run_entry mark markName markValue name steps _ handles anchors).trans (run_bind ran)⟩

theorem DenotesEntries.cons (name : List Char) {lexemes more : List Lexeme} {good : Node → Prop}
    {others : List (Node × Node) → Prop}
    (value : Denotes [.key, .value, .blockEnd] true lexemes good)
    (later : DenotesEntries more others) :
    DenotesEntries ([.key, .scalar .plain name, .value] ++ lexemes ++ more)
      fun entries => ∃ mark node rest,
        entries = (.scalar mark none none .plain name, node) :: rest ∧ good node ∧ others rest := by
  refine ⟨⟨_, _, rfl, by simp⟩, fun steps enough given rest handles anchors tokens _ => ?_⟩
  simp only [List.length_append, List.length_cons, List.length_nil] at enough
  obtain ⟨steps, rfl⟩ : ∃ fewer, steps = fewer + 1 := ⟨steps - 1, by omega⟩
  have suffices' : 4 * lexemes.length + 5 ≤ steps := by omega
  obtain ⟨mark, node, after, isGood, tokensAfter, ran⟩ :=
    value.run_entry later.begins tokens suffices' rest handles anchors
  obtain ⟨entries, ranOn, areGood⟩ :=
    later.parses steps (by omega) after rest handles anchors tokensAfter trivial
  exact ⟨_, ran.trans ((run_bind ranOn).trans rfl), mark, node, entries, rfl, isGood, areGood⟩

/-- The value of the last entry of a block may be left out. -/
theorem denotesEntries_missing (name : List Char) :
    DenotesEntries [.key, .scalar .plain name, .value, .blockEnd]
      fun entries => ∃ mark markValue,
        entries = [(.scalar mark none none .plain name, .missing markValue)] := by
  refine ⟨⟨_, _, rfl, by simp⟩, fun steps enough given rest handles anchors tokens _ => ?_⟩
  obtain ⟨steps, rfl⟩ : ∃ fewer, steps = fewer + 1 + 1 + 1 :=
    ⟨steps - 3, by simp at enough; omega⟩
  obtain ⟨mark, markName, markValue, here, after, rfl, tokensHere, tokensAfter⟩ :=
    @exists_entry _ _ [] [.blockEnd] tokens
  obtain rfl := List.map_eq_nil_iff.mp tokensHere
  obtain ⟨markEnd, more, rfl, none⟩ := exists_token tokensAfter
  obtain rfl := List.map_eq_nil_iff.mp none
  exact ⟨_, (run_entry mark markName markValue name steps _ handles anchors).trans rfl, markName,
    markValue.after 1, rfl⟩

/-- The entries of a mapping in a block follow its opening token. -/
theorem run_mapping (dashes : Bool) (steps : Nat) (mark : Mark) (rest : List Token)
    (handles : List (List Char × Tag)) (anchors : List (List Char × Nat)) :
    node true dashes (steps + 1) ⟨⟨mark, .blockMapping⟩ :: rest, handles, anchors⟩ =
      (do return .mapping mark none (← blockEntries steps) : Parsing Node)
        ⟨rest, handles, anchors⟩ := by
  cases dashes <;> rfl

/-- A mapping in a block stands for a node. -/
theorem DenotesEntries.denotes {lexemes : List Lexeme} {good : List (Node × Node) → Prop}
    (entries : DenotesEntries lexemes good) (missing : List Lexeme) (dashes : Bool)
    (present : .blockMapping ∉ missing) :
    Denotes missing dashes (.blockMapping :: lexemes)
      fun node => ∃ mark nodes, node = .mapping mark none nodes ∧ good nodes := by
  refine ⟨⟨_, _, rfl, present⟩, fun steps enough given rest handles anchors tokens _ => ?_⟩
  rw [List.length_cons] at enough
  obtain ⟨steps, rfl⟩ : ∃ fewer, steps = fewer + 1 := ⟨steps - 1, by omega⟩
  obtain ⟨mark, following, rfl, others⟩ := exists_token tokens
  obtain ⟨nodes, ran, areGood⟩ :=
    entries.parses steps (by omega) following rest handles anchors others trivial
  refine ⟨.mapping mark none nodes, ?_, mark, nodes, rfl, areGood⟩
  refine (run_mapping dashes steps mark _ handles anchors).trans ?_
  exact (run_bind ran).trans rfl

/-- A text without directives that begins with a mapping has no other content. -/
theorem run_document (mark : Mark) (rest : List Token) :
    Parsing.document { tokens := ⟨mark, .blockMapping⟩ :: rest } =
      (do
        let document ← node true false (4 * (rest.length + 1) + 4)
        documentEnds (rest.length + 1)
        require (← nextIn [.textEnd])
        return some document : Parsing (Option Node))
        ⟨⟨mark, .blockMapping⟩ :: rest, coreHandles, []⟩ := by
  unfold Parsing.document
  refine (run_bind rfl).trans ?_
  refine (run_bind rfl).trans ?_
  rw [if_neg (by simp)]
  -- There are no directives, so the document begins without a mark.
  refine (run_bind rfl).trans ?_
  refine (run_bind rfl).trans ?_
  refine (run_bind rfl).trans ?_
  refine (run_bind rfl).trans ?_
  dsimp only
  rw [decide_eq_true rfl, if_neg (by decide)]
  refine (run_bind (run_peek _ _ _ _)).trans ?_
  rw [if_neg (by simp)]
  rfl

/-- A mapping is the only document of a text. -/
theorem Denotes.document {missing lexemes : List Lexeme} {good : Node → Prop}
    (denotes : Denotes missing false (.blockMapping :: lexemes) good) {tokens : List Token}
    (isText : tokens.map Token.lexeme = .blockMapping :: lexemes ++ [.textEnd]) :
    ∃ node stream, Parsing.document { tokens } = some (some node, stream) ∧ good node := by
  obtain ⟨given, last, rfl, isGiven, isLast⟩ := List.map_eq_append_iff.mp isText
  obtain ⟨markEnd, more, rfl, none⟩ := exists_token isLast
  obtain rfl := List.map_eq_nil_iff.mp none
  have length : given.length = (Lexeme.blockMapping :: lexemes).length := by
    rw [← isGiven, List.length_map]
  obtain ⟨mark, following, rfl, -⟩ := exists_token isGiven
  have enough : 4 * (Lexeme.blockMapping :: lexemes).length + 2 ≤
      4 * ((following ++ [Token.mk markEnd .textEnd]).length + 1) + 4 := by
    rw [← length, List.length_append, List.length_cons]
    omega
  obtain ⟨node, ran, isGood⟩ := denotes.parses _ enough (⟨mark, .blockMapping⟩ :: following)
    [⟨markEnd, .textEnd⟩] coreHandles [] isGiven (by simp [Ends])
  refine ⟨node, ⟨[⟨markEnd, .textEnd⟩], coreHandles, []⟩, ?_, isGood⟩
  refine (run_document mark _).trans ?_
  refine (run_bind ran).trans ?_
  refine (run_bind rfl).trans ?_
  refine (run_bind rfl).trans ?_
  rfl

/-! ## Names that are left out -/

/-- Tokens that are no entries of a mapping in a block, whatever follows. -/
structure RefusesEntries (lexemes : List Lexeme) : Prop where
  begins : BeginsEntry lexemes
  refuses : ∀ steps, 4 * lexemes.length + 1 ≤ steps → ∀ given rest handles anchors,
    given.map Token.lexeme = lexemes → blockEntries steps ⟨given ++ rest, handles, anchors⟩ = none

theorem refusesEntries_colon (more : List Lexeme) : RefusesEntries (.value :: more) := by
  refine ⟨⟨_, _, rfl, by simp⟩, fun steps enough given rest handles anchors tokens => ?_⟩
  obtain ⟨steps, rfl⟩ : ∃ fewer, steps = fewer + 1 := ⟨steps - 1, by simp at enough; omega⟩
  obtain ⟨mark, following, rfl, -⟩ := exists_token tokens
  rfl

theorem RefusesEntries.cons (name : List Char) {lexemes more : List Lexeme} {good : Node → Prop}
    (value : Denotes [.key, .value, .blockEnd] true lexemes good) (later : RefusesEntries more) :
    RefusesEntries ([.key, .scalar .plain name, .value] ++ lexemes ++ more) := by
  refine ⟨⟨_, _, rfl, by simp⟩, fun steps enough given rest handles anchors tokens => ?_⟩
  simp only [List.length_append, List.length_cons, List.length_nil] at enough
  obtain ⟨steps, rfl⟩ : ∃ fewer, steps = fewer + 1 := ⟨steps - 1, by omega⟩
  have suffices' : 4 * lexemes.length + 5 ≤ steps := by omega
  obtain ⟨mark, node, after, -, tokensAfter, ran⟩ :=
    value.run_entry later.begins tokens suffices' rest handles anchors
  have refused := later.refuses steps (by omega) after rest handles anchors tokensAfter
  exact ran.trans (run_bind_refused refused)

/-- The value of an entry is a mapping with entries that are none. -/
theorem RefusesEntries.inner (name : List Char) {lexemes : List Lexeme}
    (entries : RefusesEntries lexemes) (more : List Lexeme) :
    RefusesEntries ([.key, .scalar .plain name, .value] ++ .blockMapping :: lexemes ++ more) := by
  refine ⟨⟨_, _, rfl, by simp⟩, fun steps enough given rest handles anchors tokens => ?_⟩
  simp only [List.length_append, List.length_cons, List.length_nil] at enough
  obtain ⟨steps, rfl⟩ : ∃ fewer, steps = fewer + 1 + 1 + 1 := ⟨steps - 3, by omega⟩
  obtain ⟨mark, markName, markValue, here, after, rfl, tokensHere, -⟩ := exists_entry tokens
  obtain ⟨markOpen, inside, rfl, tokensInside⟩ := exists_token tokensHere
  have refused := entries.refuses steps (by omega) inside (after ++ rest) handles anchors
    tokensInside
  have value : nodeOr [.key, .value, .blockEnd] (some (markValue.after 1)) true true (steps + 1 + 1)
      ⟨⟨markOpen, .blockMapping⟩ :: (inside ++ (after ++ rest)), handles, anchors⟩ = none :=
    (run_mapping true steps markOpen _ handles anchors).trans (run_bind_refused refused)
  rw [← List.append_assoc] at value
  refine (run_entry mark markName markValue name steps _ handles anchors).trans ?_
  exact run_bind_refused value

/-- A mapping with entries that are none is no document. -/
theorem RefusesEntries.document {lexemes : List Lexeme} (entries : RefusesEntries lexemes)
    {tokens : List Token}
    (isText : tokens.map Token.lexeme = .blockMapping :: lexemes ++ [.textEnd]) :
    Parsing.document { tokens } = none := by
  obtain ⟨mark, following, rfl, isMore⟩ := exists_token isText
  obtain ⟨given, last, rfl, isGiven, -⟩ := List.map_eq_append_iff.mp isMore
  have enough : 4 * lexemes.length + 1 ≤ 4 * ((given ++ last).length + 1) + 3 := by
    rw [← isGiven, List.length_map, List.length_append]
    omega
  have refused := entries.refuses _ enough given last coreHandles [] isGiven
  refine (run_document mark _).trans (run_bind_refused ?_)
  exact (run_mapping false _ mark _ coreHandles []).trans (run_bind_refused refused)

end Parsing

end FaultDrill.Yaml
