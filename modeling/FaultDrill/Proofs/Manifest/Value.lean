import Mathlib.Data.List.Nodup
import Mathlib.Data.Nat.Digits.Defs
import FaultDrill.Proofs.Collisions
import FaultDrill.Proofs.Manifest.Tokens
import FaultDrill.Proofs.Naming
import FaultDrill.Proofs.Yaml.Value

/-!
What a reader of YAML finds in a manifest.

Owns:
- the value that a manifest stands for (`Manifest.value`);
- names and images that the reader takes for themselves (`KeyName`, `Kept`);
- manifests whose text holds another value, or none.

A JSON literal is not always a scalar of YAML: some characters that JSON does not escape must not
stand in a text of YAML, and white space beside some line breaks is folded. A name without quotes
may be a number or a truth value.

Main statement: the text of a manifest holds its value exactly if the reader takes all names and
images for themselves (`Scenario.manifest_faithful_iff`).
-/

namespace FaultDrill

open Yaml Yaml.Lexing Yaml.Parsing

/-! ## Values -/

/-- What a node tells about its source, with the name under which it is told. -/
def NodeSource.entry : NodeSource → FoundValue × Value
  | .image name => (.text "image", .scalar (.text name))
  | .build context => (.text "build", .scalar (.text context))

/-- A node under its name. -/
def Node.entry (network : String) (node : Node) : FoundValue × Value :=
  (.text node.name,
    .mapping [node.source.entry, (.text "networks", .sequence [.scalar (.text network)])])

/-- The value that a manifest stands for. -/
def Manifest.value (manifest : Manifest) : Value :=
  .mapping [
    (.text "services", .mapping (manifest.nodes.map (Node.entry manifest.network))),
    (.text "networks", .mapping [(.text manifest.network, .scalar .nothing)])]

/-- A name that is the key of an entry and means itself. -/
structure KeyName (name : String) : Prop where
  short : name.toList.length ≤ Lexer.longestKey
  means : MeansItself name

theorem keyName_iff (name : String) :
    KeyName name ↔ name.toList.length ≤ Lexer.longestKey ∧ MeansItself name :=
  ⟨fun ⟨short, means⟩ => ⟨short, means⟩, fun ⟨short, means⟩ => ⟨short, means⟩⟩

instance (name : String) : Decidable (KeyName name) :=
  decidable_of_iff' _ (keyName_iff name)

/-- An image with a JSON literal that means the image in YAML, too. -/
structure Kept (image : String) : Prop where
  allowed : ∀ char ∈ image.toList, char.toNat < 0x20 ∨ isAllowed char = true
  unfolded : Unfolded image.toList

theorem kept_iff (image : String) :
    Kept image ↔ image.toList.all (fun char => char.toNat < 0x20 || isAllowed char) = true ∧
      Unfolded image.toList := by
  simp only [List.all_eq_true, Bool.or_eq_true, decide_eq_true_eq]
  exact ⟨fun ⟨allowed, unfolded⟩ => ⟨allowed, unfolded⟩,
    fun ⟨allowed, unfolded⟩ => ⟨allowed, unfolded⟩⟩

instance (image : String) : Decidable (Kept image) :=
  decidable_of_iff' _ (kept_iff image)

/-- Images of ASCII characters are kept, but for the delete character. -/
theorem kept_of_ascii {image : String} (ascii : ∀ char ∈ image.toList, char.toNat < 0x7F) :
    Kept image where
  allowed char member := by
    by_cases control : char.toNat < 0x20
    · exact .inl control
    · have low : ' ' ≤ char := UInt32.le_iff_toNat_le.mpr (Nat.not_lt.mp control)
      have high : char ≤ '~' := UInt32.le_iff_toNat_le.mpr (Nat.le_of_lt_succ (ascii char member))
      exact .inr (by simp [isAllowed, low, high])
  unfolded := unfolded_of_no_break fun char member => by
    have apart : ∀ {other : Char}, 0x7F ≤ other.toNat → char ≠ other := by
      rintro other large rfl
      exact absurd (ascii char member) (Nat.not_lt.mpr large)
    simp [isSeparator, apart (show 0x7F ≤ '\u0085'.toNat by decide),
      apart (show 0x7F ≤ '\u2028'.toNat by decide), apart (show 0x7F ≤ '\u2029'.toNat by decide)]

/-- Names that are numbers, truth values or words for nothing do not mean themselves. -/
example : ["12", "0x1F", "true", "Null", ""].all (¬ KeyName ·) := by decide

/-! ## Characters -/

theorem allAllowed_of_all {chars : List Char} (checked : chars.all isAllowed = true) :
    AllAllowed chars :=
  List.all_eq_true.mp checked

theorem allAllowed_append_iff {first second : List Char} :
    AllAllowed (first ++ second) ↔ AllAllowed first ∧ AllAllowed second :=
  List.forall_mem_append

theorem allAllowed_flatMap_iff {Item : Type} {items : List Item} {chars : Item → List Char} :
    AllAllowed (items.flatMap chars) ↔ ∀ item ∈ items, AllAllowed (chars item) :=
  List.forall_mem_flatMap

theorem allAllowed_textChar_iff (char : Char) :
    AllAllowed (Json.textChar char) ↔ char.toNat < 0x20 ∨ isAllowed char = true := by
  have digits : ∀ digit < 16, isAllowed (Json.hexDigit digit) = true := by decide
  unfold Json.textChar
  split
  case h_8 =>
    split
    · next control =>
        have high := digits (char.toNat / 16) (by omega)
        have low := digits (char.toNat % 16) (by omega)
        have letters : AllAllowed ['\\', 'u', '0', '0'] := allAllowed_of_all (by decide)
        exact iff_of_true (allAllowed_append letters (allAllowed_cons high
          (allAllowed_cons low (allAllowed_of_all rfl)))) (.inl control)
    · next large => simp [AllAllowed, large]
  all_goals exact iff_of_true (allAllowed_of_all (by decide)) (by decide)

theorem NodeSource.allAllowed_chars_iff {source : NodeSource}
    (context : ∀ context, source = .build context → AllAllowed context.toList) :
    AllAllowed source.chars ↔ ∀ image, source = .image image →
      ∀ char ∈ image.toList, char.toNat < 0x20 ∨ isAllowed char = true := by
  cases source with
  | image image =>
      have text : (NodeSource.image image).chars =
          "image: \"".toList ++ (image.toList.flatMap Json.textChar ++ ['"']) := rfl
      have before : AllAllowed "image: \"".toList := allAllowed_of_all (by decide)
      have after : AllAllowed ['"'] := allAllowed_of_all (by decide)
      rw [text, allAllowed_append_iff, allAllowed_append_iff, allAllowed_flatMap_iff]
      simp only [before, after, true_and, and_true, allAllowed_textChar_iff]
      exact ⟨fun allowed name same => (NodeSource.image.inj same) ▸ allowed,
        fun allowed => allowed image rfl⟩
  | build directory =>
      have text : (NodeSource.build directory).chars = "build: ".toList ++ directory.toList := rfl
      have before : AllAllowed "build: ".toList := allAllowed_of_all (by decide)
      rw [text, allAllowed_append_iff]
      exact iff_of_true ⟨before, context directory rfl⟩ fun _ same => NodeSource.noConfusion same

theorem allAllowed_name {name : List Char} (isName : ∀ char ∈ name, isNamePart char = true) :
    AllAllowed name :=
  fun char member => isAllowed_of_isNamePart (isName char member)

theorem Node.Tidy.allAllowed_chars_iff {node : Node} (tidy : node.Tidy) {network : String}
    (networkName : NetworkName network) :
    AllAllowed (node.chars network) ↔ ∀ image, node.source = .image image →
      ∀ char ∈ image.toList, char.toNat < 0x20 ∨ isAllowed char = true := by
  have context : ∀ context, node.source = .build context → AllAllowed context.toList := by
    intro context isBuilt
    obtain ⟨path, isContext, isPath⟩ := tidy.context context isBuilt
    rw [isContext]
    refine allAllowed_cons rfl (allAllowed_cons rfl fun char member => ?_)
    have isPart := isPath char member
    unfold isPathPart at isPart
    rw [Bool.or_eq_true, beq_iff_eq] at isPart
    rcases isPart with isName | rfl
    · exact isAllowed_of_isNamePart isName
    · rfl
  have text : node.chars network = node.name.toList ++ ([':', '\n'] ++ padding 4 ++
      (node.source.chars ++ (['\n'] ++ padding 4 ++ "networks".toList ++ [':', '\n'] ++ padding 6 ++
        ['-', ' '] ++ (network.toList ++ ['\n'])))) := by
    simp only [Node.chars, List.append_assoc, List.cons_append, List.nil_append]
  have name := allAllowed_name tidy.name
  have networkChars := allAllowed_name networkName.isName
  have beforeSource : AllAllowed ([':', '\n'] ++ padding 4) := allAllowed_of_all (by decide)
  have afterSource : AllAllowed (['\n'] ++ padding 4 ++ "networks".toList ++ [':', '\n'] ++
      padding 6 ++ ['-', ' ']) := allAllowed_of_all (by decide)
  have feed : AllAllowed ['\n'] := allAllowed_of_all (by decide)
  rw [text]
  generalize ['\n'] ++ padding 4 ++ "networks".toList ++ [':', '\n'] ++ padding 6 ++ ['-', ' '] =
    fixed at afterSource ⊢
  generalize [':', '\n'] ++ padding 4 = fixed' at beforeSource ⊢
  simp only [allAllowed_append_iff, name, beforeSource, afterSource, networkChars, feed, true_and,
    and_true, NodeSource.allAllowed_chars_iff context]

/-- Only images hold characters that must not stand in a text. -/
theorem Manifest.allAllowed_chars_iff {manifest : Manifest}
    (networkName : NetworkName manifest.network) (tidy : ∀ node ∈ manifest.nodes, node.Tidy) :
    AllAllowed manifest.chars ↔ ∀ node ∈ manifest.nodes, ∀ image, node.source = .image image →
      ∀ char ∈ image.toList, char.toNat < 0x20 ∨ isAllowed char = true := by
  have networks : AllAllowed ("networks:\n".toList ++
      (padding 2 ++ (manifest.network.toList ++ [':', '\n']))) :=
    allAllowed_append (allAllowed_of_all (by decide)) (allAllowed_append (allAllowed_padding 2)
      (allAllowed_append (allAllowed_name networkName.isName) (allAllowed_of_all (by decide))))
  unfold Manifest.chars
  rw [allAllowed_append_iff, and_iff_left networks]
  split
  · next none =>
      rw [none]
      exact iff_of_true (allAllowed_of_all (by decide)) (by simp)
  · have services : AllAllowed "services:\n".toList := allAllowed_of_all (by decide)
    rw [allAllowed_append_iff, and_iff_right services, allAllowed_flatMap_iff]
    refine forall₂_congr fun node member => ?_
    rw [allAllowed_append_iff, and_iff_right (allAllowed_padding 2)]
    exact (tidy node member).allAllowed_chars_iff networkName

/-! ## Trees -/

theorem nameLexemes_of_ne {name : List Char} (nonempty : name ≠ []) :
    nameLexemes name = [.key, .scalar .plain name, .value] :=
  if_neg nonempty

theorem meansItself_of_first {text : String} {first second : Char} {rest : List Char}
    (letters : text.toList = first :: second :: rest) (ordinary : beginsOther first = false)
    (noPoint : first = '.' → second = '/') : MeansItself text := by
  unfold MeansItself
  rw [letters, meaning_of_first ordinary noPoint, ← letters, String.ofList_toList]

theorem Node.Tidy.context_means {node : Node} (tidy : node.Tidy) (context : String)
    (isBuilt : node.source = .build context) : MeansItself context := by
  obtain ⟨path, isContext, -⟩ := tidy.context context isBuilt
  exact meansItself_of_first isContext rfl fun _ => rfl

section Trees

variable {network : String} {more : List Lexeme} {condition : Prop}

theorem NodeSource.ReadAs.denotesEntries {source read : NodeSource} (readAs : source.ReadAs read)
    (context : ∀ context, source = .build context → MeansItself context)
    {others : List (FoundValue × Value)}
    (later : DenotesEntries more (HoldEntries others condition)) :
    DenotesEntries (read.lexemes ++ more) (HoldEntries (source.entry :: others)
      ((∀ image, source = .image image → Unfolded image.toList) ∧ condition)) := by
  cases readAs with
  | @image image read same =>
      have scalar := denotes_scalar_value [.key, .value, .blockEnd] true .other read.toList
        (by simp) (.text image)
      have name : MeansItself "image" := by decide
      refine (scalar.cons_value "image" later).mono fun entries holds => ?_
      unfold HoldEntries at holds ⊢
      rw [Scalar.value?_quoted, String.ofList_toList] at holds
      simpa [NodeSource.entry, name, same] using holds
  | @build directory =>
      have scalar := denotes_scalar_value [.key, .value, .blockEnd] true .plain directory.toList
        (by simp) (.text directory)
      have name : MeansItself "build" := by decide
      refine (scalar.cons_value "build" later).mono fun entries holds => ?_
      unfold HoldEntries at holds ⊢
      rw [Scalar.value?_plain_iff] at holds
      simpa [NodeSource.entry, name, context directory rfl] using holds

/-- What follows the name of a node. -/
theorem Node.ReadAs.denotes {node read : Node} (readAs : node.ReadAs read) (tidy : node.Tidy)
    (networkMeans : MeansItself network) :
    Denotes [.key, .value, .blockEnd] true
      (.blockMapping :: (read.source.lexemes ++ nameLexemes "networks".toList ++
        [.blockSequence, .dash, .scalar .plain network.toList, .blockEnd, .blockEnd]))
      (HoldsValue (node.entry network).2
        (∀ image, node.source = .image image → Unfolded image.toList)) := by
  have item := denotes_scalar_value [.dash, .blockEnd] false .plain network.toList (by simp)
    (.text network)
  have list := item.singleton_value [.key, .value, .blockEnd] true (by simp)
  have networks := list.cons_value "networks" denotesEntries_nil_value
  have entries := (readAs.source.denotesEntries tidy.context_means networks).denotes_value
    [.key, .value, .blockEnd] true (by simp)
  have name : MeansItself "networks" := by decide
  have distinct : node.source.entry.1 ≠ .text "networks" := by
    cases node.source <;> simp [NodeSource.entry]
  rw [Scalar.value?_plain_iff] at entries
  rw [nameLexemes_of_ne (by decide), List.append_assoc]
  refine entries.mono fun tree holds => ?_
  simpa [Node.entry, name, networkMeans, distinct] using holds

/-- A name and an image that are taken for themselves. -/
def Node.Means (node : Node) : Prop :=
  MeansItself node.name ∧ ∀ image, node.source = .image image → Unfolded image.toList

theorem denotes_nodes {nodes taken : List Node} (read : List.Forall₂ Node.ReadAs nodes taken)
    (named : ∀ node ∈ nodes, node.name.toList ≠ [])
    (tidy : ∀ node ∈ nodes, node.Tidy) (networkMeans : MeansItself network) :
    DenotesEntries (taken.flatMap (Node.lexemes network) ++ [.blockEnd])
      (HoldEntries (nodes.map (Node.entry network)) (∀ node ∈ nodes, node.Means)) := by
  induction read with
  | nil => simpa using denotesEntries_nil_value
  | @cons node read nodes taken readAs _ inductionHypothesis =>
      rw [List.forall_mem_cons] at named tidy
      have here := readAs.denotes tidy.1 networkMeans
      have entries := here.cons_value node.name (inductionHypothesis named.2 tidy.2)
      rw [List.flatMap_cons, List.append_assoc]
      unfold Node.lexemes
      rw [readAs.name, nameLexemes_of_ne named.1]
      rw [List.forall_mem_cons, Node.Means, and_assoc]
      exact entries

theorem refuses_nodes {nodes taken : List Node} (read : List.Forall₂ Node.ReadAs nodes taken)
    (nameless : ∃ node ∈ nodes, node.name.toList = [])
    (tidy : ∀ node ∈ nodes, node.Tidy) (networkMeans : MeansItself network) :
    RefusesEntries (taken.flatMap (Node.lexemes network) ++ [.blockEnd]) := by
  induction read with
  | nil => simp at nameless
  | @cons node read nodes taken readAs _ inductionHypothesis =>
      rw [List.forall_mem_cons] at tidy
      rw [List.exists_mem_cons_iff] at nameless
      rw [List.flatMap_cons, List.append_assoc]
      unfold Node.lexemes
      rw [readAs.name]
      by_cases named : node.name.toList = []
      · rw [named]
        exact refusesEntries_colon _
      · rw [nameLexemes_of_ne named]
        have here := readAs.denotes tidy.1 networkMeans
        exact .cons node.name.toList here
          (inductionHypothesis (nameless.resolve_left named) tidy.2)

end Trees

/-! ## Manifests -/

/-- All about a manifest that does not depend on images and is not about the meaning of names. -/
structure Manifest.Tidy (manifest : Manifest) : Prop where
  networkName : NetworkName manifest.network
  networkMeans : MeansItself manifest.network
  nodes : ∀ node ∈ manifest.nodes, node.Tidy

namespace Manifest

section Tidy

variable {manifest : Manifest} {taken : List Node}

theorem denotes_services (tidy : manifest.Tidy)
    (read : List.Forall₂ Node.ReadAs manifest.nodes taken)
    (named : ∀ node ∈ manifest.nodes, node.name.toList ≠ []) :
    Denotes [.key, .value, .blockEnd] true (nodesLexemes manifest.network taken)
      (HoldsValue (.mapping (manifest.nodes.map (Node.entry manifest.network)))
        (manifest.nodeNames.Nodup ∧ ∀ node ∈ manifest.nodes, node.Means)) := by
  have entries := denotes_nodes read named tidy.nodes tidy.networkMeans
  have names : (manifest.nodes.map (Node.entry manifest.network)).map Prod.fst =
      manifest.nodeNames.map FoundValue.text := by
    unfold nodeNames
    rw [List.map_map, List.map_map]
    rfl
  have inject : Function.Injective FoundValue.text := fun _ _ same => FoundValue.text.inj same
  unfold nodesLexemes
  split
  · next none =>
      subst none
      have noNodes := List.forall₂_nil_right_iff.mp read
      have empty := denotes_emptyMap_value [.key, .value, .blockEnd] true (by simp)
      simpa [noNodes, nodeNames] using empty
  · have inner := entries.denotes_value [.key, .value, .blockEnd] true (by simp)
    rwa [names, List.nodup_map_iff inject] at inner

theorem lexemes_eq (networkName : NetworkName manifest.network) (taken : List Node) :
    Manifest.lexemes { manifest with nodes := taken } =
      .blockMapping :: ([.key, .scalar .plain "services".toList, .value] ++
        nodesLexemes manifest.network taken ++
        ([.key, .scalar .plain "networks".toList, .value] ++
          [.blockMapping, .key, .scalar .plain manifest.network.toList, .value, .blockEnd] ++
          [.blockEnd])) := by
  unfold lexemes
  rw [nameLexemes_of_ne networkName.nonempty, @nameLexemes_of_ne "services".toList (by decide),
    @nameLexemes_of_ne "networks".toList (by decide)]
  simp only [List.append_assoc, List.cons_append, List.nil_append]

/-- The tree of a manifest. -/
theorem denotes (tidy : manifest.Tidy) (read : List.Forall₂ Node.ReadAs manifest.nodes taken)
    (named : ∀ node ∈ manifest.nodes, node.name.toList ≠ []) :
    Denotes [] false (Manifest.lexemes { manifest with nodes := taken })
      (HoldsValue manifest.value
        (manifest.nodeNames.Nodup ∧ ∀ node ∈ manifest.nodes, node.Means)) := by
  have network := (denotesEntries_missing_value manifest.network).denotes_value
    [.key, .value, .blockEnd] true (by simp)
  have networks := network.cons_value "networks" denotesEntries_nil_value
  have services := (denotes_services tidy read named).cons_value "services" networks
  have root := services.denotes_value [] false (by simp)
  have names : MeansItself "networks" ∧ MeansItself "services" := by decide
  rw [lexemes_eq tidy.networkName taken]
  refine root.mono fun tree holds => ?_
  simpa [value, names, tidy.networkMeans] using holds

theorem refuses (tidy : manifest.Tidy) (read : List.Forall₂ Node.ReadAs manifest.nodes taken)
    (nameless : ∃ node ∈ manifest.nodes, node.name.toList = []) {tokens : List Token}
    (isText : tokens.map Token.lexeme =
      Manifest.lexemes { manifest with nodes := taken } ++ [.textEnd]) :
    Parsing.document { tokens } = none := by
  have some : taken ≠ [] := by
    rintro rfl
    obtain ⟨node, member, -⟩ := nameless
    rw [List.forall₂_nil_right_iff.mp read] at member
    cases member
  have entries := refuses_nodes read nameless tidy.nodes tidy.networkMeans
  rw [lexemes_eq tidy.networkName taken, nodesLexemes, if_neg some] at isText
  exact (entries.inner "services".toList _).document isText

/-- The text of a manifest holds its value exactly if names and images are taken for themselves. -/
theorem ofText?_eq_iff (tidy : manifest.Tidy) :
    Value.ofText? manifest.text.toList = some manifest.value ↔
      manifest.nodeNames.Nodup ∧ ∀ node ∈ manifest.nodes,
        KeyName node.name ∧ ∀ image, node.source = .image image → Kept image := by
  have allowedIff := allAllowed_chars_iff tidy.networkName tidy.nodes
  rw [toList_text]
  -- There may be no tokens, no tree where a name is empty, or a tree with another value.
  rcases scan_chars tidy.networkName tidy.nodes with
    ⟨taken, tokens, read, allowed, scanned, isText⟩ | ⟨refused, broken⟩
  · have short := Node.short_of_readAs read
    have kept : (∀ node ∈ manifest.nodes,
        KeyName node.name ∧ ∀ image, node.source = .image image → Kept image) ↔
          ∀ node ∈ manifest.nodes, node.Means := by
      refine forall₂_congr fun node member => ?_
      constructor
      · exact fun ⟨key, kept⟩ => ⟨key.means, fun image isImage => (kept image isImage).unfolded⟩
      · exact fun ⟨means, unfolded⟩ => ⟨⟨short node member, means⟩, fun image isImage =>
          ⟨allowedIff.mp allowed node member image isImage, unfolded image isImage⟩⟩
    rw [kept]
    by_cases named : ∀ node ∈ manifest.nodes, node.name.toList ≠ []
    · obtain ⟨tree, stream, parsed, holds⟩ := (denotes tidy read named).document isText
      rw [Value.ofText?_of_scan scanned, parsed]
      exact holds
    · have nameless : ∃ node ∈ manifest.nodes, node.name.toList = [] := by
        simpa only [ne_eq, not_forall, not_not, exists_prop] using named
      rw [Value.ofText?_of_scan scanned, refuses tidy read nameless isText]
      refine iff_of_false (by simp) fun ⟨_, means⟩ => ?_
      obtain ⟨node, member, noName⟩ := nameless
      have isNothing := (means node member).1
      unfold MeansItself at isNothing
      rw [noName] at isNothing
      cases isNothing
  · rw [Value.ofText?_of_refused refused]
    refine iff_of_false (by simp) fun ⟨_, kept⟩ => broken ⟨?_, ?_⟩
    · exact allowedIff.mpr fun node member image isImage =>
        ((kept node member).2 image isImage).allowed
    · exact fun node member => ⟨(kept node member).1.short, fun image isImage =>
        ((kept node member).2 image isImage).unfolded⟩

/-- No document is found where an image holds a character that JSON does not escape and that must
not stand in a text of YAML. -/
theorem ofText?_eq_none (tidy : manifest.Tidy) {node : Node} (member : node ∈ manifest.nodes)
    {image : String} (isImage : node.source = .image image) {char : Char}
    (inImage : char ∈ image.toList) (noControl : 0x20 ≤ char.toNat)
    (notAllowed : isAllowed char = false) : Value.ofText? manifest.text.toList = none := by
  have refused : ¬ AllAllowed manifest.chars := by
    rw [allAllowed_chars_iff tidy.networkName tidy.nodes]
    intro allowed
    rcases allowed node member image isImage char inImage with control | isAllowed'
    · exact Nat.not_lt.mpr noControl control
    · rw [notAllowed] at isAllowed'
      cases isAllowed'
  rw [toList_text]
  exact Value.ofText?_of_refused (if_neg fun all => refused (List.all_eq_true.mp all))

end Tidy

end Manifest

/-! ## Scenarios -/

theorem networkName_network (run : RunId) : NetworkName (Naming.network run) := by
  have letters : (Naming.network run).toList =
      "chaosflow_".toList ++ Nat.toDigits 10 run.toNat := by
    unfold Naming.network Numeral.decimalText
    rw [String.toList_append, @String.toList_ofList (Nat.toDigits 10 run.toNat)]
  have digits : (Nat.toDigits 10 run.toNat).length ≤ 10 :=
    Nat.toDigits_length 10 run.toNat 10 (by decide) (Nat.lt_trans run.toNat_lt (by decide))
  refine ⟨?_, fun char member => ?_, ?_⟩
  · rw [letters]
    exact List.append_ne_nil_of_left_ne_nil (by decide) _
  · rw [letters, List.mem_append] at member
    rcases member with inStem | inNumber
    · exact isNamePart_of_mem (by decide) char inStem
    · exact isNamePart_toDigits _ char inNumber
  · rw [letters, List.length_append]
    exact Nat.le_trans (Nat.add_le_add_left digits _) (by decide)

theorem isNamePart_journeyNode (journey : String) :
    ∀ char ∈ (Naming.journeyNode journey).toList, isNamePart char = true := by
  intro char member
  unfold Naming.journeyNode at member
  rw [String.toList_append, List.mem_append] at member
  rcases member with inStem | inName
  · exact isNamePart_of_mem (by decide) char inStem
  · exact Naming.isNameChar_of_mem_sanitize journey inName

theorem Node.tidy_ofService (service : Service) : (Node.ofService service).Tidy where
  name _ := Naming.isNameChar_of_mem_sanitize service.name
  context _ isBuilt := by cases isBuilt

theorem Node.tidy_ofJourney (journey : Journey) : (Node.ofJourney journey).Tidy where
  name := isNamePart_journeyNode journey.name
  context context isBuilt := by
    obtain rfl := NodeSource.build.inj isBuilt
    refine ⟨"_journeys/".toList ++ (Naming.sanitize journey.name).toList, ?_, ?_⟩
    · rw [String.toList_append, String.toList_append, String.toList_append]
      rfl
    · intro char member
      rcases List.mem_append.mp member with inStem | inName
      · have stem : "_journeys/".toList.all isPathPart = true := by decide
        exact List.all_eq_true.mp stem char inStem
      · have isPart : isNamePart char = true :=
          Naming.isNameChar_of_mem_sanitize journey.name inName
        unfold isPathPart
        rw [isPart, Bool.true_or]

theorem Manifest.tidy_ofScenario (scenario : Scenario) (run : RunId) :
    (Manifest.ofScenario scenario run).Tidy where
  networkName := networkName_network run
  networkMeans := by
    have letters : (Naming.network run).toList =
        "chaosflow_".toList ++ (Numeral.decimalText run.toNat).toList := String.toList_append
    exact meansItself_of_first letters rfl (by decide)
  nodes := by
    unfold ofScenario
    simp only [List.forall_mem_append, List.forall_mem_map]
    exact ⟨fun service _ => Node.tidy_ofService service,
      fun journey _ => Node.tidy_ofJourney journey⟩

namespace Scenario

/-- The manifest of a scenario holds what it stands for exactly if the names of services are keys
that mean themselves, their images are kept, and the names of journeys are not too long. -/
theorem manifest_faithful_iff (scenario : Scenario) (run : RunId)
    (distinct : (Manifest.ofScenario scenario run).nodeNames.Nodup) :
    Value.ofText? (Manifest.ofScenario scenario run).text.toList =
        some (Manifest.ofScenario scenario run).value ↔
      (∀ service ∈ scenario.services,
        KeyName (Naming.sanitize service.name) ∧ Kept service.image) ∧
      ∀ journey ∈ scenario.journeys,
        (Naming.journeyNode journey.name).toList.length ≤ Lexer.longestKey := by
  have tidy := Manifest.tidy_ofScenario scenario run
  rw [Manifest.ofText?_eq_iff tidy, and_iff_right distinct]
  unfold Manifest.ofScenario
  simp only [List.forall_mem_append, List.forall_mem_map]
  refine and_congr (forall₂_congr fun service _ => ?_) (forall₂_congr fun journey _ => ?_)
  · refine and_congr_right fun _ => ⟨fun kept => kept service.image rfl, ?_⟩
    rintro kept image isImage
    rwa [← NodeSource.image.inj isImage]
  · have letters : (Naming.journeyNode journey.name).toList =
        "journey__".toList ++ (Naming.sanitize journey.name).toList := String.toList_append
    have means : MeansItself (Naming.journeyNode journey.name) :=
      meansItself_of_first letters rfl (by decide)
    refine ⟨fun both => both.1.short, fun short => ⟨⟨short, means⟩, fun _ isImage => ?_⟩⟩
    cases isImage

/-- A scenario with a service and a journey. -/
def scenarioWithImage (service image journey : String) : Scenario where
  services := [{ name := service, image }]
  journeys := [{ name := journey }]
  stages := []

/-- Quotes, backslashes, line feeds, other control characters and line separators are kept. -/
theorem manifest_faithful_of_quotes :
    let scenario := scenarioWithImage "2nd web!" "a: \"b\\\n\t# \x01é\u2028-- 😀" "check out"
    (Manifest.ofScenario scenario 7).nodeNames.Nodup ∧
      Value.ofText? (Manifest.ofScenario scenario 7).text.toList =
        some (Manifest.ofScenario scenario 7).value := by
  intro scenario
  have distinct : (Manifest.ofScenario scenario 7).nodeNames.Nodup := by decide
  refine ⟨distinct, (manifest_faithful_iff scenario 7 distinct).mpr ⟨?_, ?_⟩⟩
  · exact List.forall_mem_singleton.mpr ⟨by decide, by decide⟩
  · decide

/-- A delete character is not escaped in JSON and must not stand in a text of YAML. -/
theorem not_manifest_faithful_of_delete :
    let scenario := scenarioWithImage "x" "a\x7fb" "y"
    (Manifest.ofScenario scenario 0).nodeNames.Nodup ∧
      Value.ofText? (Manifest.ofScenario scenario 0).text.toList ≠
        some (Manifest.ofScenario scenario 0).value := by
  intro scenario
  have noValue : Value.ofText? (Manifest.ofScenario scenario 0).text.toList = none :=
    Manifest.ofText?_eq_none (Manifest.tidy_ofScenario scenario 0) List.mem_cons_self rfl
      (show '\x7f' ∈ "a\x7fb".toList by decide) (by decide) (by decide)
  refine ⟨by decide, ?_⟩
  rw [noValue]
  exact (Option.some_ne_none _).symm

end Scenario

end FaultDrill
