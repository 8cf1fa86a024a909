import Mathlib.Data.List.Forall2
import FaultDrill.Manifest
import FaultDrill.Proofs.Yaml.EntryTokens

/-!
The tokens of a manifest for a reader of YAML.

Owns:
- what stands in a manifest besides images (`Node.Tidy`, `NetworkName`);
- the tokens of nodes and of whole manifests;
- nodes as they are read, whose images may differ from what was written (`ReadAs`).

Main statement: the tokens of a manifest are those of its nodes as they are read, unless a name is
too long or an image is refused (`Manifest.scan_chars`).
-/

namespace FaultDrill

open Yaml Yaml.Lexing

/-! ## Characters -/

/-- What is written about the source of a node. -/
def NodeSource.chars : NodeSource → List Char
  | .image name =>
    "image".toList ++ ':' :: ' ' :: '"' :: (name.toList.flatMap Json.textChar ++ ['"'])
  | .build context => "build".toList ++ ':' :: ' ' :: context.toList

theorem NodeSource.chars_image (name : String) : (NodeSource.image name).chars =
    "image".toList ++ ':' :: ' ' :: '"' :: (name.toList.flatMap Json.textChar ++ ['"']) :=
  rfl

theorem NodeSource.chars_build (context : String) : (NodeSource.build context).chars =
    "build".toList ++ ':' :: ' ' :: context.toList :=
  rfl

/-- The lines about a node, without the blanks before the first one. -/
def Node.chars (network : String) (node : Node) : List Char :=
  node.name.toList ++ ':' :: '\n' :: (padding 4 ++ (node.source.chars ++ '\n' ::
    (padding 4 ++ ("networks".toList ++ ':' :: '\n' ::
      (padding 6 ++ '-' :: ' ' :: (network.toList ++ ['\n']))))))

/-- All characters of lines. -/
def lineChars (lines : List String) : List Char := lines.flatMap (·.toList ++ ['\n'])

theorem lineChars_append (first second : List String) :
    lineChars (first ++ second) = lineChars first ++ lineChars second :=
  List.flatMap_append

theorem Node.toList_sourceLine (node : Node) :
    node.sourceLine.toList = padding 4 ++ node.source.chars := by
  obtain ⟨name, source⟩ := node
  cases source with
  | image image =>
      have written := @String.toList_ofList (image.toList.flatMap Json.textChar)
      unfold Node.sourceLine Json.textLiteral
      rw [String.toList_append, String.toList_append, String.toList_append, written,
        List.append_assoc]
      rfl
  | build context =>
      unfold Node.sourceLine
      rw [String.toList_append]
      rfl

theorem Node.lineChars_lines (network : String) (node : Node) :
    lineChars (node.lines network) = padding 2 ++ node.chars network := by
  have key : ("  " ++ node.name ++ ":").toList = padding 2 ++ (node.name.toList ++ [':']) := by
    rw [String.toList_append, String.toList_append, List.append_assoc]
    rfl
  have networks : "    networks:".toList = padding 4 ++ ("networks".toList ++ [':']) := by decide
  have item : ("      - " ++ network).toList = padding 6 ++ '-' :: ' ' :: network.toList := by
    rw [String.toList_append]
    rfl
  unfold lineChars Node.lines Node.chars
  simp only [List.flatMap_cons, List.flatMap_nil, key, node.toList_sourceLine, networks, item,
    List.append_assoc, List.cons_append, List.nil_append, List.append_nil]

namespace Manifest

/-- The characters of a manifest. -/
def chars (manifest : Manifest) : List Char :=
  (if manifest.nodes = [] then "services: \x7b\x7d\n".toList
    else "services:\n".toList ++ manifest.nodes.flatMap fun node =>
      padding 2 ++ node.chars manifest.network) ++
  ("networks:\n".toList ++ (padding 2 ++ (manifest.network.toList ++ [':', '\n'])))

theorem toList_text (manifest : Manifest) : manifest.text.toList = manifest.chars := by
  have whole : manifest.text.toList = lineChars manifest.lines := by
    unfold text lineChars
    simp [String.toList_join, List.flatMap_map]
  have nodes : ∀ nodes : List Node, lineChars (nodes.flatMap (Node.lines manifest.network)) =
      nodes.flatMap fun node => padding 2 ++ node.chars manifest.network := by
    intro nodes
    induction nodes with
    | nil => rfl
    | cons node nodes inductionHypothesis =>
        rw [List.flatMap_cons, lineChars_append, inductionHypothesis, Node.lineChars_lines,
          List.flatMap_cons]
  have networks : lineChars ["networks:", "  " ++ manifest.network ++ ":"] =
      "networks:\n".toList ++ (padding 2 ++ (manifest.network.toList ++ [':', '\n'])) := by
    have network : ("  " ++ manifest.network ++ ":").toList =
        padding 2 ++ (manifest.network.toList ++ [':']) := by
      rw [String.toList_append, String.toList_append, List.append_assoc]
      rfl
    have first : "networks:".toList ++ ['\n'] = "networks:\n".toList := by decide
    unfold lineChars
    rw [List.flatMap_cons, List.flatMap_cons, List.flatMap_nil, network, first]
    simp only [List.append_assoc, List.append_nil, List.cons_append, List.nil_append]
  rw [whole]
  unfold lines chars
  rw [lineChars_append, networks]
  by_cases none : manifest.nodes = []
  · rw [if_pos (by simpa using none), if_pos none]
    rfl
  · have services : lineChars ("services:" :: manifest.nodes.flatMap
        (Node.lines manifest.network)) = "services:\n".toList ++
          lineChars (manifest.nodes.flatMap (Node.lines manifest.network)) := rfl
    rw [if_neg (by simpa using none), if_neg none, services, nodes]

end Manifest

/-! ## Tokens -/

/-- The tokens of the source of a node. -/
def NodeSource.lexemes : NodeSource → List Lexeme
  | .image name => nameLexemes "image".toList ++ [.scalar .other name.toList]
  | .build context => nameLexemes "build".toList ++ [.scalar .plain context.toList]

/-- The tokens of a node. -/
def Node.lexemes (network : String) (node : Node) : List Lexeme :=
  nameLexemes node.name.toList ++ .blockMapping :: (node.source.lexemes ++
    nameLexemes "networks".toList ++
      [.blockSequence, .dash, .scalar .plain network.toList, .blockEnd, .blockEnd])

/-- The tokens of all nodes. -/
def nodesLexemes (network : String) (nodes : List Node) : List Lexeme :=
  if nodes = [] then [.mapOpen, .mapClose]
  else .blockMapping :: (nodes.flatMap (Node.lexemes network) ++ [.blockEnd])

/-- The tokens of a manifest, but for the end of the text. -/
def Manifest.lexemes (manifest : Manifest) : List Lexeme :=
  .blockMapping :: (nameLexemes "services".toList ++
    nodesLexemes manifest.network manifest.nodes ++
    nameLexemes "networks".toList ++ .blockMapping ::
      (nameLexemes manifest.network.toList ++ [.blockEnd, .blockEnd]))

/-- A source as it is read. The image that is read is the same exactly if no white space in it is
folded. -/
inductive NodeSource.ReadAs : NodeSource → NodeSource → Prop where
  | image {image read : String} (same : read = image ↔ Unfolded image.toList) :
      ReadAs (.image image) (.image read)
  | build {context : String} : ReadAs (.build context) (.build context)

/-- A node as it is read, whose name is a key. -/
structure Node.ReadAs (node read : Node) : Prop where
  name : read.name = node.name
  short : node.name.toList.length ≤ Lexer.longestKey
  source : node.source.ReadAs read.source

theorem Node.short_of_readAs {nodes taken : List Node}
    (read : List.Forall₂ Node.ReadAs nodes taken) :
    ∀ node ∈ nodes, node.name.toList.length ≤ Lexer.longestKey := by
  induction read with
  | nil => simp
  | cons readAs _ inductionHypothesis =>
      exact List.forall_mem_cons.mpr ⟨readAs.short, inductionHypothesis⟩

/-- The name of a node consists of letters, digits and underscores, and a context is a path of such
names. -/
structure Node.Tidy (node : Node) : Prop where
  name : ∀ char ∈ node.name.toList, isNamePart char = true
  context : ∀ context, node.source = .build context → ∃ path,
    context.toList = '.' :: '/' :: path ∧ ∀ char ∈ path, isPathPart char = true

/-- The name of a node is short enough for a key, and no image is folded or refused. -/
structure Node.Plain (node : Node) : Prop where
  name : node.name.toList.length ≤ Lexer.longestKey
  image : ∀ image, node.source = .image image → Unfolded image.toList

/-- The name of a network may be a key. -/
structure NetworkName (network : String) : Prop where
  nonempty : network.toList ≠ []
  isName : ∀ char ∈ network.toList, isNamePart char = true
  short : network.toList.length ≤ Lexer.longestKey

theorem isNamePart_of_mem {name : String} (checked : name.toList.all isNamePart = true) :
    ∀ char ∈ name.toList, isNamePart char = true :=
  List.all_eq_true.mp checked

section Nodes

variable {lexer : Lexer} {given : List Lexeme} {rest : List Char} {network : String}

theorem NodeSource.leads {source : NodeSource}
    (tidy : ∀ context, source = .build context → ∃ path,
      context.toList = '.' :: '/' :: path ∧ ∀ char ∈ path, isPathPart char = true)
    (clear : Clear rest)
    (between : Between lexer 4 (source.chars ++ '\n' :: (padding 4 ++ rest)) [2, 0] given) :
    Leads lexer (∀ image, source = .image image → Unfolded image.toList) fun after =>
      ∃ read, source.ReadAs read ∧
        Between after 4 rest [4, 2, 0] (given ++ .blockMapping :: read.lexemes) := by
  have left : ∀ open' ∈ [2, 0].head?, open' ≤ 4 := by decide
  have opened : (entered 4 [2, 0]).2 = [.blockMapping] := rfl
  cases source with
  | image image =>
      have text : (NodeSource.image image).chars ++ '\n' :: (padding 4 ++ rest) =
          "image".toList ++ ':' :: ' ' ::
            ('"' :: literalTail ('\n' :: (padding 4 ++ rest)) image.toList) := by
        simp only [NodeSource.chars_image, literalTail, List.append_assoc, List.cons_append,
          List.nil_append]
      rw [text] at between
      have entry := between.leads_inline left (by decide) (isNamePart_of_mem (by decide)) rfl
      have value := entry.trans fun after found => by
        obtain ⟨position, right, begins⟩ := found
        exact begins.leads_literal right clear
      refine value.mono ?_ ?_
      · exact fun unfolded => ⟨by decide, unfolded image rfl⟩
      · rintro after ⟨read, same, ended⟩
        have lexemes : (NodeSource.image (String.ofList read)).lexemes =
            nameLexemes "image".toList ++ [.scalar .other read] := by
          change nameLexemes "image".toList ++ [.scalar .other (String.ofList read).toList] = _
          rw [@String.toList_ofList read]
        refine ⟨.image (String.ofList read), .image ?_, ?_⟩
        · rw [← same, ← String.toList_inj, @String.toList_ofList read]
        · rw [opened] at ended
          rw [lexemes]
          simpa only [List.append_assoc, List.cons_append, List.nil_append] using ended
  | build context =>
      obtain ⟨path, isContext, isPath⟩ := tidy context rfl
      have text : (NodeSource.build context).chars ++ '\n' :: (padding 4 ++ rest) =
          "build".toList ++ ':' :: ' ' :: ('.' :: '/' :: path ++ '\n' :: (padding 4 ++ rest)) := by
        simp only [NodeSource.chars_build, isContext, List.append_assoc, List.cons_append]
      rw [text] at between
      have entry := between.leads_inline left (by decide) (isNamePart_of_mem (by decide)) rfl
      have value := entry.trans fun after found => by
        obtain ⟨position, right, begins⟩ := found
        exact (begins.reaches_path right (Nat.le_refl 4) clear isPath).leads True
      refine value.mono ?_ ?_
      · exact fun _ => ⟨by decide, trivial⟩
      · intro after ended
        refine ⟨.build context, .build, ?_⟩
        have lexemes : (NodeSource.build context).lexemes =
            nameLexemes "build".toList ++ [.scalar .plain ('.' :: '/' :: path)] := by
          rw [← isContext]
          rfl
        rw [opened] at ended
        rw [lexemes]
        simpa only [List.append_assoc, List.cons_append, List.nil_append] using ended

/-- The only item of the networks of a node. -/
theorem leads_networks (networkName : NetworkName network) {below : Nat} (left : below < 4)
    (clear : Clear rest)
    (between : Between lexer 4 ("networks".toList ++ ':' :: '\n' :: (padding 6 ++
      '-' :: ' ' :: (network.toList ++ '\n' :: (padding below ++ rest)))) [4, 2, 0] given) :
    Leads lexer True (Between · below rest [2, 0]
      (given ++ (nameLexemes "networks".toList ++
        [.blockSequence, .dash, .scalar .plain network.toList, .blockEnd, .blockEnd]))) := by
  have key := between.leads_entry (by decide) (isNamePart_of_mem (by decide)) (fun _ => by decide)
    rfl
  refine (key.trans fun after entry => (entry.2.reaches_item (by decide) networkName.nonempty
    networkName.isName (Nat.lt_add_right 2 left) clear).leads True).mono ?_ ?_
  · exact fun _ => ⟨by decide, trivial⟩
  · intro after ended
    have opened : (entered 4 [4, 2, 0]).2 = [] := rfl
    have outer := ended.outer left
    rw [opened] at outer
    simpa only [List.append_assoc, List.cons_append, List.nil_append] using outer

theorem Node.leads {node : Node} (tidy : node.Tidy) (networkName : NetworkName network)
    {below : Nat} (left : below ≤ 2) (clear : Clear rest) {columns : List Nat}
    (isOpen : columns = [0] ∨ columns = [2, 0])
    (between : Between lexer 2 (node.chars network ++ (padding below ++ rest)) columns given) :
    Leads lexer node.Plain fun after => ∃ read, node.ReadAs read ∧
      Between after below rest [2, 0] (given ++ (entered 2 columns).2 ++ read.lexemes network) := by
  have text : node.chars network ++ (padding below ++ rest) =
      node.name.toList ++ ':' :: '\n' :: (padding 4 ++ (node.source.chars ++ '\n' ::
        (padding 4 ++ ("networks".toList ++ ':' :: '\n' :: (padding 6 ++
          '-' :: ' ' :: (network.toList ++ '\n' :: (padding below ++ rest))))))) := by
    simp only [Node.chars, List.append_assoc, List.cons_append, List.nil_append]
  have heads : ∀ open' ∈ columns.head?, open' ≤ 2 := by
    rcases isOpen with rfl | rfl <;> decide
  have inside : (entered 2 columns).1 = [2, 0] := by
    rcases isOpen with rfl | rfl <;> rfl
  have clearSource : ∀ more, Clear (node.source.chars ++ more) := by
    intro more
    cases node.source <;> rfl
  have clearNetworks : ∀ more, Clear ("networks".toList ++ more) := fun _ => rfl
  rw [text] at between
  have key := between.leads_entry heads tidy.name (fun _ => by decide) (clearSource _)
  rw [inside] at key
  have source : Leads lexer _ fun after => ∃ taken, node.ReadAs { node with source := taken } ∧
      Between after 4 _ [4, 2, 0] (given ++ (entered 2 columns).2 ++
        nameLexemes node.name.toList ++ .blockMapping :: taken.lexemes) :=
    key.trans fun after entry =>
      (NodeSource.leads tidy.context (clearNetworks _) entry.2).mono id fun _ found =>
        found.elim fun taken ended => ⟨taken, ⟨rfl, entry.1, ended.1⟩, ended.2⟩
  have networks : Leads lexer _ fun after => ∃ taken, node.ReadAs { node with source := taken } ∧
      Between after below rest [2, 0] (given ++ (entered 2 columns).2 ++
        nameLexemes node.name.toList ++ .blockMapping :: taken.lexemes ++
          (nameLexemes "networks".toList ++
            [.blockSequence, .dash, .scalar .plain network.toList, .blockEnd, .blockEnd])) :=
    source.trans fun after found => found.elim fun taken between =>
      (leads_networks networkName (Nat.lt_of_le_of_lt left (by decide)) clear between.2).mono id
        fun _ ended => ⟨taken, between.1, ended⟩
  refine networks.mono (fun plain => ⟨⟨plain.name, plain.image⟩, trivial⟩) ?_
  rintro after ⟨taken, readAs, ended⟩
  refine ⟨{ node with source := taken }, readAs, ?_⟩
  unfold Node.lexemes
  simpa only [List.append_assoc, List.cons_append, List.nil_append] using ended

theorem Node.Tidy.clear {node : Node} (tidy : node.Tidy) (network : String) (rest : List Char) :
    Clear (node.chars network ++ rest) := by
  have isName := tidy.name
  unfold Node.chars
  cases letters : node.name.toList with
  | nil => rfl
  | cons first name =>
      rw [letters] at isName
      exact clear_of_isNamePart (isName first List.mem_cons_self) _

/-- The nodes after the first one begin at the column of the block that it opens. -/
theorem leads_nodes (networkName : NetworkName network) (clear : Clear rest) {node : Node}
    {nodes : List Node} (tidy : ∀ node' ∈ node :: nodes, node'.Tidy) {columns : List Nat}
    (isOpen : columns = [0] ∨ columns = [2, 0])
    (between : Between lexer 2 (node.chars network ++
      (nodes.flatMap (fun node => padding 2 ++ node.chars network) ++ rest)) columns given) :
    Leads lexer (∀ node' ∈ node :: nodes, node'.Plain) fun after =>
      ∃ taken, List.Forall₂ Node.ReadAs (node :: nodes) taken ∧
        Between after 0 rest [2, 0]
          (given ++ (entered 2 columns).2 ++ taken.flatMap (Node.lexemes network)) := by
  induction nodes generalizing node lexer columns given with
  | nil =>
      have here := tidy node List.mem_cons_self
      have leads := Node.leads here networkName (Nat.zero_le 2) clear isOpen between
      refine leads.mono (fun plain => plain node List.mem_cons_self) ?_
      rintro after ⟨taken, readAs, ended⟩
      refine ⟨[taken], .cons readAs .nil, ?_⟩
      rwa [List.flatMap_singleton]
  | cons next nodes inductionHypothesis =>
      rw [List.forall_mem_cons] at tidy
      have clearNext := (tidy.2 next List.mem_cons_self).clear network
        (nodes.flatMap (fun node => padding 2 ++ node.chars network) ++ rest)
      rw [List.flatMap_cons, List.append_assoc, List.append_assoc] at between
      have first := Node.leads tidy.1 networkName (Nat.le_refl 2) clearNext isOpen between
      have all : Leads lexer (node.Plain ∧ ∀ node' ∈ next :: nodes, node'.Plain) fun after =>
          ∃ taken, List.Forall₂ Node.ReadAs (node :: next :: nodes) taken ∧
            Between after 0 rest [2, 0]
              (given ++ (entered 2 columns).2 ++ taken.flatMap (Node.lexemes network)) := by
        refine first.trans fun after found => ?_
        obtain ⟨taken, readAs, between⟩ := found
        refine (inductionHypothesis tidy.2 (.inr rfl) between).mono id ?_
        rintro after ⟨others, read, ended⟩
        have isOpen : (entered 2 [2, 0]).2 = [] := rfl
        refine ⟨taken :: others, .cons readAs read, ?_⟩
        rw [isOpen] at ended
        simpa only [List.flatMap_cons, List.append_assoc, List.append_nil] using ended
      exact all.mono List.forall_mem_cons.mp fun _ ended => ended

/-- The part of a manifest before its networks. -/
theorem leads_services {manifest : Manifest} (networkName : NetworkName manifest.network)
    (tidy : ∀ node ∈ manifest.nodes, node.Tidy) (clear : Clear rest)
    (between : Between lexer 0 ((if manifest.nodes = [] then "services: \x7b\x7d\n".toList
      else "services:\n".toList ++ manifest.nodes.flatMap fun node =>
        padding 2 ++ node.chars manifest.network) ++ rest) [] []) :
    Leads lexer (∀ node ∈ manifest.nodes, node.Plain) fun after =>
      ∃ taken, List.Forall₂ Node.ReadAs manifest.nodes taken ∧
        Between after 0 rest [0] (.blockMapping :: (nameLexemes "services".toList ++
          nodesLexemes manifest.network taken)) := by
  have opened : entered 0 [] = ([0], [.blockMapping]) := rfl
  cases nodes : manifest.nodes with
  | nil =>
      rw [nodes, if_pos rfl] at between
      have text : "services: \x7b\x7d\n".toList ++ rest = "services".toList ++ ':' :: ' ' ::
          ('\x7b' :: '\x7d' :: '\n' :: (padding 0 ++ rest)) := rfl
      rw [text] at between
      have key := between.leads_inline (by simp) (by decide) (isNamePart_of_mem (by decide)) rfl
      rw [opened] at key
      have all : Leads lexer ("services".toList.length ≤ Lexer.longestKey ∧ True)
          (Between · 0 rest [0] (([] ++ [.blockMapping] ++ nameLexemes "services".toList) ++
            [.mapOpen, .mapClose])) := by
        refine key.trans fun after found => ?_
        obtain ⟨position, right, begins⟩ := found
        exact (begins.reaches_emptyMap right clear).leads True
      refine all.mono (fun _ => ⟨by decide, trivial⟩) fun after ended => ⟨[], .nil, ?_⟩
      simpa [nodesLexemes] using ended
  | cons node others =>
      rw [nodes] at tidy
      rw [nodes, if_neg (List.cons_ne_nil _ _)] at between
      have text : "services:\n".toList ++ (node :: others).flatMap
            (fun node => padding 2 ++ node.chars manifest.network) ++ rest =
          "services".toList ++ ':' :: '\n' :: (padding 2 ++ (node.chars manifest.network ++
            (others.flatMap (fun node => padding 2 ++ node.chars manifest.network) ++ rest))) := by
        have key : "services:\n".toList = "services".toList ++ ':' :: '\n' :: [] := by decide
        rw [key, List.flatMap_cons]
        simp only [List.append_assoc, List.cons_append, List.nil_append]
      rw [text] at between
      have key := between.leads_entry (by simp) (isNamePart_of_mem (by decide))
        (fun none => absurd none (by decide))
        ((tidy node List.mem_cons_self).clear manifest.network _)
      rw [opened] at key
      have all := key.trans fun after entry =>
        leads_nodes networkName clear tidy (.inl rfl) entry.2
      refine all.mono (fun plain => ⟨by decide, plain⟩) ?_
      rintro after ⟨taken, read, ended⟩
      refine ⟨taken, read, ?_⟩
      have some : taken ≠ [] := by
        rintro rfl
        cases read
      have outer := ended.outer (Nat.zero_lt_two)
      have inner : (entered 2 [0]).2 = [.blockMapping] := rfl
      rw [inner] at outer
      unfold nodesLexemes
      rw [if_neg some]
      simpa only [List.append_assoc, List.cons_append, List.nil_append] using outer

end Nodes

/-- The state before the first token of a text. -/
theorem between_start {text : List Char} (clear : Clear text) :
    Between { cursor := { rest := text } } 0 text [] [] :=
  Past.between ⟨rfl, rfl, rfl, by simp⟩ rfl rfl rfl clear

/-- The last lines of a manifest are about its network. -/
theorem leads_end {lexer : Lexer} {given : List Lexeme} {network : String}
    (networkName : NetworkName network)
    (between : Between lexer 0 ("networks:\n".toList ++
      (padding 2 ++ (network.toList ++ [':', '\n']))) [0] given) :
    Leads lexer True (Between · 0 [] [0] (given ++ (nameLexemes "networks".toList ++
      .blockMapping :: (nameLexemes network.toList ++ [.blockEnd])))) := by
  have text : "networks:\n".toList ++ (padding 2 ++ (network.toList ++ [':', '\n'])) =
      "networks".toList ++ ':' :: '\n' :: (padding 2 ++
        (network.toList ++ ':' :: '\n' :: (padding 0 ++ []))) := rfl
  have clear : Clear (network.toList ++ ':' :: '\n' :: (padding 0 ++ [])) := by
    obtain ⟨first, name, letters⟩ := List.exists_cons_of_ne_nil networkName.nonempty
    have isName := networkName.isName
    rw [letters] at isName ⊢
    exact clear_of_isNamePart (isName first List.mem_cons_self) _
  rw [text] at between
  have key := between.leads_entry (by decide) (isNamePart_of_mem (by decide))
    (fun none => absurd none (by decide)) clear
  have all : Leads lexer _ (Between · 0 [] (entered 2 (entered 0 [0]).1).1 _) :=
    key.trans fun after entry => (entry.2.leads_entry (by decide) networkName.isName
      (fun none => absurd none networkName.nonempty) rfl).mono id fun _ ended => ended.2
  refine all.mono (fun _ => ⟨by decide, networkName.short⟩) fun after ended => ?_
  have opened : entered 2 [0] = ([2, 0], [.blockMapping]) := rfl
  have isOpen : entered 0 [0] = ([0], []) := rfl
  rw [isOpen, opened] at ended
  have outer := ended.outer Nat.zero_lt_two
  simpa only [List.append_assoc, List.cons_append, List.nil_append] using outer

/-- A manifest is read as the tokens of its nodes, unless it is refused. -/
theorem Manifest.scan_chars {manifest : Manifest} (networkName : NetworkName manifest.network)
    (tidy : ∀ node ∈ manifest.nodes, node.Tidy) :
    (∃ taken tokens, List.Forall₂ Node.ReadAs manifest.nodes taken ∧
      AllAllowed manifest.chars ∧ Token.scan manifest.chars = some tokens ∧
      tokens.map Token.lexeme = Manifest.lexemes { manifest with nodes := taken } ++ [.textEnd]) ∨
    (Token.scan manifest.chars = none ∧
      ¬ (AllAllowed manifest.chars ∧ ∀ node ∈ manifest.nodes, node.Plain)) := by
  by_cases allowed : AllAllowed manifest.chars
  · have clear : Clear manifest.chars := by
      unfold Manifest.chars
      split <;> rfl
    have clearEnd : Clear ("networks:\n".toList ++
        (padding 2 ++ (manifest.network.toList ++ [':', '\n']))) := rfl
    have services := leads_services networkName tidy clearEnd (between_start clear)
    have all : Leads { cursor := { rest := manifest.chars } }
        ((∀ node ∈ manifest.nodes, node.Plain) ∧ True) fun after => ∃ taken,
          List.Forall₂ Node.ReadAs manifest.nodes taken ∧
          ∃ given, Manifest.lexemes { manifest with nodes := taken } = given ++ [.blockEnd] ∧
            Between after 0 [] [0] given := by
      refine services.trans fun after found => ?_
      obtain ⟨taken, read, between⟩ := found
      refine (leads_end networkName between).mono id fun after ended =>
        ⟨taken, read, _, ?_, ended⟩
      unfold Manifest.lexemes
      simp only [List.append_assoc, List.cons_append, List.nil_append]
    unfold Token.scan
    rw [if_pos (List.all_eq_true.mpr allowed)]
    rcases all (manifest.chars.length + 1) (Nat.lt_succ_self _) with
      ⟨fewer, after, enough, ⟨taken, read, given, whole, between⟩, same⟩ | ⟨refused, broken⟩
    · obtain ⟨final, ended, isText⟩ := (between.begins (by simp)).tokens_end enough
      refine .inl ⟨taken, final.reversed.reverse, read, allowed, ?_, ?_⟩
      · rw [same, ended]
      · rw [isText, whole]
        rfl
    · refine .inr ⟨by rw [refused], fun both => broken ⟨both.2, trivial⟩⟩
  · refine .inr ⟨?_, fun both => allowed both.1⟩
    unfold Token.scan
    exact if_neg fun all => allowed (List.all_eq_true.mp all)

end FaultDrill
