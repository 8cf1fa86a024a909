import Mathlib.Data.List.Basic
import FaultDrill.Proofs.Json.RoundTrip
import FaultDrill.Proofs.Manifest.Lines
import FaultDrill.Proofs.Numeral.Digits

/-!
What can be read from a manifest.

Owns:
- the reading of manifests (`Manifest.read?`);
- what a manifest tells about a scenario and its run (`Summary`), and how it is read.

Main statement: the lines of a manifest are known, whatever its images hold, and from them all that
it tells can be read, so that two manifests are the same exactly if they tell the same
(`manifest_legible`).
-/

namespace FaultDrill

/-! ## Reading -/

/-- What stands in a text between a beginning and an end. -/
def between? (front back text : String) : Option String :=
  ((text.toList.dropPrefix? front.toList).bind (·.dropSuffix? back.toList)).map String.ofList

/-- The text that a JSON literal stands for. -/
def Json.textOfLiteral? (literal : String) : Option String :=
  match Text.Utf8.encode literal.toList with
  | 0x22 :: bytes =>
    match Reader.textTail.run { rest := bytes } with
    | .ok text after => if after.rest.isEmpty then some text else none
    | .error _ _ => none
  | _ => none

/-- The node that is about a name and has a source, each in a line of its own. -/
def Node.read? (key source : String) : Option Node := do
  let name ← between? "  " ":" key
  match between? "    image: " "" source with
  | some literal => (Json.textOfLiteral? literal).map fun image => ⟨name, .image image⟩
  | none => (between? "    build: " "" source).map fun context => ⟨name, .build context⟩

namespace Manifest

/-- The manifest whose lines, but for the first one, are given. -/
def ofLines? : List String → Option Manifest
  | [_, network] => (between? "  " ":" network).map fun network => ⟨[], network⟩
  | key :: source :: _ :: _ :: lines => do
    let node ← Node.read? key source
    let manifest ← ofLines? lines
    some { manifest with nodes := node :: manifest.nodes }
  | _ => none

/-- The manifest that a text holds. -/
def read? (text : String) : Option Manifest :=
  match Text.lines? text with
  | some (_ :: lines) => ofLines? lines
  | _ => none

end Manifest

/-- What a manifest tells: the run, services with their images, and journeys, all by the names
that stand for theirs. -/
structure Summary where
  run : RunId
  services : List (String × String)
  journeys : List String
  deriving DecidableEq, Repr

namespace Summary

/-- What a manifest tells, if its network belongs to a run. -/
def ofManifest? (manifest : Manifest) : Option Summary := do
  let digits ← between? "chaosflow_" "" manifest.network
  let number ← Numeral.whole? 10 digits.toList
  some {
    run := UInt32.ofNat number
    services := manifest.nodes.filterMap fun node =>
      match node.source with
      | .image image => some (node.name, image)
      | .build _ => none
    journeys := manifest.nodes.filterMap fun node =>
      match node.source with
      | .image _ => none
      | .build context => between? "./_journeys/" "" context }

/-- What the text of a manifest tells. -/
def read? (text : String) : Option Summary := (Manifest.read? text).bind ofManifest?

/-- The manifest that tells something. -/
def manifest (summary : Summary) : Manifest where
  nodes :=
    summary.services.map (fun (name, image) => ⟨name, .image image⟩) ++
      summary.journeys.map fun name => ⟨"journey__" ++ name, .build ("./_journeys/" ++ name)⟩
  network := Naming.network summary.run

end Summary

/-- What the manifest of a scenario is to tell. -/
def Scenario.summary (scenario : Scenario) (run : RunId) : Summary where
  run := run
  services := scenario.services.map fun service => (Naming.sanitize service.name, service.image)
  journeys := scenario.journeys.map fun journey => Naming.sanitize journey.name

/-! ## What is read back -/

theorem between?_eq (front text back : String) :
    between? front back (front ++ text ++ back) = some text := by
  unfold between?
  rw [String.toList_append, String.toList_append, List.append_assoc,
    List.dropPrefix?_append_of_beq _ (beq_self_eq_true front.toList), Option.bind_some]
  have dropped : (text.toList ++ back.toList).dropSuffix? back.toList = some text.toList :=
    List.dropSuffix?_eq_some_iff.mpr ⟨back.toList, rfl, beq_self_eq_true back.toList⟩
  rw [dropped, Option.map_some, String.ofList_toList]

theorem between?_eq_rest (front text : String) : between? front "" (front ++ text) = some text := by
  have read := between?_eq front text ""
  rwa [String.append_empty] at read

theorem Json.textOfLiteral?_eq (text : String) :
    textOfLiteral? (textLiteral text) = some text := by
  have takes := Reader.takes_textTail (transcribes_textChars text.toList) []
  obtain ⟨after, ran, left, -⟩ := takes { rest := _ } (List.append_nil _).symm rfl
  have run : Reader.textTail.run
      { rest := Text.Utf8.encode (text.toList.flatMap textChar) ++ [0x22] } = .ok text after := ran
  unfold textOfLiteral?
  rw [encode_textLiteral]
  simp [run, left]

namespace Node

theorem read?_image (name image : String) :
    read? ("  " ++ name ++ ":") ("    image: " ++ Json.textLiteral image) =
      some ⟨name, .image image⟩ := by
  unfold read?
  rw [between?_eq, between?_eq_rest]
  simp [Json.textOfLiteral?_eq]

theorem read?_build (name context : String) :
    read? ("  " ++ name ++ ":") ("    build: " ++ context) = some ⟨name, .build context⟩ := by
  have other : between? "    image: " "" ("    build: " ++ context) = none := by
    unfold between?
    rw [String.toList_append]
    rfl
  unfold read?
  rw [between?_eq, other, between?_eq_rest]
  rfl

theorem read?_eq (node : Node) :
    read? ("  " ++ node.name ++ ":") node.sourceLine = some node := by
  obtain ⟨name, source⟩ := node
  cases source with
  | image image => exact read?_image name image
  | build context => exact read?_build name context

end Node

namespace Manifest

theorem ofLines?_blocks (nodes : List Node) (network : String) :
    ofLines? (nodes.flatMap (Node.lines network) ++ ["networks:", "  " ++ network ++ ":"]) =
      some ⟨nodes, network⟩ := by
  induction nodes with
  | nil =>
      rw [List.flatMap_nil, List.nil_append, ofLines?, between?_eq]
      rfl
  | cons node nodes inductionHypothesis =>
      have block : Node.lines network node = [
          "  " ++ node.name ++ ":", node.sourceLine, "    networks:", "      - " ++ network] := rfl
      rw [List.flatMap_cons, block, List.append_assoc]
      simp only [List.cons_append, List.nil_append]
      rw [ofLines?, Node.read?_eq, inductionHypothesis]
      rfl

theorem read?_text (manifest : Manifest)
    (noBreak : ∀ line ∈ manifest.lines, '\n' ∉ line.toList) :
    read? manifest.text = some manifest := by
  obtain ⟨first, lines⟩ : ∃ first, manifest.lines =
      first :: (manifest.nodes.flatMap (Node.lines manifest.network) ++
        ["networks:", "  " ++ manifest.network ++ ":"]) := by
    unfold lines
    split
    · next none =>
        rw [List.isEmpty_iff.mp none]
        exact ⟨_, rfl⟩
    · exact ⟨_, rfl⟩
  unfold read? text
  rw [Text.lines?_join noBreak, lines]
  exact ofLines?_blocks manifest.nodes manifest.network

end Manifest

namespace Summary

theorem ofManifest?_eq (summary : Summary) : ofManifest? summary.manifest = some summary := by
  have digits : between? "chaosflow_" "" (Naming.network summary.run) =
      some (Numeral.decimalText summary.run.toNat) := between?_eq_rest _ _
  have number : Numeral.whole? 10 (Numeral.decimalText summary.run.toNat).toList =
      some summary.run.toNat := by
    unfold Numeral.decimalText
    rw [String.toList_ofList, Numeral.whole?_toDigits]
  unfold ofManifest? manifest
  dsimp only
  rw [digits, Option.bind_eq_bind, Option.bind_some, number]
  simp [List.filterMap_append, List.filterMap_map, between?_eq_rest]

end Summary

namespace Scenario

variable (scenario : Scenario) (run : RunId)

theorem manifest_summary : (scenario.summary run).manifest = Manifest.ofScenario scenario run := by
  have stem : "./" ++ Naming.journeysDirectory ++ "/" = "./_journeys/" := by decide
  have journey : ∀ journey, Node.ofJourney journey =
      ⟨"journey__" ++ Naming.sanitize journey.name,
        .build ("./_journeys/" ++ Naming.sanitize journey.name)⟩ := by
    intro journey
    unfold Node.ofJourney Naming.journeyNode
    rw [stem]
  unfold summary Summary.manifest Manifest.ofScenario
  dsimp only
  rw [List.map_map, List.map_map, funext journey]
  rfl

theorem read?_text :
    Summary.read? (Manifest.ofScenario scenario run).text = some (scenario.summary run) := by
  have noBreak := scenario.noLineBreak_manifestLines run
  rw [← lines_ofScenario] at noBreak
  unfold Summary.read?
  rw [Manifest.read?_text _ noBreak, Option.bind_some, ← manifest_summary,
    Summary.ofManifest?_eq]

end Scenario

/-! ## Legible manifests -/

/-- The manifest of a scenario can be read for all that it tells, and for nothing else. -/
structure Legible (scenario : Scenario) (run : RunId) : Prop where
  /-- A block of four lines for each service and then for each journey is between fixed lines. -/
  lines :
    Text.lines? (Manifest.ofScenario scenario run).text = some (scenario.manifestLines run)
  count : (scenario.manifestLines run).length =
    3 + 4 * (scenario.services.length + scenario.journeys.length)
  told : Summary.read? (Manifest.ofScenario scenario run).text = some (scenario.summary run)
  unique : ∀ other otherRun,
    (Manifest.ofScenario other otherRun).text = (Manifest.ofScenario scenario run).text ↔
      other.summary otherRun = scenario.summary run
  /-- Whatever an image holds is in the one line about it. -/
  images : ∀ index < scenario.services.length, ∀ image,
    Text.lines? (Manifest.ofScenario (scenario.withImage index image) run).text =
      some ((scenario.manifestLines run).set (4 * index + 2)
        ("    image: " ++ Json.textLiteral image))

/-- Every manifest is legible. -/
theorem manifest_legible (scenario : Scenario) (run : RunId) : Legible scenario run where
  lines := scenario.lines?_text run
  count := scenario.length_manifestLines run
  told := scenario.read?_text run
  unique := by
    intro other otherRun
    constructor
    · intro same
      have told := other.read?_text otherRun
      rw [same, scenario.read?_text run] at told
      exact (Option.some.inj told).symm
    · intro same
      rw [← other.manifest_summary otherRun, same, scenario.manifest_summary run]
  images := by
    intro index inside image
    rw [(scenario.withImage index image).lines?_text run,
      scenario.manifestLines_withImage run inside image]

end FaultDrill
