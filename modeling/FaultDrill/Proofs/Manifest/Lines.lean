import FaultDrill.Manifest
import FaultDrill.Proofs.Naming

/-!
The lines of a manifest.

Owns:
- the lines of a text, each of which a line break ends (`Text.lines?`);
- the characters of a manifest: no line break is inside of a line, whatever an image holds;
- how many lines there are about a scenario, and which of them an image is in.

Main statements: a text that is put together from lines has these lines (`lines?_join`), and those
of a manifest are the lines of its nodes (`Manifest.lines?_text`); another image changes a single
line (`lines_withImage`).
-/

namespace FaultDrill

namespace Text

/-! ## Lines of a text -/

/-- The characters up to each line break, and those after the last one. -/
def splitLines : List Char → List (List Char) × List Char
  | [] => ([], [])
  | char :: rest =>
    let (lines, last) := splitLines rest
    if char = '\n' then ([] :: lines, last)
    else
      match lines with
      | [] => ([], char :: last)
      | line :: lines => ((char :: line) :: lines, last)

/-- The lines of a text. A line break ends each of them, and there is nothing after the last. -/
def lines? (text : String) : Option (List String) :=
  match splitLines text.toList with
  | (lines, []) => some (lines.map String.ofList)
  | (_, _ :: _) => none

theorem splitLines_line {line : List Char} (noBreak : '\n' ∉ line) (rest : List Char) :
    splitLines (line ++ '\n' :: rest) = (line :: (splitLines rest).1, (splitLines rest).2) := by
  induction line with
  | nil =>
      rw [List.nil_append, splitLines]
      exact if_pos rfl
  | cons char line inductionHypothesis =>
      rw [List.mem_cons, not_or] at noBreak
      rw [List.cons_append, splitLines, inductionHypothesis noBreak.2]
      exact if_neg (Ne.symm noBreak.1)

theorem splitLines_join {lines : List String} (noBreak : ∀ line ∈ lines, '\n' ∉ line.toList) :
    splitLines (String.join (lines.map (· ++ "\n"))).toList = (lines.map String.toList, []) := by
  induction lines with
  | nil => rfl
  | cons line lines inductionHypothesis =>
      rw [List.forall_mem_cons] at noBreak
      have text : (String.join ((line :: lines).map (· ++ "\n"))).toList =
          line.toList ++ '\n' :: (String.join (lines.map (· ++ "\n"))).toList := by
        simp [String.toList_join]
      rw [text, splitLines_line noBreak.1, inductionHypothesis noBreak.2]
      rfl

theorem lines?_join {lines : List String} (noBreak : ∀ line ∈ lines, '\n' ∉ line.toList) :
    lines? (String.join (lines.map (· ++ "\n"))) = some lines := by
  unfold lines?
  rw [splitLines_join noBreak]
  simp [Function.comp_def]

end Text

/-! ## Characters of a manifest -/

namespace Json

/-- What is written for a character is printable, whatever the character. -/
theorem printable_of_mem_textChar {char written : Char} (member : written ∈ textChar char) :
    0x20 ≤ written.toNat := by
  have hex : ∀ value < 16, 0x20 ≤ (hexDigit value).toNat := by decide
  have pair : ∀ {letter : Char}, 0x20 ≤ letter.toNat → written ∈ ['\\', letter] →
      0x20 ≤ written.toNat := by
    intro letter printable isOne
    rw [List.mem_cons, List.mem_singleton] at isOne
    rcases isOne with rfl | rfl
    · decide
    · exact printable
  unfold textChar at member
  split at member
  · exact pair (by decide) member
  · exact pair (by decide) member
  · exact pair (by decide) member
  · exact pair (by decide) member
  · exact pair (by decide) member
  · exact pair (by decide) member
  · exact pair (by decide) member
  · split at member
    · next control =>
        simp only [List.mem_cons, List.not_mem_nil, or_false] at member
        rcases member with rfl | rfl | rfl | rfl | rfl | rfl
        · decide
        · decide
        · decide
        · decide
        · exact hex _ (by omega)
        · exact hex _ (by omega)
    · next notControl =>
        rw [List.mem_singleton.mp member]
        omega

theorem noLineBreak_textLiteral (text : String) : '\n' ∉ (textLiteral text).toList := by
  have letters : (String.ofList (text.toList.flatMap textChar)).toList =
      text.toList.flatMap textChar := String.toList_ofList
  intro member
  unfold textLiteral at member
  rw [String.toList_append, String.toList_append, letters, List.mem_append, List.mem_append,
    List.mem_flatMap] at member
  rcases member with (isQuote | ⟨char, -, inside⟩) | isQuote
  · exact absurd isQuote (by decide)
  · exact absurd (printable_of_mem_textChar inside) (by decide)
  · exact absurd isQuote (by decide)

end Json

namespace Naming

theorem noLineBreak_sanitize (text : String) : '\n' ∉ (sanitize text).toList :=
  fun member => absurd (isNameChar_of_mem_sanitize text member) (by decide)

theorem noLineBreak_network (run : RunId) : '\n' ∉ (network run).toList := by
  intro member
  unfold network at member
  rw [String.toList_append, List.mem_append] at member
  rcases member with inStem | inNumber
  · exact absurd inStem (by decide)
  · exact absurd (isNameChar_of_mem_decimalText run.toNat inNumber) (by decide)

end Naming

/-! ## Lines of a scenario -/

/-- The lines about a service. -/
def serviceBlock (run : RunId) (service : Service) : List String := [
  "  " ++ Naming.sanitize service.name ++ ":",
  "    image: " ++ Json.textLiteral service.image,
  "    networks:",
  "      - " ++ Naming.network run]

/-- The lines about a journey. -/
def journeyBlock (run : RunId) (journey : Journey) : List String := [
  "  journey__" ++ Naming.sanitize journey.name ++ ":",
  "    build: ./_journeys/" ++ Naming.sanitize journey.name,
  "    networks:",
  "      - " ++ Naming.network run]

namespace Scenario

/-- The lines of the manifest of a scenario. -/
def manifestLines (scenario : Scenario) (run : RunId) : List String :=
  (if scenario.services = [] ∧ scenario.journeys = [] then ["services: \x7b\x7d"]
    else "services:" :: scenario.services.flatMap (serviceBlock run) ++
      scenario.journeys.flatMap (journeyBlock run)) ++
  ["networks:", "  " ++ Naming.network run ++ ":"]

variable (scenario : Scenario) (run : RunId)

theorem lines_ofScenario :
    (Manifest.ofScenario scenario run).lines = scenario.manifestLines run := by
  have service : ∀ service : Service,
      Node.lines (Naming.network run) (.ofService service) = serviceBlock run service :=
    fun _ => rfl
  have journey : ∀ journey : Journey,
      Node.lines (Naming.network run) (.ofJourney journey) = journeyBlock run journey := by
    intro journey
    simp [Node.lines, Node.ofJourney, Node.sourceLine, Naming.journeyNode, journeyBlock,
      Naming.journeysDirectory, ← String.append_assoc]
  unfold Manifest.lines Manifest.ofScenario manifestLines
  simp only [List.flatMap_append, List.flatMap_map, service, journey, List.isEmpty_iff,
    List.append_eq_nil_iff, List.map_eq_nil_iff, List.cons_append]

private theorem length_blocks {Item : Type} {block : Item → List String}
    (four : ∀ item, (block item).length = 4) (items : List Item) :
    (items.flatMap block).length = 4 * items.length := by
  induction items with
  | nil => rfl
  | cons item items inductionHypothesis =>
      rw [List.flatMap_cons, List.length_append, four, inductionHypothesis, List.length_cons]
      omega

theorem length_manifestLines :
    (scenario.manifestLines run).length =
      3 + 4 * (scenario.services.length + scenario.journeys.length) := by
  unfold manifestLines
  split
  · next none =>
      rw [none.1, none.2]
      rfl
  · have services := @length_blocks _ (serviceBlock run) (fun _ => rfl) scenario.services
    have journeys := @length_blocks _ (journeyBlock run) (fun _ => rfl) scenario.journeys
    simp only [List.length_append, List.length_cons, List.length_nil, services, journeys]
    omega

theorem noLineBreak_manifestLines : ∀ line ∈ scenario.manifestLines run, '\n' ∉ line.toList := by
  have networkFree := Naming.noLineBreak_network run
  have service : ∀ service, ∀ line ∈ serviceBlock run service, '\n' ∉ line.toList := by
    intro service
    simp [serviceBlock, networkFree, Naming.noLineBreak_sanitize, Json.noLineBreak_textLiteral]
  have journey : ∀ journey, ∀ line ∈ journeyBlock run journey, '\n' ∉ line.toList := by
    intro journey
    simp [journeyBlock, networkFree, Naming.noLineBreak_sanitize]
  have last : ∀ line ∈ ["networks:", "  " ++ Naming.network run ++ ":"], '\n' ∉ line.toList := by
    simp [networkFree]
  intro line member
  unfold manifestLines at member
  rcases List.mem_append.mp member with inServices | isLast
  · split at inServices
    · rw [List.mem_singleton.mp inServices]
      decide
    · rw [List.cons_append, List.mem_cons, List.mem_append, List.mem_flatMap,
        List.mem_flatMap] at inServices
      rcases inServices with rfl | ⟨item, -, inside⟩ | ⟨item, -, inside⟩
      · decide
      · exact service item line inside
      · exact journey item line inside
  · exact last line isLast

/-- The lines of the text of a manifest. -/
theorem lines?_text :
    Text.lines? (Manifest.ofScenario scenario run).text = some (scenario.manifestLines run) := by
  unfold Manifest.text
  rw [lines_ofScenario]
  exact Text.lines?_join (scenario.noLineBreak_manifestLines run)

/-! ## Images -/

/-- A scenario in which one service has another image. -/
def withImage (index : Nat) (image : String) : Scenario :=
  { scenario with services := scenario.services.modify index ({ · with image }) }

private theorem blocks_withImage (image : String) {services : List Service} {index : Nat}
    (inside : index < services.length) :
    (services.modify index ({ · with image })).flatMap (serviceBlock run) =
      (services.flatMap (serviceBlock run)).set (4 * index + 1)
        ("    image: " ++ Json.textLiteral image) := by
  induction services generalizing index with
  | nil => exact absurd inside (Nat.not_lt_zero index)
  | cons service services inductionHypothesis =>
      cases index with
      | zero => rfl
      | succ index =>
          have later := inductionHypothesis (Nat.lt_of_succ_lt_succ inside)
          have place : 4 * (index + 1) + 1 = 4 * index + 1 + 4 := by omega
          rw [List.modify_succ_cons, List.flatMap_cons, later, List.flatMap_cons, place]
          rfl

/-- Another image changes one line, which is its own. -/
theorem manifestLines_withImage {index : Nat} (inside : index < scenario.services.length)
    (image : String) :
    (scenario.withImage index image).manifestLines run =
      (scenario.manifestLines run).set (4 * index + 2)
        ("    image: " ++ Json.textLiteral image) := by
  have blocks := blocks_withImage run image inside
  have some : scenario.services ≠ [] := by
    intro none
    rw [none] at inside
    exact absurd inside (Nat.not_lt_zero index)
  have length : 4 * index + 1 < (scenario.services.flatMap (serviceBlock run)).length := by
    rw [length_blocks fun _ => rfl]
    omega
  unfold withImage manifestLines
  dsimp only
  rw [if_neg (by simp [some]), if_neg (by simp [some]), blocks, List.cons_append,
    List.cons_append, List.cons_append, List.cons_append, List.set_cons_succ, List.append_assoc,
    List.append_assoc, List.set_append_left _ _ length]

end Scenario

end FaultDrill
