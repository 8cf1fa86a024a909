import FaultDrill.DocumentFile
import FaultDrill.Proofs.Path.LastName

/-!
The choice of a format by the path of a document.

Owns:
- the extensions that stand for formats;
- the paths that tell no format, by their last name.

Main statement: a path tells a format exactly if its last name is a stem and one of the extensions
of the format, and nothing but that extension matters (`DocumentFile.format_by_extension`).

Does not own: where a path has its last name (`Proofs.Path.LastName`).
-/

namespace FaultDrill

variable {path other : Path} {format : Format} {names : List String}
variable {name directory stem extension trailing : String}

namespace Format

/-- The extensions that stand for a format. -/
def extensions : Format → List String
  | .json => ["json", "json5", "jsonc"]
  | .yaml => ["yaml", "yml"]
  | .toml => ["toml"]

theorem ofExtension?_eq_some_iff {letters : List Char} :
    ofExtension? letters = some format ↔ String.ofList letters ∈ format.extensions := by
  unfold ofExtension?
  split <;> cases format <;> simp_all [extensions]

/-! ## What a last name tells -/

theorem ofPath?_of_nowhere (nowhere : path.components = []) : ofPath? path = none := by
  unfold ofPath? Path.extension?
  rw [Path.fileName?_of_nowhere nowhere]
  rfl

/-- Only the last component matters. The one that leads up tells nothing in any case: behind its
last dot there is no extension. -/
theorem ofPath?_of_components (components : path.components = names ++ [name]) :
    ofPath? path = (Path.extensionOf? name.toList).bind ofExtension? := by
  unfold ofPath? Path.extension?
  rw [Path.fileName?_of_components components]
  by_cases up : name = ".."
  · rw [if_pos up, up]
    rfl
  · rw [if_neg up, Option.bind_some]

/-- Components before those of a path do not change its format. -/
theorem ofPath?_of_components_eq (components : other.components = names ++ path.components)
    (known : ofPath? path = some format) : ofPath? other = some format := by
  rcases path.nowhere_or_last with nowhere | ⟨front, last, own⟩
  · rw [ofPath?_of_nowhere nowhere] at known
    cases known
  · rw [own, ← List.append_assoc] at components
    rwa [ofPath?_of_components components, ← ofPath?_of_components own]

theorem ofPath?_of_last_dot (components : path.components = names ++ [stem ++ "." ++ extension])
    (nonempty : stem ≠ "") (dotless : '.' ∉ extension.toList) :
    ofPath? path = ofExtension? extension.toList := by
  have letters : (stem ++ "." ++ extension).toList = stem.toList ++ '.' :: extension.toList := by
    simp
  rw [ofPath?_of_components components, letters, Path.extensionOf?_of_last_dot _ dotless,
    if_neg (by simpa using nonempty), Option.bind_some]

theorem ofPath?_of_suffixed (suffixed : path.Suffixed directory stem extension trailing) :
    ofPath? path = ofExtension? extension.toList := by
  obtain ⟨names, components⟩ := suffixed.ends.components_eq
  exact ofPath?_of_last_dot components suffixed.nonempty suffixed.dotless

theorem ofPath?_of_extension (suffixed : path.Suffixed directory stem extension trailing)
    (stands : extension ∈ format.extensions) : ofPath? path = some format := by
  rw [ofPath?_of_suffixed suffixed, ofExtension?_eq_some_iff, String.ofList_toList]
  exact stands

/-! ## Paths that tell no format -/

/-- Why a path tells no format: it has no name, leads up in the end, has a last name without a dot
behind its first character, or one with an extension that stands for nothing. -/
inductive Untold (path : Path) : Prop where
  | nowhere (components : path.components = [])
  | up {names : List String} (components : path.components = names ++ [".."])
  | dotless {names : List String} {name : String} (components : path.components = names ++ [name])
      (dotless : '.' ∉ name.toList)
  | hidden {names : List String} {rest : String}
      (components : path.components = names ++ ["." ++ rest]) (dotless : '.' ∉ rest.toList)
  | unknown {names : List String} {stem extension : String}
      (components : path.components = names ++ [stem ++ "." ++ extension])
      (nonempty : stem ≠ "") (dotless : '.' ∉ extension.toList)
      (unknown : ∀ format : Format, extension ∉ format.extensions)

theorem ofPath?_of_untold (untold : Untold path) : ofPath? path = none := by
  cases untold with
  | nowhere components => exact ofPath?_of_nowhere components
  | up components =>
      rw [ofPath?_of_components components]
      rfl
  | dotless components dotless =>
      rw [ofPath?_of_components components, Path.extensionOf?_of_dotless dotless, Option.bind_none]
  | @hidden names rest components dotless =>
      have letters : ("." ++ rest).toList = [] ++ '.' :: rest.toList := by simp
      rw [ofPath?_of_components components, letters, Path.extensionOf?_of_last_dot [] dotless,
        if_pos rfl, Option.bind_none]
  | unknown components nonempty dotless unknown =>
      rw [ofPath?_of_last_dot components nonempty dotless, Option.eq_none_iff_forall_ne_some]
      intro format stands
      rw [ofExtension?_eq_some_iff, String.ofList_toList] at stands
      exact unknown format stands

/-- Every path tells a format or does not, by its last name. -/
theorem suffixed_or_untold (path : Path) :
    (∃ (format : Format) (directory stem extension trailing : String),
      path.Suffixed directory stem extension trailing ∧ extension ∈ format.extensions) ∨
    Untold path := by
  rcases path.nowhere_or_last with nowhere | ⟨names, name, components⟩
  · exact Or.inr (.nowhere nowhere)
  rcases Path.dotless_or_last_dot name.toList with dotless | ⟨front, back, parts, dotless⟩
  · exact Or.inr (.dotless components dotless)
  have named : name = String.ofList front ++ "." ++ String.ofList back := by
    rw [← String.toList_inj, parts]
    simp
  rw [← String.toList_ofList (l := back)] at dotless
  rw [named] at components
  by_cases headless : String.ofList front = ""
  · rw [headless, String.empty_append] at components
    exact Or.inr (.hidden components dotless)
  by_cases known : ∃ format : Format, String.ofList back ∈ format.extensions
  · left
    obtain ⟨format, stands⟩ := known
    obtain ⟨directory, trailing, ends⟩ := Path.exists_ends_iff.mpr ⟨names, components⟩
    exact ⟨format, directory, _, _, trailing, ⟨ends, headless, dotless⟩, stands⟩
  · exact Or.inr (.unknown components headless dotless (not_exists.mp known))

theorem ofPath?_eq_some_iff :
    ofPath? path = some format ↔ ∃ directory stem extension trailing,
      path.Suffixed directory stem extension trailing ∧ extension ∈ format.extensions := by
  constructor
  · intro known
    rcases suffixed_or_untold path with ⟨told, _, _, _, _, suffixed, stands⟩ | untold
    · rw [ofPath?_of_extension suffixed stands] at known
      cases known
      exact ⟨_, _, _, _, suffixed, stands⟩
    · rw [ofPath?_of_untold untold] at known
      cases known
  · rintro ⟨_, _, _, _, suffixed, stands⟩
    exact ofPath?_of_extension suffixed stands

theorem ofPath?_eq_none_iff : ofPath? path = none ↔ Untold path := by
  constructor
  · intro unknown
    rcases suffixed_or_untold path with ⟨format, _, _, _, _, suffixed, stands⟩ | untold
    · rw [ofPath?_of_extension suffixed stands] at unknown
      cases unknown
    · exact untold
  · exact ofPath?_of_untold

end Format

namespace DocumentFile

theorem format_eq_ok_iff :
    DocumentFile.format path = .ok format ↔ Format.ofPath? path = some format := by
  unfold DocumentFile.format
  cases Format.ofPath? path with
  | none => simp
  | some told => simp

theorem format_eq_error_iff :
    DocumentFile.format path = .error (.unsupportedFormat path) ↔ Format.ofPath? path = none := by
  unfold DocumentFile.format
  cases Format.ofPath? path with
  | none => simp
  | some told => simp

/-- The format of a document file is that of which the extension of the last name of its path is
one; otherwise the path, as it is, is not supported.

So nothing but that extension matters. The format stays the same in whatever directory the path is
put, with separators repeated or put behind it, also with a dot, and with any other stem. -/
theorem format_by_extension (path : Path) :
    (∀ format, DocumentFile.format path = .ok format ↔
      ∃ directory stem extension trailing,
        path.Suffixed directory stem extension trailing ∧ extension ∈ format.extensions) ∧
    (DocumentFile.format path = .error (.unsupportedFormat path) ↔
      ¬ ∃ (format : Format) (directory stem extension trailing : String),
        path.Suffixed directory stem extension trailing ∧ extension ∈ format.extensions) ∧
    (DocumentFile.format path = .error (.unsupportedFormat path) ↔ Format.Untold path) ∧
    (∀ format, DocumentFile.format path = .ok format →
      (∀ directory : String,
        DocumentFile.format ⟨directory ++ "/" ++ path.text⟩ = .ok format) ∧
      (∀ directory : Path, DocumentFile.format (directory.join path) = .ok format) ∧
      (∀ other : String, Path.SeparatorsRepeated path.text other →
        DocumentFile.format ⟨other⟩ = .ok format) ∧
      DocumentFile.format ⟨path.text ++ "/"⟩ = .ok format ∧
      DocumentFile.format ⟨path.text ++ "/."⟩ = .ok format ∧
      (∀ directory stem extension trailing,
        path.Suffixed directory stem extension trailing →
          (∀ other : String, other ≠ "" → '/' ∉ other.toList →
            DocumentFile.format ⟨directory ++ other ++ "." ++ extension ++ trailing⟩ =
              .ok format) ∧
          ∀ (other : Path) (elsewhere otherStem behind : String),
            other.Suffixed elsewhere otherStem extension behind →
              DocumentFile.format other = .ok format)) := by
  simp only [format_eq_ok_iff, format_eq_error_iff]
  refine ⟨fun format => Format.ofPath?_eq_some_iff, ?_, Format.ofPath?_eq_none_iff, ?_⟩
  · rw [Option.eq_none_iff_forall_ne_some, not_exists]
    exact forall_congr' fun format => not_congr Format.ofPath?_eq_some_iff
  intro format known
  have sameComponents {other : Path} (same : other.components = path.components) :
      Format.ofPath? other = some format := by
    rw [← List.nil_append path.components] at same
    exact Format.ofPath?_of_components_eq same known
  refine ⟨?_, ?_, ?_, ?_, ?_, ?_⟩
  · intro directory
    exact Format.ofPath?_of_components_eq (Path.components_append_separator directory path.text)
      known
  · intro directory
    cases absolute : path.isAbsolute with
    | true => rwa [Path.join, if_pos absolute]
    | false => exact Format.ofPath?_of_components_eq (Path.components_join directory absolute) known
  · intro other repeated
    exact sameComponents repeated.components_eq
  · exact sameComponents (Path.components_append_idle (.separator .none) path.text)
  · exact sameComponents (Path.components_append_idle (.dot .none) path.text)
  · intro directory stem extension trailing suffixed
    rw [Format.ofPath?_of_suffixed suffixed] at known
    refine ⟨fun other nonempty free => ?_, fun other _ _ _ otherSuffixed => ?_⟩
    · rwa [Format.ofPath?_of_suffixed (suffixed.replaceStem nonempty free)]
    · rwa [Format.ofPath?_of_suffixed otherSuffixed]

/-- A hidden name in a directory with an extension of its own, and two names with other stems, one
of them made of dots. -/
theorem format_by_extension_of_hidden :
    let path : Path := ⟨"a.toml/.x.json5/./"⟩
    path.Suffixed "a.toml/" ".x" "json5" "/./" ∧
    DocumentFile.format path = .ok .json ∧
    DocumentFile.format ⟨".." ++ "/" ++ "a.toml/.x.json5/./"⟩ = .ok .json ∧
    DocumentFile.format (Path.join ⟨"/b"⟩ path) = .ok .json ∧
    Path.SeparatorsRepeated "a.toml/.x.json5/./" "a.toml//.x.json5/./" ∧
    DocumentFile.format ⟨"a.toml//.x.json5/./"⟩ = .ok .json ∧
    DocumentFile.format ⟨"a.toml/" ++ ".." ++ "." ++ "json5" ++ "/./"⟩ = .ok .json ∧
    (Path.mk "y.json5").Suffixed "" "y" "json5" "" ∧
    DocumentFile.format ⟨"y.json5"⟩ = .ok .json := by
  intro path
  have suffixed : path.Suffixed "a.toml/" ".x" "json5" "/./" :=
    ⟨⟨by decide, Or.inr ⟨"a.toml", by decide⟩, by decide, by decide,
      .dot (.separator .none)⟩, by decide, by decide⟩
  have elsewhere : (Path.mk "y.json5").Suffixed "" "y" "json5" "" :=
    ⟨⟨by decide, Or.inl rfl, by decide, by decide, .none⟩, by decide, by decide⟩
  have repeated : Path.SeparatorsRepeated "a.toml/.x.json5/./" "a.toml//.x.json5/./" :=
    @Path.SeparatorsRepeated.again _ "a.toml" ".x.json5/./" .none
  obtain ⟨known, -, -, steady⟩ := format_by_extension path
  have json := (known .json).mpr ⟨_, _, _, _, suffixed, by decide⟩
  obtain ⟨within, joined, spaced, -, -, suffixes⟩ := steady .json json
  obtain ⟨stems, others⟩ := suffixes _ _ _ _ suffixed
  exact ⟨suffixed, json, within "..", joined ⟨"/b"⟩, repeated, spaced _ repeated,
    stems ".." (by decide) (by decide), elsewhere, others _ _ _ _ elsewhere⟩

example : DocumentFile.format ⟨"a.json/.yaml"⟩ = .error (.unsupportedFormat ⟨"a.json/.yaml"⟩) :=
  rfl

end DocumentFile

end FaultDrill
