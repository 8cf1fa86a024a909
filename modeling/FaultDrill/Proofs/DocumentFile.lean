import FaultDrill.CommandLine.Run
import FaultDrill.Proofs.FileTree.Rewriting
import FaultDrill.Proofs.Json.RoundTrip
import FaultDrill.Proofs.Toml.RoundTrip
import FaultDrill.Proofs.Yaml.RoundTrip

/-!
Document files, as they are created and loaded.

Owns:
- the reading of a document from its bytes in whatever format;
- how the creation of a document file fails, and what it leaves when it succeeds.

Main statement: creating a document file fails and changes nothing, or it writes the sample at the
one place that the path leads to; the sample is loaded from there, and creating it again changes
nothing (`CommandLine.createFile_atomic`).
-/

namespace FaultDrill

theorem Format.decode_bytes (format : Format) (document : Document) :
    format.decode (format.bytes document) none = .ok document := by
  cases format with
  | json => exact Json.decode_bytes document
  | yaml => exact Yaml.decode_bytes document
  | toml => exact Toml.decode_bytes document

theorem exists_sampleScenario :
    ∃ scenario, Scenario.ofDocument Document.sample = .ok scenario := ⟨_, rfl⟩

namespace DocumentFile

variable {before after : FileTree} {path : Path} {format : Format}

/-! ## Creating -/

theorem create_of_unknown (tree : FileTree) (unknown : Format.ofPath? path = none) :
    create tree path = .error (.unsupportedFormat path) := by
  unfold create DocumentFile.format
  rw [unknown]
  rfl

theorem create_of_known (tree : FileTree) (known : Format.ofPath? path = some format) :
    create tree path = (tree.write path (format.bytes Document.sample)).mapError
      fun cause => .unwritten path (.destination cause.message) := by
  unfold create DocumentFile.format
  rw [known]
  rfl

/-- Why a document file is not created: its format is unknown, or it cannot be written. -/
inductive Uncreated (tree : FileTree) (path : Path) : DocumentFileError → Prop where
  | unsupported (unknown : Format.ofPath? path = none) :
      Uncreated tree path (.unsupportedFormat path)
  | unwritten {format : Format} {cause : FileError}
      (known : Format.ofPath? path = some format)
      (fails : tree.write path (format.bytes Document.sample) = .error cause) :
      Uncreated tree path (.unwritten path (.destination cause.message))

/-- A document file has been created where its path leads: the file there holds the sample in the
format of the path and nothing of what it held, and all else is as it was. -/
structure CreatedAt (path : Path) (format : Format) (location : Location) (executable : Bool)
    (before after : FileTree) : Prop where
  known : Format.ofPath? path = some format
  led : before.resolve .target path = .ok (before.placeAt location)
  leads : after.find .target path =
    .ok (location, .file (format.bytes Document.sample) executable)
  rewritten :
    FileTree.Rewritten location executable (format.bytes Document.sample) before after

/-- Creating a document file fails for its format or its path, or writes one file. -/
theorem create_cases (tree : FileTree) (path : Path) :
    (∃ error, create tree path = .error error ∧ Uncreated tree path error) ∨
    ∃ after format, create tree path = .ok after ∧ Format.ofPath? path = some format ∧
      tree.write path (format.bytes Document.sample) = .ok after := by
  cases known : Format.ofPath? path with
  | none => exact Or.inl ⟨_, create_of_unknown tree known, .unsupported known⟩
  | some format =>
      have created := create_of_known tree known
      cases written : tree.write path (format.bytes Document.sample) with
      | error cause =>
          rw [written] at created
          exact Or.inl ⟨_, created, .unwritten known written⟩
      | ok after =>
          rw [written] at created
          exact Or.inr ⟨after, format, created, rfl, written⟩

/-- Creation step by step: the format is chosen, the file is made or emptied, and the document is
encoded into it. -/
def createStepwise (tree : FileTree) (path : Path) (refusals : Refusals) :
    Except DocumentFileError Unit × FileTree :=
  match DocumentFile.format path with
  | .error error => (.error error, tree)
  | .ok format =>
    match tree.write path [] with
    | .error cause => (.error (.unwritten path (.destination cause.message)), tree)
    | .ok emptied =>
      let (result, writer) := format.encode Document.sample {} refusals
      match emptied.write path writer.accepted with
      | .error cause => (.error (.unwritten path (.destination cause.message)), emptied)
      | .ok after => (result.mapError (.unwritten path), after)

/-- No step after the first change fails, so that no file is left empty or half written. -/
theorem createStepwise_eq (tree : FileTree) (path : Path) (refusals : Refusals) :
    createStepwise tree path refusals =
      match create tree path with
      | .error error => (.error error, tree)
      | .ok after => (.ok (), after) := by
  unfold createStepwise DocumentFile.format
  cases known : Format.ofPath? path with
  | none =>
      rw [create_of_unknown tree known]
  | some format =>
      rw [create_of_known tree known]
      dsimp only
      rw [Format.encode_unlimited]
      cases wrote : tree.write path [] with
      | error cause =>
          rw [FileTree.write_fails wrote (format.bytes Document.sample)]
          rfl
      | ok emptied =>
          dsimp only
          rw [FileTree.write_write wrote]
          cases written : tree.write path (format.bytes Document.sample) with
          | error cause =>
              rw [FileTree.write_fails written []] at wrote
              cases wrote
          | ok after => rfl

/-! ## Loading -/

/-- A document that was written in the format of its path is loaded. -/
theorem load_of_written {document : Document} {location : Location} {executable : Bool}
    (known : Format.ofPath? path = some format)
    (written : FileTree.Written path location executable (format.bytes document) before after) :
    load after path = (Scenario.ofDocument document).mapError .stage := by
  unfold load DocumentFile.format
  rw [written.stat_eq, written.openSource_eq, known]
  change ((format.decode (format.bytes document) none).mapError DocumentFileError.undecodable).bind
    _ = _
  rw [format.decode_bytes]
  rfl

end DocumentFile

namespace CommandLine

/-- Creating a document file fails and leaves the host as it was, or writes the sample where the
path leads, from where it is loaded; creating it once more leaves the files as they are. -/
theorem createFile_atomic (surroundings : Surroundings) (path : Path) (host : Host)
    (refusals : Refusals) :
    (∃ error, DocumentFile.create host.tree path = .error error ∧
      DocumentFile.createStepwise host.tree path refusals = (.error error, host.tree) ∧
      DocumentFile.Uncreated host.tree path error ∧
      createFile surroundings path host =
        (.error (.ofDocumentFile "設定ファイルを作成できませんでした" path error), host)) ∨
    ∃ after, DocumentFile.create host.tree path = .ok after ∧
      DocumentFile.createStepwise host.tree path refusals = (.ok (), after) ∧
      (createFile surroundings path host).1 = .ok () ∧
      (createFile surroundings path host).2.tree = after ∧
      (∃ format location executable,
        DocumentFile.CreatedAt path format location executable host.tree after) ∧
      (∃ scenario, Scenario.ofDocument Document.sample = .ok scenario ∧
        DocumentFile.load after path = .ok scenario) ∧
      DocumentFile.create after path = .ok after := by
  rw [DocumentFile.createStepwise_eq]
  unfold createFile
  rcases DocumentFile.create_cases host.tree path with
    ⟨error, fails, uncreated⟩ | ⟨after, format, created, known, wrote⟩
  · rw [fails]
    exact Or.inl ⟨error, rfl, rfl, uncreated, rfl⟩
  · right
    rw [created]
    obtain ⟨location, executable, written⟩ := FileTree.written_of_write wrote
    have createdAt : DocumentFile.CreatedAt path format location executable host.tree after :=
      ⟨known, FileTree.resolve_target_of_newFile written.leads, written.find_eq,
        written.rewritten⟩
    refine ⟨after, rfl, rfl, rfl, rfl, ⟨format, location, executable, createdAt⟩, ?_, ?_⟩
    · obtain ⟨scenario, checked⟩ := exists_sampleScenario
      refine ⟨scenario, checked, ?_⟩
      rw [DocumentFile.load_of_written known written, checked]
      rfl
    · rw [DocumentFile.create_of_known after known, FileTree.write_write wrote, wrote]
      rfl

end CommandLine

end FaultDrill
