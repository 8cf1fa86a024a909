import FaultDrill.Json.Decoder
import FaultDrill.Json.Encoder
import FaultDrill.Path
import FaultDrill.Toml.Decoder
import FaultDrill.Toml.Encoder
import FaultDrill.Writer
import FaultDrill.Yaml.Decoder
import FaultDrill.Yaml.Encoder

/-!
The formats of documents.

Owns:
- the choice of a format by the extension of a path;
- decoding of bytes in a format, and encoding into a writer;
- the failures of both with their texts.

Does not own: the formats themselves (`Json`, `Yaml`, `Toml`).
-/

namespace FaultDrill

/-- A format of documents. -/
inductive Format where
  | json | yaml | toml
  deriving DecidableEq, Repr

namespace Format

/-- The format that an extension stands for. -/
def ofExtension? (extension : List Char) : Option Format :=
  match String.ofList extension with
  | "json" | "json5" | "jsonc" => some .json
  | "yaml" | "yml" => some .yaml
  | "toml" => some .toml
  | _ => none

/-- The format of the document at a path. -/
def ofPath? (path : Path) : Option Format :=
  path.extension?.bind ofExtension?

end Format

/-! ## Decoding -/

/-- Why bytes are no document. -/
inductive DecodeError where
  | json (error : Json.Error)
  | yaml (error : Yaml.Error)
  | toml (error : Toml.Error)
  deriving DecidableEq, Repr

/-- The text shown for an error. -/
def DecodeError.message : DecodeError → String
  | .json error => error.describe
  | .yaml error => error.describe
  | .toml error => error.describe

/-- The document in some bytes, after which the source ends or fails. -/
def Format.decode
    (format : Format)
    (bytes : List UInt8)
    (failure : Option String) :
    Except DecodeError Document :=
  match format with
  | .json => (Json.decode bytes failure).mapError .json
  | .yaml => (Yaml.decode bytes failure).mapError .yaml
  | .toml => (Toml.decode bytes failure).mapError .toml

/-! ## Encoding -/

/-- Why a document could not be written. -/
inductive EncodeError where
  /-- The destination failed outside the document proper. -/
  | destination (cause : String)
  /-- The destination failed while the document was written in a format. -/
  | format (format : Format) (cause : String)
  deriving DecidableEq, Repr

namespace EncodeError

/-- The text of what lies beneath an error. -/
def cause : EncodeError → String
  | .destination cause => cause
  | .format _ cause => cause

/-- The text shown for an error. -/
def message : EncodeError → String
  | .destination cause => "書き込みエラー: " ++ cause
  | .format .json cause => "JSONエンコードエラー: " ++ cause
  | .format .yaml cause => "YAMLエンコードエラー: " ++ cause
  | .format .toml cause => "TOMLエンコードエラー: " ++ cause

/-- The texts of what lies beneath an error, outermost first. -/
def causes (error : EncodeError) : List String := [error.cause]

end EncodeError

/-- What a writer says when it refuses. -/
structure Refusals where
  write : String := "write refused"
  finish : String := "flush refused"
  deriving DecidableEq, Repr

namespace Format

/-- The pieces in which a format writes a document, in sections with the error of a refusal in
each. JSON counts the end of the last line as no part of the document, and TOML hands over
everything at once when it is done. -/
def sections (format : Format) (refusal : String) (document : Document) :
    List (List (List UInt8) × EncodeError) :=
  let bytes (text : String) := Text.Utf8.encode text.toList
  match format with
  | .json => [
      ((Json.encode document).map bytes, .format .json refusal),
      ([bytes "\n"], .destination refusal)]
  | .yaml => [([bytes (Yaml.encode document)], .format .yaml refusal)]
  | .toml => [([bytes (Toml.encode document)], .destination refusal)]

/-- Writes sections up to the first refusal. -/
def writeSections (writer : Writer) :
    List (List (List UInt8) × EncodeError) → Except EncodeError Unit × Writer
  | [] => (.ok (), writer)
  | (pieces, error) :: rest =>
    match writer.write pieces with
    | (true, writer) => writeSections writer rest
    | (false, writer) => (.error error, writer)

/-- Writes a document and finishes. -/
def encode
    (format : Format)
    (document : Document)
    (writer : Writer)
    (refusals : Refusals) :
    Except EncodeError Unit × Writer :=
  match writeSections writer (format.sections refusals.write document) with
  | (.ok (), writer) =>
    if writer.finishes then (.ok (), writer) else (.error (.destination refusals.finish), writer)
  | failed => failed

/-- The bytes of a document. -/
def bytes (format : Format) (document : Document) : List UInt8 :=
  ((format.sections "" document).map (·.1.flatten)).flatten

end Format

end FaultDrill
