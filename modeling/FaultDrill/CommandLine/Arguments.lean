import FaultDrill.CommandLine.Style
import FaultDrill.Path
import FaultDrill.Text.Similarity

/-!
Arguments of the command line.

Owns:
- the switches, and what they and the file select;
- reading of arguments, from the first to the last;
- wrong arguments, and the texts about them;
- the texts of help and version.

A file is taken in when the next switch is, so that a fault of that switch is noticed first.
-/

namespace FaultDrill.CommandLine

/-- A switch. -/
inductive Switch where
  | create | up | help | version
  deriving DecidableEq, Repr

namespace Switch

/-- All switches, in the order of the help. -/
def all : List Switch := [.create, .up, .help, .version]

/-- The name of a switch, without dashes. -/
def word : Switch → String
  | .create => "create"
  | .up => "up"
  | .help => "help"
  | .version => "version"

/-- A switch as it is written. -/
def text (switch : Switch) : String := "--" ++ switch.word

/-- The switch of a name. -/
def ofWord? (word : String) : Option Switch := all.find? (·.word == word)

/-- The switch of a letter. -/
def ofLetter? : Char → Option Switch
  | 'h' => some .help
  | 'V' => some .version
  | _ => none

/-- The least similarity of a name that was perhaps meant. -/
def threshold : Float := 0.7

/-- The switch whose name is the most similar to a word, if it is similar enough. -/
def similarTo? (word : String) : Option Switch :=
  let rated := all.map fun switch =>
    (Text.Similarity.similarity word.toList switch.word.toList, switch)
  (rated.foldl
    (fun best item =>
      if item.1 > threshold && (match best with
        | some (rating, _) => item.1 > rating
        | none => true)
      then some item else best)
    (none : Option (Float × Switch))).map (·.2)

end Switch

/-- What an argument can give. -/
inductive Item where
  | file
  | switch (switch : Switch)
  deriving DecidableEq, Repr

/-- Advice about an unknown argument. -/
inductive Advice where
  | none
  | similar (switch : Switch)
  /-- The argument can be given as a value after two dashes. -/
  | asValue
  deriving DecidableEq, Repr

/-- Why arguments are wrong, each with the items that a right usage is shown with. -/
inductive ArgumentError where
  | unknown (argument : String) (advice : Advice) (usage : List Item)
  | repeated (switch : Switch)
  | conflicting (first second : Switch) (usage : List Item)
  | unexpectedValue (value : String) (switch : Switch) (usage : List Item)
  | emptyFile
  deriving DecidableEq, Repr

/-- What is to be done. -/
inductive Request where
  | help
  | version
  | show (file : Option Path)
  | create (file : Option Path)
  | up (file : Option Path)
  deriving DecidableEq, Repr

/-! ## Reading -/

/-- What has been read so far. -/
structure Reading where
  /-- The items taken in, in their order. -/
  seen : List Item := []
  /-- The file, once it is given. -/
  file : Option String := none
  /-- Whether all that follows are values. -/
  valuesOnly : Bool := false
  deriving DecidableEq, Repr

namespace Reading

/-- Adds an item unless it is there. -/
def withItem (items : List Item) (item : Item) : List Item :=
  if items.contains item then items else items ++ [item]

/-- The items, with the file if it is given. -/
def items (reading : Reading) : List Item :=
  if reading.file.isSome then withItem reading.seen .file else reading.seen

/-- Takes in the file if it is given. It must not be empty. -/
def settle (reading : Reading) : Except ArgumentError Reading :=
  match reading.file with
  | some "" => .error .emptyFile
  | some _ => .ok { reading with seen := withItem reading.seen .file }
  | none => .ok reading

/-- The parts of a long argument before and after the first equals sign, without dashes. -/
def parts (argument : String) : String × Option String :=
  let chars := argument.toList.drop 2
  let word := chars.takeWhile (· != '=')
  match chars.drop word.length with
  | [] => (String.ofList word, none)
  | _ :: value => (String.ofList word, some (String.ofList value))

/-- Complains of a long argument that is no switch. -/
def unknownLong (reading : Reading) (word : String) : ArgumentError :=
  match Switch.similarTo? word with
  | some switch =>
    .unknown ("--" ++ word) (.similar switch) (withItem reading.items (.switch switch))
  | none => .unknown ("--" ++ word) .asValue reading.items

/-- What a switch does: it ends the reading with a request, or it is noted. -/
def takeSwitch (reading : Reading) (switch : Switch) :
    Except ArgumentError (Reading ⊕ Request) := do
  let reading ← reading.settle
  match switch with
  | .help => .ok (.inr .help)
  | .version => .ok (.inr .version)
  | .create | .up =>
    if reading.seen.contains (.switch switch) then .error (.repeated switch)
    else .ok (.inl { reading with seen := reading.seen ++ [.switch switch] })

/-- What a value does. -/
def takeValue (reading : Reading) (value : String) : Except ArgumentError (Reading ⊕ Request) :=
  if reading.file.isSome then .error (.unknown value .none [])
  else .ok (.inl { reading with file := some value })

/-- What an argument does. -/
def take (reading : Reading) (argument : String) : Except ArgumentError (Reading ⊕ Request) :=
  if reading.valuesOnly then reading.takeValue argument
  else if argument = "--" then .ok (.inl { reading with valuesOnly := true })
  else
    match argument.toList with
    | '-' :: '-' :: _ =>
      let (word, value) := parts argument
      match Switch.ofWord? word, value with
      | some switch, none => reading.takeSwitch switch
      | some switch, some value =>
        .error (.unexpectedValue value switch (withItem reading.seen (.switch switch)))
      | none, _ => .error (reading.unknownLong word)
    | '-' :: letter :: _ =>
      match Switch.ofLetter? letter with
      | some switch => reading.takeSwitch switch
      | none => .error (.unknown (String.ofList ['-', letter]) .asValue [])
    | _ => reading.takeValue argument

/-- The request that remains at the end. -/
def finish (reading : Reading) : Except ArgumentError Request := do
  let reading ← reading.settle
  let file := reading.file.map Path.mk
  let switches := reading.seen.filterMap fun
    | .switch found => some found
    | .file => none
  match switches with
  | [Switch.create] => .ok (.create file)
  | [Switch.up] => .ok (.up file)
  | first :: second :: _ =>
    .error (.conflicting first second (reading.seen.filter (· != .switch second)))
  | _ => .ok (.show file)

/-- Reads arguments one after the other. -/
def takeAll (reading : Reading) : List String → Except ArgumentError Request
  | [] => reading.finish
  | argument :: rest =>
    match reading.take argument with
    | .error error => .error error
    | .ok (.inr request) => .ok request
    | .ok (.inl reading) => reading.takeAll rest

end Reading

/-- The request that arguments make. -/
def Request.ofArguments (arguments : List String) : Except ArgumentError Request :=
  Reading.takeAll {} arguments

/-! ## Texts -/

/-- A text to be typed as it stands. -/
def literal (text : String) : Span := Style.literal.on text

/-- The line about usage, for some items or in general. -/
def usageLine (usage : List Item) : List Span :=
  let switches := usage.filterMap fun
    | .switch found => some found
    | .file => none
  [Style.heading.on "Usage:", plain " ", literal "chaosflow"] ++
    (if usage.isEmpty then [plain " [OPTIONS] [FILE]"]
      else
        (switches.flatMap fun switch => [plain " ", literal switch.text]) ++
          [plain (if usage.contains .file then " <FILE>" else " [FILE]")])

/-- The lines with advice about an argument. -/
def Advice.spans (advice : Advice) (argument : String) : List Span :=
  match advice with
  | .none => []
  | .similar switch => [
      plain "\n\n  ", Style.good.on "tip:", plain " a similar argument exists: '",
      Style.good.on switch.text, plain "'"]
  | .asValue => [
      plain "\n\n  ", Style.good.on "tip:", plain " to pass '", Style.notice.on argument,
      plain "' as a value, use '", Style.good.on ("-- " ++ argument), plain "'"]

namespace ArgumentError

/-- What is wrong. -/
def body : ArgumentError → List Span
  | .unknown argument advice _ =>
    [plain "unexpected argument '", Style.notice.on argument, plain "' found"] ++
      advice.spans argument
  | .repeated switch => [
      plain "the argument '", Style.notice.on switch.text,
      plain "' cannot be used multiple times"]
  | .conflicting first second _ => [
      plain "the argument '", Style.notice.on first.text, plain "' cannot be used with '",
      Style.notice.on second.text, plain "'"]
  | .unexpectedValue value switch _ => [
      plain "unexpected value '", Style.notice.on value, plain "' for '", literal switch.text,
      plain "' found; no more were expected"]
  | .emptyFile => [
      plain "a value is required for '", literal "[FILE]", plain "' but none was supplied"]

/-- The items that a right usage is shown with, where it helps. -/
def usage? : ArgumentError → Option (List Item)
  | .unknown _ _ usage | .conflicting _ _ usage | .unexpectedValue _ _ usage => some usage
  | .repeated _ => some []
  | .emptyFile => none

/-- The report of wrong arguments. -/
def report (error : ArgumentError) : List Span :=
  [Style.error.on "error:", plain " "] ++ error.body ++
    (match error.usage? with
      | some usage => plain "\n\n" :: usageLine usage
      | none => []) ++
    [plain "\n\nFor more information, try '", literal "--help", plain "'.\n"]

end ArgumentError

/-- The text of the help. -/
def helpText : List Span :=
  [plain "サービスとジャーニーを docker compose で組み上げるカオステストツール\n\n"] ++
    usageLine [] ++ [
    plain "\n\n", Style.heading.on "Arguments:",
    plain "\n  [FILE]  設定ファイル（.json / .yaml / .toml）。省略時は自動検出\n\n",
    Style.heading.on "Options:", plain "\n      ",
    literal "--create",
    plain "   サンプル設定ファイルを書き出す（既存のファイルは上書き）\n      ",
    literal "--up", plain "       トポロジーを起動し、Ctrl-C で停止する\n  ",
    literal "-h", plain ", ", literal "--help", plain "     Print help\n  ",
    literal "-V", plain ", ", literal "--version", plain "  Print version\n"]

/-- The text of the version. -/
def versionText : String := "chaosflow 0.3.0\n"

end FaultDrill.CommandLine
