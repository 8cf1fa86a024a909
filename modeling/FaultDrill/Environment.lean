import FaultDrill.Path
import FaultDrill.Text.Utf8

/-!
Environment variables.

Owns: variables with values of any bytes, and their values as texts and as paths.
-/

namespace FaultDrill

/-- Variables with their values. -/
abbrev Environment := List (String × List UInt8)

namespace Environment

/-- The bytes of a variable. -/
def bytes? (environment : Environment) (name : String) : Option (List UInt8) :=
  environment.lookup name

/-- The text of a variable whose bytes are well formed. -/
def text? (environment : Environment) (name : String) : Option String :=
  (environment.bytes? name).bind Text.Utf8.text?

/-- The path that some bytes spell; what is no character is replaced. -/
def pathOf (bytes : List UInt8) : Path := ⟨Text.Utf8.replacedText bytes⟩

/-- The path in a variable that is set and not empty. -/
def path? (environment : Environment) (name : String) : Option Path :=
  match environment.bytes? name with
  | none | some [] => none
  | some bytes => some (pathOf bytes)

end Environment

end FaultDrill
