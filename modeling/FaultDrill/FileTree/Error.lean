import FaultDrill.Numeral.Layout

/-!
Why an operation on files fails.

Owns: the causes, with the texts and numbers by which the system names them.
-/

namespace FaultDrill

/-- Causes of failure. -/
inductive FileError where
  | notFound
  | noSuchDevice
  | notAProgram
  | denied
  | busy
  | exists
  | notDirectory
  | isDirectory
  | invalid
  | nameTooLong
  | notEmpty
  | tooManyLinks
  /-- The path holds a character that no name can have. -/
  | nulCharacter
  /-- An argument of a program holds a character that no argument can have. -/
  | nulArgument
  /-- A path has no directory part that could be made first. -/
  | noParent
  deriving DecidableEq, Repr

namespace FileError

/-- The number by which the system knows a cause. -/
def number? : FileError → Option Nat
  | .notFound => some 2
  | .noSuchDevice => some 6
  | .notAProgram => some 8
  | .denied => some 13
  | .busy => some 16
  | .exists => some 17
  | .notDirectory => some 20
  | .isDirectory => some 21
  | .invalid => some 22
  | .nameTooLong => some 36
  | .notEmpty => some 39
  | .tooManyLinks => some 40
  | .nulCharacter | .nulArgument | .noParent => none

/-- A cause in words. -/
def reason : FileError → String
  | .notFound => "No such file or directory"
  | .noSuchDevice => "No such device or address"
  | .notAProgram => "Exec format error"
  | .denied => "Permission denied"
  | .busy => "Device or resource busy"
  | .exists => "File exists"
  | .notDirectory => "Not a directory"
  | .isDirectory => "Is a directory"
  | .invalid => "Invalid argument"
  | .nameTooLong => "File name too long"
  | .notEmpty => "Directory not empty"
  | .tooManyLinks => "Too many levels of symbolic links"
  | .nulCharacter => "file name contained an unexpected NUL byte"
  | .nulArgument => "nul byte found in provided data"
  | .noParent => "failed to create whole tree"

/-- The text shown for a cause. -/
def message (error : FileError) : String :=
  match error.number? with
  | some number => error.reason ++ " (os error " ++ Numeral.decimalText number ++ ")"
  | none => error.reason

end FileError

end FaultDrill
