/-!
Writers of limited capacity.

Owns: a writer that accepts a number of bytes and refuses any piece that does not fit, and that may
refuse to finish.

A refused piece leaves no trace, and nothing is written after it.
-/

namespace FaultDrill

/-- A writer with the bytes that it has accepted. -/
structure Writer where
  /-- How many bytes it accepts altogether; without a capacity, any number. -/
  capacity : Option Nat := none
  /-- Whether it accepts to finish. -/
  finishes : Bool := true
  accepted : List UInt8 := []
  deriving DecidableEq, Repr

namespace Writer

/-- Whether so many more bytes fit. -/
def fits (writer : Writer) (count : Nat) : Bool :=
  match writer.capacity with
  | none => true
  | some capacity => writer.accepted.length + count ≤ capacity

/-- Writes one piece after the other up to the first that is refused; says whether all were
accepted. -/
def write (writer : Writer) : List (List UInt8) → Bool × Writer
  | [] => (true, writer)
  | piece :: pieces =>
    if writer.fits piece.length then
      write { writer with accepted := writer.accepted ++ piece } pieces
    else (false, writer)

end Writer

end FaultDrill
