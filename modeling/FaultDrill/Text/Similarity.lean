/-!
How similar two words are.

Owns: the measure of similarity by common characters that stand not too far apart, from 0 for words
with nothing in common to 1 for the same word.
-/

namespace FaultDrill.Text.Similarity

/-- Takes the first of some numbered characters that is a given one within a range of numbers. -/
def take (wanted : Char) (low high : Nat) :
    List (Nat × Char) → Option ((Nat × Char) × List (Nat × Char))
  | [] => none
  | (index, char) :: rest =>
    if low ≤ index ∧ index < high ∧ char = wanted then some ((index, char), rest)
    else (take wanted low high rest).map fun (found, rest) => (found, (index, char) :: rest)

/-- The characters of one word with those of another that they are paired with, at most `range`
places away; each character has one partner at most. -/
def partners (range : Nat) :
    List (Nat × Char) → List (Nat × Char) → List (Char × (Nat × Char))
  | [], _ => []
  | (index, char) :: rest, others =>
    match take char (index - range) (index + range + 1) others with
    | some (partner, others) => (char, partner) :: partners range rest others
    | none => partners range rest others

/-- A word with numbered characters. -/
def numbered (word : List Char) : List (Nat × Char) :=
  word.zipIdx.map fun (char, index) => (index, char)

/-- The similarity of two words: the mean of the parts of both words that have partners and of the
part of the partners that stand in the same order. -/
def similarity (left right : List Char) : Float :=
  let range := max left.length right.length / 2 - 1
  let pairs := partners range (numbered left) (numbered right)
  let inOrder := (pairs.map (·.2)).mergeSort fun first second => first.1 ≤ second.1
  let moved := ((pairs.zip inOrder).filter fun (pair, other) => pair.1 != other.2).length / 2
  let count := pairs.length
  if left.isEmpty && right.isEmpty then 1
  else if count = 0 then 0
  else
    (count.toFloat / left.length.toFloat + count.toFloat / right.length.toFloat +
      (count - moved).toFloat / count.toFloat) / 3

end FaultDrill.Text.Similarity
