/-!
White space of text that people type: the characters of the Unicode property `White_Space`.

Owns: the class and its agreement with the ASCII class of the core library.

Does not own: the narrower blanks of the document formats, which each format states itself.
-/

namespace FaultDrill.Text

/-- The members of `White_Space`. -/
def isWhitespace (char : Char) : Bool :=
  let codePoint := char.toNat
  (0x09 ≤ codePoint && codePoint ≤ 0x0D) || codePoint == 0x20 || codePoint == 0x85 ||
    codePoint == 0xA0 || codePoint == 0x1680 || (0x2000 ≤ codePoint && codePoint ≤ 0x200A) ||
    codePoint == 0x2028 || codePoint == 0x2029 || codePoint == 0x202F || codePoint == 0x205F ||
    codePoint == 0x3000

/-- Core's white space is a part of the class. -/
theorem isWhitespace_of_core {char : Char} (blank : char.isWhitespace = true) :
    isWhitespace char = true := by
  simp only [Char.isWhitespace, Bool.or_eq_true, decide_eq_true_eq] at blank
  rcases blank with ((rfl | rfl) | rfl) | rfl <;> decide

end FaultDrill.Text
