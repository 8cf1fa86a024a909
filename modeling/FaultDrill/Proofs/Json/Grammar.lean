import FaultDrill.Proofs.Json.Decoder

/-!
The grammar of JSON, said of bytes and apart from any reader.

Owns:
- which bytes between quotes stand for a text, with all escapes;
- members of objects;
- which bytes are a value of any kind, to any depth of nesting.

Does not own: elements between commas (`Reader.Elements`), and which values a document has
(`Layout`).
-/

namespace FaultDrill.Json.Grammar

open Number (isDigit DecimalOf)
open Reader (AllBlank Elements)

/-! ## Texts -/

/-- The letters of escapes with the characters that they stand for. -/
def letterEscapes : List (UInt8 × Char) :=
  [(0x22, '"'), (0x5C, '\\'), (0x2F, '/'), (0x62, '\x08'), (0x66, '\x0C'), (0x6E, '\n'),
    (0x72, '\r'), (0x74, '\t')]

/-- A hexadecimal digit, in either case, with its value. -/
def HexDigit (digit : UInt8) (value : Nat) : Prop :=
  (value < 10 ∧ digit.toNat = 0x30 + value) ∨
    (10 ≤ value ∧ value < 16 ∧
      (digit.toNat = 0x41 + (value - 10) ∨ digit.toNat = 0x61 + (value - 10)))

instance (digit : UInt8) (value : Nat) : Decidable (HexDigit digit value) :=
  inferInstanceAs (Decidable (_ ∨ _))

/-- Four hexadecimal digits with the number that they stand for. -/
inductive FourHexDigits : List UInt8 → Nat → Prop where
  | mk {first second third fourth : UInt8} {a b c d : Nat} (one : HexDigit first a)
      (two : HexDigit second b) (three : HexDigit third c) (four : HexDigit fourth d) :
      FourHexDigits [first, second, third, fourth] (((a * 16 + b) * 16 + c) * 16 + d)

/-- Bytes that stand for a character: its own, where no escape is needed, or an escape. Any
character has an escape by its number, which takes two halves if the number has more than four
digits. -/
inductive CharText : List UInt8 → Char → Prop where
  | plain {char : Char} (notQuote : char ≠ '"') (notBackslash : char ≠ '\\')
      (notControl : ¬ char.toNat < 0x20) : CharText (String.utf8EncodeChar char) char
  | letter {letter : UInt8} {char : Char} (listed : (letter, char) ∈ letterEscapes) :
      CharText [0x5C, letter] char
  | number {digits : List UInt8} {char : Char} (digitsOf : FourHexDigits digits char.toNat) :
      CharText (0x5C :: 0x75 :: digits) char
  | halves {high low : List UInt8} {char : Char} {first second : Nat} (firstSmall : first < 0x400)
      (secondSmall : second < 0x400) (highOf : FourHexDigits high (0xD800 + first))
      (lowOf : FourHexDigits low (0xDC00 + second))
      (sum : char.toNat = 0x10000 + first * 0x400 + second) :
      CharText (0x5C :: 0x75 :: (high ++ 0x5C :: 0x75 :: low)) char

/-- Bytes between quotes that stand for some characters. -/
inductive TextOf : List UInt8 → List Char → Prop where
  | nil : TextOf [] []
  | cons {source others : List UInt8} {char : Char} {chars : List Char}
      (here : CharText source char) :
      TextOf others chars → TextOf (source ++ others) (char :: chars)

/-- Characters that need no escapes stand for themselves. -/
theorem textOf_plain {chars : List Char}
    (plain : ∀ char ∈ chars, char ≠ '"' ∧ char ≠ '\\' ∧ ¬ char.toNat < 0x20) :
    TextOf (Text.Utf8.encode chars) chars := by
  induction chars with
  | nil => exact .nil
  | cons char chars inductionHypothesis =>
      rw [List.forall_mem_cons] at plain
      obtain ⟨⟨notQuote, notBackslash, notControl⟩, others⟩ := plain
      exact .cons (.plain notQuote notBackslash notControl) (inductionHypothesis others)

/-- Bytes between the quotes of any text, which may lack one half of an escape. -/
inductive AnyText : List UInt8 → Prop where
  | nil : AnyText []
  | plain {byte : UInt8} {others : List UInt8} (notQuote : byte ≠ 0x22)
      (notBackslash : byte ≠ 0x5C) (notControl : ¬ byte < 0x20) :
      AnyText others → AnyText (byte :: others)
  | letter {letter : UInt8} {char : Char} {others : List UInt8}
      (listed : (letter, char) ∈ letterEscapes) :
      AnyText others → AnyText (0x5C :: letter :: others)
  | number {digits others : List UInt8} {value : Nat} (digitsOf : FourHexDigits digits value) :
      AnyText others → AnyText (0x5C :: 0x75 :: (digits ++ others))

/-! ## Numbers -/

/-- Some digits, at least one. -/
structure Digits (digits : List UInt8) : Prop where
  isDigit : ∀ digit ∈ digits, isDigit digit = true
  nonempty : digits ≠ []

/-- The fraction of a number, if it has one. -/
inductive Fraction : List UInt8 → Prop where
  | none : Fraction []
  | some {digits : List UInt8} (digitsOf : Digits digits) : Fraction (0x2E :: digits)

/-- The exponent of a number, if it has one. -/
inductive Exponent : List UInt8 → Prop where
  | none : Exponent []
  | some {mark : UInt8} {sign digits : List UInt8} (marked : mark = 0x65 ∨ mark = 0x45)
      (signed : sign = [] ∨ sign = [0x2B] ∨ sign = [0x2D]) (digitsOf : Digits digits) :
      Exponent (mark :: (sign ++ digits))

/-- A number without its sign. -/
inductive NumberText : List UInt8 → Prop where
  | mk {whole fraction exponent : List UInt8} {value : Nat} (wholeOf : DecimalOf whole value)
      (fractionOf : Fraction fraction) (exponentOf : Exponent exponent) :
      NumberText (whole ++ (fraction ++ exponent))

/-! ## Values -/

/-- A member of an object, with white space on both sides of its colon. -/
inductive MemberText (named valued : List UInt8 → Prop) : List UInt8 → Prop where
  | mk {source before after value : List UInt8} (name : named source)
      (blankBefore : AllBlank before) (blankAfter : AllBlank after) (valueOf : valued value) :
      MemberText named valued (0x22 :: (source ++ [0x22] ++ (before ++ (0x3A :: (after ++ value)))))

/-- A value, given which values may be in it. -/
inductive ValueOver (inner : List UInt8 → Prop) : List UInt8 → Prop where
  | null : ValueOver inner [0x6E, 0x75, 0x6C, 0x6C]
  | true : ValueOver inner [0x74, 0x72, 0x75, 0x65]
  | false : ValueOver inner [0x66, 0x61, 0x6C, 0x73, 0x65]
  | positive {number : List UInt8} (numberOf : NumberText number) : ValueOver inner number
  | negative {number : List UInt8} (numberOf : NumberText number) :
      ValueOver inner (0x2D :: number)
  | text {source : List UInt8} (textOf : AnyText source) :
      ValueOver inner (0x22 :: (source ++ [0x22]))
  | list {items : List Unit} {inside blanks : List UInt8}
      (elements : Elements (fun _ item => inner item) true items inside)
      (blank : AllBlank blanks) : ValueOver inner (0x5B :: (inside ++ blanks ++ [0x5D]))
  | object {members : List Unit} {inside blanks : List UInt8}
      (elements : Elements (fun _ member => MemberText AnyText inner member) true members inside)
      (blank : AllBlank blanks) : ValueOver inner (0x7B :: (inside ++ blanks ++ [0x7D]))

/-- A value in which others are nested to some depth at most. -/
def IsValue : (depth : Nat) → List UInt8 → Prop
  | 0 => ValueOver fun _ => False
  | depth + 1 => ValueOver (IsValue depth)

end FaultDrill.Json.Grammar
