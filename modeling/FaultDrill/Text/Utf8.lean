/-!
Text as bytes in UTF-8.

Owns:
- the bytes of a text;
- reading bytes back, refused at the first sequence that no character has;
- the length of the readable part of ill-formed bytes, and reading with replacements;
- the two agree: what is written is read back.

Does not own: byte order marks, which each format treats in its own way.
-/

namespace FaultDrill.Text.Utf8

/-- The bytes of some characters. -/
def encode (chars : List Char) : List UInt8 :=
  chars.flatMap String.utf8EncodeChar

/-- Whether a byte continues a sequence, within narrower limits after some first bytes. -/
def continues (low high byte : UInt8) : Bool :=
  low ≤ byte && byte ≤ high

/-- The six low bits of a continuation byte. -/
def payload (byte : UInt8) : Nat := byte.toNat % 64

/-- The limits of the second byte after a first byte of three or four bytes: they exclude forms
longer than necessary, surrogates, and numbers past the last code point. -/
def secondLimits (first : UInt8) : UInt8 × UInt8 :=
  if first = 0xE0 then (0xA0, 0xBF)
  else if first = 0xED then (0x80, 0x9F)
  else if first = 0xF0 then (0x90, 0xBF)
  else if first = 0xF4 then (0x80, 0x8F)
  else (0x80, 0xBF)

/-- Whether a byte may come second after a first byte of three or four bytes. -/
def isSecond (first byte : UInt8) : Bool :=
  continues (secondLimits first).1 (secondLimits first).2 byte

/-- The first character of some bytes with what follows it. -/
def decodeChar? : List UInt8 → Option (Char × List UInt8)
  | [] => none
  | first :: rest =>
    if first < 0x80 then some (Char.ofNat first.toNat, rest)
    else if first < 0xC2 then none
    else if first < 0xE0 then
      match rest with
      | second :: rest =>
        if continues 0x80 0xBF second then
          some (Char.ofNat (first.toNat % 32 * 64 + payload second), rest)
        else none
      | [] => none
    else if first < 0xF0 then
      match rest with
      | second :: third :: rest =>
        if isSecond first second && continues 0x80 0xBF third then
          some (Char.ofNat ((first.toNat % 16 * 64 + payload second) * 64 + payload third), rest)
        else none
      | _ => none
    else if first < 0xF5 then
      match rest with
      | second :: third :: fourth :: rest =>
        if isSecond first second && continues 0x80 0xBF third && continues 0x80 0xBF fourth then
          some
            (Char.ofNat
              (((first.toNat % 8 * 64 + payload second) * 64 + payload third) * 64 +
                payload fourth),
              rest)
        else none
      | _ => none
    else none

/-- Characters are read while some remain of the given number of steps. -/
def decodeWithin : Nat → List UInt8 → Option (List Char)
  | _, [] => some []
  | 0, _ :: _ => none
  | steps + 1, bytes =>
    match decodeChar? bytes with
    | none => none
    | some (char, rest) => (decodeWithin steps rest).map (char :: ·)

/-- The characters of some bytes, if the bytes are well formed. -/
def decode? (bytes : List UInt8) : Option (List Char) :=
  decodeWithin bytes.length bytes

/-- The number of bytes before the first ill-formed sequence. -/
def wellFormedLength : Nat → List UInt8 → Nat
  | 0, _ => 0
  | steps + 1, bytes =>
    match decodeChar? bytes with
    | none => 0
    | some (char, rest) => char.utf8Size + wellFormedLength steps rest

/-- The text of some bytes, if they are well formed. -/
def text? (bytes : List UInt8) : Option String :=
  (decode? bytes).map String.ofList

/-- The number of bytes of the ill-formed sequence at the start of some bytes: as many as could
begin a character. -/
def illFormedLength : List UInt8 → Nat
  | first :: second :: rest =>
    if first < 0xE0 || 0xF4 < first || !isSecond first second then 1
    else if first < 0xF0 then 2
    else
      match rest with
      | third :: _ => if continues 0x80 0xBF third then 3 else 2
      | [] => 2
  | _ => 1

/-- The characters of some bytes, with a replacement for each ill-formed sequence; `steps` bounds
their number. -/
def replaced : (steps : Nat) → List UInt8 → List Char
  | 0, _ => []
  | _, [] => []
  | steps + 1, bytes =>
    match decodeChar? bytes with
    | some (char, rest) => char :: replaced steps rest
    | none => '\uFFFD' :: replaced steps (bytes.drop (illFormedLength bytes))

/-- The text of some bytes, with a replacement for each ill-formed sequence. -/
def replacedText (bytes : List UInt8) : String :=
  String.ofList (replaced bytes.length bytes)

example : decode? [0xC3, 0xA9, 0xF0, 0x9F, 0x8E, 0x89] = some ['é', '🎉'] := by decide

example : decode? [0xED, 0xA0, 0x80] = none := by decide

end FaultDrill.Text.Utf8
