import FaultDrill.Text.Utf8

/-!
Text that is written in UTF-8 is read back.

Owns: the bytes of characters by the size of their numbers, and what is read from them.

Main statements: the bytes of a character are read as this character, whatever follows
(`decodeChar?_utf8EncodeChar`); the bytes of a text are read as the text (`text?_encode`), so they
determine it (`encode_injective`).
-/

namespace FaultDrill.Text.Utf8

/-! ## Bytes as numbers -/

private theorem toNat_ofNat {number : Nat} (small : number < 256) :
    (UInt8.ofNat number).toNat = number :=
  UInt8.toNat_ofNat_of_lt' small

private theorem ofNat_lt_iff {number : Nat} (small : number < 256) (byte : UInt8) :
    UInt8.ofNat number < byte ↔ number < byte.toNat := by
  rw [UInt8.lt_iff_toNat_lt, toNat_ofNat small]

private theorem ofNat_eq_iff {number : Nat} (small : number < 256) (byte : UInt8) :
    UInt8.ofNat number = byte ↔ number = byte.toNat := by
  rw [← UInt8.toNat_inj, toNat_ofNat small]

private theorem continues_ofNat_iff {number : Nat} (small : number < 256) (low high : UInt8) :
    continues low high (UInt8.ofNat number) = true ↔ low.toNat ≤ number ∧ number ≤ high.toNat := by
  unfold continues
  rw [Bool.and_eq_true, decide_eq_true_eq, decide_eq_true_eq, UInt8.le_iff_toNat_le,
    UInt8.le_iff_toNat_le, toNat_ofNat small]

/-- A byte that continues a sequence carries six bits. -/
private theorem payload_ofNat (bits : Nat) :
    payload (UInt8.ofNat (bits % 64 + 0x80)) = bits % 64 := by
  unfold payload
  rw [toNat_ofNat (by omega)]
  omega

private theorem continues_payload (bits : Nat) :
    continues 0x80 0xBF (UInt8.ofNat (bits % 64 + 0x80)) = true := by
  rw [continues_ofNat_iff (by omega)]
  change 0x80 ≤ _ ∧ _ ≤ 0xBF
  omega

/-! ## Sequences -/

section Sequences

variable {number : Nat} (rest : List UInt8)

private theorem decodeChar?_one (high : number < 0x80) :
    decodeChar? (UInt8.ofNat number :: rest) = some (Char.ofNat number, rest) := by
  have small : number < 256 := by omega
  unfold decodeChar?
  simp only [ofNat_lt_iff small, UInt8.reduceToNat, toNat_ofNat small]
  rw [if_pos high]

private theorem decodeChar?_two (low : 0x80 ≤ number) (high : number < 0x800) :
    decodeChar? (UInt8.ofNat (number / 64 % 32 + 0xC0) ::
        UInt8.ofNat (number % 64 + 0x80) :: rest) = some (Char.ofNat number, rest) := by
  have small : number / 64 % 32 + 0xC0 < 256 := by omega
  unfold decodeChar?
  simp only [ofNat_lt_iff small, UInt8.reduceToNat, toNat_ofNat small, continues_payload,
    payload_ofNat]
  rw [if_neg (by omega), if_neg (by omega), if_pos (by omega), if_pos trivial]
  have sum : (number / 64 % 32 + 0xC0) % 32 * 64 + number % 64 = number := by omega
  rw [sum]

/-- The limits of a second byte keep out sequences that are longer than necessary and numbers that
no character has. -/
private theorem isSecond_ofNat (first second : Nat) (small : first < 256)
    (secondSmall : second < 64)
    (long : first = 0xE0 → 0x20 ≤ second) (surrogate : first = 0xED → second < 0x20)
    (longer : first = 0xF0 → 0x10 ≤ second) (last : first = 0xF4 → second < 0x10) :
    isSecond (UInt8.ofNat first) (UInt8.ofNat (second + 0x80)) = true := by
  unfold isSecond secondLimits
  simp only [ofNat_eq_iff small, UInt8.reduceToNat]
  split
  · rw [continues_ofNat_iff (by omega)]
    change 0xA0 ≤ _ ∧ _ ≤ 0xBF
    omega
  · split
    · rw [continues_ofNat_iff (by omega)]
      change 0x80 ≤ _ ∧ _ ≤ 0x9F
      omega
    · split
      · rw [continues_ofNat_iff (by omega)]
        change 0x90 ≤ _ ∧ _ ≤ 0xBF
        omega
      · split
        · rw [continues_ofNat_iff (by omega)]
          change 0x80 ≤ _ ∧ _ ≤ 0x8F
          omega
        · rw [continues_ofNat_iff (by omega)]
          change 0x80 ≤ _ ∧ _ ≤ 0xBF
          omega

private theorem decodeChar?_three (low : 0x800 ≤ number) (high : number < 0x10000)
    (valid : number < 0xD800 ∨ 0xDFFF < number) :
    decodeChar? (UInt8.ofNat (number / 4096 % 16 + 0xE0) ::
        UInt8.ofNat (number / 64 % 64 + 0x80) :: UInt8.ofNat (number % 64 + 0x80) :: rest) =
      some (Char.ofNat number, rest) := by
  have small : number / 4096 % 16 + 0xE0 < 256 := by omega
  have second := isSecond_ofNat (number / 4096 % 16 + 0xE0) (number / 64 % 64) small (by omega)
    (by omega) (by omega) (by omega) (by omega)
  unfold decodeChar?
  simp only [ofNat_lt_iff small, UInt8.reduceToNat, toNat_ofNat small, continues_payload,
    payload_ofNat, second, Bool.and_self]
  rw [if_neg (by omega), if_neg (by omega), if_neg (by omega), if_pos (by omega), if_pos trivial]
  have sum : ((number / 4096 % 16 + 0xE0) % 16 * 64 + number / 64 % 64) * 64 + number % 64 =
      number := by
    omega
  rw [sum]

private theorem decodeChar?_four (low : 0x10000 ≤ number) (high : number < 0x110000) :
    decodeChar? (UInt8.ofNat (number / 262144 % 8 + 0xF0) ::
        UInt8.ofNat (number / 4096 % 64 + 0x80) :: UInt8.ofNat (number / 64 % 64 + 0x80) ::
        UInt8.ofNat (number % 64 + 0x80) :: rest) = some (Char.ofNat number, rest) := by
  have small : number / 262144 % 8 + 0xF0 < 256 := by omega
  have second := isSecond_ofNat (number / 262144 % 8 + 0xF0) (number / 4096 % 64) small (by omega)
    (by omega) (by omega) (by omega) (by omega)
  unfold decodeChar?
  simp only [ofNat_lt_iff small, UInt8.reduceToNat, toNat_ofNat small, continues_payload,
    payload_ofNat, second, Bool.and_self]
  rw [if_neg (by omega), if_neg (by omega), if_neg (by omega), if_neg (by omega),
    if_pos (by omega), if_pos trivial]
  have sum : (((number / 262144 % 8 + 0xF0) % 8 * 64 + number / 4096 % 64) * 64 +
      number / 64 % 64) * 64 + number % 64 = number := by
    omega
  rw [sum]

end Sequences

/-! ## Characters -/

/-- A character of seven bits is a single byte. -/
theorem utf8EncodeChar_of_small {char : Char} (small : char.toNat < 0x80) :
    String.utf8EncodeChar char = [UInt8.ofNat char.toNat] := by
  unfold String.utf8EncodeChar
  rw [Char.toNat] at small ⊢
  dsimp only
  rw [if_pos (by omega)]

/-- The bytes of a longer character have their highest bit set. -/
theorem le_of_mem_utf8EncodeChar {char : Char} (large : ¬ char.toNat < 0x80) {byte : UInt8}
    (member : byte ∈ String.utf8EncodeChar char) : 0x80 ≤ byte.toNat := by
  unfold String.utf8EncodeChar at member
  rw [Char.toNat] at large
  dsimp only at member
  rw [if_neg (by omega)] at member
  have tagged : ∀ {bits tag : Nat}, bits + tag < 256 → 0x80 ≤ tag →
      byte = UInt8.ofNat (bits + tag) → 0x80 ≤ byte.toNat := by
    rintro bits tag small high rfl
    rw [UInt8.toNat_ofNat_of_lt' small]
    omega
  split at member
  · simp only [List.mem_cons, List.not_mem_nil, or_false] at member
    rcases member with lead | last
    · exact tagged (by omega) (by omega) lead
    · exact tagged (by omega) (by omega) last
  · split at member
    · simp only [List.mem_cons, List.not_mem_nil, or_false] at member
      rcases member with lead | middle | last
      · exact tagged (by omega) (by omega) lead
      · exact tagged (by omega) (by omega) middle
      · exact tagged (by omega) (by omega) last
    · simp only [List.mem_cons, List.not_mem_nil, or_false] at member
      rcases member with lead | second | third | last
      · exact tagged (by omega) (by omega) lead
      · exact tagged (by omega) (by omega) second
      · exact tagged (by omega) (by omega) third
      · exact tagged (by omega) (by omega) last

/-! ## Texts -/

/-- The bytes of a character are read as this character. -/
theorem decodeChar?_utf8EncodeChar (char : Char) (rest : List UInt8) :
    decodeChar? (String.utf8EncodeChar char ++ rest) = some (char, rest) := by
  have valid : char.val.toNat < 0xD800 ∨ 0xDFFF < char.val.toNat ∧ char.val.toNat < 0x110000 :=
    char.valid
  have back : Char.ofNat char.val.toNat = char := Char.ofNat_toNat char
  unfold String.utf8EncodeChar
  dsimp only
  generalize char.val.toNat = number at valid back ⊢
  subst back
  split
  · exact decodeChar?_one rest (by omega)
  · split
    · exact decodeChar?_two rest (by omega) (by omega)
    · split
      · exact decodeChar?_three rest (by omega) (by omega) (by omega)
      · exact decodeChar?_four rest (by omega) (by omega)

theorem encode_append (first second : List Char) :
    encode (first ++ second) = encode first ++ encode second :=
  List.flatMap_append

private theorem decodeWithin_encode (chars : List Char) :
    ∀ steps, (encode chars).length ≤ steps → decodeWithin steps (encode chars) = some chars := by
  induction chars with
  | nil =>
      intro steps _
      cases steps <;> rfl
  | cons char chars inductionHypothesis =>
      intro steps enough
      have split : encode (char :: chars) = String.utf8EncodeChar char ++ encode chars :=
        List.flatMap_cons
      obtain ⟨byte, bytes, letters⟩ :=
        List.exists_cons_of_ne_nil (String.utf8EncodeChar_ne_nil (c := char))
      rw [split, List.length_append, letters, List.length_cons] at enough
      obtain ⟨steps, rfl⟩ : ∃ fewer, steps = fewer + 1 := ⟨steps - 1, by omega⟩
      have read := decodeChar?_utf8EncodeChar char (encode chars)
      rw [split]
      rw [letters, List.cons_append] at read ⊢
      unfold decodeWithin
      rw [read]
      dsimp only
      rw [inductionHypothesis steps (by omega)]
      rfl

theorem decode?_encode (chars : List Char) : decode? (encode chars) = some chars :=
  decodeWithin_encode chars _ (Nat.le_refl _)

/-- A text that is written is read back. -/
theorem text?_encode (text : String) : text? (encode text.toList) = some text := by
  unfold text?
  rw [decode?_encode]
  simp

theorem encode_injective : Function.Injective encode := by
  intro first second same
  have read := decode?_encode first
  rw [same, decode?_encode] at read
  exact (Option.some.inj read).symm

end FaultDrill.Text.Utf8
