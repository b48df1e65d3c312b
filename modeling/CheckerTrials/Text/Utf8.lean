/-!
# Reading bytes as text

A file is a sequence of bytes.  Most of them are read strictly: `String.fromUTF8?` gives a text or
nothing.  A console log, which may hold whatever a process printed, is read leniently instead, by
`Text.decodeLossy`: what is no character becomes U+FFFD.

The unit that is replaced is the longest sequence of bytes that could still have become a character.
`Text.Shape` says which bytes can continue a character, and the replacement swallows no byte that
begins something else.
-/

set_option autoImplicit false

namespace CheckerTrials.Text

/-- What must follow the first byte of a character: the bounds of the second byte, and how many
bytes there are after that one.  `none` for a byte that begins no character of several bytes. -/
structure Shape where
  /-- Least value of the second byte. -/
  least : Nat
  /-- Greatest value of the second byte. -/
  greatest : Nat
  /-- Number of bytes after the second one. -/
  further : Nat

/-- The shape of the characters that begin with a byte.  The bounds exclude the spellings that are
longer than they need to be, the surrogates, and everything above U+10FFFF. -/
def Shape.ofFirst? (b : Nat) : Option Shape :=
  if 0xC2 ≤ b ∧ b ≤ 0xDF then some ⟨0x80, 0xBF, 0⟩
  else if b = 0xE0 then some ⟨0xA0, 0xBF, 1⟩
  else if b = 0xED then some ⟨0x80, 0x9F, 1⟩
  else if 0xE1 ≤ b ∧ b ≤ 0xEF then some ⟨0x80, 0xBF, 1⟩
  else if b = 0xF0 then some ⟨0x90, 0xBF, 2⟩
  else if 0xF1 ≤ b ∧ b ≤ 0xF3 then some ⟨0x80, 0xBF, 2⟩
  else if b = 0xF4 then some ⟨0x80, 0x8F, 2⟩
  else none

/-- The character that stands for bytes that are none. -/
def replacement : Char := '\uFFFD'

/-- Reads the bytes of a text, with `replacement` for every stretch of bytes that is no character.

`pending` is the character begun: the bounds for the next byte, how many bytes follow that one, and
the bits read so far. -/
def decodeLossyFrom (pending : Option (Shape × Nat)) : List UInt8 → List Char
  | [] => if pending.isSome then [replacement] else []
  | byte :: rest =>
    let b := byte.toNat
    let fresh : List Char :=
      if b < 0x80 then Char.ofNat b :: decodeLossyFrom none rest
      else
        match Shape.ofFirst? b with
        | some shape =>
          let bits := if b < 0xE0 then b - 0xC0 else if b < 0xF0 then b - 0xE0 else b - 0xF0
          decodeLossyFrom (some (shape, bits)) rest
        | none => replacement :: decodeLossyFrom none rest
    match pending with
    | none => fresh
    | some (shape, bits) =>
      if shape.least ≤ b ∧ b ≤ shape.greatest then
        let bits := bits * 64 + (b - 0x80)
        match shape.further with
        | 0 => Char.ofNat bits :: decodeLossyFrom none rest
        | more + 1 => decodeLossyFrom (some (⟨0x80, 0xBF, more⟩, bits)) rest
      else replacement :: fresh

/-- A text from its bytes, with U+FFFD for what is no character. -/
def decodeLossy (bytes : ByteArray) : List Char :=
  decodeLossyFrom none bytes.toList

end CheckerTrials.Text
