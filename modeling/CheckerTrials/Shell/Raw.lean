import CheckerTrials.Text.Utf8

/-!
# Bytes as characters

The shell works on bytes: it cuts and compares them, and what they mean as text is not its business.
Here a byte is kept as the character of its number, so that names and operators can be written as
they are.  A text is taken apart into its bytes where it enters a script (`rawOfText`) and put together
where it leaves it (`bytesOfRaw`, `textOfRaw`).
-/

set_option autoImplicit false

namespace CheckerTrials.Shell

/-- Bytes, each as the character of its number. -/
def rawOfBytes (bytes : ByteArray) : List Char :=
  bytes.toList.map fun b => Char.ofNat b.toNat

/-- The bytes of a text, each as the character of its number. -/
def rawOfText (s : String) : String := String.ofList (rawOfBytes s.toUTF8)

/-- The bytes that characters stand for. -/
def bytesOfRaw (s : List Char) : ByteArray :=
  ⟨(s.map fun c => UInt8.ofNat c.toNat).toArray⟩

/-- The text of the bytes that characters stand for. -/
def textOfRaw (s : String) : String :=
  String.ofList (Text.decodeLossy (bytesOfRaw s.toList))

/-- The value of an octal or hexadecimal digit, or of a larger one. -/
def digitOf? (base : Nat) (c : Char) : Option Nat :=
  let value :=
    if '0' ≤ c ∧ c ≤ '9' then c.toNat - '0'.toNat
    else if 'a' ≤ c ∧ c ≤ 'z' then c.toNat - 'a'.toNat + 10
    else if 'A' ≤ c ∧ c ≤ 'Z' then c.toNat - 'A'.toNat + 10
    else base
  if value < base then some value else none

/-- Whether a character is a digit of a base. -/
def isDigitOf (base : Nat) (c : Char) : Bool := (digitOf? base c).isSome

/-- The value of digits of a base. -/
def valueIn (base : Nat) (digits : List Char) : Nat :=
  digits.foldl (fun n c => base * n + (digitOf? base c).getD 0) 0

/-- Whether a name may begin with a character. -/
def beginsName (c : Char) : Bool := c.isAlpha || c == '_'

/-- Whether a character may stand in a name. -/
def isNameChar (c : Char) : Bool := c.isAlphanum || c == '_'

/-- Whether characters are a name. -/
def isName (s : List Char) : Bool :=
  s.head?.any beginsName && s.all isNameChar

/-- Whether the system counts a byte among the blanks. -/
def isSpace (c : Char) : Bool := c == ' ' || (9 ≤ c.toNat && c.toNat ≤ 13)

end CheckerTrials.Shell
