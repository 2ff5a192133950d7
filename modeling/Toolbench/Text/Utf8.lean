/-!
# Lossy UTF-8

Bytes become characters one at a time. While a character of several bytes is being read, the
machine holds the bits so far and the bounds of the next byte; the bounds exclude overlong forms,
surrogates and values above U+10FFFF. Each longest run of bytes that begins a character without
completing one is replaced by a single U+FFFD, and so is each byte that cannot begin one.
-/

namespace Toolbench.Text.Utf8

/-- The character that stands for undecodable bytes. -/
def replacement : Char := '\uFFFD'

/-- A character of several bytes, not yet complete. -/
structure Partial where
  /-- How many bytes are still missing, at least one. -/
  missing : Nat
  /-- The value of the bits read so far. -/
  bits : Nat
  /-- The least value that the next byte may have. -/
  low : Nat
  /-- The greatest value that the next byte may have. -/
  high : Nat
deriving DecidableEq, Repr

/-- The text that one byte completes, and the character it leaves unfinished. -/
abbrev Progress := List Char × Option Partial

/-- Read the first byte of a character. -/
def start (byte : UInt8) : Progress :=
  let n := byte.toNat
  if n < 0x80 then ([Char.ofNat n], none)
  else if n < 0xC2 then ([replacement], none)
  else if n < 0xE0 then ([], some ⟨1, n - 0xC0, 0x80, 0xBF⟩)
  else if n < 0xF0 then
    ([], some ⟨2, n - 0xE0, if n = 0xE0 then 0xA0 else 0x80, if n = 0xED then 0x9F else 0xBF⟩)
  else if n < 0xF5 then
    ([], some ⟨3, n - 0xF0, if n = 0xF0 then 0x90 else 0x80, if n = 0xF4 then 0x8F else 0xBF⟩)
  else ([replacement], none)

/-- Read one byte. A byte out of bounds ends the unfinished character with a replacement and is
then read as a first byte. -/
def next : Option Partial → UInt8 → Progress
  | none, byte => start byte
  | some held, byte =>
      if held.low ≤ byte.toNat ∧ byte.toNat ≤ held.high then
        let bits := 64 * held.bits + byte.toNat % 64
        if held.missing ≤ 1 then ([Char.ofNat bits], none)
        else ([], some ⟨held.missing - 1, bits, 0x80, 0xBF⟩)
      else
        let (text, left) := start byte
        (replacement :: text, left)

/-- Read the bytes that follow an unfinished character. -/
def decodeFrom : Option Partial → List UInt8 → List Char
  | none, [] => []
  | some _, [] => [replacement]
  | held, byte :: bytes =>
      let (text, left) := next held byte
      text ++ decodeFrom left bytes

/-- The characters of a byte sequence, with replacements for what does not decode. -/
def decode (bytes : List UInt8) : List Char :=
  decodeFrom none bytes

/-- The bytes of a character. -/
def encodeChar (c : Char) : List UInt8 :=
  let n := c.toNat
  if n < 0x80 then [UInt8.ofNat n]
  else if n < 0x800 then [UInt8.ofNat (0xC0 + n / 64), UInt8.ofNat (0x80 + n % 64)]
  else if n < 0x10000 then
    [UInt8.ofNat (0xE0 + n / 4096), UInt8.ofNat (0x80 + n / 64 % 64), UInt8.ofNat (0x80 + n % 64)]
  else
    [UInt8.ofNat (0xF0 + n / 262144), UInt8.ofNat (0x80 + n / 4096 % 64),
      UInt8.ofNat (0x80 + n / 64 % 64), UInt8.ofNat (0x80 + n % 64)]

/-- The bytes of a text. -/
def encode (cs : List Char) : List UInt8 :=
  cs.flatMap encodeChar

/-- The characters of a byte sequence that is UTF-8 throughout: encoding them gives the bytes
back. -/
def decodeExact? (bytes : List UInt8) : Option (List Char) :=
  let cs := decode bytes
  if encode cs = bytes then some cs else none

@[simp] theorem decode_nil : decode [] = [] := rfl

/-- An ASCII byte at the start of a character is that character. -/
theorem decodeFrom_ascii {byte : UInt8} (bytes : List UInt8) (h : byte.toNat < 0x80) :
    decodeFrom none (byte :: bytes) = Char.ofNat byte.toNat :: decodeFrom none bytes := by
  simp [decodeFrom, next, start, h]

example : decode [0x62, 0xC3, 0x62, 0xA9, 0xC3, 0xA9] = ['b', '\uFFFD', 'b', '\uFFFD', 'é'] := by
  decide
example : decode [0xF0, 0x9F, 0xA6, 0x80] = ['🦀'] := by decide
example : decode [0xF0, 0x9F, 0xA6] = ['\uFFFD'] := by decide
example : decode (encode ['a', 'é', '€', '🦀']) = ['a', 'é', '€', '🦀'] := by decide

end Toolbench.Text.Utf8
