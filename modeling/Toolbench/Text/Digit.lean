/-!
# Decimal digits

Two notions of a digit meet in tool output. A *decimal digit* is any character of the Unicode
category `Nd`; it shapes where a number may stand in a line. An *ASCII digit* has a value; only
runs of ASCII digits denote numbers. The table below lists the zeros of the decimal blocks: each
block holds ten consecutive characters.
-/

namespace Toolbench.Text

/-- The zero of every block of ten decimal digits, in code-point order. -/
def digitZeros : List Nat :=
  [0x30, 0x660, 0x6F0, 0x7C0, 0x966, 0x9E6, 0xA66, 0xAE6, 0xB66, 0xBE6, 0xC66, 0xCE6, 0xD66,
    0xDE6, 0xE50, 0xED0, 0xF20, 0x1040, 0x1090, 0x17E0, 0x1810, 0x1946, 0x19D0, 0x1A80, 0x1A90,
    0x1B50, 0x1BB0, 0x1C40, 0x1C50, 0xA620, 0xA8D0, 0xA900, 0xA9D0, 0xA9F0, 0xAA50, 0xABF0,
    0xFF10, 0x104A0, 0x10D30, 0x10D40, 0x11066, 0x110F0, 0x11136, 0x111D0, 0x112F0, 0x11450,
    0x114D0, 0x11650, 0x116C0, 0x116D0, 0x116DA, 0x11730, 0x118E0, 0x11950, 0x11BF0, 0x11C50,
    0x11D50, 0x11DA0, 0x11F50, 0x16130, 0x16A60, 0x16AC0, 0x16B50, 0x16D70, 0x1CCF0, 0x1D7CE,
    0x1D7D8, 0x1D7E2, 0x1D7EC, 0x1D7F6, 0x1E140, 0x1E2F0, 0x1E4F0, 0x1E5F1, 0x1E950, 0x1FBF0]

/-- The character is a decimal digit of some script. ASCII is tested first. -/
def isDecimalDigit (c : Char) : Bool :=
  c.isDigit || digitZeros.any fun first => first ≤ c.toNat && c.toNat < first + 10

/-- The value of an ASCII digit. -/
def digitValue? (c : Char) : Option Nat :=
  if c.isDigit then some (c.toNat - '0'.toNat) else none

/-- The value of a hexadecimal digit. -/
def hexValue? (c : Char) : Option Nat :=
  if c.isDigit then some (c.toNat - '0'.toNat)
  else if 'a' ≤ c ∧ c ≤ 'f' then some (c.toNat - 'a'.toNat + 10)
  else if 'A' ≤ c ∧ c ≤ 'F' then some (c.toNat - 'A'.toNat + 10)
  else none

/-- An ASCII digit is a decimal digit. -/
theorem isDecimalDigit_of_isDigit {c : Char} (h : c.isDigit = true) : isDecimalDigit c = true := by
  simp [isDecimalDigit, h]

example : digitZeros.length = 76 := rfl
example : isDecimalDigit '٣' = true := by decide
example : digitValue? '٣' = none := by decide

end Toolbench.Text
