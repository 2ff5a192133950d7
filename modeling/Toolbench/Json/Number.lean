import Toolbench.Text.Decimal

/-!
# Numbers of JSON documents

A number is kept as it was written. It is a natural number when it has no sign, point or
exponent. A number too great for a double-precision value is not usable: its digits, as many as
fit 64 bits, and its power of ten are each rounded to 53 bits, and their product must stay below
the first value that rounds to infinity.
-/

namespace Toolbench.Json

/-- A number as written. -/
structure Number where
  negative : Bool
  /-- The digits before the point. -/
  whole : List Char
  /-- The digits after the point; none when there is no point. -/
  fraction : List Char
  exponent : Option Int
deriving DecidableEq, Repr

namespace Number

/-- The natural number that is written without sign, point and exponent. -/
def natural? (x : Number) : Option Nat :=
  if x.negative || !x.fraction.isEmpty || x.exponent.isSome then none
  else Text.Decimal.readNat? x.whole

/-- Take digits onto a value as long as it fits 64 bits. Returns the value and the digits left. -/
def takeDigits : Nat → List Char → Nat × List Char
  | value, [] => (value, [])
  | value, c :: cs =>
      let next := 10 * value + (Text.digitValue? c).getD 0
      if next < UInt64.size then takeDigits next cs else (value, c :: cs)

/-- The nearest number of at most 53 significant bits; of two nearest ones, the even one. -/
def roundToDouble (n : Nat) : Nat :=
  let unit := Nat.pow 2 (n.log2 + 1 - 53)
  let quotient := n / unit
  let rest := n % unit
  if unit < 2 * rest || (2 * rest == unit && quotient % 2 == 1) then (quotient + 1) * unit
  else quotient * unit

/-- The least number that rounds to infinity. -/
def infinite : Nat :=
  Nat.pow 2 1024 - Nat.pow 2 970

/-- The value is not too great for double precision. -/
def isFinite (x : Number) : Bool :=
  let (whole, dropped) := takeDigits 0 x.whole
  let (digits, left) := takeDigits whole x.fraction
  let scale : Int :=
    x.exponent.getD 0 + dropped.length - (x.fraction.length - left.length : Nat)
  digits == 0 || scale < 0 ||
    (scale ≤ 308 && roundToDouble digits * roundToDouble (Nat.pow 10 scale.toNat) < infinite)

example : (Number.mk false "42".toList [] none).natural? = some 42 := by decide
example : (Number.mk true "0".toList [] none).natural? = none := by decide

end Number

end Toolbench.Json
