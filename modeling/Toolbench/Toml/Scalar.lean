import Toolbench.Text.Digit
import Toolbench.Toml.Value

/-!
# Unquoted values of TOML documents

Truth values, numbers, dates and times are written without quotes. Underscores may stand between
two digits of a number. Whether a text has the form of a number is told apart from whether it has
a value: an integer must lie between -2^127 and 2^128 - 1, a floating-point number must not round
to infinity, and an integer with underscores may hold characters that are no digits, or an
integer of a named base no digits at all. Such numbers are read, but they have no value.
-/

namespace Toolbench.Toml.Scalar

/-- The character is a digit of a base, which is at most sixteen. -/
def isDigitIn (base : Nat) (c : Char) : Bool :=
  (Text.hexValue? c).any (· < base)

/-- The number that digits of a base denote. -/
def valueIn (base : Nat) (digits : List Char) : Nat :=
  digits.foldl (fun value c => base * value + (Text.hexValue? c).getD 0) 0

/-- Each underscore stands right before a digit and right after one. -/
def isSpaced (isDigit : Char → Bool) (cs : List Char) : Bool :=
  go false cs
where
  /-- The same of a text that follows a digit or not. -/
  go : Bool → List Char → Bool
    | _, [] => true
    | afterDigit, '_' :: cs => afterDigit && cs.head?.any isDigit && go false cs
    | _, c :: cs => go (isDigit c) cs

/-- The sign of a number, and its text after the sign. -/
def sign : List Char → Option Char × List Char
  | '-' :: cs => (some '-', cs)
  | '+' :: cs => (some '+', cs)
  | cs => (none, cs)

/-- A number with its sign. -/
def signed (sign : Option Char) (n : Nat) : Int :=
  if sign = some '-' then -n else n

/-! ## Integers -/

/-- The integer is within the bounds. -/
def inBounds (n : Int) : Bool :=
  match n with
  | .ofNat n => n < Nat.pow 2 128
  | .negSucc n => n < Nat.pow 2 127

/-- The integer whose digits of a base stand in a text, among underscores. -/
def integer (base : Nat) (sign : Option Char) (cs : List Char) : Toml :=
  let digits := cs.filter (· != '_')
  let value := signed sign (valueIn base digits)
  if !digits.isEmpty && digits.all (isDigitIn base) && inBounds value then .integer value
  else .valueless

/-- The base that the first two characters of an integer name, and its text after them. -/
def base? : List Char → Option (Nat × List Char)
  | '0' :: 'x' :: cs => some (16, cs)
  | '0' :: 'o' :: cs => some (8, cs)
  | '0' :: 'b' :: cs => some (2, cs)
  | _ => none

/-- Read an integer that names its base. -/
def basedInteger? (text : List Char) : Option Toml := do
  let (base, cs) ← base? text
  if cs.all (fun c => c == '_' || isDigitIn base c) && isSpaced (isDigitIn base) cs then
    some (integer base none cs)
  else none

/-- Read an integer in base ten after its sign. It does not begin with a zero unless that stands
alone. Up to the first underscore there are digits only, and after it each underscore stands
between digits of base sixteen. -/
def decimalInteger? (sign : Option Char) (cs : List Char) : Option Toml :=
  let rest := cs.dropWhile Char.isDigit
  let isForm := !cs.isEmpty && (rest.isEmpty || rest.head? == some '_')
  let hasLeadingZero := 1 < cs.length && cs.head? == some '0'
  if isForm && !hasLeadingZero && isSpaced (isDigitIn 16) cs then
    some (integer 10 sign cs)
  else none

/-! ## Floating-point numbers -/

/-- The number `digits * 10 ^ scale` does not round to infinity. -/
def isFinite (digits : List Char) (scale : Int) : Bool :=
  let n := valueIn 10 digits
  let length : Int := (digits.dropWhile (· == '0')).length
  if n = 0 ∨ length + scale < 308 then true
  else if 310 < length + scale then false
  else
    n * Nat.pow 10 scale.toNat
      < (Nat.pow 2 1024 - Nat.pow 2 970) * Nat.pow 10 (-scale).toNat

/-- The digits of a run of digits and underscores, and the text after it. There is a digit. -/
def digitRun? (cs : List Char) : Option (List Char × List Char) :=
  let isRun (c : Char) := c.isDigit || c == '_'
  let digits := (cs.takeWhile isRun).filter Char.isDigit
  if digits.isEmpty then none else some (digits, cs.dropWhile isRun)

/-- Read the digits before the point, which do not begin with a zero unless it stands alone. -/
def whole? (cs : List Char) : Option (List Char × List Char) := do
  let (digits, rest) ← digitRun? cs
  if 1 < digits.length ∧ cs.head? = some '0' then none else some (digits, rest)

/-- Read the digits after the point, if there is a point. -/
def fraction? : List Char → Option (List Char × List Char)
  | '.' :: cs => digitRun? cs
  | cs => some ([], cs)

/-- Read an exponent, if there is one. -/
def exponent? : List Char → Option (Int × List Char)
  | 'e' :: cs | 'E' :: cs => do
      let (sign, cs) := sign cs
      let (digits, rest) ← digitRun? cs
      pure (signed sign (valueIn 10 digits), rest)
  | cs => some (0, cs)

/-- Read a floating-point number in digits after its sign: whether it is finite. -/
def decimalFloat? (cs : List Char) : Option Bool := do
  let (whole, rest) ← whole? cs
  let (fraction, rest) ← fraction? rest
  let (exponent, rest) ← exponent? rest
  if rest.isEmpty && isSpaced Char.isDigit cs then
    some (isFinite (whole ++ fraction) (exponent - fraction.length))
  else none

/-! ## All unquoted values -/

/-- The character makes a number a floating-point number. -/
def isFloatMark (c : Char) : Bool :=
  c == '.' || c == 'e' || c == 'E'

/-- Read a number. -/
def number? (text : List Char) : Option Toml :=
  let (sign, cs) := sign text
  match basedInteger? text with
  | some value => some value
  | none =>
      if cs = "inf".toList ∨ cs = "nan".toList then some (.float (String.ofList text))
      else if cs.any isFloatMark then
        (decimalFloat? cs).map fun finite =>
          if finite then .float (String.ofList text) else .valueless
      else decimalInteger? sign cs

/-- The value that an unquoted text denotes. -/
def value? (text : List Char) : Option Toml :=
  if text = "true".toList then some (.bool true)
  else if text = "false".toList then some (.bool false)
  else
    match Moment.read? text with
    | some value => some (.moment value)
    | none => number? text

end Toolbench.Toml.Scalar
