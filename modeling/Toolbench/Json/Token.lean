import Toolbench.Json.Number

/-!
# Tokens of JSON documents

A document is first cut into brackets, separators, words, numbers and strings. Only space, tab,
line feed and carriage return may stand between tokens. Inside a string, control characters must
be written as escapes; an escape by code may be half of a surrogate pair, and then the string
denotes no text.
-/

namespace Toolbench.Json

/-- A token of a document. -/
inductive Token where
  | openObject
  | closeObject
  | openArray
  | closeArray
  | comma
  | colon
  | null
  | bool (value : Bool)
  | number (value : Number)
  | string (text : Option String)
deriving DecidableEq, Repr

namespace Token

/-- A piece of a string: a character, or a 16-bit unit written by its code. -/
inductive Piece where
  | char (c : Char)
  | unit (code : Nat)
deriving DecidableEq, Repr

/-- The text that pieces denote. Two units may make up one character; a unit that is half of a
pair denotes nothing. -/
def joinPieces? : List Piece → Option (List Char)
  | [] => some []
  | .char c :: pieces => (joinPieces? pieces).map (c :: ·)
  | .unit high :: .unit low :: pieces =>
      if 0xD800 ≤ high ∧ high < 0xDC00 ∧ 0xDC00 ≤ low ∧ low < 0xE000 then
        (joinPieces? pieces).map
          (Char.ofNat (0x10000 + 0x400 * (high - 0xD800) + (low - 0xDC00)) :: ·)
      else if 0xD800 ≤ high ∧ high < 0xE000 then none
      else (joinPieces? (.unit low :: pieces)).map (Char.ofNat high :: ·)
  | .unit code :: pieces =>
      if 0xD800 ≤ code ∧ code < 0xE000 then none
      else (joinPieces? pieces).map (Char.ofNat code :: ·)

/-- The character that an escape by letter stands for. -/
def escaped? : Char → Option Char
  | '"' => some '"'
  | '\\' => some '\\'
  | '/' => some '/'
  | 'b' => some '\x08'
  | 'f' => some '\x0c'
  | 'n' => some '\n'
  | 'r' => some '\r'
  | 't' => some '\t'
  | _ => none

/-- Read the pieces of a string up to the quote that ends it, and return the text after it. -/
def scanPieces? : List Char → Option (List Piece × List Char)
  | [] => none
  | '"' :: cs => some ([], cs)
  | '\\' :: 'u' :: a :: b :: c :: d :: cs => do
      let a ← Text.hexValue? a
      let b ← Text.hexValue? b
      let c ← Text.hexValue? c
      let d ← Text.hexValue? d
      let (pieces, rest) ← scanPieces? cs
      pure (.unit (4096 * a + 256 * b + 16 * c + d) :: pieces, rest)
  | '\\' :: c :: cs => do
      let c ← escaped? c
      let (pieces, rest) ← scanPieces? cs
      pure (.char c :: pieces, rest)
  | c :: cs =>
      if c.toNat < 0x20 ∨ c = '\\' then none
      else (scanPieces? cs).map fun (pieces, rest) => (.char c :: pieces, rest)

/-- Read an optional exponent. -/
def scanExponent? : List Char → Option (Option Int × List Char)
  | 'e' :: cs => scanSigned cs
  | 'E' :: cs => scanSigned cs
  | cs => some (none, cs)
where
  /-- Read the digits of an exponent after an optional sign. -/
  scanSigned : List Char → Option (Option Int × List Char)
    | '-' :: cs => (scanDigits cs).map fun (n, rest) => (some (-(n : Int)), rest)
    | '+' :: cs => (scanDigits cs).map fun (n, rest) => (some (n : Int), rest)
    | cs => (scanDigits cs).map fun (n, rest) => (some (n : Int), rest)
  /-- Read the digits of an exponent. -/
  scanDigits (cs : List Char) : Option (Nat × List Char) :=
    (Text.Decimal.readNat? (cs.takeWhile Char.isDigit)).map (·, cs.dropWhile Char.isDigit)

/-- Read the digits after a point, if there is a point. -/
def scanFraction? : List Char → Option (List Char × List Char)
  | '.' :: cs =>
      match cs.takeWhile Char.isDigit with
      | [] => none
      | fraction => some (fraction, cs.dropWhile Char.isDigit)
  | cs => some ([], cs)

/-- Read a number. A leading zero stands alone before the point. -/
def scanNumber? (cs : List Char) : Option (Number × List Char) := do
  let negative := cs.head? == some '-'
  let cs := if negative then cs.drop 1 else cs
  let whole := if cs.head? == some '0' then ['0'] else cs.takeWhile Char.isDigit
  if whole.isEmpty then none
  else
    let (fraction, cs) ← scanFraction? (cs.drop whole.length)
    let (exponent, cs) ← scanExponent? cs
    pure (⟨negative, whole, fraction, exponent⟩, cs)

/-- The character may stand between tokens. -/
def isSpace (c : Char) : Bool :=
  c == ' ' || c == '\t' || c == '\n' || c == '\r'

/-- Read one token at the start of a text that is not empty. -/
def scan? : List Char → Option (Token × List Char)
  | '\x7b' :: cs => some (.openObject, cs)
  | '\x7d' :: cs => some (.closeObject, cs)
  | '[' :: cs => some (.openArray, cs)
  | ']' :: cs => some (.closeArray, cs)
  | ',' :: cs => some (.comma, cs)
  | ':' :: cs => some (.colon, cs)
  | 'n' :: 'u' :: 'l' :: 'l' :: cs => some (.null, cs)
  | 't' :: 'r' :: 'u' :: 'e' :: cs => some (.bool true, cs)
  | 'f' :: 'a' :: 'l' :: 's' :: 'e' :: cs => some (.bool false, cs)
  | '"' :: cs => (scanPieces? cs).map fun (pieces, rest) =>
      (.string ((joinPieces? pieces).map String.ofList), rest)
  | cs => (scanNumber? cs).map fun (value, rest) => (.number value, rest)

/-- Read tokens up to the end of a text, which is at most `fuel` characters long. -/
def scanAll? : Nat → List Char → Option (List Token)
  | 0, cs => if cs.isEmpty then some [] else none
  | fuel + 1, cs =>
      match cs.dropWhile isSpace with
      | [] => some []
      | text => do
          let (token, rest) ← scan? text
          (scanAll? fuel rest).map (token :: ·)

/-- The tokens of a text. -/
def ofText? (cs : List Char) : Option (List Token) :=
  scanAll? cs.length cs

end Token

end Toolbench.Json
