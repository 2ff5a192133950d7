import Toolbench.Text.Blank
import Toolbench.Text.Digit

/-!
# Tokens of TOML documents

A document is first cut into line ends, blanks, comments, punctuation, strings and atoms. An atom
is a run of other characters: a bare key, or an unquoted value up to a point. A quote begins a
string at the start of a token only; in an atom it is one more character. Control characters other
than tab may stand neither in strings nor in comments, and a carriage return only before a line
feed.
-/

namespace Toolbench.Toml

/-- A token of a document. -/
inductive Token where
  | newline
  | blank (text : List Char)
  | comment
  | dot
  | equals
  | comma
  | openBracket
  | closeBracket
  | openBrace
  | closeBrace
  /-- A string on one line. -/
  | string (text : List Char)
  /-- A string that may run over several lines. -/
  | longString (text : List Char)
  | atom (text : List Char)
deriving DecidableEq, Repr

namespace Token

/-- The character may stand in a string or comment. -/
def isPlain (c : Char) : Bool :=
  c == '\t' || (0x20 ≤ c.toNat && c.toNat != 0x7F)

/-- The character that an escape by letter stands for. -/
def escaped? : Char → Option Char
  | 'b' => some '\x08'
  | 't' => some '\t'
  | 'n' => some '\n'
  | 'f' => some '\x0c'
  | 'r' => some '\r'
  | 'e' => some '\x1b'
  | '"' => some '"'
  | '\\' => some '\\'
  | _ => none

/-- The character with a code; surrogates and codes beyond the last character have none. -/
def charWithCode? (n : Nat) : Option Char :=
  if n.isValidChar then some (Char.ofNat n) else none

/-- How many hexadecimal digits follow the letter of an escape by code. -/
def codeLength? : Char → Option Nat
  | 'x' => some 2
  | 'u' => some 4
  | 'U' => some 8
  | _ => none

/-- Where a scanner stands in a string. -/
inductive Within where
  /-- Between characters. -/
  | text
  /-- In an escape by code, with the number of digits still to come and the code so far. -/
  | code (left value : Nat)
  /-- After a backslash at the end of a line, where white space is left out. -/
  | fold
deriving DecidableEq, Repr

/-- Read the last digit but `left` of an escape by code. -/
def codeDigit? (left value : Nat) (c : Char) : Option (List Char × Within) := do
  let digit ← Text.hexValue? c
  let value := 16 * value + digit
  if left = 0 then
    let c ← charWithCode? value
    pure ([c], .text)
  else pure ([], .code (left - 1) value)

/-- Read a string with escapes on one line, up to the quote that ends it. -/
def scanBasic? : Within → List Char → Option (List Char × List Char)
  | _, [] => none
  | .code left value, c :: cs => do
      let (read, within) ← codeDigit? left value c
      let (text, rest) ← scanBasic? within cs
      pure (read ++ text, rest)
  | _, '"' :: cs => some ([], cs)
  | _, '\\' :: c :: cs =>
      match codeLength? c with
      | some count => scanBasic? (.code (count - 1) 0) cs
      | none => do
          let c ← escaped? c
          let (text, rest) ← scanBasic? .text cs
          pure (c :: text, rest)
  | _, c :: cs =>
      if isPlain c ∧ c ≠ '\\' then
        (scanBasic? .text cs).map fun (text, rest) => (c :: text, rest)
      else none

/-- Read a string without escapes on one line, up to the quote that ends it. -/
def scanLiteral? : List Char → Option (List Char × List Char)
  | [] => none
  | '\'' :: cs => some ([], cs)
  | c :: cs =>
      if isPlain c then (scanLiteral? cs).map fun (text, rest) => (c :: text, rest) else none

/-- What ends a long string at the start of a text: three to five quotes, of which the first ones
beyond three belong to the string. Returns those and the text after them; `none` means that the
string goes on, and `some none` that there are too many quotes. -/
def ending (quote : Char) (cs : List Char) : Option (Option (List Char × List Char)) :=
  let count := (cs.takeWhile (· == quote)).length
  if count < 3 then none
  else if 5 < count then some none
  else some (some (List.replicate (count - 3) quote, cs.drop count))

/-- The text begins with the end of a line. -/
def startsNewline : List Char → Bool
  | '\n' :: _ => true
  | '\r' :: '\n' :: _ => true
  | _ => false

/-- Read a long string with escapes, up to the quotes that end it. -/
def scanLongBasic? : Within → List Char → Option (List Char × List Char)
  | _, [] => none
  | .code left value, c :: cs => do
      let (read, within) ← codeDigit? left value c
      let (text, rest) ← scanLongBasic? within cs
      pure (read ++ text, rest)
  | within, '\r' :: '\n' :: cs =>
      if within = .fold then scanLongBasic? .fold cs
      else (scanLongBasic? .text cs).map fun (text, rest) => ('\r' :: '\n' :: text, rest)
  | within, c :: cs =>
      if within = .fold ∧ (Text.isInlineBlank c ∨ c = '\n') then scanLongBasic? .fold cs
      else
        match ending '"' (c :: cs) with
        | some result => result
        | none =>
            if c = '\\' then
              if startsNewline (cs.dropWhile Text.isInlineBlank) then scanLongBasic? .fold cs
              else
                match cs with
                | [] => none
                | c :: cs =>
                    match codeLength? c with
                    | some count => scanLongBasic? (.code (count - 1) 0) cs
                    | none => do
                        let c ← escaped? c
                        let (text, rest) ← scanLongBasic? .text cs
                        pure (c :: text, rest)
            else if isPlain c ∨ c = '\n' then
              (scanLongBasic? .text cs).map fun (text, rest) => (c :: text, rest)
            else none

/-- Read a long string without escapes, up to the quotes that end it. -/
def scanLongLiteral? : List Char → Option (List Char × List Char)
  | [] => none
  | '\r' :: '\n' :: cs =>
      (scanLongLiteral? cs).map fun (text, rest) => ('\r' :: '\n' :: text, rest)
  | c :: cs =>
      match ending '\'' (c :: cs) with
      | some result => result
      | none =>
          if isPlain c ∨ c = '\n' then
            (scanLongLiteral? cs).map fun (text, rest) => (c :: text, rest)
          else none

/-- The text without the end of a line at its start. -/
def dropNewline : List Char → List Char
  | '\n' :: cs => cs
  | '\r' :: '\n' :: cs => cs
  | cs => cs

/-- The character goes on with an atom. Quotes do: they begin a string only where a token may
begin. -/
def isAtom (c : Char) : Bool :=
  !(" \t\r\n#.=,[]\x7b\x7d".toList.contains c)

/-- Read one token at the start of a text that is not empty. -/
def scan? : List Char → Option (Token × List Char)
  | [] => none
  | '\n' :: cs => some (.newline, cs)
  | '\r' :: '\n' :: cs => some (.newline, cs)
  | '#' :: cs => some (.comment, cs.dropWhile isPlain)
  | '.' :: cs => some (.dot, cs)
  | '=' :: cs => some (.equals, cs)
  | ',' :: cs => some (.comma, cs)
  | '[' :: cs => some (.openBracket, cs)
  | ']' :: cs => some (.closeBracket, cs)
  | '\x7b' :: cs => some (.openBrace, cs)
  | '\x7d' :: cs => some (.closeBrace, cs)
  | '"' :: '"' :: '"' :: cs =>
      (scanLongBasic? .text (dropNewline cs)).map fun (text, rest) => (.longString text, rest)
  | '"' :: cs => (scanBasic? .text cs).map fun (text, rest) => (.string text, rest)
  | '\'' :: '\'' :: '\'' :: cs =>
      (scanLongLiteral? (dropNewline cs)).map fun (text, rest) => (.longString text, rest)
  | '\'' :: cs => (scanLiteral? cs).map fun (text, rest) => (.string text, rest)
  | c :: cs =>
      if Text.isInlineBlank c then
        some (.blank (c :: cs.takeWhile Text.isInlineBlank), cs.dropWhile Text.isInlineBlank)
      else if isAtom c then some (.atom (c :: cs.takeWhile isAtom), cs.dropWhile isAtom)
      else none

/-- Read tokens up to the end of a text, which is at most `fuel` characters long. -/
def scanAll? : Nat → List Char → Option (List Token)
  | _, [] => some []
  | 0, _ => none
  | fuel + 1, cs => do
      let (token, rest) ← scan? cs
      (scanAll? fuel rest).map (token :: ·)

/-- The tokens of a text. A byte order mark at its start is left out. -/
def ofText? (cs : List Char) : Option (List Token) :=
  match cs with
  | '\uFEFF' :: cs => scanAll? cs.length cs
  | cs => scanAll? cs.length cs

end Token

end Toolbench.Toml
