import Toolbench.Diagnostic.Basic
import Toolbench.Diagnostic.Level
import Toolbench.Text.Decimal
import Toolbench.Text.Lines

/-!
# Diagnostics in blocks of lines

A block begins with a header line and a location line:

    error[E0308]: mismatched types
     --> src/main.rs:3:18
      |
    3 |     let x: i32 = "a";
      |                  ^^^ expected `i32`
      = note: expected type `i32`

The lines after them are its body. Notes extend the message. Of the text after the gutter of a line
without a number only the run of markers that leads it is read. The end column is the start column
plus the width of the first such run of `^`, or of the first such run of another marker when there
is none of `^`; a run that stands behind another one in its line is not read. A blank line ends the
body, and so does a line that has no place in a block.

Header and location are searched in the lines as cut at line feeds, carriage returns included, so
neither line may end in a carriage return unless the header's message takes it in.
-/

namespace Toolbench.Diagnostic.HumanBlock

open Text (isInlineBlank isDecimalDigit)

/-- The first line of a block. -/
structure Header where
  severity : Severity
  code : Option (List Char)
  message : List Char
deriving DecidableEq, Repr

/-- Read a code up to the bracket that closes it; a code is not empty. -/
def scanCode? (close : Char) (cs : List Char) : Option (Option (List Char) × List Char) := do
  let (code, rest) ← scanRun? (· != close) cs
  let rest ← [close].isPrefixOf? rest
  pure (some code, rest)

/-- Read a code in brackets or parentheses, or none. -/
def scanOptionalCode? : List Char → Option (Option (List Char) × List Char)
  | '[' :: cs => scanCode? ']' cs
  | '(' :: cs => scanCode? ')' cs
  | cs => some (none, cs)

/-- Read a header line. It begins with the word for a level; the message is not empty. -/
def Header.read? (line : List Char) : Option Header := do
  let (severity, cs) ← scanLevel? line
  let (code, cs) ← scanOptionalCode? cs
  let message ← [':', ' '].isPrefixOf? cs
  if message = [] then none else some ⟨severity, code, message⟩

/-- The second line of a block: a path and two runs of digits. -/
structure Location where
  path : List Char
  line : List Char
  column : List Char
deriving DecidableEq, Repr

/-- Read a path and two numbers, given the text from its end to its start. Blanks may follow the
numbers; the path is not empty. -/
def Location.readReversed? (cs : List Char) : Option Location := do
  let (column, cs) ← scanRun? isDecimalDigit (cs.dropWhile isInlineBlank)
  let cs ← [':'].isPrefixOf? cs
  let (line, cs) ← scanRun? isDecimalDigit cs
  let path ← [':'].isPrefixOf? cs
  if path = [] then none else some ⟨path.reverse, line.reverse, column.reverse⟩

/-- Read a location line: blanks, an arrow, a path and two numbers. -/
def Location.read? (line : List Char) : Option Location := do
  let cs ← ['-', '-', '>', ' '].isPrefixOf? (line.dropWhile isInlineBlank)
  Location.readReversed? cs.reverse

/-- A note of a block: what kind it is and what it says. -/
structure Note where
  kind : List Char
  text : List Char
deriving DecidableEq, Repr

/-- The character begins a marker under a source line. -/
def isMarker (c : Char) : Bool :=
  c == '^' || c == '-' || c == '~'

/-- A run of one marker character. -/
structure Underline where
  marker : Char
  width : UInt32
deriving DecidableEq, Repr

/-- The run of markers that leads the text after a gutter. -/
def Underline.read? (content : List Char) : Option Underline :=
  match Text.trimStart content with
  | [] => none
  | c :: cs =>
      if isMarker c then
        (Text.Word.ofNat? ((cs.takeWhile (· == c)).length + 1)).map (⟨c, ·⟩)
      else none

/-- What a line means in the body of a block. -/
inductive BodyLine where
  /-- A note. -/
  | note (note : Note)
  /-- Text under a source line, which may lead with a marker. -/
  | margin (underline : Option Underline)
  /-- A line that belongs to the block and says nothing: source text, or a sign that lines are
  left out or that another file follows. -/
  | context
  /-- A line that ends the block. -/
  | stop
deriving DecidableEq, Repr

/-- The character is a small letter of the ASCII alphabet. -/
def isSmallLetter (c : Char) : Bool :=
  'a' ≤ c && c ≤ 'z'

/-- Read a note: blanks, an equals sign, a word for its kind, a colon and its text. -/
def Note.read? (line : List Char) : Option Note := do
  let cs ← ['=', ' '].isPrefixOf? (line.dropWhile isInlineBlank)
  let (kind, cs) ← scanRun? isSmallLetter cs
  let text ← [':', ' '].isPrefixOf? cs
  pure ⟨kind, Text.trimEnd text⟩

/-- Read a gutter line: blanks, perhaps a line number, blanks, a bar. Returns whether there is a
number, and the text after the bar. -/
def gutter? (line : List Char) : Option (Bool × List Char) := do
  let cs := line.dropWhile isInlineBlank
  let number := cs.takeWhile isDecimalDigit
  let content ← ['|'].isPrefixOf? ((cs.dropWhile isDecimalDigit).dropWhile isInlineBlank)
  pure (!number.isEmpty, content)

/-- What a line means in the body of a block. Numbered lines are source text; only the others
carry markers. -/
def BodyLine.ofLine (line : List Char) : BodyLine :=
  if Text.isBlank line then .stop
  else
    match Note.read? line with
    | some found => .note found
    | none =>
        match gutter? line with
        | some (true, _) => .context
        | some (false, content) => .margin (Underline.read? content)
        | none =>
            let text := Text.trimStart line
            if text = "...".toList || "::: ".toList.isPrefixOf text then .context else .stop

/-- What the body of a block adds to its header. -/
structure Body where
  /-- The width of the first run of `^` that leads a line. -/
  primary : Option UInt32
  /-- The width of the first run that leads a line and was not counted as the primary one. -/
  secondary : Option UInt32
  notes : List Note
deriving DecidableEq, Repr

namespace Body

/-- The body of no lines. -/
def empty : Body :=
  ⟨none, none, []⟩

/-- The body after one more run of markers. -/
def mark (body : Body) (underline : Underline) : Body :=
  if underline.marker = '^' ∧ body.primary = none then
    { body with primary := some underline.width }
  else { body with secondary := body.secondary <|> some underline.width }

/-- The body after one more line that belongs to it. -/
def add (body : Body) : BodyLine → Body
  | .note note => { body with notes := body.notes ++ [note] }
  | .margin (some underline) => body.mark underline
  | .margin none | .context | .stop => body

/-- The body after further pieces of the text between line feeds, up to the one that ends the
block. A carriage return at the end of a piece is not part of the line. -/
def extend : Body → List (List Char) → Body
  | body, [] => body
  | body, piece :: pieces =>
      match BodyLine.ofLine (Text.dropFinal '\r' piece) with
      | .stop => body
      | line => (body.add line).extend pieces

/-- How far the marked text reaches. -/
def width? (body : Body) : Option UInt32 :=
  body.primary <|> body.secondary

/-- The lines that the notes add to a message. -/
def suffix (body : Body) : List Char :=
  body.notes.flatMap fun note => "\n  ".toList ++ note.kind ++ ": ".toList ++ note.text

end Body

/-- The diagnostic of a block. A number that does not fit makes the block none. -/
def diagnostic? (header : Header) (location : Location) (body : Body) : Option Diagnostic := do
  let line ← Text.Decimal.readWord32? location.line
  let column ← Text.Decimal.readWord32? location.column
  let endColumn := body.width?.elim column (Text.Word.add column)
  let message := Text.trimEnd header.message ++ body.suffix
  pure (Diagnostic.withCode
    ⟨⟨String.ofList (Text.trim location.path)⟩, ⟨line, column, line, endColumn⟩, header.severity,
      String.ofList message, none⟩
    (header.code.map String.ofList))

/-- Read the header and the location of a block from two lines. -/
def opening? (first second : List Char) : Option (Header × Location) := do
  let header ← Header.read? first
  let location ← Location.read? second
  pure (header, location)

/-- The diagnostics of the blocks that begin in these pieces of a text between line feeds. -/
def ofPieces : List (List Char) → List Diagnostic
  | [] => []
  | [_] => []
  | first :: second :: rest =>
      match opening? first second with
      | some (header, location) =>
          (diagnostic? header location (Body.empty.extend rest)).toList
            ++ ofPieces rest
      | none => ofPieces (second :: rest)

/-- The diagnostics of the complete blocks of a text. -/
def diagnostics (text : List Char) : List Diagnostic :=
  ofPieces (text.splitOn '\n')

end Toolbench.Diagnostic.HumanBlock
