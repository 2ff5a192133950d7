import Toolbench.Toml.Document
import Toolbench.Toml.Scalar
import Toolbench.Toml.Token

/-!
# Reading TOML documents

The tokens of a document are read from left to right by a machine whose modes are the places in
the grammar. Values that are being read are kept on a stack, outermost last. Line ends and
comments may stand anywhere between the parts of an array or an inline table, though not inside a
key; in a statement they may not even stand between a key and its value. Arrays and inline tables
are nested at most 80 deep, and a key has at most 80 parts.
-/

namespace Toolbench.Toml

/-- A value or statement that is still being read. -/
inductive Frame where
  /-- A statement that assigns to a key. -/
  | statement (path : List String)
  /-- An array, with its items so far, last first. -/
  | array (items : List Toml)
  /-- An inline table, with its entries so far. -/
  | table (entries : Entries)
  /-- The key of an inline table that is being assigned to. -/
  | field (path : List String)
deriving Repr

/-- Where a key is written. -/
inductive KeyPlace where
  /-- At the start of a statement. -/
  | statement
  /-- In the header of a table. -/
  | header
  /-- In the header of an element of an array of tables. -/
  | elementHeader
  /-- In an inline table. -/
  | field
deriving DecidableEq, Repr

/-- A place in the grammar. -/
inductive Mode where
  /-- At the start of a line. -/
  | lineStart
  /-- After the statement or header of a line. -/
  | lineEnd
  /-- Right after the first bracket of a header. -/
  | headerStart
  /-- Before a part of a key; the parts so far stand last first. -/
  | keyPart (place : KeyPlace) (parts : List String)
  /-- After a part of a key. -/
  | keyNext (place : KeyPlace) (parts : List String)
  /-- Right after the first of the two brackets that end a header. -/
  | headerEnd (path : List String)
  /-- After a key of an inline table, where only the equals sign may follow. -/
  | fieldEquals (path : List String)
  /-- Before a value. -/
  | value
  /-- Before an item of an array, or its end. -/
  | item
  /-- Before a key of an inline table, or its end. -/
  | field
  /-- After a value in an array or inline table. -/
  | next
  /-- In an unquoted value. -/
  | scalar (text : List Char)
  /-- After a date and one space, where a time may follow. -/
  | dateSpace (date : List Char)
deriving Repr

/-- The state of reading: the entries of the document so far, the last header, the values that
are being read, and the place in the grammar. -/
structure Reader where
  entries : Entries
  header : List String
  frames : List Frame
  mode : Mode
deriving Repr

namespace Reader

/-- Before the first token. -/
def start : Reader :=
  ⟨[], [], [], .lineStart⟩

/-- How deep arrays and inline tables may be nested, and how many parts a key may have. -/
def maxDepth : Nat :=
  80

/-- Begin an array or inline table, unless it would be nested too deep. -/
def begin? (reader : Reader) (frame : Frame) (mode : Mode) : Option Reader :=
  let depth := reader.frames.countP fun
    | .array _ | .table _ => true
    | _ => false
  if depth < maxDepth then some { reader with frames := frame :: reader.frames, mode }
  else none

/-- A value has been read. -/
def accept? (reader : Reader) (value : Toml) : Option Reader :=
  match reader.frames with
  | [.statement path] => do
      let entries ← reader.entries.assignUnder? reader.header path value
      pure { reader with entries, frames := [], mode := .lineEnd }
  | .array items :: frames =>
      some { reader with frames := .array (value :: items) :: frames, mode := .next }
  | .field path :: .table entries :: frames => do
      let (_, entries) ← Entries.assign? path value .header entries
      pure { reader with frames := .table entries :: frames, mode := .next }
  | _ => none

/-- The innermost array ends. -/
def closeArray? (reader : Reader) : Option Reader :=
  match reader.frames with
  | .array items :: frames => accept? { reader with frames } (.array items.reverse)
  | _ => none

/-- The innermost inline table ends. -/
def closeTable? (reader : Reader) : Option Reader :=
  match reader.frames with
  | .table entries :: frames => accept? { reader with frames } (.table (closeAll entries))
  | _ => none

/-- Read a token where a value must begin. -/
def beginValue? (reader : Reader) : Token → Option Reader
  | .blank _ => some reader
  | .string text => reader.accept? (.string (String.ofList text))
  | .longString text => reader.accept? (.string (String.ofList text))
  | .atom text => some { reader with mode := .scalar text }
  | .openBracket => reader.begin? (.array []) .item
  | .openBrace => reader.begin? (.table []) .field
  | _ => none

/-- The character may stand in a key without quotes. -/
def isBareKey (c : Char) : Bool :=
  c.isAlphanum || c == '-' || c == '_'

/-- Read a token where a part of a key must stand. -/
def keyPart? (reader : Reader) (place : KeyPlace) (parts : List String) : Token → Option Reader
  | .blank _ => some reader
  | .string text => some { reader with mode := .keyNext place (String.ofList text :: parts) }
  | .atom text =>
      if text.all isBareKey then
        some { reader with mode := .keyNext place (String.ofList text :: parts) }
      else none
  | _ => none

/-- Go on to the value of a key of an inline table. -/
def beginField (reader : Reader) (path : List String) : Reader :=
  { reader with frames := .field path :: reader.frames, mode := .value }

/-- Read a token after a part of a key. -/
def keyNext? (reader : Reader) (place : KeyPlace) (parts : List String) (token : Token) :
    Option Reader :=
  match token, place with
  | .blank _, _ => some reader
  | .dot, _ =>
      if parts.length < maxDepth then some { reader with mode := .keyPart place parts } else none
  | .equals, .statement =>
      some { reader with frames := [.statement parts.reverse], mode := .value }
  | .equals, .field => some (reader.beginField parts.reverse)
  | .newline, .field | .comment, .field =>
      some { reader with mode := .fieldEquals parts.reverse }
  | .closeBracket, .header => do
      let entries ← reader.entries.openTable? parts.reverse
      pure { reader with entries, header := parts.reverse, mode := .lineEnd }
  | .closeBracket, .elementHeader => some { reader with mode := .headerEnd parts.reverse }
  | _, _ => none

/-- Read a token anywhere but in an unquoted value. -/
def settled? (reader : Reader) (token : Token) : Option Reader :=
  match reader.mode, token with
  | .lineStart, .newline | .lineStart, .blank _ => some reader
  | .lineStart, .comment => some { reader with mode := .lineEnd }
  | .lineStart, .openBracket => some { reader with mode := .headerStart }
  | .lineStart, token => reader.keyPart? .statement [] token
  | .lineEnd, .blank _ | .lineEnd, .comment => some reader
  | .lineEnd, .newline => some { reader with mode := .lineStart }
  | .headerStart, .openBracket => some { reader with mode := .keyPart .elementHeader [] }
  | .headerStart, .blank _ => some { reader with mode := .keyPart .header [] }
  | .headerStart, token => reader.keyPart? .header [] token
  | .keyPart place parts, token => reader.keyPart? place parts token
  | .keyNext place parts, token => reader.keyNext? place parts token
  | .headerEnd path, .closeBracket => do
      let entries ← reader.entries.openElement? path
      pure { reader with entries, header := path, mode := .lineEnd }
  | .fieldEquals _, .newline | .fieldEquals _, .comment | .fieldEquals _, .blank _ => some reader
  | .fieldEquals path, .equals => some (reader.beginField path)
  | .value, .newline | .value, .comment =>
      match reader.frames with
      | .field _ :: _ => some reader
      | _ => none
  | .value, token => reader.beginValue? token
  | .item, .newline | .item, .comment => some reader
  | .item, .closeBracket => reader.closeArray?
  | .item, token => reader.beginValue? token
  | .field, .newline | .field, .comment | .field, .blank _ => some reader
  | .field, .closeBrace => reader.closeTable?
  | .field, token => reader.keyPart? .field [] token
  | .next, .newline | .next, .comment | .next, .blank _ => some reader
  | .next, .comma =>
      match reader.frames with
      | .array _ :: _ => some { reader with mode := .item }
      | .table _ :: _ => some { reader with mode := .field }
      | _ => none
  | .next, .closeBracket => reader.closeArray?
  | .next, .closeBrace => reader.closeTable?
  | _, _ => none

/-- Read one token. An unquoted value goes on over points; a date goes on with a time after one
space. -/
def step? (reader : Reader) (token : Token) : Option Reader :=
  let finish (text : List Char) : Option Reader := do
    let reader ← reader.accept? (← Scalar.value? text)
    reader.settled? token
  match reader.mode, token with
  | .scalar text, .atom more => some { reader with mode := .scalar (text ++ more) }
  | .scalar text, .dot => some { reader with mode := .scalar (text ++ ['.']) }
  | .scalar text, .blank [' '] =>
      if Moment.isDateForm text then some { reader with mode := .dateSpace text } else finish text
  | .scalar text, _ => finish text
  | .dateSpace date, .atom time => some { reader with mode := .scalar (date ++ ' ' :: time) }
  | .dateSpace date, _ => finish date
  | _, _ => reader.settled? token

/-- Read tokens up to the end. -/
def run? (reader : Reader) (tokens : List Token) : Option Reader :=
  tokens.foldlM step? reader

end Reader

/-- The entries of the table that a document is. The end of the text ends the last line. -/
def document? (text : List Char) : Option (List (String × Toml)) := do
  let tokens ← Token.ofText? text
  let reader ← Reader.start.run? (tokens ++ [.newline])
  match reader.mode with
  | .lineStart => some (closeAll reader.entries)
  | _ => none

end Toolbench.Toml
