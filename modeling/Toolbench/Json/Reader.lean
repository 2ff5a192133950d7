import Toolbench.Json.Basic
import Toolbench.Json.Token

/-!
# Reading JSON documents

The tokens of a document are read from left to right onto a stack of the arrays and objects that
are still open. A document is read exactly when its tokens close every bracket and leave one
value.
-/

namespace Toolbench.Json

/-- An array or object that is still open, with what it holds so far, last first. -/
inductive Frame where
  | array (items : List Json)
  /-- An object, with the name of the field that is being read. -/
  | field (fields : List (Option String × Json)) (name : Option String)
deriving Repr

/-- What may come next. -/
inductive Expected where
  /-- A value. -/
  | value
  /-- The first item of an array, or its end. -/
  | firstItem
  /-- The first name of an object, or its end. -/
  | firstName
  /-- A further name of an object. -/
  | name
  /-- The colon after a name. -/
  | colon (name : Option String)
  /-- What follows a finished value. -/
  | next (value : Json)
deriving Repr

/-- A point in the middle of reading: the open brackets around, the fields of an object between
two names, and what may come next. -/
structure Reader where
  frames : List Frame
  fields : List (Option String × Json)
  expected : Expected
deriving Repr

namespace Reader

/-- Before the first token. -/
def start : Reader :=
  ⟨[], [], .value⟩

/-- The value has been read. -/
def accept (reader : Reader) (value : Json) : Reader :=
  { reader with expected := .next value }

/-- Read a token where a value must stand. -/
def beginValue? (reader : Reader) : Token → Option Reader
  | .null => some (reader.accept .null)
  | .bool value => some (reader.accept (.bool value))
  | .number value => some (reader.accept (.number value))
  | .string text => some (reader.accept (.string text))
  | .openArray => some ⟨.array [] :: reader.frames, [], .firstItem⟩
  | .openObject => some ⟨reader.frames, [], .firstName⟩
  | _ => none

/-- Read a token after a finished value. -/
def afterValue? (reader : Reader) (value : Json) : Token → Option Reader
  | .comma =>
      match reader.frames with
      | .array items :: frames => some ⟨.array (value :: items) :: frames, [], .value⟩
      | .field fields name :: frames => some ⟨frames, (name, value) :: fields, .name⟩
      | [] => none
  | .closeArray =>
      match reader.frames with
      | .array items :: frames => some ⟨frames, [], .next (.array (value :: items).reverse)⟩
      | _ => none
  | .closeObject =>
      match reader.frames with
      | .field fields name :: frames =>
          some ⟨frames, [], .next (.object ((name, value) :: fields).reverse)⟩
      | _ => none
  | _ => none

/-- Read one token. -/
def step? (reader : Reader) (token : Token) : Option Reader :=
  match reader.expected with
  | .value => reader.beginValue? token
  | .firstItem =>
      match token, reader.frames with
      | .closeArray, _ :: frames => some ⟨frames, [], .next (.array [])⟩
      | token, _ => reader.beginValue? token
  | .firstName =>
      match token with
      | .closeObject => some { reader with expected := .next (.object []) }
      | .string name => some { reader with expected := .colon name }
      | _ => none
  | .name =>
      match token with
      | .string name => some { reader with expected := .colon name }
      | _ => none
  | .colon name =>
      match token with
      | .colon => some ⟨.field reader.fields name :: reader.frames, [], .value⟩
      | _ => none
  | .next value => reader.afterValue? value token

/-- Read tokens up to the end. -/
def run? : Reader → List Token → Option Json
  | ⟨[], _, .next value⟩, [] => some value
  | _, [] => none
  | reader, token :: tokens => (reader.step? token).bind (·.run? tokens)

end Reader

/-- The value that a document holds. -/
def ofText? (cs : List Char) : Option Json :=
  (Token.ofText? cs).bind Reader.start.run?

/-- The value that a document holds, if it can be used as a whole. -/
def read? (cs : List Char) : Option Json :=
  (ofText? cs).filter readable

end Toolbench.Json
