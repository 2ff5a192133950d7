import Toolbench.Path
import Toolbench.Text.Decimal

/-!
# Requests to a completion daemon

A request is one line: its fields with tabs between them. A question about a place in a file has
the fields command, line, column, file, and perhaps the file that holds the text to be read
instead.
-/

namespace Toolbench

/-- The line of a request with these fields. -/
def encodeRequest (fields : List String) : String :=
  "\t".intercalate fields ++ "\n"

/-- What is asked about a place. -/
inductive Question where
  /-- What can stand here, with snippets to insert. -/
  | completeWithSnippet
  /-- What can stand here. -/
  | complete
  /-- Where that which stands here is defined. -/
  | findDefinition
deriving DecidableEq, Repr

namespace Question

/-- The command of a question. -/
def command : Question → String
  | .completeWithSnippet => "complete-with-snippet"
  | .complete => "complete"
  | .findDefinition => "find-definition"

/-- The question with this command. -/
def ofCommand? : String → Option Question
  | "complete-with-snippet" => some .completeWithSnippet
  | "complete" => some .complete
  | "find-definition" => some .findDefinition
  | _ => none

theorem ofCommand?_command (question : Question) : ofCommand? question.command = some question := by
  cases question <;> rfl

end Question

/-- A question about a place in a file. Lines count from one, columns from zero. -/
structure Request where
  question : Question
  file : Path
  line : UInt32
  column : UInt32
  /-- The file to read in place of `file`. -/
  substitute : Option Path
deriving DecidableEq, Repr

namespace Request

/-- The fields of a request. -/
def fields (request : Request) : List String :=
  [request.question.command, Text.Decimal.wordText request.line,
    Text.Decimal.wordText request.column, request.file.text]
    ++ (request.substitute.map Path.text).toList

/-- The line of a request. -/
def encode (request : Request) : String :=
  encodeRequest request.fields

end Request

end Toolbench
