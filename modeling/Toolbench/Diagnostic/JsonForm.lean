import Toolbench.Diagnostic.OutputMode
import Toolbench.Diagnostic.Severity
import Toolbench.Diagnostic.TextRange
import Toolbench.Json.Reader

/-!
# JSON forms of severities, modes and ranges

A name is written as a string, or as an object with the name as its only field, of value null. A
range is written as an object with a field for each of its numbers, or as the array of its four
numbers. Here, in contrast to compiler messages, a field that is given twice is an error; other
fields are still ignored.
-/

namespace Toolbench

namespace Json

/-- One of several names. -/
def name? : Json → Option String
  | .string text => text
  | .object [(name, .null)] => name
  | _ => none

/-- No name stands twice in a list. -/
def distinct : List String → Bool
  | [] => true
  | name :: names => !names.contains name && distinct names

/-- The members of a record with exactly these member names, each given at most once. -/
def uniqueMembers? (names : List String) : Json → Option (List (String × Json))
  | .object fields =>
      let members := membersReversed fields
      let known := members.filter fun (name, _) => names.contains name
      if members.length = fields.length && distinct (known.map (·.1)) then some known else none
  | .array items => if items.length = names.length then some (names.zip items) else none
  | _ => none

end Json

/-- Read a severity from its JSON form. -/
def Severity.ofJson? (json : Json) : Option Severity :=
  json.name?.bind ofName?

/-- Read an output mode from its JSON form. -/
def OutputMode.ofJson? (json : Json) : Option OutputMode :=
  json.name?.bind ofName?

/-- Read a range from its JSON form. -/
def TextRange.ofJson? (json : Json) : Option TextRange := do
  let members ← json.uniqueMembers? ["start_line", "start_col", "end_line", "end_col"]
  let startLine ← (← members.lookup "start_line").word32?
  let startColumn ← (← members.lookup "start_col").word32?
  let endLine ← (← members.lookup "end_line").word32?
  let endColumn ← (← members.lookup "end_col").word32?
  pure ⟨startLine, startColumn, endLine, endColumn⟩

end Toolbench
