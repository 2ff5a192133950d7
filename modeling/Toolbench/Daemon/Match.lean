import Toolbench.Path
import Toolbench.Text.Decimal

/-!
# Matches in the answers of a completion daemon

An answer lists what was found in lines that begin with the field `MATCH`. With a snippet, the
further fields are name, snippet, line, column, path, kind, context and perhaps the
documentation, which may itself hold tabs. Without one they are name, line, column, path, kind and
context. `Match.read?` tells the two forms apart by the number of fields; `Match.write` chooses
the form by the snippet.
-/

namespace Toolbench

/-- Something that a daemon found. -/
structure Match where
  name : String
  snippet : Option String
  line : UInt32
  column : UInt32
  path : Path
  kind : String
  context : String
  docs : Option String
deriving DecidableEq, Repr

namespace Match

/-- The fields of a line. -/
def fieldsOf (line : String) : List String :=
  (line.toList.splitOn '\t').map String.ofList

/-- Read a number with an optional plus sign. -/
def number? (text : String) : Option UInt32 :=
  Text.Decimal.readSignedWord32? text.toList

/-- Read a match from the fields of a line. -/
def ofFields? : List String → Option Match
  | "MATCH" :: name :: snippet :: line :: column :: path :: kind :: context :: docs => do
      let line ← number? line
      let column ← number? column
      let docs := if docs.isEmpty then none else some ("\t".intercalate docs)
      pure ⟨name, some snippet, line, column, ⟨path⟩, kind, context, docs⟩
  | ["MATCH", name, line, column, path, kind, context] => do
      let line ← number? line
      let column ← number? column
      pure ⟨name, none, line, column, ⟨path⟩, kind, context, none⟩
  | _ => none

/-- Read a match from a line. -/
def read? (line : String) : Option Match :=
  ofFields? (fieldsOf line)

/-- The matches among the lines of an answer. -/
def ofBatch (batch : List String) : List Match :=
  batch.filterMap read?

/-- The fields of the line of a match. Documentation is written only next to a snippet. -/
def toFields (m : Match) : List String :=
  let place := [Text.Decimal.wordText m.line, Text.Decimal.wordText m.column, m.path.text, m.kind,
    m.context]
  match m.snippet with
  | some snippet => "MATCH" :: m.name :: snippet :: place ++ m.docs.toList
  | none => "MATCH" :: m.name :: place

/-- The line of a match. -/
def write (m : Match) : String :=
  "\t".intercalate m.toFields

end Match

end Toolbench
