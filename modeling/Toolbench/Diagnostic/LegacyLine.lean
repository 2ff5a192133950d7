import Toolbench.Diagnostic.Basic
import Toolbench.Diagnostic.Level
import Toolbench.Text.Decimal
import Toolbench.Text.Lines

/-!
# One-line diagnostics

The form `path:line:column: endLine:endColumn severity: message`. The path is the shortest
non-empty text after which the rest of the line has this form, so it may itself hold colons.
Wherever a blank stands in the form, any white space may stand. A number that is not made of
ASCII digits, or that is too great, makes the whole line no diagnostic.
-/

namespace Toolbench.Diagnostic.LegacyLine

open Text (isWhite isDecimalDigit)

/-- What follows the path in a line: four runs of digits, a severity and a message. -/
structure Tail where
  startLine : List Char
  startColumn : List Char
  endLine : List Char
  endColumn : List Char
  severity : Severity
  message : List Char
deriving DecidableEq, Repr

/-- Read what follows the path. A message does not run over a line feed. -/
def Tail.read? (cs : List Char) : Option Tail := do
  let cs ← [':'].isPrefixOf? cs
  let (startLine, cs) ← scanRun? isDecimalDigit cs
  let cs ← [':'].isPrefixOf? cs
  let (startColumn, cs) ← scanRun? isDecimalDigit cs
  let cs ← [':'].isPrefixOf? cs
  let (_, cs) ← scanRun? isWhite cs
  let (endLine, cs) ← scanRun? isDecimalDigit cs
  let cs ← [':'].isPrefixOf? cs
  let (endColumn, cs) ← scanRun? isDecimalDigit cs
  let (_, cs) ← scanRun? isWhite cs
  let (severity, cs) ← scanLevel? cs
  let cs ← [':'].isPrefixOf? cs
  let (_, message) ← scanRun? isWhite cs
  if '\n' ∈ message then none
  else some ⟨startLine, startColumn, endLine, endColumn, severity, message⟩

/-- Cut a line into a path of at least one character and what follows the path. The shortest
path wins. -/
def split? : List Char → Option (List Char × Tail)
  | [] => none
  | c :: cs =>
      if c = '\n' then none
      else
        match Tail.read? cs with
        | some tail => some ([c], tail)
        | none => (split? cs).map fun (path, tail) => (c :: path, tail)

/-- The range that the four numbers of a line denote. -/
def Tail.range? (tail : Tail) : Option TextRange := do
  let startLine ← Text.Decimal.readWord32? tail.startLine
  let startColumn ← Text.Decimal.readWord32? tail.startColumn
  let endLine ← Text.Decimal.readWord32? tail.endLine
  let endColumn ← Text.Decimal.readWord32? tail.endColumn
  pure ⟨startLine, startColumn, endLine, endColumn⟩

/-- The line without its trailing carriage returns. -/
def dropReturns (line : List Char) : List Char :=
  (line.reverse.dropWhile (· == '\r')).reverse

/-- The diagnostic that a line holds. -/
def diagnostic? (line : List Char) : Option Diagnostic := do
  let (path, tail) ← split? (dropReturns line)
  let range ← tail.range?
  pure ⟨⟨String.ofList path⟩, range, tail.severity, String.ofList (Text.trimEnd tail.message),
    none⟩

/-- The diagnostics that the lines of a text hold. -/
def diagnostics (text : List Char) : List Diagnostic :=
  (Text.lines text).filterMap diagnostic?

end Toolbench.Diagnostic.LegacyLine
