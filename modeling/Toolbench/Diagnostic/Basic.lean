import Toolbench.Diagnostic.Severity
import Toolbench.Diagnostic.TextRange
import Toolbench.Path
import Toolbench.Text.Decimal

/-!
# Diagnostics

What a compiler says about one place in a file. Two diagnostics about one file repeat each other
when their ranges and messages agree: neither the severity nor the code counts.
-/

namespace Toolbench

/-- One message of a compiler about one place. -/
structure Diagnostic where
  path : Path
  range : TextRange
  severity : Severity
  message : String
  /-- The compiler's code for this kind of message. -/
  code : Option String
deriving DecidableEq, Repr

namespace Diagnostic

/-- The diagnostic with this code. An empty code is no code. -/
def withCode (d : Diagnostic) (code : Option String) : Diagnostic :=
  { d with code := code.filter (· ≠ "") }

/-- The diagnostics say the same about the same stretch. -/
def repeats (d e : Diagnostic) : Bool :=
  d.range == e.range && d.message == e.message

/-- The diagnostic with its path seen from `directory` and normalized. -/
def resolvedIn (directory : Path) (d : Diagnostic) : Diagnostic :=
  { d with path := (directory.join d.path).normalize }

/-- One line: place, severity, code and message. -/
def display (d : Diagnostic) : String :=
  let code := d.code.elim "" fun code => "[" ++ code ++ "] "
  d.path.text ++ ":" ++ Text.Decimal.wordText d.range.startLine ++ ":"
    ++ Text.Decimal.wordText d.range.startColumn ++ ": " ++ d.severity.label ++ ": " ++ code
    ++ d.message

/-- Repeating is what agreeing on range and message means. -/
theorem repeats_iff {d e : Diagnostic} :
    d.repeats e = true ↔ d.range = e.range ∧ d.message = e.message := by
  simp [repeats]

@[simp] theorem resolvedIn_range (directory : Path) (d : Diagnostic) :
    (d.resolvedIn directory).range = d.range := by
  simp only [resolvedIn]

@[simp] theorem resolvedIn_message (directory : Path) (d : Diagnostic) :
    (d.resolvedIn directory).message = d.message := by
  simp only [resolvedIn]

end Diagnostic

end Toolbench
