import Toolbench.Diagnostic.HumanBlock
import Toolbench.Diagnostic.LegacyLine
import Toolbench.Diagnostic.OutputMode
import Toolbench.Diagnostic.ToolMessage

/-!
# Reading diagnostics in any mode

A whole output is read in every mode. A single line is enough in the modes that report one
diagnostic per line; a block of several lines is never found in one line.
-/

namespace Toolbench.OutputMode

/-- The diagnostics that one line holds. -/
def lineDiagnostics (mode : OutputMode) (line : String) : List Diagnostic :=
  match mode with
  | .legacy => (Diagnostic.LegacyLine.diagnostic? line.toList).toList
  | .human => []
  | .json => (Diagnostic.JsonLine.diagnostic? line.toList).toList

/-- The diagnostics that an output holds. -/
def outputDiagnostics (mode : OutputMode) (text : String) : List Diagnostic :=
  match mode with
  | .legacy => Diagnostic.LegacyLine.diagnostics text.toList
  | .human => Diagnostic.HumanBlock.diagnostics text.toList
  | .json => Diagnostic.JsonLine.diagnostics text.toList

end Toolbench.OutputMode
