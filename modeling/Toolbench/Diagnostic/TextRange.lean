import Toolbench.Text.Word

/-!
# Ranges in a file

A tool counts lines and columns from one, an editor from zero. Some tools report line or column
zero for a whole file; for the editor that is zero too.
-/

namespace Toolbench

/-- A stretch of a file, with lines and columns as the tool counts them. -/
structure TextRange where
  startLine : UInt32
  startColumn : UInt32
  endLine : UInt32
  endColumn : UInt32
deriving DecidableEq, Repr

/-- A stretch of a file, with lines and columns counted from zero. -/
structure EditorRange where
  startLine : UInt32
  startColumn : UInt32
  endLine : UInt32
  endColumn : UInt32
deriving DecidableEq, Repr

namespace TextRange

/-- The empty range at one position. -/
def point (line column : UInt32) : TextRange :=
  ⟨line, column, line, column⟩

/-- The range as an editor counts. -/
def toEditor (range : TextRange) : EditorRange :=
  ⟨Text.Word.pred range.startLine, Text.Word.pred range.startColumn,
    Text.Word.pred range.endLine, Text.Word.pred range.endColumn⟩

end TextRange

end Toolbench
