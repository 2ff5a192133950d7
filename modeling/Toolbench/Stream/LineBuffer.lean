import Toolbench.Text.Lines
import Toolbench.Text.Utf8

/-!
# Lines of a byte stream

A stream arrives in chunks that may end anywhere, inside a line or inside a character. The bytes
after the last line feed are held back until the line is complete. A line loses one carriage
return at its end and is then decoded, with replacements for what is not UTF-8.
-/

namespace Toolbench

/-- The bytes of a line that is not complete yet. -/
structure LineBuffer where
  held : List UInt8
deriving DecidableEq, Repr

namespace LineBuffer

/-- The byte that ends a line. -/
def feedByte : UInt8 :=
  10

/-- The byte that is dropped at the end of a line. -/
def returnByte : UInt8 :=
  13

/-- The buffer before the first chunk. -/
def empty : LineBuffer :=
  ⟨[]⟩

/-- A part of a line is held. -/
def hasPartial (buffer : LineBuffer) : Bool :=
  !buffer.held.isEmpty

/-- The text of a line. -/
def lineText (bytes : List UInt8) : String :=
  String.ofList (Text.Utf8.decode (Text.dropFinal returnByte bytes))

/-- Take in a chunk. Returns the lines that it completes. Only the chunk is searched for line
feeds: the bytes that are held were searched before, and have none. -/
def feed (buffer : LineBuffer) (chunk : List UInt8) : List String × LineBuffer :=
  let pieces := (chunk.splitOn feedByte).modifyHead (buffer.held ++ ·)
  (pieces.dropLast.map lineText, ⟨pieces.getLastD []⟩)

/-- End the stream. Returns the line that no line feed ended, if there is one. -/
def finish (buffer : LineBuffer) : Option String × LineBuffer :=
  (if buffer.hasPartial then some (lineText buffer.held) else none, empty)

end LineBuffer

end Toolbench
