import Toolbench.Stream.LineBuffer

/-!
# Putting answers together

The lines of an answer end with a line that begins with `END`. That line is not part of the
answer.
-/

namespace Toolbench

/-- The lines of one answer. -/
abbrev Batch := List String

/-- The line ends an answer. -/
def endsBatch (line : String) : Bool :=
  "END".toList.isPrefixOf line.toList

/-- The lines of an answer that is not complete yet, last first. -/
structure BatchBuffer where
  linesReversed : List String
deriving DecidableEq, Repr

namespace BatchBuffer

/-- The buffer before the first line. -/
def empty : BatchBuffer :=
  ⟨[]⟩

/-- Take in a line. Returns the answer that it ends. -/
def push (buffer : BatchBuffer) (line : String) : Option Batch × BatchBuffer :=
  if endsBatch line then (some buffer.linesReversed.reverse, empty)
  else (none, ⟨line :: buffer.linesReversed⟩)

/-- Take in lines. Returns the answers that they end. -/
def pushAll : List String → BatchBuffer → List Batch × BatchBuffer
  | [], buffer => ([], buffer)
  | line :: lines, buffer =>
      let (batch, buffer) := buffer.push line
      let (batches, buffer) := buffer.pushAll lines
      (batch.toList ++ batches, buffer)

end BatchBuffer

/-- Answers put together from chunks of bytes. -/
structure ResponseBuffer where
  lines : LineBuffer
  batches : BatchBuffer
deriving DecidableEq, Repr

namespace ResponseBuffer

/-- The buffer before the first chunk. -/
def empty : ResponseBuffer :=
  ⟨.empty, .empty⟩

/-- Take in a chunk. Returns the answers that it ends. -/
def feed (buffer : ResponseBuffer) (chunk : List UInt8) : List Batch × ResponseBuffer :=
  let (read, lines) := buffer.lines.feed chunk
  let (batches, rest) := buffer.batches.pushAll read
  (batches, ⟨lines, rest⟩)

/-- Take in a complete line. Returns the answer that it ends. -/
def push (buffer : ResponseBuffer) (line : String) : Option Batch × ResponseBuffer :=
  let (batch, rest) := buffer.batches.push line
  (batch, { buffer with batches := rest })

end ResponseBuffer

end Toolbench
