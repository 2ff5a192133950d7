import Toolbench.Stream.LineBuffer

/-!
# Reading lines from a source of bytes

A source answers each read with some bytes, with a failure, or with nothing, which is its end. A
line reader asks for bytes only when it has no line ready. It reports a failure once and can go on
after it; the bytes it holds stay as they are. After the end it reports the end for ever.
-/

namespace Toolbench

/-- What a source answers to one read. -/
inductive ReadAnswer where
  /-- Bytes; none at all is the end of the stream. -/
  | bytes (chunk : List UInt8)
  /-- A failure, with what is said about it. -/
  | failure (message : String)
deriving DecidableEq, Repr

/-- What a line reader reports. -/
inductive LineEvent where
  | line (text : String)
  | failure (message : String)
  | ended
deriving DecidableEq, Repr

/-- A reader of lines, with the answers that its source is still going to give. -/
structure LineSource where
  answers : List ReadAnswer
  buffer : LineBuffer
  /-- Lines that are complete and not yet reported. -/
  ready : List String
  ended : Bool
deriving DecidableEq, Repr

namespace LineSource

/-- How many bytes one read takes at most. -/
def readSize : Nat :=
  8192

/-- Cut bytes into pieces of a size; the first piece has room for `room + 1` bytes. -/
def cut (size : Nat) : Nat → List UInt8 → List (List UInt8)
  | _, [] => []
  | _, [byte] => [[byte]]
  | 0, byte :: bytes => [byte] :: cut size (size - 1) bytes
  | room + 1, byte :: bytes =>
      match cut size room bytes with
      | [] => [[byte]]
      | piece :: pieces => (byte :: piece) :: pieces

/-- The answers of a source that has a chunk: as much as a read takes, again and again. An empty
chunk is one answer. -/
def answersOf (chunk : List UInt8) : List ReadAnswer :=
  match cut readSize (readSize - 1) chunk with
  | [] => [.bytes []]
  | pieces => pieces.map .bytes

/-- A reader before its first line. -/
def ofAnswers (answers : List ReadAnswer) : LineSource :=
  ⟨answers, .empty, [], false⟩

/-- Ask the source for bytes until there is something to report. A source without further answers
is at its end. -/
def ask : List ReadAnswer → LineBuffer → LineEvent × LineSource
  | [], buffer => atEnd [] buffer
  | .failure message :: answers, buffer => (.failure message, ⟨answers, buffer, [], false⟩)
  | .bytes [] :: answers, buffer => atEnd answers buffer
  | .bytes chunk :: answers, buffer =>
      match buffer.feed chunk with
      | ([], buffer) => ask answers buffer
      | (line :: ready, buffer) => (.line line, ⟨answers, buffer, ready, false⟩)
where
  /-- Report what is held, or the end. -/
  atEnd (answers : List ReadAnswer) (buffer : LineBuffer) : LineEvent × LineSource :=
    let (tail, buffer) := buffer.finish
    (tail.elim .ended .line, ⟨answers, buffer, [], true⟩)

/-- The next report of a reader. -/
def next (source : LineSource) : LineEvent × LineSource :=
  match source.ready with
  | line :: ready => (.line line, { source with ready })
  | [] => if source.ended then (.ended, source) else ask source.answers source.buffer

end LineSource

end Toolbench
