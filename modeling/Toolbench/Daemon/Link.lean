import Toolbench.Daemon.Assembly
import Toolbench.Job.Basic
import Toolbench.Stream.LineBuffer

/-!
# Links to daemon processes

Each process of the daemon has a link of its own: a writer that brings requests to its input, a
reader that puts its answers together, and a watch that waits for its end. They go on
independently of each other, and also when the client has no use for the process any more. An
`Action` of a link is what one of them does, or what the process does, without the others coming
between.
-/

namespace Toolbench

namespace Link

/-- A request on its way to the process. -/
structure Sent where
  request : Nat
  text : String
deriving DecidableEq, Repr

/-- The process at the other end. -/
inductive Child where
  | alive
  | ended (code : Option Int)
deriving DecidableEq, Repr

/-- How far the watch has come. -/
inductive Watch where
  /-- Waiting for the end of the process, or for the word that it is to end. -/
  | watching
  /-- The process is to end and has some time for it. -/
  | grace
  /-- The process was killed. -/
  | killed
  /-- The end is known and not reported yet. -/
  | ended (waited : Job.Waited)
  | reported
deriving Repr

/-- What one party of a link does at once. -/
inductive Action where
  /-- The writer brings a request to the process. -/
  | write
  /-- The process does not take the request; the writer gives up. -/
  | writeFails
  /-- No more requests come, and the writer closes the input of the process. -/
  | closeInput
  /-- The process, or what it started, writes. -/
  | produce (bytes : List UInt8)
  /-- Nobody can write any more. -/
  | closeOutput
  | childEnds (code : Option Int)
  /-- The reader takes up to `count` bytes. -/
  | read (count : Nat)
  /-- The reader sees the end. -/
  | readEnd
  /-- The reader cannot read on. -/
  | readFails
  /-- The reader goes on to the next line. -/
  | push
  /-- The watch hears that the process is to end. -/
  | notice
  /-- The time for the end is over, and the watch kills the process. -/
  | graceOver
  /-- The watch sees the end of the process. -/
  | observeEnd
  /-- The watch cannot wait for the process. -/
  | loseTrack (cause : SystemError)
  | report
deriving DecidableEq, Repr

/-- What a link has for the client. -/
inductive Notice where
  /-- An answer is complete. -/
  | answered (batch : Batch)
  /-- The process has ended. -/
  | exited (waited : Job.Waited)
deriving Repr

end Link

/-- What connects the client to one process of the daemon. -/
structure Link where
  generation : Nat
  /-- All requests that the writer was given. -/
  sent : List Link.Sent
  /-- How many of them the process was brought. -/
  written : Nat
  /-- There is a writer. -/
  writing : Bool
  /-- No more requests come, and the process is to end. -/
  dismissed : Bool
  child : Link.Child
  /-- Bytes that were written and not read yet. -/
  unread : List UInt8
  /-- Somebody may still write. -/
  outputOpen : Bool
  buffer : LineBuffer
  /-- Lines that were read and not gone on to yet. -/
  ready : List String
  batches : BatchBuffer
  /-- The reader has not seen the end. -/
  reading : Bool
  watch : Link.Watch
deriving Repr

namespace Link

/-- The link to a process that was just started. -/
def fresh (generation : Nat) : Link :=
  ⟨generation, [], 0, true, false, .alive, [], true, .empty, [], .empty, true, .watching⟩

/-- The link with a request for the writer. -/
def send (link : Link) (request : Nat) (text : String) : Link :=
  { link with sent := link.sent ++ [⟨request, text⟩] }

/-- What the process was brought so far. -/
def input (link : Link) : String :=
  String.join ((link.sent.take link.written).map (·.text))

/-- Steps of the writer. -/
def writerStep? (link : Link) : Action → Option Link
  | .write =>
      if link.writing && link.written < link.sent.length then
        some { link with written := link.written + 1 }
      else none
  | .writeFails =>
      if link.writing && link.written < link.sent.length then some { link with writing := false }
      else none
  | .closeInput =>
      if link.writing && link.dismissed && link.written == link.sent.length then
        some { link with writing := false }
      else none
  | _ => none

/-- Steps of the process. -/
def childStep? (link : Link) : Action → Option Link
  | .produce bytes =>
      if link.outputOpen then some { link with unread := link.unread ++ bytes } else none
  | .closeOutput => some { link with outputOpen := false }
  | .childEnds code =>
      match link.child with
      | .alive => some { link with child := .ended code }
      | .ended _ => none
  | _ => none

/-- Steps of the reader. It reads on only when it has gone on to all its lines. -/
def readerStep? (link : Link) : Action → Option (Link × Option Notice)
  | .read count =>
      if link.reading && link.ready.isEmpty && !(link.unread.take count).isEmpty then
        let (ready, buffer) := link.buffer.feed (link.unread.take count)
        some ({ link with unread := link.unread.drop count, ready, buffer }, none)
      else none
  | .readEnd =>
      if link.reading && link.ready.isEmpty && link.unread.isEmpty && !link.outputOpen then
        let (tail, buffer) := link.buffer.finish
        some ({ link with ready := tail.toList, buffer, reading := false }, none)
      else none
  | .readFails =>
      if link.reading && link.ready.isEmpty then some ({ link with reading := false }, none)
      else none
  | .push =>
      match link.ready with
      | [] => none
      | line :: ready =>
          let (batch, batches) := link.batches.push line
          some ({ link with ready, batches }, batch.map .answered)
  | _ => none

/-- The watch still waits for the end of the process. -/
def isWaiting (link : Link) : Bool :=
  match link.watch with
  | .watching => true
  | .grace => true
  | .killed => true
  | .ended _ => false
  | .reported => false

/-- The end of the process was reported. -/
def isReported (link : Link) : Bool :=
  match link.watch with
  | .reported => true
  | _ => false

/-- Steps of the watch. -/
def watchStep? (link : Link) : Action → Option (Link × Option Notice)
  | .notice =>
      match link.watch with
      | .watching => if link.dismissed then some ({ link with watch := .grace }, none) else none
      | _ => none
  | .graceOver =>
      match link.watch with
      | .grace => some ({ link with watch := .killed }, none)
      | _ => none
  | .observeEnd =>
      match link.child with
      | .alive => none
      | .ended code =>
          if link.isWaiting then some ({ link with watch := .ended (.ok code) }, none) else none
  | .loseTrack cause =>
      if link.isWaiting then some ({ link with watch := .ended (.error cause) }, none) else none
  | .report =>
      match link.watch with
      | .ended waited => some ({ link with watch := .reported }, some (.exited waited))
      | _ => none
  | _ => none

/-- What an action does to a link and what the client hears of it, if the action is possible. -/
def step? (link : Link) (action : Action) : Option (Link × Option Notice) :=
  match action with
  | .write | .writeFails | .closeInput => (link.writerStep? action).map (·, none)
  | .produce _ | .closeOutput | .childEnds _ => (link.childStep? action).map (·, none)
  | .read _ | .readEnd | .readFails | .push => link.readerStep? action
  | .notice | .graceOver | .observeEnd | .loseTrack _ | .report => link.watchStep? action

end Link

end Toolbench
