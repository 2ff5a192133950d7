import Toolbench.Proofs.Daemon.LastAnswers
import Toolbench.Proofs.Stream.Reports

/-!
# The answers in a stream

The answers that chunks and lines make up are the runs between the lines that end an answer, and
nothing depends on where the chunks are cut: `batches_of_calls`. The reader of a link hears the
same answers from the same bytes, and one more when the stream ends in such a line without a line
feed. Read `splitOnP_pushAll` first, which says what answers are in terms of lines alone.
-/

namespace Toolbench

/-! ## Answers as runs of lines -/

namespace BatchBuffer

/-- The lines held back, in order. -/
def held (buffer : BatchBuffer) : Batch :=
  buffer.linesReversed.reverse

/-- The answers and what is held back in the end are the runs between the lines that end an answer.
The first run goes on from what was held back before. -/
theorem splitOnP_pushAll (lines : List String) (buffer : BatchBuffer) :
    (buffer.pushAll lines).1 ++ [(buffer.pushAll lines).2.held]
      = (lines.splitOnP endsBatch).modifyHead (buffer.held ++ ·) := by
  induction lines generalizing buffer with
  | nil => simp [pushAll]
  | cons line lines ih =>
      rw [List.splitOnP_cons_eq_if_modifyHead]
      simp only [pushAll, List.append_assoc, ih]
      by_cases hends : endsBatch line = true
      · simp only [push, hends, if_true, Option.toList_some, List.singleton_append,
          List.modifyHead_cons, List.append_nil]
        congr 1
        exact congrFun List.modifyHead_id _
      · have hheld : (buffer.push line).2.held = buffer.held ++ [line] := by
          simp [push, hends, held]
        simp [push, hends, List.modifyHead_modifyHead, held, Function.comp_def]

end BatchBuffer

/-! ## Lines that chunks complete -/

namespace LineBuffer

/-- The lines that a chunk completes when these bytes came before it. -/
def completedBy (fed chunk : List UInt8) : List String :=
  (completed (fed ++ chunk)).drop (completed fed).length

/-- Lines stay complete. -/
theorem completed_append (fed chunk : List UInt8) :
    completed (fed ++ chunk) = completed fed ++ completedBy fed chunk := by
  have hfollows : Follows ⟨(fed.splitOn feedByte).getLastD []⟩ fed := rfl
  rw [completedBy, (hfollows.feed chunk).1, List.drop_left]

/-- Two chunks complete what their bytes complete together. -/
theorem completedBy_append (fed chunk more : List UInt8) :
    completedBy fed (chunk ++ more) = completedBy fed chunk ++ completedBy (fed ++ chunk) more := by
  refine @List.append_cancel_left _ (completed fed) _ _ ?_
  rw [← completed_append, ← List.append_assoc, completed_append (fed ++ chunk), completed_append,
    List.append_assoc]

/-- A buffer returns the lines that a chunk completes. -/
theorem Follows.feed_eq {buffer : LineBuffer} {fed : List UInt8} (h : buffer.Follows fed)
    (chunk : List UInt8) : (buffer.feed chunk).1 = completedBy fed chunk :=
  List.append_cancel_left ((h.feed chunk).1.symm.trans (completed_append fed chunk))

end LineBuffer

/-! ## Calls -/

namespace ResponseBuffer

/-- What a buffer is given at once. -/
inductive Call where
  | feed (chunk : List UInt8)
  | push (line : String)
deriving DecidableEq, Repr

/-- Give a buffer a chunk or a line. Returns the answers that it ends. -/
def call (buffer : ResponseBuffer) : Call → List Batch × ResponseBuffer
  | .feed chunk => buffer.feed chunk
  | .push line =>
      let (batch, buffer) := buffer.push line
      (batch.toList, buffer)

/-- Make calls one after the other. Returns the answers that they end. -/
def callAll : ResponseBuffer → List Call → List Batch × ResponseBuffer
  | buffer, [] => ([], buffer)
  | buffer, call :: calls =>
      let (batches, buffer) := buffer.call call
      let (later, buffer) := buffer.callAll calls
      (batches ++ later, buffer)

/-- The lines that calls complete or push, in order, when these bytes were fed before. -/
def linesFrom : List UInt8 → List Call → List String
  | _, [] => []
  | fed, .feed chunk :: calls =>
      LineBuffer.completedBy fed chunk ++ linesFrom (fed ++ chunk) calls
  | fed, .push line :: calls => line :: linesFrom fed calls

/-- What a call brings, byte by byte; a line comes as a whole. -/
def Call.items : Call → List (UInt8 ⊕ String)
  | .feed chunk => chunk.map .inl
  | .push line => [.inr line]

/-- The bytes that a call feeds. -/
def Call.bytes : Call → List UInt8
  | .feed chunk => chunk
  | .push _ => []

/-- The answers are put together from the lines that the calls complete or push, and the rest of
the bytes is held back. -/
theorem callAll_eq (buffer : ResponseBuffer) {fed : List UInt8} (h : buffer.lines.Follows fed)
    (calls : List Call) :
    ((buffer.callAll calls).1, (buffer.callAll calls).2.batches)
        = buffer.batches.pushAll (linesFrom fed calls) ∧
      (buffer.callAll calls).2.lines.Follows (fed ++ calls.flatMap Call.bytes) := by
  induction calls generalizing buffer fed with
  | nil =>
      rw [List.flatMap_nil, List.append_nil]
      exact ⟨rfl, h⟩
  | cons call calls ih =>
      cases call with
      | feed chunk =>
          have hnext : (buffer.feed chunk).2.lines.Follows (fed ++ chunk) := (h.feed chunk).2
          obtain ⟨hbatches, hlast⟩ := ih _ hnext
          rw [List.append_assoc] at hlast
          refine ⟨?_, hlast⟩
          rw [linesFrom, BatchBuffer.pushAll_append, ← h.feed_eq]
          show _ = (_ ++ ((buffer.feed chunk).2.batches.pushAll _).1,
            ((buffer.feed chunk).2.batches.pushAll _).2)
          rw [← hbatches]
          rfl
      | push line =>
          have hnext : (buffer.push line).2.lines.Follows fed := h
          obtain ⟨hbatches, hlast⟩ := ih _ hnext
          refine ⟨?_, hlast⟩
          rw [linesFrom]
          show _ = (_ ++ ((buffer.push line).2.batches.pushAll _).1,
            ((buffer.push line).2.batches.pushAll _).2)
          rw [← hbatches]
          rfl

/-- The lines that items complete or push, in order, when these bytes were fed before. -/
def linesOfItems : List UInt8 → List (UInt8 ⊕ String) → List String
  | _, [] => []
  | fed, .inl byte :: items =>
      LineBuffer.completedBy fed [byte] ++ linesOfItems (fed ++ [byte]) items
  | fed, .inr line :: items => line :: linesOfItems fed items

/-- A chunk completes the lines that its bytes complete one by one. -/
theorem linesOfItems_chunk (fed chunk : List UInt8) (items : List (UInt8 ⊕ String)) :
    linesOfItems fed (chunk.map .inl ++ items)
      = LineBuffer.completedBy fed chunk ++ linesOfItems (fed ++ chunk) items := by
  induction chunk generalizing fed with
  | nil => simp [LineBuffer.completedBy]
  | cons byte chunk ih =>
      rw [List.map_cons, List.cons_append, linesOfItems, ih, ← List.append_assoc,
        ← LineBuffer.completedBy_append, List.append_assoc]
      rfl

/-- The lines that calls take in depend on what they bring alone. -/
theorem linesFrom_eq (fed : List UInt8) (calls : List Call) :
    linesFrom fed calls = linesOfItems fed (calls.flatMap Call.items) := by
  induction calls generalizing fed with
  | nil => rfl
  | cons call calls ih =>
      cases call with
      | feed chunk => rw [linesFrom, ih, List.flatMap_cons, Call.items, linesOfItems_chunk]
      | push line => rw [linesFrom, ih, List.flatMap_cons, Call.items, List.singleton_append,
          linesOfItems]

/-- The bytes that calls feed are those among what they bring. -/
theorem bytes_eq (calls : List Call) :
    calls.flatMap Call.bytes = (calls.flatMap Call.items).filterMap Sum.getLeft? := by
  induction calls with
  | nil => rfl
  | cons call calls ih =>
      rw [List.flatMap_cons, List.flatMap_cons, List.filterMap_append, ih]
      congr 1
      cases call with
      | feed chunk => simp [Call.bytes, Call.items, List.filterMap_map, Function.comp_def]
      | push line => rfl

/-- Calls that bring the same leave the same behind, wherever the chunks are cut. -/
theorem callAll_congr {calls others : List Call}
    (h : others.flatMap Call.items = calls.flatMap Call.items) :
    empty.callAll others = empty.callAll calls := by
  obtain ⟨hleft, hleftLines⟩ := callAll_eq empty LineBuffer.follows_empty others
  obtain ⟨hright, hrightLines⟩ := callAll_eq empty LineBuffer.follows_empty calls
  rw [linesFrom_eq, h, ← linesFrom_eq, ← hright] at hleft
  rw [bytes_eq, h, ← bytes_eq] at hleftLines
  have hheld : (empty.callAll others).2.lines = (empty.callAll calls).2.lines :=
    congrArg LineBuffer.mk (hleftLines.trans hrightLines.symm)
  obtain ⟨hanswers, hbatches⟩ := Prod.mk.inj hleft
  exact Prod.ext hanswers (congrArg₂ ResponseBuffer.mk hheld hbatches)

/-- Chunks alone complete the lines of the stream that they make up. -/
theorem linesFrom_feeds (fed : List UInt8) (chunks : List (List UInt8)) :
    LineBuffer.completed fed ++ linesFrom fed (chunks.map .feed)
      = LineBuffer.completed (fed ++ chunks.flatten) := by
  induction chunks generalizing fed with
  | nil => simp [linesFrom]
  | cons chunk chunks ih =>
      rw [List.map_cons, linesFrom, ← List.append_assoc, ← LineBuffer.completed_append, ih,
        List.flatten_cons, List.append_assoc]

/-- Chunks alone end the answers that the complete lines of their stream make up. -/
theorem callAll_feeds (chunks : List (List UInt8)) :
    ((empty.callAll (chunks.map .feed)).1, (empty.callAll (chunks.map .feed)).2.batches)
      = BatchBuffer.empty.pushAll (LineBuffer.completed chunks.flatten) := by
  have hlines : linesFrom [] (chunks.map .feed) = LineBuffer.completed chunks.flatten :=
    linesFrom_feeds [] chunks
  rw [← hlines]
  exact (callAll_eq empty LineBuffer.follows_empty _).1

/-- What no line feed ends may end one answer more. -/
theorem batchesOf_linesOf (chunks : List (List UInt8)) :
    batchesOf (LineBuffer.linesOf chunks.flatten)
      = (empty.callAll (chunks.map .feed)).1 ++
        if endsBatch (LineBuffer.lineText (LineBuffer.unfinished chunks.flatten))
        then [(empty.callAll (chunks.map .feed)).2.batches.held] else [] := by
  obtain ⟨hanswers, hbatches⟩ := Prod.mk.inj (callAll_feeds chunks)
  rw [hanswers, hbatches, LineBuffer.linesOf_eq]
  split
  · rename_i htail
    rw [htail, List.append_nil, show endsBatch (LineBuffer.lineText []) = false from by decide]
    exact (List.append_nil _).symm
  · rw [batchesOf_concat, ← held_pushAll]
    rfl

end ResponseBuffer

/-! ## The reader of a link -/

namespace Link

variable {bytes : List UInt8} {lines : List String} {link next : Link} {action : Action}
  {notice : Option Notice}

/-- Do actions one after the other, if each is possible in its turn. Returns what the client
hears. -/
def run? (link : Link) (actions : List Action) : Option (Link × List Notice) :=
  Machine.run? (fun link action => (link.step? action).map fun reply => (reply.1, reply.2.toList))
    link actions

/-- How a history of a link and what the client heard go with the reader: it has gone on to these
lines. -/
structure Heard (actions : List Action) (notices : List Notice) (lines : List String)
    (link : Link) : Prop where
  reading : Reading (actions.flatMap Action.bytes) lines link
  answers : notices.filterMap Notice.batch? = batchesOf lines
  atEnd : .readEnd ∈ actions → AtEnd (actions.flatMap Action.bytes) lines link

/-- Every step of a link goes on with the lines. -/
theorem Heard.step? {actions : List Action} {notices : List Notice}
    (h : Heard actions notices lines link) (hstep : link.step? action = some (next, notice)) :
    Heard (actions ++ [action]) (notices ++ notice.toList)
      (lines ++ (link.passed? action).toList) next := by
  have hbytes : (actions ++ [action]).flatMap Action.bytes
      = actions.flatMap Action.bytes ++ action.bytes := by simp
  constructor
  · rw [hbytes]
    exact h.reading.step? hstep
  · rw [h.reading.batchesOf_step hstep, List.filterMap_append, h.answers]
    cases notice with
    | none => simp
    | some given => cases hanswer : given.batch? <;> simp [hanswer]
  · intro hend
    rw [hbytes]
    rcases List.mem_append.1 hend with hpast | hnow
    · exact (h.atEnd hpast).step? hstep
    · cases List.mem_singleton.1 hnow
      show AtEnd (_ ++ []) (lines ++ []) next
      rw [List.append_nil, List.append_nil]
      exact h.reading.atEnd hstep

/-- After every history the reader has gone on to some lines. -/
theorem heard_run {generation : Nat} {actions : List Action} {notices : List Notice}
    (hrun : (fresh generation).run? actions = some (link, notices)) :
    ∃ lines, Heard actions notices lines link := by
  refine Machine.run?_history_invariant _
    (P := fun actions notices link => ∃ lines, Heard actions notices lines link)
    (fun past said link action next told hpast hstep => ?_) hrun
    ⟨[], .fresh generation, rfl, nofun⟩
  obtain ⟨lines, h⟩ := hpast
  obtain ⟨⟨changed, notice⟩, hact, heq⟩ := Option.map_eq_some_iff.1 hstep
  cases heq
  exact ⟨_, h.step? hact⟩

/-- When the reader has not seen the end and has gone on to all that was written, the client has
heard the answers that the complete lines make up. -/
theorem answers_eq_of_reading {generation : Nat} {actions : List Action} {notices : List Notice}
    (hrun : (fresh generation).run? actions = some (link, notices))
    (hreading : link.reading = true) (hunread : link.unread = []) (hready : link.ready = []) :
    notices.filterMap Notice.batch?
      = batchesOf (LineBuffer.completed (actions.flatMap Action.bytes)) := by
  obtain ⟨lines, h⟩ := heard_run hrun
  obtain ⟨taken, hbytes, hlines, -⟩ := h.reading.exists_taken hreading
  rw [hready, List.append_nil] at hlines
  rw [h.answers, hlines, hbytes, hunread, List.append_nil]

/-- When the reader has seen the end and has gone on to all its lines, the client has heard the
answers that the lines of the stream make up. -/
theorem answers_eq_of_readEnd {generation : Nat} {actions : List Action} {notices : List Notice}
    (hrun : (fresh generation).run? actions = some (link, notices))
    (hend : .readEnd ∈ actions) (hready : link.ready = []) :
    notices.filterMap Notice.batch?
      = batchesOf (LineBuffer.linesOf (actions.flatMap Action.bytes)) := by
  obtain ⟨lines, h⟩ := heard_run hrun
  rw [h.answers, ← (h.atEnd hend).source, hready, List.append_nil]

end Link

namespace ResponseBuffer

/-- What readers make of a stream that comes in these chunks. A reader goes on when the stream ends,
so the last line need not have a line feed. -/
structure ReadAlike (chunks : List (List UInt8)) : Prop where
  /-- A reader of lines reports the lines one by one, and then the end for ever. -/
  reports : (∀ chunk ∈ chunks, chunk ≠ []) → ∀ count,
    (LineSource.ofAnswers (chunks.map .bytes)).reports count
      = ((LineBuffer.linesOf chunks.flatten).map LineEvent.line
          ++ List.replicate count LineEvent.ended).take count
  /-- These lines make up the answers that the chunks end, and one more when what no line feed ends
  is the end of an answer. -/
  answers : batchesOf (LineBuffer.linesOf chunks.flatten)
    = (empty.callAll (chunks.map .feed)).1 ++
      if endsBatch (LineBuffer.lineText (LineBuffer.unfinished chunks.flatten))
      then [(empty.callAll (chunks.map .feed)).2.batches.held] else []
  /-- When the process of a link writes the stream, then whatever else happens there and however the
  writing and the reading are cut, the client hears the answers that the chunks end, -/
  heard : ∀ (generation : Nat) (actions : List Link.Action) (link : Link)
    (notices : List Link.Notice), (Link.fresh generation).run? actions = some (link, notices) →
    actions.flatMap Link.Action.bytes = chunks.flatten →
    link.reading = true → link.unread = [] → link.ready = [] →
    notices.filterMap Link.Notice.batch? = (empty.callAll (chunks.map .feed)).1
  /-- and those of all lines when the reader has seen the end. -/
  heardAtEnd : ∀ (generation : Nat) (actions : List Link.Action) (link : Link)
    (notices : List Link.Notice), (Link.fresh generation).run? actions = some (link, notices) →
    actions.flatMap Link.Action.bytes = chunks.flatten → .readEnd ∈ actions → link.ready = [] →
    notices.filterMap Link.Notice.batch? = batchesOf (LineBuffer.linesOf chunks.flatten)

/-- The answers that calls end are the runs between the lines that start with the mark, among the
lines that they complete or push, and the last run is held back. Calls that bring the same bytes
and lines have the same effect, wherever the chunks are cut. The reader of a process hears the
same answers, and one more when the stream ends in the mark without a line feed. -/
theorem batches_of_calls :
    (∀ calls : List Call, (empty.callAll calls).1 ++ [(empty.callAll calls).2.batches.held]
        = (linesFrom [] calls).splitOnP endsBatch) ∧
      (∀ calls others : List Call, others.flatMap Call.items = calls.flatMap Call.items →
        empty.callAll others = empty.callAll calls) ∧
      ∀ chunks : List (List UInt8), ReadAlike chunks := by
  refine ⟨fun calls => ?_, fun calls others => callAll_congr, fun chunks => ?_⟩
  · obtain ⟨hbatches, -⟩ := callAll_eq empty LineBuffer.follows_empty calls
    obtain ⟨hanswers, hheld⟩ := Prod.mk.inj hbatches
    rw [hanswers, hheld]
    -- Nothing was held back before the first call, so the first run is as it stands.
    refine (BatchBuffer.splitOnP_pushAll _ _).trans ?_
    exact congrFun List.modifyHead_id _
  · refine ⟨fun hne => LineSource.reports_ofAnswers hne, batchesOf_linesOf chunks, ?_, ?_⟩
    · intro generation actions link notices hrun hbytes hreading hunread hready
      rw [Link.answers_eq_of_reading hrun hreading hunread hready, hbytes]
      exact (congrArg Prod.fst (callAll_feeds chunks)).symm
    · intro generation actions link notices hrun hbytes hend hready
      rw [Link.answers_eq_of_readEnd hrun hend hready, hbytes]

/-- A stream whose first mark is cut in two and whose last one has no line feed: the reader of the
process, which cuts it elsewhere, hears one answer more than the chunks end. -/
theorem batches_of_calls_cut :
    let chunks : List (List UInt8) := [[120, 10, 69], [78, 68, 10, 121, 10, 69, 78], [68]]
    let actions : List Link.Action :=
      [.produce [120, 10, 69, 78], .read 3, .push, .produce [68, 10, 121, 10, 69, 78, 68],
        .closeOutput, .read 5, .push, .push, .read 3, .readEnd, .push]
    ∃ link notices, (Link.fresh 1).run? actions = some (link, notices) ∧
      actions.flatMap Link.Action.bytes = chunks.flatten ∧ .readEnd ∈ actions ∧ link.ready = [] ∧
      (empty.callAll (chunks.map .feed)).1 = [["x"]] ∧
      notices.filterMap Link.Notice.batch? = [["x"], ["y"]] := by
  intro chunks actions
  have hrun : (Link.fresh 1).run? actions = some (_, _) := rfl
  have hbytes : actions.flatMap Link.Action.bytes = chunks.flatten := rfl
  have hend : .readEnd ∈ actions := by decide
  obtain ⟨-, -, hread⟩ := batches_of_calls
  refine ⟨_, _, hrun, hbytes, hend, rfl, by decide +kernel, ?_⟩
  rw [(hread chunks).heardAtEnd 1 actions _ _ hrun hbytes hend rfl]
  decide +kernel

end ResponseBuffer

end Toolbench
