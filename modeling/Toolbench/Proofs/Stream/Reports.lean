import Toolbench.Proofs.Stream.Chunks
import Toolbench.Stream.LineSource

/-!
# What a reader of lines reports

A reader reports the lines of its stream one by one and each failure in its place, however its reads
cut the stream, and then the end for ever. `told` is what is to be reported before the end, taken
from all answers of the source at once, and `reports_eq` says that the reader reports this. When no
read fails there is nothing but the lines: `reports_ofAnswers`.
-/

namespace Toolbench

namespace ReadAnswer

/-- The bytes of an answer. -/
def data : ReadAnswer → List UInt8
  | .bytes chunk => chunk
  | .failure _ => []

/-- What is said about a failure. -/
def failure? : ReadAnswer → Option String
  | .bytes _ => none
  | .failure message => some message

end ReadAnswer

namespace LineEvent

/-- The line that is reported. -/
def line? : LineEvent → Option String
  | .line text => some text
  | _ => none

/-- What is said about the failure that is reported. -/
def failure? : LineEvent → Option String
  | .failure message => some message
  | _ => none

theorem filterMap_line? (lines : List String) :
    (lines.map LineEvent.line).filterMap line? = lines := by
  rw [List.filterMap_map]
  exact List.filterMap_some

theorem filterMap_failure? (lines : List String) :
    (lines.map LineEvent.line).filterMap failure? = [] := by
  rw [List.filterMap_map]
  exact List.filterMap_eq_nil_iff.2 fun _ _ => rfl

end LineEvent

namespace LineSource

variable {answers : List ReadAnswer} {buffer : LineBuffer} {seen : List UInt8}

/-- The first reports of a reader. -/
def reports : Nat → LineSource → List LineEvent
  | 0, _ => []
  | n + 1, source => source.next.1 :: reports n source.next.2

/-- The answers before the end of the stream, which is the first answer without bytes. -/
def beforeEnd (answers : List ReadAnswer) : List ReadAnswer :=
  answers.takeWhile (· ≠ .bytes [])

/-! ## All answers at once -/

/-- Take in answers one after the other. Returns the lines that they complete and the failures. -/
def takeIn : LineBuffer → List ReadAnswer → List LineEvent × LineBuffer
  | buffer, [] => ([], buffer)
  | buffer, .failure message :: answers =>
      let (events, buffer) := takeIn buffer answers
      (.failure message :: events, buffer)
  | buffer, .bytes chunk :: answers =>
      let (lines, buffer) := buffer.feed chunk
      let (events, buffer) := takeIn buffer answers
      (lines.map .line ++ events, buffer)

/-- What is to be reported before the end: what the answers give, and then the line that no line
feed ended. -/
def told (buffer : LineBuffer) (answers : List ReadAnswer) : List LineEvent :=
  let (events, buffer) := takeIn buffer (beforeEnd answers)
  events ++ buffer.finish.1.toList.map .line

/-- What a reader is still to report before the end. -/
def remaining (source : LineSource) : List LineEvent :=
  source.ready.map .line ++ if source.ended then [] else told source.buffer source.answers

theorem told_chunk (buffer : LineBuffer) {chunk : List UInt8} (h : chunk ≠ [])
    (answers : List ReadAnswer) :
    told buffer (.bytes chunk :: answers)
      = (buffer.feed chunk).1.map .line ++ told (buffer.feed chunk).2 answers := by
  have hbefore : beforeEnd (.bytes chunk :: answers) = .bytes chunk :: beforeEnd answers :=
    List.takeWhile_cons_of_pos (by simpa using h)
  simp only [told, hbefore, takeIn, List.append_assoc]

/-- At the end of the stream there is one line to report, or none. -/
theorem atEnd_eq (answers : List ReadAnswer) (buffer : LineBuffer) :
    (ask.atEnd answers buffer).1 = (buffer.finish.1.toList.map LineEvent.line).headD .ended ∧
      remaining (ask.atEnd answers buffer).2
        = (buffer.finish.1.toList.map LineEvent.line).tail := by
  rcases hfinish : buffer.finish with ⟨tail, after⟩
  rw [ask.atEnd, hfinish]
  cases tail <;> exact ⟨rfl, rfl⟩

/-- A reader that has no line ready reads on to the first report. -/
theorem ask_eq (answers : List ReadAnswer) (buffer : LineBuffer) :
    (ask answers buffer).1 = (told buffer answers).headD .ended ∧
      remaining (ask answers buffer).2 = (told buffer answers).tail := by
  induction answers generalizing buffer with
  | nil => exact atEnd_eq [] buffer
  | cons answer answers ih =>
      cases answer with
      | failure message => exact ⟨rfl, rfl⟩
      | bytes chunk =>
          by_cases hchunk : chunk = []
          · rw [hchunk]
            exact atEnd_eq answers buffer
          · rw [ask, told_chunk buffer hchunk]
            · rcases hfeed : buffer.feed chunk with ⟨_ | ⟨line, ready⟩, next⟩
              · exact ih next
              · exact ⟨rfl, rfl⟩
            · exact hchunk

/-- A report is the first one that remained, or the end when none did. -/
theorem next_eq (source : LineSource) :
    source.next.1 = source.remaining.headD .ended ∧
      source.next.2.remaining = source.remaining.tail := by
  obtain ⟨answers, buffer, ready, ended⟩ := source
  cases ready with
  | cons line ready => exact ⟨rfl, rfl⟩
  | nil =>
      cases ended with
      | true => exact ⟨rfl, rfl⟩
      | false => exact ask_eq answers buffer

/-- What remains is reported one by one, and then the end. -/
theorem reports_eq (n : Nat) (source : LineSource) :
    reports n source = (source.remaining ++ List.replicate n LineEvent.ended).take n := by
  induction n generalizing source with
  | zero => rfl
  | succ n ih =>
      obtain ⟨hfirst, hlater⟩ := source.next_eq
      rw [reports, hfirst, ih, hlater]
      cases source.remaining with
      | nil => simp [List.replicate_succ]
      | cons event events => simp [List.replicate_succ', ← List.append_assoc, List.take_append]

/-! ## Lines and failures -/

/-- Answers that are taken in later give what they give then. -/
theorem takeIn_append (buffer : LineBuffer) (before after : List ReadAnswer) :
    takeIn buffer (before ++ after)
      = ((takeIn buffer before).1 ++ (takeIn (takeIn buffer before).2 after).1,
          (takeIn (takeIn buffer before).2 after).2) := by
  induction before generalizing buffer with
  | nil => rfl
  | cons answer before ih =>
      cases answer with
      | failure message => simp only [List.cons_append, takeIn, ih]
      | bytes chunk => simp only [List.cons_append, takeIn, ih, List.append_assoc]

/-- Answers complete the lines that their bytes add to the stream, and the buffer follows on. -/
theorem line?_takeIn (h : buffer.Follows seen) (answers : List ReadAnswer) :
    LineBuffer.completed (seen ++ answers.flatMap ReadAnswer.data)
        = LineBuffer.completed seen ++ (takeIn buffer answers).1.filterMap LineEvent.line? ∧
      (takeIn buffer answers).2.Follows (seen ++ answers.flatMap ReadAnswer.data) := by
  induction answers generalizing buffer seen with
  | nil => exact ⟨by simp [takeIn], by simpa [takeIn] using h⟩
  | cons answer answers ih =>
      cases answer with
      | failure message => exact ih h
      | bytes chunk =>
          obtain ⟨hlines, hnext⟩ := h.feed chunk
          obtain ⟨hlater, hlast⟩ := ih hnext
          rw [List.flatMap_cons, ReadAnswer.data, ← List.append_assoc]
          refine ⟨?_, hlast⟩
          rw [hlater, hlines, takeIn, List.filterMap_append, LineEvent.filterMap_line?,
            List.append_assoc]

/-- Each failure is among the reports once. -/
theorem failure?_takeIn (buffer : LineBuffer) (answers : List ReadAnswer) :
    (takeIn buffer answers).1.filterMap LineEvent.failure?
      = answers.filterMap ReadAnswer.failure? := by
  induction answers generalizing buffer with
  | nil => rfl
  | cons answer answers ih =>
      cases answer with
      | failure message => exact congrArg (message :: ·) (ih buffer)
      | bytes chunk =>
          rw [takeIn, List.filterMap_append, LineEvent.filterMap_failure?, List.nil_append, ih]
          rfl

/-- Chunks give nothing but lines. -/
theorem takeIn_chunks (buffer : LineBuffer) (chunks : List (List UInt8)) :
    takeIn buffer (chunks.map .bytes)
      = ((buffer.feedAll chunks).1.map .line, (buffer.feedAll chunks).2) := by
  induction chunks generalizing buffer with
  | nil => rfl
  | cons chunk chunks ih =>
      simp only [List.map_cons, takeIn, ih, LineBuffer.feedAll, List.map_append]

/-- A reader reports the lines of the stream that its reads make up, and then the end. -/
theorem reports_ofAnswers {chunks : List (List UInt8)} (hne : ∀ chunk ∈ chunks, chunk ≠ [])
    (n : Nat) :
    reports n (ofAnswers (chunks.map .bytes))
      = ((LineBuffer.linesOf chunks.flatten).map LineEvent.line
          ++ List.replicate n LineEvent.ended).take n := by
  have hbefore : beforeEnd (chunks.map .bytes) = chunks.map .bytes :=
    List.takeWhile_eq_self_iff.2 (by simpa using hne)
  have hremaining : (ofAnswers (chunks.map .bytes)).remaining
      = (LineBuffer.linesOf chunks.flatten).map LineEvent.line := by
    obtain ⟨hlines, hfollows⟩ := LineBuffer.follows_empty.feedAll chunks
    have hall := hfollows.finish
    rw [hlines] at hall
    show told .empty (chunks.map .bytes) = _
    rw [told, hbefore, takeIn_chunks]
    exact List.map_append.symm.trans (congrArg _ hall)
  rw [reports_eq, hremaining]

end LineSource

end Toolbench
