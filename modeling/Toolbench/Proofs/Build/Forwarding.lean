import Toolbench.Proofs.Build.Handover
import Toolbench.Proofs.Job.Callbacks

/-!
# Which lines a build passes on

A build passes on the start of its job and the lines of its outputs; the end of the job makes it
read what is pending, of which nobody is told an event. `emitted_observeAll` says that what is
passed on of one thing that the job tells depends on this thing alone, so the lines of one output
are passed on in their order whatever comes between them.
-/

namespace Toolbench.Build

open Job (Stream Callback)

/-- The event that others see. -/
def Output.event? : Output → Option Event
  | .event told => some told
  | .update _ => none

/-- The event that a report passes on. -/
def Report.event? : Report → Option Event
  | .emit event => some event
  | .clear | .publish _ => none

/-- The lines of a text for people: what stands before each line feed, without one carriage return
at its end, and what stands behind the last line feed unless it is empty. -/
def linesForPeople (text : String) : List String :=
  let pieces := text.toList.splitOn '\n'
  let ended := pieces.dropLast.map fun piece =>
    if piece.getLast? = some '\r' then piece.dropLast else piece
  (ended ++ [pieces.getLastD []].filter (· ≠ [])).map String.ofList

/-- The lines that a build cuts a text into are those. -/
theorem stringLines_eq (text : String) : Text.stringLines text = linesForPeople text :=
  congrArg (List.map String.ofList) (Text.linesOfPieces_eq (List.splitOn_ne_nil _ _))

/-- The lines that are shown for a line of output. A structured line gives way to the text that it
holds for people. -/
def shown (mode : OutputMode) (line : String) : List String :=
  match mode with
  | .legacy | .human => [line]
  | .json =>
      match ToolMessage.ofLine? line.toList with
      | none => [line]
      | some (.compiler _ rendered) => linesForPeople (rendered.getD "")
      | some (.buildFinished _) | some (.other _) => []

/-- The lines that are shown for lines of two outputs, in order. -/
def forwarded (mode : OutputMode) (lines : List (Stream × String)) : List (Stream × String) :=
  lines.flatMap fun line => (shown mode line.2).map (line.1, ·)

/-- The events of lines that are shown. -/
def outputEvents (lines : List (Stream × String)) : List Event :=
  lines.map fun line => .output line.2 line.1

/-- The events of one thing that the job tells. -/
def passedOn (mode : OutputMode) (commandLine : String) : Callback → List Event
  | .started => [.started commandLine]
  | .line stream text => outputEvents (forwarded mode [(stream, text)])
  | .exited _ => []

/-- One output is shown as it is without the other. -/
theorem onStream_forwarded (mode : OutputMode) (stream : Stream) (lines : List (Stream × String)) :
    onStream stream (forwarded mode lines) = (onStream stream lines).flatMap (shown mode) := by
  induction lines with
  | nil => rfl
  | cons line lines ih =>
      rw [forwarded, List.flatMap_cons, onStream_append, onStream_map, onStream_cons]
      by_cases hsame : line.1 = stream
      · rw [if_pos hsame, if_pos hsame, List.flatMap_cons, ← ih]
        rfl
      · rw [if_neg hsame, if_neg hsame, List.nil_append, ← ih]
        rfl

/-- Lines are passed on one after the other. -/
theorem flatMap_passedOn_linesTold (mode : OutputMode) (commandLine : String)
    (lines : List (Stream × String)) :
    (Job.linesTold lines).flatMap (passedOn mode commandLine)
      = outputEvents (forwarded mode lines) := by
  simp only [Job.linesTold, outputEvents, forwarded, List.flatMap_map, List.map_flatMap, passedOn,
    List.flatMap_cons, List.flatMap_nil, List.append_nil]

/-- Outcomes are not passed on. -/
theorem flatMap_passedOn_exited (mode : OutputMode) (commandLine : String)
    (outcomes : List Job.Outcome) :
    (outcomes.map .exited).flatMap (passedOn mode commandLine) = [] := by
  simp [passedOn]

namespace Observer

variable {observer : Observer}

@[simp] theorem setPending_commandLine (observer : Observer) (stream : Stream)
    (lines : List String) :
    (observer.setPending stream lines).commandLine = observer.commandLine := by
  cases stream <;> rfl

@[simp] theorem flush_commandLine (observer : Observer) (stream : Stream) :
    (observer.flush stream).1.commandLine = observer.commandLine := by
  unfold flush
  split
  · rfl
  · exact setPending_commandLine observer stream []

/-- What a job tells does not change the command line. -/
theorem observe_commandLine (observer : Observer) (callback : Callback) :
    (observer.observe callback).1.commandLine = observer.commandLine := by
  cases callback with
  | started => rfl
  | exited outcome =>
      show ((observer.flush .out).1.flush .err).1.commandLine = observer.commandLine
      rw [flush_commandLine, flush_commandLine]
  | line stream text =>
      show (observer.line stream text).1.commandLine = observer.commandLine
      cases hmode : observer.mode with
      | json => rw [line_of_json hmode]
      | legacy => rw [line_of_legacy hmode]
      | human =>
          cases hblank : Text.isBlank text.toList with
          | true => rw [line_of_blank hmode stream hblank, flush_commandLine]
          | false => rw [line_of_not_blank hmode stream hblank, setPending_commandLine]

/-- A flush passes on nothing. -/
@[simp] theorem emitted_flush (observer : Observer) (stream : Stream) :
    (observer.flush stream).2.filterMap Report.event? = [] := by
  unfold flush
  split <;> rfl

/-- Of a line those lines are passed on that are shown for it. -/
theorem emitted_line (observer : Observer) (stream : Stream) (text : String) :
    (observer.line stream text).2.filterMap Report.event?
      = outputEvents (forwarded observer.mode [(stream, text)]) := by
  cases hmode : observer.mode with
  | json =>
      rw [line_of_json hmode]
      simp only [structuredReports, forwarded, shown, List.flatMap_cons, List.flatMap_nil,
        List.append_nil]
      cases ToolMessage.ofLine? text.toList with
      | none => rfl
      | some message =>
          cases message with
          | buildFinished | other => rfl
          | compiler diagnostic rendered =>
              show ((Text.stringLines (rendered.getD "")).map _).filterMap _ = _
              rw [stringLines_eq]
              simp [outputEvents, List.filterMap_map, Report.event?, Function.comp_def]
  | legacy =>
      rw [line_of_legacy hmode]
      rfl
  | human =>
      cases hblank : Text.isBlank text.toList with
      | true =>
          rw [line_of_blank hmode stream hblank, List.filterMap_cons, Report.event?, emitted_flush]
          rfl
      | false =>
          rw [line_of_not_blank hmode stream hblank]
          rfl

/-- What is passed on of something that the job tells depends on nothing that it told before. -/
theorem emitted_observe (observer : Observer) (callback : Callback) :
    (observer.observe callback).2.filterMap Report.event?
      = passedOn observer.mode observer.commandLine callback := by
  cases callback with
  | started => rfl
  | line stream text => exact emitted_line observer stream text
  | exited outcome =>
      show ((observer.flush .out).2 ++ ((observer.flush .out).1.flush .err).2).filterMap _ = _
      rw [List.filterMap_append, emitted_flush, emitted_flush]
      rfl

/-- What a job tells is passed on one after the other. -/
theorem emitted_observeAll (observer : Observer) (callbacks : List Callback) :
    (observer.observeAll callbacks).1.mode = observer.mode ∧
      (observer.observeAll callbacks).1.commandLine = observer.commandLine ∧
      (observer.observeAll callbacks).2.filterMap Report.event?
        = callbacks.flatMap (passedOn observer.mode observer.commandLine) := by
  induction callbacks generalizing observer with
  | nil => exact ⟨rfl, rfl, rfl⟩
  | cons callback callbacks ih =>
      obtain ⟨hmode, hcommand, hrest⟩ := ih (observer.observe callback).1
      rw [observe_mode, observe_commandLine] at hrest
      refine ⟨hmode.trans (observe_mode observer callback),
        hcommand.trans (observe_commandLine observer callback), ?_⟩
      rw [observeAll_cons, List.filterMap_append, emitted_observe, hrest, List.flatMap_cons]

end Observer

end Toolbench.Build

namespace Toolbench.BuildManager

open Build

/-- A manager passes on the events that an observer asks for. -/
theorem events_reportAll (directory : Path) (manager : BuildManager) (reports : List Report) :
    (manager.reportAll directory reports).2.filterMap Output.event?
      = reports.filterMap Report.event? := by
  induction reports generalizing manager with
  | nil => rfl
  | cons report reports ih =>
      show ((manager.report directory report).2
        ++ ((manager.report directory report).1.reportAll directory reports).2).filterMap _ = _
      rw [List.filterMap_append, ih]
      cases report with
      | clear | emit => rfl
      | publish diagnostics =>
          show ((manager.collection.publishAll directory diagnostics).2.map _).filterMap _ ++ _ = _
          simp [List.filterMap_map, List.filterMap_cons, Output.event?, Report.event?,
            Function.comp_def]

end Toolbench.BuildManager
