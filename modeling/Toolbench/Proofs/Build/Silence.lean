import Toolbench.Proofs.Build.Published
import Toolbench.Proofs.Build.RunEvents

/-!
# Structured lines of which nothing is seen

A structured line gives way to the diagnostic and the text for people that it holds. Nobody sees
anything of it when it holds neither, and `structured_line_unseen_iff` says when that is: the line
is an envelope of the tool about itself, or a compiler message without a place and without a text.
A line that only looks like such a message counts as one.
-/

namespace Toolbench

/-- Only the empty text has no lines. -/
theorem Text.lines_eq_nil_iff {text : List Char} : lines text = [] ↔ text = [] := by
  refine ⟨fun h => ?_, fun h => by rw [h, lines_nil]⟩
  have hjoined : ['\n'].intercalate (text.splitOn '\n') = text := List.intercalate_splitOn '\n'
  unfold lines at h
  cases hpieces : text.splitOn '\n' with
  | nil => exact absurd hpieces (List.splitOn_ne_nil _ _)
  | cons first rest =>
      rw [hpieces] at h hjoined
      cases rest with
      | cons next others => exact nomatch h
      | nil =>
          have hfirst : first = [] := by
            by_contra hne
            simp [linesOfPieces, hne] at h
          rw [← hjoined, hfirst]
          rfl

namespace CompilerMessage

/-- The message lies at no place and has no text for people. -/
def IsBlank (message : CompilerMessage) : Prop :=
  (∀ span ∈ message.spans, span.isPrimary = false) ∧ message.rendered.getD "" = ""

/-- A message without a primary span has no diagnostic. -/
theorem diagnostic?_eq_none_iff {message : CompilerMessage} :
    message.diagnostic? = none ↔ ∀ span ∈ message.spans, span.isPrimary = false := by
  simp [diagnostic?, place?]

end CompilerMessage

namespace ToolMessage

/-- The value of a line that may be machine-readable. -/
def value? (line : List Char) : Option Json :=
  if isCandidate line then Json.read? (Text.trim line) else none

/-- The reason that a value gives for its line. -/
def reason? (json : Json) : Option String :=
  (json.field? "reason").bind Json.text?

/-- What the tool tells about itself. -/
def IsEnvelope (json : Json) : Prop :=
  ∃ reason, reason? json = some reason ∧ reason ≠ "compiler-message"

/-- The compiler message of a value: the value itself unless it gives a reason. -/
def message? (json : Json) : Option CompilerMessage :=
  match reason? json with
  | some "compiler-message" => (json.field? "message").bind CompilerMessage.decode?
  | some _ => none
  | none => CompilerMessage.decode? json

theorem ofLine?_eq (line : List Char) : ofLine? line = (value? line).bind ofJson? := by
  unfold ofLine? value?
  split <;> rfl

/-- A value says something about the tool itself, or what its compiler message says. -/
theorem ofJson?_cases (json : Json) :
    (IsEnvelope json ∧
        ((∃ success, ofJson? json = some (.buildFinished success)) ∨
          ∃ reason, ofJson? json = some (.other reason))) ∨
      (¬ IsEnvelope json ∧ ofJson? json = (message? json).map ofCompiler) := by
  unfold IsEnvelope message? ofJson?
  cases hreason : reason? json with
  | none =>
      unfold reason? at hreason
      exact .inr ⟨fun ⟨_, hsome, _⟩ => (nomatch hsome), by rw [hreason]⟩
  | some reason =>
      unfold reason? at hreason
      rw [hreason]
      by_cases hcompiler : reason = "compiler-message"
      · rw [hcompiler]
        exact .inr ⟨fun ⟨_, hsome, hne⟩ => hne (Option.some.inj hsome).symm, rfl⟩
      · refine .inl ⟨⟨reason, rfl, hcompiler⟩, ?_⟩
        by_cases hfinished : reason = "build-finished"
        · rw [hfinished]
          exact .inl ⟨_, rfl⟩
        · exact .inr ⟨reason, by simp⟩

end ToolMessage

namespace Build

open Observer (offered structuredReports)

/-- Reports of which nobody sees anything: they offer no diagnostic and pass on no event. -/
def Silent (reports : List Report) : Prop :=
  offered reports = [] ∧ reports.filterMap Report.event? = []

/-- Nothing is seen of a structured line that holds no diagnostic and for which nothing is
shown. -/
theorem silent_structuredReports (line : String) (stream : Job.Stream) :
    Silent (structuredReports line stream) ↔
      Diagnostic.JsonLine.diagnostic? line.toList = none ∧ shown .json line = [] := by
  have hoffered := Observer.offered_structuredReports line stream
  have hpassed : (structuredReports line stream).filterMap Report.event?
      = outputEvents (forwarded .json [(stream, line)]) :=
    (Observer.fresh .json ⟨""⟩ "").emitted_line stream line
  rw [Silent, hoffered, hpassed, OutputMode.lineDiagnostics, Option.toList_eq_nil_iff]
  simp [outputEvents, forwarded]

/-- Nothing is seen of a structured line that holds an envelope or a blank compiler message, and
something is seen of every other line. -/
theorem silent_structuredReports_iff (line : String) (stream : Job.Stream) :
    Silent (structuredReports line stream) ↔
      ∃ json, ToolMessage.value? line.toList = some json ∧
        (ToolMessage.IsEnvelope json ∨
          ∃ message, ToolMessage.message? json = some message ∧ message.IsBlank) := by
  rw [silent_structuredReports, Diagnostic.JsonLine.diagnostic?, shown, ToolMessage.ofLine?_eq]
  cases ToolMessage.value? line.toList with
  | none => simp
  | some json =>
      simp only [Option.bind_some, Option.some.injEq, exists_eq_left']
      rcases ToolMessage.ofJson?_cases json with ⟨henvelope, hsaid⟩ | ⟨hnot, hsaid⟩
      · refine iff_of_true ?_ (.inl henvelope)
        rcases hsaid with ⟨success, hsaid⟩ | ⟨reason, hsaid⟩ <;>
          simp [hsaid, ToolMessage.diagnostic?]
      · rw [hsaid, or_iff_right hnot]
        cases ToolMessage.message? json with
        | none => simp
        | some message =>
            have htext : linesForPeople (message.rendered.getD "") = []
                ↔ message.rendered.getD "" = "" := by
              rw [← stringLines_eq, Text.stringLines, List.map_eq_nil_iff, Text.lines_eq_nil_iff,
                String.toList_eq_nil_iff]
            simp only [Option.map_some, Option.bind_some, Option.some.injEq, exists_eq_left',
              ToolMessage.ofCompiler, ToolMessage.diagnostic?, htext,
              CompilerMessage.diagnostic?_eq_none_iff, CompilerMessage.IsBlank]

/-- The diagnostics that reports offer are handed in. -/
theorem flatMap_offers_call? (directory : Path) (reports : List Report) :
    (reports.filterMap (Report.call? directory)).flatMap Collection.Call.offers
      = (offered reports).map (directory, ·) := by
  induction reports with
  | nil => rfl
  | cons report reports ih =>
      cases report with
      | clear | emit => exact ih
      | publish ds =>
          have hoffered : offered (.publish ds :: reports) = ds ++ offered reports := rfl
          rw [hoffered, List.map_append, ← ih]
          rfl

end Build

namespace BuildManager

open Build
open Build.Observer (structuredReports)

variable {settings : BuildSettings} {env : Environment} {actions : List Action}
  {event : Machine.Event BuildManager Action Output} {run : Run} {stream : Job.Stream}
  {text : String}

/-- When a job tells a structured line, what is made of the line is handed in and told. -/
theorem telling_line (hmode : settings.outputMode = .json)
    (hevent : event ∈ Machine.trace step? (ofSettings settings env) actions)
    (htold : tellingAt event = some (run, [.line stream text])) :
    callsAt event
        = (structuredReports text stream).filterMap (Report.call? run.observer.directory) ∧
      event.told.filterMap Output.event?
        = (structuredReports text stream).filterMap Report.event? := by
  obtain ⟨past, later, hpast⟩ := List.append_of_mem hevent
  obtain ⟨earlier, told, hearlier, -, hstep⟩ := Machine.exists_run_of_append step? hpast
  rcases (Step.of_step? hstep).telling with ⟨hnone, -⟩ | ⟨run', told', job, hsome, hmem, heq⟩
  · exact nomatch hnone.symm.trans htold
  · obtain ⟨rfl, rfl⟩ := Prod.mk.inj (Option.some.inj (hsome.symm.trans htold))
    have hjson : run'.observer.mode = .json :=
      ((chronicle_run hearlier).recounts run' hmem).mode.trans hmode
    have hreports : (run'.observer.observeAll [.line stream text]).2
        = structuredReports text stream := by
      show (run'.observer.line stream text).2 ++ [] = _
      rw [Observer.line_of_json hjson, List.append_nil]
    refine ⟨?_, ?_⟩
    · rw [callsAt, htold, ← hreports]
      rfl
    · have houtputs : event.told = _ := congrArg Prod.snd heq
      rw [houtputs, events_reportAll, hreports]

/-- In a history of a manager that reads structured lines, when a job tells a line, then of this
line no diagnostic is handed in and no event is told exactly when it is an envelope of the tool, or
a compiler message that lies at no place and has no text for people. -/
theorem structured_line_unseen_iff (hmode : settings.outputMode = .json)
    (hevent : event ∈ Machine.trace step? (ofSettings settings env) actions)
    (htold : tellingAt event = some (run, [.line stream text])) :
    (callsAt event).flatMap Collection.Call.offers = [] ∧
        event.told.filterMap Output.event? = [] ↔
      ∃ json, ToolMessage.value? text.toList = some json ∧
        (ToolMessage.IsEnvelope json ∨
          ∃ message, ToolMessage.message? json = some message ∧ message.IsBlank) := by
  obtain ⟨hcalls, hevents⟩ := telling_line hmode hevent htold
  rw [hcalls, hevents, flatMap_offers_call?, List.map_eq_nil_iff]
  exact silent_structuredReports_iff text stream

/-- An action at which a job tells a line is an event of the history that it ends. -/
theorem exists_event_of_telling {action : Action}
    (h : (((ofSettings settings env).run? actions).any fun reply =>
      (reply.1.step? action).isSome &&
        (tellingAt ⟨reply.1, action, reply.1, []⟩).map Prod.snd == some [.line stream text])
      = true) :
    ∃ event ∈ Machine.trace step? (ofSettings settings env) (actions ++ [action]), ∃ run,
      tellingAt event = some (run, [.line stream text]) := by
  obtain ⟨reply, hrun, hreply⟩ := (Option.any_eq_true _ _).1 h
  obtain ⟨hpossible, htelling⟩ := Bool.and_eq_true_iff.1 hreply
  obtain ⟨after, hstep⟩ := Option.isSome_iff_exists.1 hpossible
  obtain ⟨⟨run, told⟩, htold, heq⟩ := Option.map_eq_some_iff.1 (beq_iff_eq.1 htelling)
  refine ⟨⟨reply.1, action, after.1, after.2⟩, ?_, run, ?_⟩
  · rw [Machine.trace_append step? hrun, Machine.trace_cons step? hstep]
    exact List.mem_append_right _ List.mem_cons_self
  · exact htold.trans (congrArg (fun told => some (run, told)) heq)

/-- Structured text of another program. It looks like no compiler message and is passed on. -/
theorem structured_line_seen :
    let text := "\x7b\"level\":\"info\"\x7d"
    ∃ event ∈ Machine.trace step? (ofSettings .standard []) (oneLine (text ++ "\n")), ∃ run,
      tellingAt event = some (run, [.line .out text]) ∧
        ¬ ((callsAt event).flatMap Collection.Call.offers = [] ∧
          event.told.filterMap Output.event? = []) := by
  intro text
  obtain ⟨event, hevent, run, htold⟩ :=
    @exists_event_of_telling .standard [] (oneLine (text ++ "\n")).dropLast .out text
      (.job 1 .dispatch) (by decide +kernel)
  refine ⟨event, hevent, run, htold, fun hsilent => ?_⟩
  obtain ⟨json, hjson, hunseen⟩ := (structured_line_unseen_iff rfl hevent htold).1 hsilent
  have hvalue : (ToolMessage.value? text.toList).map (fun json =>
      (ToolMessage.reason? json, (ToolMessage.message? json).isSome)) = some (none, false) := by
    decide +kernel
  rw [hjson, Option.map_some, Option.some.injEq, Prod.mk.injEq] at hvalue
  rcases hunseen with ⟨reason, hreason, -⟩ | ⟨message, hmessage, -⟩
  · exact nomatch hvalue.1.symm.trans hreason
  · rw [hmessage] at hvalue
    exact nomatch hvalue.2

/-- Structured text of another program that counts as a blank compiler message. -/
theorem structured_line_lost :
    ¬ ∀ (settings : BuildSettings) (actions : List Action)
      (event : Machine.Event BuildManager Action Output) (run : Run) (stream : Job.Stream)
      (text : String), settings.outputMode = .json →
      event ∈ Machine.trace step? (ofSettings settings []) actions →
      tellingAt event = some (run, [.line stream text]) →
      (∃ json, ToolMessage.value? text.toList = some json ∧ ToolMessage.IsEnvelope json) ∨
        (callsAt event).flatMap Collection.Call.offers ≠ [] ∨
        event.told.filterMap Output.event? ≠ [] := by
  intro h
  let text := "\x7b\"message\":\"listening\",\"level\":\"info\"\x7d"
  obtain ⟨event, hevent, run, htold⟩ :=
    @exists_event_of_telling .standard [] (oneLine (text ++ "\n")).dropLast .out text
      (.job 1 .dispatch) (by decide +kernel)
  have hvalue : (ToolMessage.value? text.toList).map (fun json => (ToolMessage.reason? json,
      (ToolMessage.message? json).map fun message => (message.spans.length, message.rendered)))
      = some (none, some (0, none)) := by
    decide +kernel
  obtain ⟨json, hjson, hparts⟩ := Option.map_eq_some_iff.1 hvalue
  obtain ⟨hreason, hparts⟩ := Prod.mk.inj hparts
  obtain ⟨message, hmessage, hparts⟩ := Option.map_eq_some_iff.1 hparts
  obtain ⟨hspans, hrendered⟩ := Prod.mk.inj hparts
  have hblank : message.IsBlank := by
    rw [CompilerMessage.IsBlank, List.eq_nil_of_length_eq_zero hspans, hrendered]
    exact ⟨List.forall_mem_nil _, rfl⟩
  obtain ⟨hoffered, hpassed⟩ := (silent_structuredReports_iff text .out).2
    ⟨json, hjson, .inr ⟨message, hmessage, hblank⟩⟩
  obtain ⟨hcalls, hevents⟩ := telling_line rfl hevent htold
  rcases h .standard _ event run .out text rfl hevent htold with
    ⟨other, hother, reason, hsome, -⟩ | hseen | hseen
  · obtain rfl := Option.some.inj (hjson.symm.trans hother)
    exact nomatch hreason.symm.trans hsome
  · rw [hcalls, flatMap_offers_call?, hoffered] at hseen
    exact hseen rfl
  · rw [hevents, hpassed] at hseen
    exact hseen rfl

end BuildManager

end Toolbench
