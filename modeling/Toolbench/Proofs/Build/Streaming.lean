import Mathlib.Data.List.Basic
import Toolbench.Build.Manager
import Toolbench.Proofs.Diagnostic.Collection
import Toolbench.Proofs.Diagnostic.Segments
import Toolbench.Proofs.Job.Outputs

/-!
# Reading outputs while they are written

An observer is told lines of two outputs in any order, and offers diagnostics as it goes. What it
offers from one output is what reading the whole text of that output gives, in every mode, and the
other output has no part in it. `Observer.Tidy.offered_line` is the step: what a line makes an
observer offer, and what its pending lines will give with those to come, is what the pending lines
would have given with this line behind them.
-/

namespace Toolbench.Build

open Job (Stream Callback Outcome)

/-! ## Texts of lines -/

/-- The text of lines without line feeds has one line for each. -/
theorem toList_textOf (lines : List String) :
    (Observer.textOf lines).toList = Text.unlines (lines.map String.toList) := by
  simp [Observer.textOf]

/-- Lines without line feeds. -/
def Unfed (lines : List String) : Prop :=
  ∀ line ∈ lines, '\n' ∉ line.toList

theorem Unfed.map_toList {lines : List String} (h : Unfed lines) :
    ∀ line ∈ lines.map String.toList, '\n' ∉ line := by
  intro line hline
  obtain ⟨text, htext, rfl⟩ := List.mem_map.1 hline
  exact h text htext

/-- The lines of one output among lines without line feeds. -/
theorem unfed_onStream (stream : Stream) {lines : List (Stream × String)}
    (h : ∀ line ∈ lines, '\n' ∉ line.2.toList) : Unfed (onStream stream lines) := by
  intro text htext
  obtain ⟨line, hline, hsome⟩ := List.mem_filterMap.1 htext
  obtain ⟨-, heq⟩ := Option.ite_none_right_eq_some.1 hsome
  cases heq
  exact h line hline

open Observer (textOf offered)

/-- No text holds no diagnostics. -/
theorem outputDiagnostics_textOf_nil (mode : OutputMode) :
    mode.outputDiagnostics (textOf []) = [] := by
  cases mode <;> rfl

/-- Where every diagnostic stands in one line, a text may be read line by line. -/
theorem outputDiagnostics_textOf {mode : OutputMode} (hmode : mode ≠ .human)
    {lines : List String} (hlines : Unfed lines) :
    mode.outputDiagnostics (textOf lines) = lines.flatMap mode.lineDiagnostics := by
  -- Cutting the text into lines drops a carriage return at the end of each, and so does the
  -- reader of a line.
  have hread := Text.lines_unlines hlines.map_toList
  cases mode with
  | human => exact absurd rfl hmode
  | legacy =>
      simp only [OutputMode.outputDiagnostics, Diagnostic.LegacyLine.diagnostics, toList_textOf,
        hread, List.filterMap_eq_flatMap_toList, List.flatMap_map]
      refine List.flatMap_congr fun line _ => ?_
      simp only [Diagnostic.LegacyLine.diagnostic?_dropFinal,
        OutputMode.lineDiagnostics]
  | json =>
      simp only [OutputMode.outputDiagnostics, Diagnostic.JsonLine.diagnostics, toList_textOf,
        hread, List.filterMap_eq_flatMap_toList, List.flatMap_map]
      refine List.flatMap_congr fun line _ => ?_
      simp only [Diagnostic.JsonLine.diagnostic?_dropFinal,
        OutputMode.lineDiagnostics]

/-- Where diagnostics are blocks, a text may be read between blank lines. -/
theorem outputDiagnostics_textOf_blank {before after : List String} {blank : String}
    (hbefore : Unfed before) (hafter : Unfed after) (hfeed : '\n' ∉ blank.toList)
    (hblank : Text.isBlank blank.toList = true) :
    OutputMode.human.outputDiagnostics (textOf (before ++ blank :: after))
      = OutputMode.human.outputDiagnostics (textOf before)
        ++ OutputMode.human.outputDiagnostics (textOf after) := by
  simp only [OutputMode.outputDiagnostics, toList_textOf, List.map_append, List.map_cons]
  exact Diagnostic.HumanBlock.diagnostics_unlines_append hbefore.map_toList hafter.map_toList
    hfeed hblank

namespace Observer

/-! ## What an observer offers -/

/-- The diagnostics offered because of one thing that the job tells, each with the output that it
was read from. -/
def offersOf (observer : Observer) : Callback → List (Stream × Diagnostic)
  | .started => []
  | .line stream text => (offered (observer.line stream text).2).map (stream, ·)
  | .exited _ =>
      (offered (observer.flush .out).2).map (.out, ·)
        ++ (offered ((observer.flush .out).1.flush .err).2).map (.err, ·)

/-- The diagnostics offered because of all that the job tells, each with the output that it was
read from. -/
def offers : Observer → List Callback → List (Stream × Diagnostic)
  | _, [] => []
  | observer, callback :: callbacks =>
      observer.offersOf callback ++ (observer.observe callback).1.offers callbacks

/-- What the job tells when it ends after some lines. -/
def toldLines (lines : List (Stream × String)) (outcome : Outcome) : List Callback :=
  lines.map (fun line => .line line.1 line.2) ++ [.exited outcome]

variable {observer : Observer}

@[simp] theorem offered_append (reports more : List Report) :
    offered (reports ++ more) = offered reports ++ offered more := by
  simp [offered]

/-- The reports on what a job tells come one after the other. -/
theorem observeAll_cons (observer : Observer) (callback : Callback) (callbacks : List Callback) :
    (observer.observeAll (callback :: callbacks)).2
      = (observer.observe callback).2 ++ ((observer.observe callback).1.observeAll callbacks).2 :=
  rfl

/-- The diagnostics with their outputs are those that the reports offer. -/
theorem map_offers (observer : Observer) (callbacks : List Callback) :
    (observer.offers callbacks).map Prod.snd = offered (observer.observeAll callbacks).2 := by
  induction callbacks generalizing observer with
  | nil => rfl
  | cons callback callbacks ih =>
      have hfirst : (observer.offersOf callback).map Prod.snd
          = offered (observer.observe callback).2 := by
        cases callback with
        | started => rfl
        | line => simp [offersOf, observe, Function.comp_def]
        | exited => simp [offersOf, observe, Function.comp_def]
      rw [offers, List.map_append, observeAll_cons, offered_append, hfirst, ih]

@[simp] theorem setPending_mode (observer : Observer) (stream : Stream) (lines : List String) :
    (observer.setPending stream lines).mode = observer.mode := by
  cases stream <;> rfl

@[simp] theorem pending_setPending (observer : Observer) (stream other : Stream)
    (lines : List String) :
    (observer.setPending stream lines).pending other
      = if stream = other then lines else observer.pending other := by
  cases stream <;> cases other <;> rfl

/-- A flush offers what the pending lines hold. -/
theorem offered_flush (observer : Observer) (stream : Stream) :
    offered (observer.flush stream).2
      = observer.mode.outputDiagnostics (textOf (observer.pending stream)) := by
  unfold flush
  split
  · rename_i hpending
    rw [hpending, outputDiagnostics_textOf_nil]
    rfl
  · simp [offered]

/-- After a flush nothing of the output is pending. -/
theorem pending_flush (observer : Observer) (stream other : Stream) :
    (observer.flush stream).1.pending other
      = if stream = other then [] else observer.pending other := by
  unfold flush
  split
  · rename_i hpending
    split
    · rename_i hsame
      rw [← hsame, hpending]
    · rfl
  · rw [pending_setPending]

@[simp] theorem flush_mode (observer : Observer) (stream : Stream) :
    (observer.flush stream).1.mode = observer.mode := by
  unfold flush
  split
  · rfl
  · exact setPending_mode observer stream []

/-- A structured line offers the diagnostic that it holds. -/
theorem offered_structuredReports (line : String) (stream : Stream) :
    offered (structuredReports line stream) = OutputMode.json.lineDiagnostics line := by
  unfold structuredReports OutputMode.lineDiagnostics Diagnostic.JsonLine.diagnostic?
  cases ToolMessage.ofLine? line.toList with
  | none => rfl
  | some message =>
      cases message with
      | compiler diagnostic rendered =>
          simp [offered, ToolMessage.diagnostic?, List.flatMap_map]
      | buildFinished | other => rfl

/-! ## One line more -/

/-- Pending lines have no line feeds, and there are none where every diagnostic stands in one
line. -/
structure Tidy (observer : Observer) : Prop where
  unfed : ∀ stream, Unfed (observer.pending stream)
  none_pending : observer.mode ≠ .human → ∀ stream, observer.pending stream = []

/-- Nothing is pending before the job begins. -/
@[simp] theorem pending_fresh (mode : OutputMode) (directory : Path) (commandLine : String)
    (stream : Stream) : (fresh mode directory commandLine).pending stream = [] := by
  cases stream <;> rfl

/-- An observer is tidy before the job begins. -/
theorem tidy_fresh (mode : OutputMode) (directory : Path) (commandLine : String) :
    (fresh mode directory commandLine).Tidy where
  unfed stream := by
    rw [pending_fresh]
    exact fun line hline => absurd hline List.not_mem_nil
  none_pending _ stream := pending_fresh mode directory commandLine stream

/-- A line of records. -/
theorem line_of_json (h : observer.mode = .json) (stream : Stream) (text : String) :
    observer.line stream text = (observer, structuredReports text stream) := by
  simp only [line, h]

/-- A line that may be a diagnostic. -/
theorem line_of_legacy (h : observer.mode = .legacy) (stream : Stream) (text : String) :
    observer.line stream text
      = (observer,
        [.emit (.output text stream), .publish (OutputMode.legacy.lineDiagnostics text)]) := by
  simp only [line, h]

/-- A blank line between blocks. -/
theorem line_of_blank (h : observer.mode = .human) (stream : Stream) {text : String}
    (hblank : Text.isBlank text.toList = true) :
    observer.line stream text
      = ((observer.flush stream).1, .emit (.output text stream) :: (observer.flush stream).2) := by
  simp only [line, h, hblank, if_true]

/-- A line that may belong to a block. -/
theorem line_of_not_blank (h : observer.mode = .human) (stream : Stream) {text : String}
    (hblank : Text.isBlank text.toList = false) :
    observer.line stream text
      = (observer.setPending stream (observer.pending stream ++ [text]),
        [.emit (.output text stream)]) := by
  simp [line, h, hblank]

@[simp] theorem line_mode (observer : Observer) (stream : Stream) (text : String) :
    (observer.line stream text).1.mode = observer.mode := by
  cases hmode : observer.mode with
  | json => rw [line_of_json hmode, hmode]
  | legacy => rw [line_of_legacy hmode, hmode]
  | human =>
      cases hblank : Text.isBlank text.toList with
      | true => rw [line_of_blank hmode stream hblank, flush_mode, hmode]
      | false => rw [line_of_not_blank hmode stream hblank, setPending_mode, hmode]

/-- What is pending after a line: a line of one output leaves the other one alone. -/
theorem pending_line (observer : Observer) (stream other : Stream) (text : String) :
    (observer.line stream text).1.pending other = observer.pending other ∨
      stream = other ∧ ((observer.line stream text).1.pending other = [] ∨
        observer.mode = .human ∧
          (observer.line stream text).1.pending other = observer.pending other ++ [text]) := by
  cases hmode : observer.mode with
  | json => exact .inl (by rw [line_of_json hmode])
  | legacy => exact .inl (by rw [line_of_legacy hmode])
  | human =>
      cases hblank : Text.isBlank text.toList with
      | true =>
          rw [line_of_blank hmode stream hblank, pending_flush]
          split
          · rename_i hsame
            exact .inr ⟨hsame, .inl rfl⟩
          · exact .inl rfl
      | false =>
          rw [line_of_not_blank hmode stream hblank, pending_setPending]
          split
          · rename_i hsame
            exact .inr ⟨hsame, .inr ⟨rfl, by rw [hsame]⟩⟩
          · exact .inl rfl

namespace Tidy

/-- A line without a line feed keeps an observer tidy. -/
theorem line (h : observer.Tidy) (stream : Stream) {text : String} (htext : '\n' ∉ text.toList) :
    (observer.line stream text).1.Tidy where
  unfed other := by
    rcases observer.pending_line stream other text with hkept | ⟨-, hnone | ⟨-, hmore⟩⟩
    · rw [hkept]
      exact h.unfed other
    · rw [hnone]
      exact fun line hline => absurd hline List.not_mem_nil
    · rw [hmore]
      intro line hline
      rcases List.mem_append.1 hline with hold | hnew
      · exact h.unfed other line hold
      · rw [List.mem_singleton.1 hnew]
        exact htext
  none_pending hmode other := by
    rw [line_mode] at hmode
    rcases observer.pending_line stream other text with hkept | ⟨-, hnone | ⟨hhuman, -⟩⟩
    · exact hkept.trans (h.none_pending hmode other)
    · exact hnone
    · exact absurd hhuman hmode

/-- What a line makes an observer offer, and what its pending lines will give with those to come,
is what the pending lines would have given with this line behind them. -/
theorem offered_line (h : observer.Tidy) (stream : Stream) {text : String} {rest : List String}
    (htext : '\n' ∉ text.toList) (hrest : Unfed rest) :
    offered (observer.line stream text).2
        ++ observer.mode.outputDiagnostics
          (textOf ((observer.line stream text).1.pending stream ++ rest))
      = observer.mode.outputDiagnostics (textOf (observer.pending stream ++ text :: rest)) := by
  have hall : Unfed (text :: rest) := List.forall_mem_cons.2 ⟨htext, hrest⟩
  by_cases hhuman : observer.mode = .human
  · cases hblank : Text.isBlank text.toList with
    | true =>
        rw [line_of_blank hhuman stream hblank, pending_flush, if_pos rfl, List.nil_append]
        show offered (observer.flush stream).2 ++ _ = _
        rw [offered_flush, hhuman, outputDiagnostics_textOf_blank (h.unfed stream) hrest htext
          hblank]
    | false =>
        rw [line_of_not_blank hhuman stream hblank, pending_setPending, if_pos rfl,
          List.append_assoc]
        rfl
  · have hlines : offered (observer.line stream text).2 = observer.mode.lineDiagnostics text := by
      cases hmode : observer.mode with
      | human => exact absurd hmode hhuman
      | json => rw [line_of_json hmode, offered_structuredReports]
      | legacy =>
          rw [line_of_legacy hmode]
          simp [offered]
    rw [hlines, (h.line stream htext).none_pending (by rwa [line_mode]),
      h.none_pending hhuman, List.nil_append, List.nil_append,
      outputDiagnostics_textOf hhuman hrest, outputDiagnostics_textOf hhuman hall,
      List.flatMap_cons]

/-- What an observer offers from one output is what the text of that output holds. -/
theorem onStream_offers (h : observer.Tidy) (stream : Stream) {lines : List (Stream × String)}
    (hlines : ∀ line ∈ lines, '\n' ∉ line.2.toList) (outcome : Outcome) :
    onStream stream (observer.offers (toldLines lines outcome))
      = observer.mode.outputDiagnostics
          (textOf (observer.pending stream ++ onStream stream lines)) := by
  induction lines generalizing observer with
  | nil =>
      show onStream stream (observer.offersOf (.exited outcome) ++ []) = _
      rw [List.append_nil, offersOf, onStream_append, onStream_map, onStream_map, offered_flush,
        offered_flush, flush_mode, pending_flush, onStream_nil, List.append_nil]
      cases stream with
      | out => exact List.append_nil _
      | err => rfl
  | cons line lines ih =>
      obtain ⟨source, text⟩ := line
      obtain ⟨htext, hrest⟩ := List.forall_mem_cons.1 hlines
      show onStream stream (observer.offersOf (.line source text)
        ++ (observer.line source text).1.offers (toldLines lines outcome)) = _
      rw [onStream_append, offersOf, onStream_map, ih (h.line source htext) hrest, line_mode,
        onStream_cons]
      -- A line of the other output is neither offered here nor pending here.
      by_cases hsame : source = stream
      · subst hsame
        rw [if_pos rfl, if_pos rfl]
        exact h.offered_line source htext (unfed_onStream source hrest)
      · rw [if_neg hsame, if_neg hsame, List.nil_append]
        rcases observer.pending_line source stream text with hkept | ⟨heq, -⟩
        · rw [hkept]
        · exact absurd heq hsame

end Tidy

/-- From the start of a job on, an observer offers from one output what its text holds. -/
theorem onStream_offers_started (mode : OutputMode) (directory : Path) (commandLine : String)
    (stream : Stream) {lines : List (Stream × String)}
    (hlines : ∀ line ∈ lines, '\n' ∉ line.2.toList) (outcome : Outcome) :
    onStream stream
        ((fresh mode directory commandLine).offers (.started :: toldLines lines outcome))
      = mode.outputDiagnostics (textOf (onStream stream lines)) := by
  show onStream stream ([] ++ (fresh mode directory commandLine).offers _) = _
  rw [List.nil_append,
    (tidy_fresh mode directory commandLine).onStream_offers stream hlines outcome, pending_fresh,
    List.nil_append]
  rfl

/-! ## What the collection holds after the run -/

/-- A flush clears nothing. -/
theorem clear_not_mem_flush (observer : Observer) (stream : Stream) :
    Report.clear ∉ (observer.flush stream).2 := by
  unfold flush
  split <;> simp

/-- A line clears nothing. -/
theorem clear_not_mem_line (observer : Observer) (stream : Stream) (text : String) :
    Report.clear ∉ (observer.line stream text).2 := by
  cases hmode : observer.mode with
  | json =>
      rw [line_of_json hmode]
      unfold structuredReports
      split <;> simp
  | legacy => simp [line_of_legacy hmode]
  | human =>
      cases hblank : Text.isBlank text.toList with
      | true => simp [line_of_blank hmode stream hblank, clear_not_mem_flush]
      | false => simp [line_of_not_blank hmode stream hblank]

/-- Only the start of a job clears the diagnostics. -/
theorem clear_not_mem_observeAll (observer : Observer) (lines : List (Stream × String))
    (outcome : Outcome) : Report.clear ∉ (observer.observeAll (toldLines lines outcome)).2 := by
  induction lines generalizing observer with
  | nil =>
      show Report.clear ∉ (observer.flush .out).2 ++ ((observer.flush .out).1.flush .err).2 ++ []
      simp [clear_not_mem_flush]
  | cons line lines ih =>
      show Report.clear ∉ (observer.line line.1 line.2).2
        ++ ((observer.line line.1 line.2).1.observeAll (toldLines lines outcome)).2
      simp [clear_not_mem_line, ih]

end Observer

end Toolbench.Build

namespace Toolbench.BuildManager

open Build
open Build.Observer (toldLines textOf offered)

/-- Reports that clear nothing add the identities of the diagnostics that they offer to the
collection, and no others. -/
theorem holds_reportAll {reports : List Report} (hclear : Report.clear ∉ reports)
    (manager : BuildManager) (hfiled : manager.collection.Filed) (directory path : Path)
    (range : TextRange) (message : String) :
    (manager.reportAll directory reports).1.collection.Holds path range message ↔
      manager.collection.Holds path range message ∨
        ∃ d ∈ offered reports, (d.resolvedIn directory).path.same path = true ∧
          d.range = range ∧ d.message = message := by
  induction reports generalizing manager with
  | nil => simp [reportAll, offered]
  | cons report reports ih =>
      obtain ⟨hfirst, hrest⟩ := not_or.1 (fun h => hclear (List.mem_cons.2 h))
      cases report with
      | clear => exact absurd rfl hfirst
      | emit event => exact ih hrest manager hfiled
      | publish diagnostics =>
          obtain ⟨hkept, hholds⟩ :=
            Collection.publishAll_spec hfiled directory diagnostics
          show (reportAll directory { manager with
            collection := (manager.collection.publishAll directory diagnostics).1 }
              reports).1.collection.Holds path range message ↔ _
          rw [ih hrest _ hkept, hholds, or_assoc]
          simp only [offered, List.flatMap_cons, List.mem_append, or_and_right, exists_or]

/-- What the collection holds after a whole run of an observer: the identities of what the texts
of the two outputs hold. -/
theorem holds_observer_run (manager : BuildManager) (mode : OutputMode) (directory : Path)
    (commandLine : String) {lines : List (Job.Stream × String)}
    (hlines : ∀ line ∈ lines, '\n' ∉ line.2.toList) (outcome : Job.Outcome) (path : Path)
    (range : TextRange) (message : String) :
    (manager.reportAll directory ((Observer.fresh mode directory commandLine).observeAll
        (.started :: toldLines lines outcome)).2).1.collection.Holds path range message ↔
      ∃ stream, ∃ d ∈ mode.outputDiagnostics (textOf (onStream stream lines)),
        (d.resolvedIn directory).path.same path = true ∧ d.range = range ∧
          d.message = message := by
  have hclear := (Observer.fresh mode directory commandLine).clear_not_mem_observeAll lines outcome
  have hoffered : offered ((Observer.fresh mode directory commandLine).observeAll
      (toldLines lines outcome)).2 = ((Observer.fresh mode directory commandLine).offers
        (.started :: toldLines lines outcome)).map Prod.snd :=
    (Observer.map_offers _ _).symm
  -- The start clears the collection, so what it held before has no part in it.
  show (reportAll directory { manager with collection := .empty }
    ((Observer.fresh mode directory commandLine).observeAll
      (toldLines lines outcome)).2).1.collection.Holds path range message ↔ _
  rw [holds_reportAll hclear _ Collection.filed_empty,
    or_iff_right (Collection.not_holds_empty path range message), hoffered]
  simp only [mem_map_snd_iff, Observer.onStream_offers_started mode directory commandLine _ hlines]
  constructor
  · rintro ⟨d, ⟨stream, hd⟩, hsame⟩
    exact ⟨stream, d, hd, hsame⟩
  · rintro ⟨stream, d, hd, hsame⟩
    exact ⟨d, ⟨stream, hd⟩, hsame⟩

/-- An observer that reads two outputs line by line, in whatever order their lines come, offers
from each output what reading its whole text gives, in order: nothing is lost, repeated, split or
changed. So the files, ranges and messages that the collection holds after the run are those of
the two texts, and the same for all orders of the lines. -/
theorem streaming_agrees_with_batch (mode : OutputMode) (directory : Path) (commandLine : String)
    {lines : List (Job.Stream × String)} (hlines : ∀ line ∈ lines, '\n' ∉ line.2.toList)
    (outcome : Job.Outcome) :
    let observer := Observer.fresh mode directory commandLine
    let told : List Job.Callback := .started :: toldLines lines outcome
    (observer.offers told).map Prod.snd = offered (observer.observeAll told).2 ∧
    (∀ stream, onStream stream (observer.offers told)
      = mode.outputDiagnostics (textOf (onStream stream lines))) ∧
    (∀ (manager : BuildManager) path range message,
      (manager.reportAll directory
          (observer.observeAll told).2).1.collection.Holds path range message ↔
        ∃ stream, ∃ d ∈ mode.outputDiagnostics (textOf (onStream stream lines)),
          (d.resolvedIn directory).path.same path = true ∧ d.range = range ∧
            d.message = message) ∧
    ∀ (other : List (Job.Stream × String)) (otherOutcome : Job.Outcome),
      (∀ stream, onStream stream other = onStream stream lines) →
      ∀ (manager otherManager : BuildManager) path range message,
        (manager.reportAll directory
            (observer.observeAll told).2).1.collection.Holds path range message ↔
          (otherManager.reportAll directory (observer.observeAll
            (.started :: toldLines other otherOutcome)).2).1.collection.Holds
              path range message := by
  intro observer told
  refine ⟨Observer.map_offers observer told,
    fun stream => Observer.onStream_offers_started mode directory commandLine stream hlines outcome,
    fun manager path range message => holds_observer_run manager mode directory commandLine hlines
      outcome path range message, ?_⟩
  intro other otherOutcome hsame manager otherManager path range message
  -- Every line of the other order is on one of the outputs, where it was before.
  have hother : ∀ line ∈ other, '\n' ∉ line.2.toList := by
    intro line hline
    have hmem : line.2 ∈ onStream line.1 other :=
      List.mem_filterMap.2 ⟨line, hline, if_pos rfl⟩
    rw [hsame] at hmem
    exact unfed_onStream line.1 hlines line.2 hmem
  rw [holds_observer_run manager mode directory commandLine hlines,
    holds_observer_run otherManager mode directory commandLine hother]
  simp only [hsame]

/-- A block on one output with lines of the other one between its own, a blank one among them. -/
theorem streaming_agrees_with_batch_interleaved :
    let lines : List (Job.Stream × String) :=
      [(.err, "error: mismatch"), (.out, "warning: x"), (.err, " --> s.rs:3:5"), (.out, ""),
        (.err, "  | ^^"), (.out, " --> s.rs:1:1"), (.err, " \t"), (.err, "  = note: y")]
    let offers := (Observer.fresh .human ⟨"/w"⟩ "cargo").offers
      (.started :: toldLines lines .interrupted)
    (∀ line ∈ lines, '\n' ∉ line.2.toList) ∧ onStream .out offers = [] ∧
      onStream .err offers = [⟨⟨"s.rs"⟩, ⟨3, 5, 3, 7⟩, .error, "mismatch", none⟩] := by
  intro lines offers
  have hlines : ∀ line ∈ lines, '\n' ∉ line.2.toList := by decide +kernel
  obtain ⟨-, hoffers, -⟩ :=
    streaming_agrees_with_batch .human ⟨"/w"⟩ "cargo" hlines .interrupted
  refine ⟨hlines, (hoffers .out).trans ?_, (hoffers .err).trans ?_⟩
  · decide +kernel
  · decide +kernel

end Toolbench.BuildManager
