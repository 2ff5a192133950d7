import Toolbench.Proofs.Diagnostic.BlockLines

/-!
# How far a block reaches

The end column of a block comes from the runs of markers in its unnumbered gutter lines. Of each
line only the run that leads it is looked at: `end_column_of_leading_runs` says that the first
leading run of `^` counts, or the first leading run where there is none, and when that is the first
run of `^` in the block. `caret_run_overlooked` is a block where it is not.
-/

namespace Toolbench.Diagnostic.HumanBlock

open Text (isWhite)
open Text.Decimal (Denotes)

/-! ## Runs of markers -/

/-- A run of one marker character. -/
structure Run where
  marker : Char
  width : Nat
deriving DecidableEq, Repr

/-- The run is made of the marker of primary places. -/
def Run.isCaret (run : Run) : Bool :=
  run.marker == '^'

/-- The text has these runs of markers. White space may stand before each of them, and what follows
the last one is free of markers. -/
inductive Marked : List Char → List Run → Prop where
  | label {text : List Char} (hfree : text.any isMarker = false) : Marked text []
  | run (blanks rest : List Char) (run : Run) {runs : List Run}
      (hblanks : Text.isBlank blanks = true) (hmarker : isMarker run.marker = true)
      (hwidth : 0 < run.width) (hend : rest.head? ≠ some run.marker) (hrest : Marked rest runs) :
      Marked (blanks ++ List.replicate run.width run.marker ++ rest) (run :: runs)

/-- The width that counts among runs: that of the first run of `^`, or else of the first run. -/
def countedWidth (runs : List Run) : Nat :=
  ((runs.find? Run.isCaret).or runs.head?).elim 0 Run.width

/-- The run that leads a line with these runs, if its width is a word. -/
def leadingRun? (runs : List Run) : Option Run :=
  runs.head?.filter (·.width < UInt32.size)

/-- The runs that lead their lines. -/
def leading (lines : List (List Run)) : List Run :=
  lines.filterMap leadingRun?

/-- The run that was read as an underline. -/
def Underline.run (underline : Underline) : Run :=
  ⟨underline.marker, underline.width.toNat⟩

/-! ## The lines of a body -/

/-- The lines of the block whose body begins with these pieces. -/
def bodyLines (pieces : List (List Char)) : List (List Char) :=
  (pieces.map (Text.dropFinal '\r')).takeWhile (BodyLine.ofLine · ≠ .stop)

/-- The texts of the unnumbered gutter lines of a body. -/
def margins (pieces : List (List Char)) : List (List Char) :=
  (bodyLines pieces).filterMap margin?

/-- A body is made of its lines, one after the other. -/
theorem extend_eq_foldl (body : Body) (pieces : List (List Char)) :
    body.extend pieces
      = (bodyLines pieces).foldl (fun body line => body.add (BodyLine.ofLine line)) body := by
  induction pieces generalizing body with
  | nil => rfl
  | cons piece pieces ih =>
      rw [Body.extend, bodyLines, List.map_cons]
      cases hline : BodyLine.ofLine (Text.dropFinal '\r' piece) with
      | stop => simp [hline]
      | note | margin | context =>
          rw [List.takeWhile_cons_of_pos (by simp [hline]), List.foldl_cons, hline]
          exact ih _

/-- The underline that leads the text of a line, if it is an unnumbered gutter line. -/
def underline? (line : List Char) : Option Underline :=
  (margin? line).bind Underline.read?

/-- A line with an underline marks the body with it. -/
theorem add_of_underline? {line : List Char} {underline : Underline}
    (h : underline? line = some underline) (body : Body) :
    body.add (BodyLine.ofLine line) = body.mark underline := by
  obtain ⟨content, hmargin, hread⟩ := Option.bind_eq_some_iff.1 h
  rw [ofLine_of_margin? hmargin, hread, Body.add]

/-- A line without one leaves the marks of the body as they are. -/
theorem add_of_underline?_eq_none {line : List Char} (h : underline? line = none) (body : Body) :
    (body.add (BodyLine.ofLine line)).primary = body.primary ∧
      (body.add (BodyLine.ofLine line)).secondary = body.secondary := by
  cases hline : BodyLine.ofLine line with
  | note | context | stop => exact ⟨rfl, rfl⟩
  | margin found =>
      obtain ⟨content, hmargin, rfl⟩ := margin?_of_ofLine hline
      rw [underline?, hmargin, Option.bind_some] at h
      rw [h]
      exact ⟨rfl, rfl⟩

/-- The primary width of a body is that of the first underline of `^`. -/
theorem primary_foldl (body : Body) (lines : List (List Char)) :
    (lines.foldl (fun body line => body.add (BodyLine.ofLine line)) body).primary
      = body.primary.or (((lines.filterMap underline?).find? (·.run.isCaret)).map (·.width)) := by
  induction lines generalizing body with
  | nil => simp
  | cons line lines ih =>
      rw [List.foldl_cons, ih]
      cases hline : underline? line with
      | none =>
          rw [(add_of_underline?_eq_none hline body).1, List.filterMap_cons_none hline]
      | some underline =>
          rw [add_of_underline? hline, List.filterMap_cons_some hline, Body.mark]
          by_cases hcaret : underline.marker = '^'
          · cases hprimary : body.primary with
            | none => simp [hcaret, Underline.run, Run.isCaret]
            | some width => simp
          · simp [hcaret, Underline.run, Run.isCaret]

/-- Where no underline is one of `^`, the secondary width is that of the first underline. -/
theorem secondary_foldl (body : Body) (lines : List (List Char))
    (h : ∀ underline ∈ lines.filterMap underline?, underline.run.isCaret = false) :
    (lines.foldl (fun body line => body.add (BodyLine.ofLine line)) body).secondary
      = body.secondary.or ((lines.filterMap underline?).head?.map (·.width)) := by
  induction lines generalizing body with
  | nil => simp
  | cons line lines ih =>
      rw [List.foldl_cons]
      cases hline : underline? line with
      | none =>
          rw [List.filterMap_cons_none hline] at h ⊢
          rw [ih _ h, (add_of_underline?_eq_none hline body).2]
      | some underline =>
          rw [List.filterMap_cons_some hline] at h ⊢
          obtain ⟨hfirst, hothers⟩ := List.forall_mem_cons.1 h
          have hcaret : underline.marker ≠ '^' := by
            simpa [Underline.run, Run.isCaret] using hfirst
          rw [ih _ hothers, add_of_underline? hline, Body.mark, if_neg fun hboth => hcaret hboth.1]
          cases hsecondary : body.secondary <;> simp

/-- The underlines of the body that begins with these pieces. -/
def underlines (pieces : List (List Char)) : List Underline :=
  (bodyLines pieces).filterMap underline?

/-- A body is as wide as the width that counts among its underlines. -/
theorem width?_extend (pieces : List (List Char)) :
    (Body.empty.extend pieces).width?.elim 0 UInt32.toNat
      = countedWidth ((underlines pieces).map Underline.run) := by
  have hprimary : (Body.empty.extend pieces).primary
      = ((underlines pieces).find? (·.run.isCaret)).map (·.width) := by
    rw [extend_eq_foldl, primary_foldl]
    rfl
  rw [countedWidth, List.find?_map, List.head?_map, Body.width?, hprimary]
  show _ = Option.elim (Option.or (((underlines pieces).find? (·.run.isCaret)).map _) _) 0 Run.width
  cases hfind : (underlines pieces).find? (·.run.isCaret) with
  | some underline => rfl
  | none =>
      have hsecondary : (Body.empty.extend pieces).secondary
          = (underlines pieces).head?.map (·.width) := by
        rw [extend_eq_foldl, secondary_foldl]
        · rfl
        · intro underline hmem
          simpa using List.find?_eq_none.1 hfind underline hmem
      rw [hsecondary]
      cases (underlines pieces).head? <;> rfl

/-! ## The runs that lead their lines -/

/-- A text with runs of markers is read as the first of them, if its width is a word. -/
theorem Marked.read? {text : List Char} {runs : List Run} (h : Marked text runs) :
    (Underline.read? text).map Underline.run = leadingRun? runs := by
  cases h with
  | label hfree =>
      rw [underline_read?_eq_none hfree]
      rfl
  | @run blanks rest run runs hblanks hmarker hwidth hend hrest =>
      rw [underline_read?_append hblanks hmarker hwidth hend, leadingRun?, List.head?_cons,
        Option.map_map]
      by_cases hword : run.width < UInt32.size
      · obtain ⟨marker, width⟩ := run
        obtain ⟨w, rfl⟩ : ∃ w : UInt32, width = w.toNat :=
          ⟨UInt32.ofNat width, (UInt32.toNat_ofNat_of_lt' hword).symm⟩
        rw [Text.Word.ofNat?_toNat, Option.filter_some, if_pos (decide_eq_true hword)]
        rfl
      · rw [Text.Word.ofNat?, if_neg hword, Option.filter_some, if_neg (by simpa using hword)]
        rfl

/-- What is read of texts with runs of markers are the runs that lead them. -/
theorem map_run_read? {texts : List (List Char)} {lines : List (List Run)}
    (h : List.Forall₂ Marked texts lines) :
    (texts.filterMap Underline.read?).map Underline.run = leading lines := by
  induction h with
  | nil => rfl
  | @cons text runs texts lines hmarked hrest ih =>
      have hread := hmarked.read?
      cases htext : Underline.read? text with
      | none =>
          rw [htext, Option.map_none] at hread
          rw [List.filterMap_cons_none htext, leading, List.filterMap_cons_none hread.symm, ih]
          rfl
      | some underline =>
          rw [htext, Option.map_some] at hread
          rw [List.filterMap_cons_some htext, leading, List.filterMap_cons_some hread.symm,
            List.map_cons, ih]
          rfl

/-- The underlines of a body are the runs that lead its unnumbered gutter lines. -/
theorem map_run_underlines {pieces : List (List Char)} {lines : List (List Run)}
    (h : List.Forall₂ Marked (margins pieces) lines) :
    (underlines pieces).map Underline.run = leading lines := by
  have hmargins : underlines pieces = (margins pieces).filterMap Underline.read? := by
    rw [underlines, margins, List.filterMap_filterMap]
    rfl
  rw [hmargins, map_run_read? h]

/-- The first of the leading runs is the first run of all, where widths are words. -/
theorem head?_leading {lines : List (List Run)}
    (hword : ∀ run ∈ lines.flatten, run.width < UInt32.size) :
    (leading lines).head? = lines.flatten.head? := by
  induction lines with
  | nil => rfl
  | cons runs lines ih =>
      rw [List.flatten_cons] at hword ⊢
      cases runs with
      | nil => exact ih (by simpa using hword)
      | cons run runs =>
          have hrun : run.width < UInt32.size := hword run List.mem_cons_self
          simp [leading, leadingRun?, Option.filter_some, hrun]

/-- The first line with a run of `^` begins with one. -/
def CaretLeads (lines : List (List Run)) : Prop :=
  ∀ runs, lines.find? (·.any Run.isCaret) = some runs → ∃ run others,
    runs = run :: others ∧ run.isCaret = true

/-- The first leading run of `^` is the first run of `^` of all, where it leads its line. -/
theorem find?_leading {lines : List (List Run)}
    (hword : ∀ run ∈ lines.flatten, run.width < UInt32.size) (hleads : CaretLeads lines) :
    (leading lines).find? Run.isCaret = lines.flatten.find? Run.isCaret := by
  induction lines with
  | nil => rfl
  | cons runs lines ih =>
      rw [List.flatten_cons, List.forall_mem_append] at hword
      rw [List.flatten_cons, List.find?_append]
      cases hany : runs.any Run.isCaret with
      | true =>
          obtain ⟨run, others, rfl, hcaret⟩ := hleads runs (List.find?_cons_of_pos hany)
          have hrun : run.width < UInt32.size := hword.1 run List.mem_cons_self
          simp [leading, leadingRun?, Option.filter_some, hrun, hcaret]
      | false =>
          have hlater : CaretLeads lines := by
            intro later hlater
            exact hleads later (by rw [List.find?_cons_of_neg (by simp [hany])]; exact hlater)
          have hnone : runs.find? Run.isCaret = none := by
            rw [List.find?_eq_none]
            simpa using hany
          rw [hnone, Option.none_or, ← ih hword.2 hlater]
          cases runs with
          | nil => rfl
          | cons run others =>
              have hrun : run.width < UInt32.size := hword.1 run List.mem_cons_self
              have hcaret : run.isCaret = false := by
                simpa using List.find?_eq_none.1 hnone run List.mem_cons_self
              simp [leading, leadingRun?, Option.filter_some, hrun, hcaret]

/-! ## The end column -/

/-- The end column of a block is its start column plus the width that counts among the runs that
lead its unnumbered gutter lines, at most the greatest word. That is the width that counts among
all the runs of these lines if the first line with a run of `^` begins with one. -/
theorem end_column_of_leading_runs {text first second : List Char}
    {before rest : List (List Char)} {header : Header} {location : Location} {line column : UInt32}
    {lines : List (List Run)} (htext : text.splitOn '\n' = before ++ first :: second :: rest)
    (hopening : opening? first second = some (header, location))
    (hline : Denotes location.line line) (hcolumn : Denotes location.column column)
    (hlines : List.Forall₂ Marked (margins rest) lines) :
    ∃ d endColumn, diagnostics text = ofPieces before ++ d :: ofPieces rest ∧
      d.range = ⟨line, column, line, endColumn⟩ ∧
      endColumn.toNat = min (column.toNat + countedWidth (leading lines)) 4294967295 ∧
      ((∀ run ∈ lines.flatten, run.width < UInt32.size) → CaretLeads lines →
        countedWidth (leading lines) = countedWidth lines.flatten) := by
  let body := Body.empty.extend rest
  have hwidth : body.width?.elim 0 UInt32.toNat = countedWidth (leading lines) := by
    rw [width?_extend, map_run_underlines hlines]
  obtain ⟨d, hd, hrange⟩ : ∃ d, diagnostic? header location body = some d ∧
      d.range = ⟨line, column, line, body.width?.elim column (Text.Word.add column)⟩ := by
    rw [diagnostic?, Text.Decimal.readWord32?_eq_some_iff.2 hline,
      Text.Decimal.readWord32?_eq_some_iff.2 hcolumn]
    exact ⟨_, rfl, rfl⟩
  refine ⟨d, _, ?_, hrange, ?_, ?_⟩
  · rw [diagnostics, htext, (divides_of_opening? hopening).ofPieces_append,
      ofPieces_of_some hopening, hd]
    rfl
  · have hfits : column.toNat < 4294967296 := column.toNat_lt
    rw [← hwidth]
    cases body.width? with
    | none =>
        show column.toNat = min (column.toNat + 0) 4294967295
        omega
    | some width => exact Text.Word.toNat_add column width
  · intro hword hleads
    rw [countedWidth, countedWidth, find?_leading hword hleads, head?_leading hword]

/-- Dashes on one line, carets on a later one: the carets count. -/
theorem end_column_of_leading_runs_two_lines :
    let text := ['\n'].intercalate ["error[E0499]: twice".toList, " --> a.rs:5:14".toList,
      "4 | &mut v".toList, "  | ------ first".toList, "5 | &mut v".toList, "  | ^^^^ here".toList]
    ∃ d endColumn, diagnostics text = [d] ∧ d.range = ⟨5, 14, 5, endColumn⟩ ∧
      endColumn.toNat = 18 := by
  intro text
  let rest := ["4 | &mut v".toList, "  | ------ first".toList, "5 | &mut v".toList,
    "  | ^^^^ here".toList]
  have htext : text.splitOn '\n'
      = [] ++ "error[E0499]: twice".toList :: " --> a.rs:5:14".toList :: rest :=
    List.splitOn_intercalate '\n' (by decide) (List.cons_ne_nil _ _)
  have hmargins : margins rest = [" ------ first".toList, " ^^^^ here".toList] := by decide
  have hlines : List.Forall₂ Marked (margins rest) [[⟨'-', 6⟩], [⟨'^', 4⟩]] := by
    rw [hmargins]
    refine .cons ?_ (.cons ?_ .nil)
    · exact .run [' '] " first".toList ⟨'-', 6⟩ (by decide) (by decide) (by decide) (by decide)
        (.label (by decide))
    · exact .run [' '] " here".toList ⟨'^', 4⟩ (by decide) (by decide) (by decide) (by decide)
        (.label (by decide))
  have hleads : CaretLeads [[⟨'-', 6⟩], [⟨'^', 4⟩]] := by
    intro runs hruns
    obtain rfl : [⟨'^', 4⟩] = runs := Option.some.inj hruns
    exact ⟨_, _, rfl, rfl⟩
  have hline : Denotes ['5'] 5 := Text.Decimal.readWord32?_eq_some_iff.1 (by decide)
  have hcolumn : Denotes ['1', '4'] 14 := Text.Decimal.readWord32?_eq_some_iff.1 (by decide)
  have hopening : opening? "error[E0499]: twice".toList " --> a.rs:5:14".toList
      = some (⟨.error, some "E0499".toList, "twice".toList⟩,
        ⟨"a.rs".toList, ['5'], ['1', '4']⟩) := by
    decide
  obtain ⟨d, endColumn, hread, hrange, hcolumn, hsame⟩ :=
    end_column_of_leading_runs htext hopening hline hcolumn hlines
  rw [hsame (by decide) hleads] at hcolumn
  exact ⟨d, endColumn, hread, hrange, hcolumn⟩

/-- A run of `^` behind another run on its line: the block ends where the other run does. -/
theorem caret_run_overlooked :
    ¬ ∀ (text first second : List Char) (before rest : List (List Char)) (header : Header)
        (location : Location) (line column : UInt32) (lines : List (List Run)),
      text.splitOn '\n' = before ++ first :: second :: rest →
      opening? first second = some (header, location) →
      Denotes location.line line → Denotes location.column column →
      List.Forall₂ Marked (margins rest) lines →
      ∃ d endColumn, diagnostics text = ofPieces before ++ d :: ofPieces rest ∧
        d.range = ⟨line, column, line, endColumn⟩ ∧
        endColumn.toNat = min (column.toNat + countedWidth lines.flatten) 4294967295 := by
  intro h
  let rest := ["6 | v.push(v.len());".toList, "  | - ^^^^ here".toList]
  let text := ['\n'].intercalate ("error: e".toList :: " --> a:6:5".toList :: rest)
  have htext : text.splitOn '\n' = [] ++ "error: e".toList :: " --> a:6:5".toList :: rest :=
    List.splitOn_intercalate '\n' (by decide) (List.cons_ne_nil _ _)
  have hmargins : margins rest = [" - ^^^^ here".toList] := by decide
  have hlines : List.Forall₂ Marked (margins rest) [[⟨'-', 1⟩, ⟨'^', 4⟩]] := by
    rw [hmargins]
    refine .cons ?_ .nil
    refine .run [' '] " ^^^^ here".toList ⟨'-', 1⟩ (by decide) (by decide) (by decide)
      (by decide) ?_
    exact .run [' '] " here".toList ⟨'^', 4⟩ (by decide) (by decide) (by decide) (by decide)
      (.label (by decide))
  obtain ⟨d, endColumn, hread, hrange, hcolumn⟩ := h text _ _ [] rest
    ⟨.error, none, "e".toList⟩ ⟨"a".toList, ['6'], ['5']⟩ 6 5 _ htext (by decide)
    (Text.Decimal.readWord32?_eq_some_iff.1 (by decide))
    (Text.Decimal.readWord32?_eq_some_iff.1 (by decide)) hlines
  have hblock : diagnostics text = [⟨⟨"a"⟩, ⟨6, 5, 6, 6⟩, .error, "e", none⟩] := by
    rw [diagnostics, htext]
    decide
  rw [hblock] at hread
  obtain ⟨rfl, -⟩ := List.cons.inj hread
  obtain rfl : 6 = endColumn := congrArg TextRange.endColumn hrange
  exact absurd hcolumn (by decide)

end Toolbench.Diagnostic.HumanBlock
