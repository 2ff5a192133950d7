import Toolbench.Proofs.Diagnostic.RenderedBlocks

/-!
# Carriage returns before line feeds

The forms of one line do not depend on how lines end (`OutputMode.outputDiagnostics_crlf`). Blocks
do: a location line has no carriage return at its end (`Location.read?_concat_return`), so where
each line feed has one before it, the only block that can be read is one whose location is the last
line of the text and not ended (`ofPieces_endReturns`). Its header takes the carriage return into
the message, which is trimmed. `location_lost` is a block that is not read.
-/

namespace Toolbench

namespace Text

/-- The text with a carriage return before each line feed. -/
def withReturns (text : List Char) : List Char :=
  text.flatMap fun c => if c = '\n' then ['\r', '\n'] else [c]

/-- The string with a carriage return before each line feed. -/
def crlf (text : String) : String :=
  String.ofList (withReturns text.toList)

@[simp] theorem toList_crlf (text : String) : (crlf text).toList = withReturns text.toList :=
  String.toList_ofList

/-- The pieces with a carriage return at the end of each but the last. -/
def endReturns : List (List Char) → List (List Char)
  | [] => []
  | [last] => [last]
  | piece :: next :: rest => (piece ++ ['\r']) :: endReturns (next :: rest)

theorem endReturns_cons (piece : List Char) {rest : List (List Char)} (h : rest ≠ []) :
    endReturns (piece :: rest) = (piece ++ ['\r']) :: endReturns rest := by
  obtain ⟨next, rest, rfl⟩ := List.exists_cons_of_ne_nil h
  rfl

/-- A character in front of the pieces stays in front. -/
theorem endReturns_modifyHead (c : Char) (pieces : List (List Char)) :
    endReturns (pieces.modifyHead (c :: ·)) = (endReturns pieces).modifyHead (c :: ·) := by
  match pieces with
  | [] => rfl
  | [last] => rfl
  | piece :: next :: rest => rfl

/-- The pieces of a text between line feeds end in what was put before these. -/
theorem splitOn_withReturns (text : List Char) :
    (withReturns text).splitOn '\n' = endReturns (text.splitOn '\n') := by
  induction text with
  | nil => rfl
  | cons c cs ih =>
      rw [withReturns, List.flatMap_cons, ← withReturns]
      by_cases hc : c = '\n'
      · have hreturns := endReturns_cons [] (List.splitOn_ne_nil '\n' cs)
        subst hc
        simp [List.splitOn_cons_eq_if_modifyHead, hreturns, ih]
      · simp [List.splitOn_cons_eq_if_modifyHead, hc, ih, endReturns_modifyHead]

/-- What is read of each line alike, with a carriage return after it or not, is read alike of all
lines. -/
theorem filterMap_lines_withReturns {α : Type} {read? : List Char → Option α}
    (h : ∀ line, read? (dropFinal '\r' line) = read? line) (text : List Char) :
    (lines (withReturns text)).filterMap read? = (lines text).filterMap read? := by
  rw [lines, lines, splitOn_withReturns]
  induction text.splitOn '\n' with
  | nil => rfl
  | cons piece rest ih =>
      cases rest with
      | nil => rfl
      | cons next rest =>
          have hmore : ∀ first, linesOfPieces (first :: endReturns (next :: rest))
              = dropFinal '\r' first :: linesOfPieces (endReturns (next :: rest)) := by
            intro first
            cases rest <;> rfl
          rw [endReturns, hmore, linesOfPieces, List.filterMap_cons, List.filterMap_cons, ih,
            dropFinal_concat, h]

end Text

namespace Diagnostic.HumanBlock

open Text (isInlineBlank)

variable {line first last : List Char} {header : Header}

/-! ## Location lines -/

/-- A location line does not end in a carriage return. -/
theorem Location.read?_concat_return (line : List Char) :
    Location.read? (line ++ ['\r']) = none := by
  refine Option.bind_eq_none_iff.2 fun cs harrow => ?_
  have hline := List.isPrefixOf?_eq_some_iff_append_eq.1 harrow
  have hlast : (['-', '-', '>', ' '] ++ cs).getLast? = some '\r' := by
    rw [hline, List.dropWhile_append]
    split <;> simp [isInlineBlank]
  rcases List.eq_nil_or_concat cs with rfl | ⟨front, last, rfl⟩
  · exact absurd hlast (by decide)
  · rw [List.concat_eq_append, ← List.append_assoc, List.getLast?_concat] at hlast
    obtain rfl := Option.some.inj hlast
    rw [List.concat_eq_append, List.reverse_append]
    rfl

/-! ## Header lines -/

/-- A header takes the rest of its line into the message. -/
theorem Header.read?_append (h : Header.read? line = some header) (more : List Char) :
    Header.read? (line ++ more) = some { header with message := header.message ++ more } := by
  obtain ⟨word, code, hword, hcode, hne, rfl⟩ := Header.read?_eq_some_iff.1 h
  refine Header.read?_eq_some_iff.2 ⟨word, code, hword, hcode, ?_, by simp⟩
  exact List.append_ne_nil_of_left_ne_nil hne more

/-- A carriage return is the message of a header only where there is no other. -/
theorem Header.read?_concat_return (h : Header.read? (line ++ ['\r']) = some header) :
    header.message = ['\r'] ∨ ∃ message, header.message = message ++ ['\r'] ∧
      Header.read? line = some { header with message := message } := by
  obtain ⟨word, code, hword, hcode, hne, hline⟩ := Header.read?_eq_some_iff.1 h
  obtain ⟨message, last, hmessage⟩ := List.eq_nil_or_concat header.message |>.resolve_left hne
  have hconcat : line ++ ['\r'] = word.toList ++ (code ++ ':' :: ' ' :: message) ++ [last] := by
    rw [hline, hmessage]
    simp
  obtain ⟨rfl, hlast⟩ := List.append_inj' hconcat rfl
  obtain rfl : '\r' = last := by simpa using hlast
  by_cases hempty : message = []
  · exact .inl (by simpa [hempty] using hmessage)
  · refine .inr ⟨message, by simpa using hmessage, ?_⟩
    exact Header.read?_eq_some_iff.2 ⟨word, code, hword, hcode, hempty, rfl⟩

/-! ## Blocks -/

theorem opening?_eq_some_iff {location : Location} :
    opening? first last = some (header, location) ↔
      Header.read? first = some header ∧ Location.read? last = some location := by
  simp [opening?, Option.bind_eq_some_iff]

theorem opening?_eq_none_of_location (h : Location.read? last = none) (first : List Char) :
    opening? first last = none := by
  simp [opening?, h]

/-- Where the lines end in carriage returns, no block begins before the last two. -/
theorem ofPieces_endReturns (front : List (List Char)) (first last : List Char) :
    ofPieces (Text.endReturns (front ++ [first, last])) = ofPieces [first ++ ['\r'], last] := by
  induction front with
  | nil => rfl
  | cons piece front ih =>
      obtain ⟨next, rest, hrest⟩ := List.exists_cons_of_ne_nil
        (List.append_ne_nil_of_right_ne_nil front (List.cons_ne_nil first [last]))
      have hmore : rest ≠ [] := by
        rintro rfl
        simpa using congrArg List.length hrest
      rw [← ih, List.cons_append, hrest, Text.endReturns, Text.endReturns_cons next hmore]
      exact ofPieces_of_none
        (opening?_eq_none_of_location (Location.read?_concat_return next) _) _

/-- A carriage return at the end of a header changes nothing of its diagnostic. -/
theorem diagnostic?_concat_return (header : Header) (location : Location) (body : Body) :
    diagnostic? { header with message := header.message ++ ['\r'] } location body
      = diagnostic? header location body := by
  have hwhite : Text.isWhite '\r' = true := by decide
  have htrim : Text.trimEnd (header.message ++ ['\r']) = Text.trimEnd header.message := by
    simp [Text.trimEnd, hwhite]
  simp only [diagnostic?, htrim]

/-- The header of a last block may end in a carriage return. -/
theorem ofPieces_concat_return (h : Header.read? first = some header) (last : List Char) :
    ofPieces [first ++ ['\r'], last] = ofPieces [first, last] := by
  cases hlocation : Location.read? last with
  | none =>
      rw [ofPieces_of_none (opening?_eq_none_of_location hlocation _),
        ofPieces_of_none (opening?_eq_none_of_location hlocation _)]
  | some location =>
      have hopening := opening?_eq_some_iff.2 ⟨h, hlocation⟩
      have hreturn := opening?_eq_some_iff.2 ⟨Header.read?_append h ['\r'], hlocation⟩
      rw [ofPieces_of_some hopening, ofPieces_of_some hreturn, diagnostic?_concat_return]

/-- The message of a block without a body is that of its header. -/
theorem message_of_diagnostic? {location : Location} {d : Diagnostic}
    (h : diagnostic? header location Body.empty = some d) :
    d.message = String.ofList (Text.trimEnd header.message) := by
  obtain ⟨line, -, hcolumn⟩ := Option.bind_eq_some_iff.1 h
  obtain ⟨column, -, hd⟩ := Option.bind_eq_some_iff.1 hcolumn
  obtain rfl := Option.some.inj hd
  exact congrArg String.ofList (List.append_nil _)

/-- What is read where the lines end in carriage returns stands at the end of what is read where
they do not, or it is a block without a message. -/
theorem ofPieces_endReturns_suffix (pieces : List (List Char)) :
    ofPieces (Text.endReturns pieces) <:+ ofPieces pieces ∨
      ∃ d : Diagnostic, ofPieces (Text.endReturns pieces) = [d] ∧ d.message = "" := by
  rcases List.eq_nil_or_concat pieces with rfl | ⟨init, last, rfl⟩
  · exact .inl List.nil_suffix
  rcases List.eq_nil_or_concat init with rfl | ⟨front, first, rfl⟩
  · exact .inl List.nil_suffix
  rw [List.concat_eq_append, List.concat_eq_append, List.append_assoc, List.singleton_append,
    ofPieces_endReturns]
  cases hopening : opening? (first ++ ['\r']) last with
  | none =>
      rw [ofPieces_of_none hopening]
      exact .inl List.nil_suffix
  | some block =>
      obtain ⟨header, location⟩ := block
      obtain ⟨hheader, hlocation⟩ := opening?_eq_some_iff.1 hopening
      rcases Header.read?_concat_return hheader with hempty | ⟨message, -, hfirst⟩
      · rw [ofPieces_of_some hopening]
        cases hd : diagnostic? header location (Body.empty.extend []) with
        | none => exact .inl List.nil_suffix
        | some d =>
            refine .inr ⟨d, rfl, ?_⟩
            rw [message_of_diagnostic? hd, hempty]
            decide
      · have hdivides := divides_of_opening? (opening?_eq_some_iff.2 ⟨hfirst, hlocation⟩)
        rw [ofPieces_concat_return hfirst, hdivides.ofPieces_append]
        exact .inl (List.suffix_append _ _)

end Diagnostic.HumanBlock

namespace OutputMode

open Diagnostic.HumanBlock (ofPieces ofPieces_endReturns ofPieces_append_empty
  ofPieces_concat_return ofPieces_endReturns_suffix Header.read?)

/-- The forms of one line are read alike however the lines end. -/
theorem outputDiagnostics_crlf {mode : OutputMode} (h : mode ≠ .human) (text : String) :
    outputDiagnostics mode (Text.crlf text) = outputDiagnostics mode text := by
  cases mode with
  | human => exact absurd rfl h
  | legacy =>
      simp only [outputDiagnostics, Diagnostic.LegacyLine.diagnostics, Text.toList_crlf]
      exact Text.filterMap_lines_withReturns Diagnostic.LegacyLine.diagnostic?_dropFinal _
  | json =>
      simp only [outputDiagnostics, Diagnostic.JsonLine.diagnostics, Text.toList_crlf]
      exact Text.filterMap_lines_withReturns Diagnostic.JsonLine.diagnostic?_dropFinal _

/-- The blocks of a text with carriage returns are those of its pieces with them. -/
theorem human_crlf (text : String) : outputDiagnostics .human (Text.crlf text)
    = ofPieces (Text.endReturns (text.toList.splitOn '\n')) := by
  show ofPieces ((Text.crlf text).toList.splitOn '\n') = _
  rw [Text.toList_crlf, Text.splitOn_withReturns]

/-- Where a line feed ends the text, or there is none, no block is read with carriage returns. -/
theorem human_crlf_eq_nil {text : String}
    (h : text.toList.getLast? = some '\n' ∨ '\n' ∉ text.toList) :
    outputDiagnostics .human (Text.crlf text) = [] := by
  rw [human_crlf]
  rcases h with hended | hnone
  · obtain ⟨line, hline⟩ := List.getLast?_eq_some_iff.1 hended
    rw [hline, List.splitOn_append_cons_self, List.splitOn_nil]
    rcases List.eq_nil_or_concat (line.splitOn '\n') with hempty | ⟨front, first, hpieces⟩
    · exact absurd hempty (List.splitOn_ne_nil '\n' line)
    · rw [hpieces, List.concat_eq_append, List.append_assoc, List.singleton_append,
        ofPieces_endReturns]
      exact ofPieces_append_empty [first ++ ['\r']]
  · rw [List.splitOn_eq_singleton hnone]
    rfl

/-- Carriage returns before the line feeds change nothing of what is read in the modes with one
diagnostic per line. Of the blocks they leave at most the one whose location is the last line, and
only where no line feed ends it; this block is then read as the two lines alone, and it is new only
where its header has no message. -/
theorem records_of_crlf (text : String) :
    (∀ mode, mode ≠ .human →
      outputDiagnostics mode (Text.crlf text) = outputDiagnostics mode text) ∧
    (∀ front first last, text.toList.splitOn '\n' = front ++ [first, last] →
      outputDiagnostics .human (Text.crlf text) = ofPieces [first ++ ['\r'], last] ∧
      ∀ header, Header.read? first = some header →
        outputDiagnostics .human (Text.crlf text) = ofPieces [first, last]) ∧
    (text.toList.getLast? = some '\n' ∨ '\n' ∉ text.toList →
      outputDiagnostics .human (Text.crlf text) = []) ∧
    (outputDiagnostics .human (Text.crlf text) <:+ outputDiagnostics .human text ∨
      ∃ d : Diagnostic, outputDiagnostics .human (Text.crlf text) = [d] ∧ d.message = "") := by
  refine ⟨fun mode hmode => outputDiagnostics_crlf hmode text, ?_, human_crlf_eq_nil, ?_⟩
  · intro front first last hsplit
    have hlast : outputDiagnostics .human (Text.crlf text) = ofPieces [first ++ ['\r'], last] := by
      rw [human_crlf, hsplit, ofPieces_endReturns]
    exact ⟨hlast, fun header hheader =>
      hlast.trans (ofPieces_concat_return hheader last)⟩
  · rw [human_crlf]
    exact ofPieces_endReturns_suffix _

/-- Of two blocks the one that no line feed ends is left, and it is read as before. -/
theorem records_of_crlf_two_blocks :
    outputDiagnostics .legacy (Text.crlf "a:1:1: 1:2 error: e\n")
      = outputDiagnostics .legacy "a:1:1: 1:2 error: e\n" ∧
    outputDiagnostics .human (Text.crlf "error: e\n --> a:1:2\nwarning: w\n --> b:3:4")
      = [⟨⟨"b"⟩, ⟨3, 4, 3, 4⟩, .warning, "w", none⟩] ∧
    outputDiagnostics .human (Text.crlf "error: e\n --> a:1:2\n") = [] := by
  refine ⟨(records_of_crlf _).1 .legacy (by decide), ?_, ?_⟩
  · refine (((records_of_crlf _).2.1 ["error: e".toList, " --> a:1:2".toList] "warning: w".toList
      " --> b:3:4".toList (by decide)).2 ⟨.warning, none, ['w']⟩ (by decide)).trans ?_
    decide
  · exact (records_of_crlf _).2.2.1 (.inl (by decide))

/-- A block is lost when its lines end in carriage returns and line feeds. -/
theorem location_lost :
    ¬ ∀ (mode : OutputMode) (text : String), '\r' ∉ text.toList →
      outputDiagnostics mode (Text.crlf text) = outputDiagnostics mode text := by
  intro h
  have hsame := h .human "error: mismatched types\n --> src/main.rs:3:5\n" (by decide)
  rw [human_crlf_eq_nil (.inl (by decide))] at hsame
  exact absurd hsame (by decide)

end OutputMode

end Toolbench
