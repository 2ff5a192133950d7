import Toolbench.Diagnostic.Reader

/-!
# Reading an output piece by piece

A text of lines may be read line by line where each diagnostic stands in one line, and between
blank lines where diagnostics are blocks: no block reaches over a line that divides the text, and
blank lines do so. Read `HumanBlock.Divides.ofPieces_append` first. The last section is about the
carriage returns that the two ways of cutting a text into lines treat differently.
-/

namespace Toolbench

namespace Diagnostic

/-! ## Lines between blocks -/

/-- A blank line does not begin with a sign that is no white space. -/
theorem isPrefixOf?_eq_none_of_isBlank {signs line : List Char}
    (hsigns : (signs.head?.any fun c => !Text.isWhite c) = true)
    (hline : Text.isBlank line = true) : signs.isPrefixOf? line = none := by
  cases signs with
  | nil => exact nomatch hsigns
  | cons sign signs =>
      cases line with
      | nil => rfl
      | cons c cs =>
          have hsign : Text.isWhite sign = false := by simpa using hsigns
          have hc : Text.isWhite c = true := List.all_eq_true.1 hline c List.mem_cons_self
          have hne : sign ≠ c := by
            rintro rfl
            exact nomatch hsign.symm.trans hc
          show (if sign == c then signs.isPrefixOf? cs else none) = none
          exact if_neg (by simpa using hne)

/-- A part of a blank line is blank. -/
theorem isBlank_of_subset {part line : List Char} (hpart : part ⊆ line)
    (hline : Text.isBlank line = true) : Text.isBlank part = true :=
  List.all_eq_true.2 fun c hc => List.all_eq_true.1 hline c (hpart hc)

/-- What is left of a blank line after its final carriage return is blank. -/
theorem isBlank_dropFinal {line : List Char} (hline : Text.isBlank line = true) :
    Text.isBlank (Text.dropFinal '\r' line) = true := by
  unfold Text.dropFinal
  split
  · exact isBlank_of_subset (List.dropLast_subset line) hline
  · exact hline

namespace HumanBlock

/-- A blank line begins no block. -/
theorem opening?_of_isBlank_left {first : List Char} (hfirst : Text.isBlank first = true)
    (second : List Char) : opening? first second = none := by
  have hlevel : scanLevel? first = none := by
    have hwords : ∀ entry ∈ levels,
        (entry.1.toList.head?.any fun c => !Text.isWhite c) = true := by decide
    refine List.findSome?_eq_none_iff.2 fun entry hentry => ?_
    exact congrArg (Option.map _)
      (isPrefixOf?_eq_none_of_isBlank (hwords entry hentry) hfirst)
  simp [opening?, Header.read?, hlevel]

/-- Where no block begins, reading goes on with the next piece. -/
theorem ofPieces_of_none {first second : List Char} (h : opening? first second = none)
    (rest : List (List Char)) :
    ofPieces (first :: second :: rest) = ofPieces (second :: rest) := by
  rw [ofPieces, h]

/-- Where a block begins, reading goes on behind its location line. -/
theorem ofPieces_of_some {first second : List Char} {header : Header} {location : Location}
    (h : opening? first second = some (header, location)) (rest : List (List Char)) :
    ofPieces (first :: second :: rest)
      = (diagnostic? header location (Body.empty.extend rest)).toList ++ ofPieces rest := by
  rw [ofPieces, h]

/-- The line belongs to no body that is before it, and it is no location line. -/
structure Divides (line : List Char) : Prop where
  noLocation : Location.read? line = none
  stops : BodyLine.ofLine (Text.dropFinal '\r' line) = .stop

/-- The body of a block does not go on with a line that divides the text. -/
theorem Divides.extend_append {line : List Char} (h : Divides line) (body : Body)
    (pieces rest : List (List Char)) :
    body.extend (pieces ++ line :: rest) = body.extend pieces := by
  induction pieces generalizing body with
  | nil => simp only [List.nil_append, Body.extend, h.stops]
  | cons piece pieces ih =>
      simp only [List.cons_append, Body.extend]
      split
      · rfl
      · exact ih _

/-- The blocks of a text are those before a line that divides it and those from there on: none
begins before the line and ends after it. -/
theorem Divides.ofPieces_append {line : List Char} (h : Divides line)
    (pieces rest : List (List Char)) :
    ofPieces (pieces ++ line :: rest) = ofPieces pieces ++ ofPieces (line :: rest) := by
  induction pieces using ofPieces.induct with
  | case1 => rfl
  | case2 first =>
      have hopening : opening? first line = none := by simp [opening?, h.noLocation]
      exact ofPieces_of_none hopening rest
  | case3 first second pieces header location hopening ih =>
      simp only [List.cons_append]
      rw [ofPieces_of_some hopening, ofPieces_of_some hopening, h.extend_append, ih,
        List.append_assoc]
  | case4 first second pieces hopening ih =>
      simp only [List.cons_append] at ih ⊢
      rw [ofPieces_of_none hopening, ofPieces_of_none hopening, ih]

/-- A blank line divides a text. -/
theorem divides_of_isBlank {line : List Char} (h : Text.isBlank line = true) : Divides line := by
  have hpart : Text.isBlank (line.dropWhile Text.isInlineBlank) = true :=
    isBlank_of_subset (List.dropWhile_sublist _).subset h
  constructor
  · unfold Location.read?
    rw [isPrefixOf?_eq_none_of_isBlank (by decide) hpart]
    rfl
  · rw [BodyLine.ofLine, if_pos (isBlank_dropFinal h)]

/-- A blank piece may be left out at the start. -/
theorem ofPieces_blank_cons {blank : List Char} (hblank : Text.isBlank blank = true)
    (rest : List (List Char)) : ofPieces (blank :: rest) = ofPieces rest := by
  cases rest with
  | nil => rfl
  | cons second rest => exact ofPieces_of_none (opening?_of_isBlank_left hblank second) rest

/-- The blocks on both sides of a blank line are the blocks of the whole. -/
theorem ofPieces_append_blank {blank : List Char} (hblank : Text.isBlank blank = true)
    (pieces rest : List (List Char)) :
    ofPieces (pieces ++ blank :: rest) = ofPieces pieces ++ ofPieces rest := by
  rw [(divides_of_isBlank hblank).ofPieces_append, ofPieces_blank_cons hblank]

/-- The empty piece at the end of a text of lines adds nothing. -/
theorem ofPieces_append_empty (pieces : List (List Char)) :
    ofPieces (pieces ++ [[]]) = ofPieces pieces :=
  (ofPieces_append_blank rfl pieces []).trans (List.append_nil _)

/-- A text of lines may be cut at a blank line and both parts be read on their own. -/
theorem diagnostics_unlines_append {before after : List (List Char)} {blank : List Char}
    (hbefore : ∀ line ∈ before, '\n' ∉ line) (hafter : ∀ line ∈ after, '\n' ∉ line)
    (hfeed : '\n' ∉ blank) (hblank : Text.isBlank blank = true) :
    diagnostics (Text.unlines (before ++ blank :: after))
      = diagnostics (Text.unlines before) ++ diagnostics (Text.unlines after) := by
  have hall : ∀ line ∈ before ++ blank :: after, '\n' ∉ line := by
    intro line hline
    rcases List.mem_append.1 hline with hold | hnew
    · exact hbefore line hold
    · rcases List.mem_cons.1 hnew with rfl | hlater
      · exact hfeed
      · exact hafter line hlater
  unfold diagnostics
  rw [Text.splitOn_unlines hall, Text.splitOn_unlines hbefore, Text.splitOn_unlines hafter,
    List.append_assoc, List.cons_append, ofPieces_append_blank hblank, ofPieces_append_empty,
    ofPieces_append_empty]

end HumanBlock

/-! ## Carriage returns at the ends of lines -/

/-- A one-line diagnostic is read with or without a carriage return after it. -/
theorem LegacyLine.diagnostic?_dropFinal (line : List Char) :
    LegacyLine.diagnostic? (Text.dropFinal '\r' line) = LegacyLine.diagnostic? line := by
  rcases Text.dropFinal_eq_self_or '\r' line with hsame | ⟨front, rfl⟩
  · rw [hsame]
  · have hdrop : dropReturns (front ++ ['\r']) = dropReturns front := by simp [dropReturns]
    rw [Text.dropFinal_concat, diagnostic?, diagnostic?, hdrop]

/-- A machine-readable line is read with or without a carriage return after it. -/
theorem JsonLine.diagnostic?_dropFinal (line : List Char) :
    JsonLine.diagnostic? (Text.dropFinal '\r' line) = JsonLine.diagnostic? line := by
  rcases Text.dropFinal_eq_self_or '\r' line with hsame | ⟨front, rfl⟩
  · rw [hsame]
  · have hwhite : Text.isWhite '\r' = true := by decide
    rw [Text.dropFinal_concat, diagnostic?, diagnostic?, ToolMessage.ofLine?, ToolMessage.ofLine?,
      ToolMessage.isCandidate, ToolMessage.isCandidate, Text.head?_trimStart_concat hwhite,
      Text.trim_concat hwhite]

end Diagnostic

end Toolbench
