import Toolbench.Proofs.Diagnostic.Scanning
import Toolbench.Proofs.Diagnostic.Segments
import Mathlib.Data.List.DropRight

/-!
# The lines of a block

What each form of a line means in the body of a block: an unnumbered gutter line may carry markers
(`ofLine_of_margin?`, and no other line does, `margin?_of_ofLine`), a numbered one is source text, a
note extends the message. A header belongs to no body, so it divides a text.
-/

namespace Toolbench.Diagnostic.HumanBlock

open Text (IsRun isWhite isInlineBlank isDecimalDigit)

/-- The text behind the bar of an unnumbered gutter line. -/
def margin? (line : List Char) : Option (List Char) :=
  ['|'].isPrefixOf? (line.dropWhile isInlineBlank)

/-- A numbered gutter line, which holds source text behind its bar. -/
def IsSource (line : List Char) : Prop :=
  ∃ lead number gap text, (∀ c ∈ lead, isInlineBlank c = true) ∧ IsRun isDecimalDigit number ∧
    (∀ c ∈ gap, isInlineBlank c = true) ∧ line = lead ++ (number ++ (gap ++ '|' :: text))

/-- The line of a note. The text of a note does not end in white space. -/
def IsNote (note : Note) (line : List Char) : Prop :=
  ∃ lead, (∀ c ∈ lead, isInlineBlank c = true) ∧ IsRun isSmallLetter note.kind ∧
    (∀ c ∈ note.text.getLast?, isWhite c = false) ∧
    line = lead ++ '=' :: ' ' :: (note.kind ++ ':' :: ' ' :: note.text)

variable {line content lead rest : List Char} {c : Char} {note : Note}

/-! ## What a line begins with -/

/-- Where a line begins behind its blanks. -/
theorem dropWhile_lead (hlead : ∀ c ∈ lead, isInlineBlank c = true)
    (hc : isInlineBlank c = false) :
    (lead ++ c :: rest).dropWhile isInlineBlank = c :: rest :=
  Text.dropWhile_append_of_head hlead (Text.forall_head?_cons hc rest)

/-- A line is not blank when it has a character that is no white space. -/
theorem isBlank_eq_false (hmem : c ∈ line) (hc : isWhite c = false) :
    Text.isBlank line = false := by
  rw [Text.isBlank, List.all_eq_false]
  exact ⟨c, hmem, by simp [hc]⟩

/-- A note begins with an equals sign. -/
theorem note_read?_eq_none (h : ∀ c ∈ (line.dropWhile isInlineBlank).head?, c ≠ '=') :
    Note.read? line = none := by
  have hsign : ['=', ' '].isPrefixOf? (line.dropWhile isInlineBlank) = none := by
    rw [← Option.not_isSome_iff_eq_none, List.isSome_isPrefixOf?_eq_isPrefixOf,
      List.isPrefixOf_iff_prefix]
    rintro ⟨others, hline⟩
    exact h '=' (by rw [← hline]; rfl) rfl
  rw [Note.read?, hsign]
  rfl

theorem margin?_eq_some_iff : margin? line = some content ↔
    ∃ lead, (∀ c ∈ lead, isInlineBlank c = true) ∧ line = lead ++ '|' :: content := by
  rw [margin?, List.isPrefixOf?_eq_some_iff_append_eq, List.singleton_append]
  constructor
  · intro h
    refine ⟨line.takeWhile isInlineBlank, fun c hc => List.mem_takeWhile_imp hc, ?_⟩
    rw [h, List.takeWhile_append_dropWhile]
  · rintro ⟨lead, hlead, rfl⟩
    exact (dropWhile_lead hlead (by decide)).symm

/-- An unnumbered gutter line is a gutter line without a number. -/
theorem gutter?_eq_some_false_iff :
    gutter? line = some (false, content) ↔ margin? line = some content := by
  simp only [gutter?, Option.bind_eq_bind, Option.bind_eq_some_iff,
    List.isPrefixOf?_eq_some_iff_append_eq, List.singleton_append, pure, Option.some.injEq,
    Prod.mk.injEq, Bool.not_eq_false', List.isEmpty_iff, margin?]
  constructor
  · rintro ⟨found, hfound, hnumber, rfl⟩
    -- Without a number there is one run of blanks before the bar.
    have hwhole := @List.takeWhile_append_dropWhile _ isDecimalDigit (line.dropWhile isInlineBlank)
    rw [hnumber, List.nil_append] at hwhole
    rw [hfound, hwhole, List.dropWhile_idempotent]
  · intro hbar
    refine ⟨content, ?_, ?_, rfl⟩
    · rw [← hbar]
      rfl
    · rw [← hbar]
      rfl

/-! ## What a line means -/

/-- An unnumbered gutter line says what markers lead its text. -/
theorem ofLine_of_margin? (h : margin? line = some content) :
    BodyLine.ofLine line = .margin (Underline.read? content) := by
  obtain ⟨lead, hlead, rfl⟩ := margin?_eq_some_iff.1 h
  have hblank : Text.isBlank (lead ++ '|' :: content) = false :=
    isBlank_eq_false (List.mem_append_right _ List.mem_cons_self) (by decide)
  have hnote : Note.read? (lead ++ '|' :: content) = none := by
    refine note_read?_eq_none ?_
    rw [dropWhile_lead hlead (by decide)]
    exact Text.forall_head?_cons (by decide) content
  rw [BodyLine.ofLine, hblank, hnote, gutter?_eq_some_false_iff.2 h]
  rfl

/-- Only unnumbered gutter lines carry markers. -/
theorem margin?_of_ofLine {underline : Option Underline}
    (h : BodyLine.ofLine line = .margin underline) :
    ∃ content, margin? line = some content ∧ underline = Underline.read? content := by
  unfold BodyLine.ofLine at h
  split at h
  · exact nomatch h
  · split at h
    · exact nomatch h
    · split at h
      · exact nomatch h
      · rename_i content hgutter
        cases h
        exact ⟨content, gutter?_eq_some_false_iff.1 hgutter, rfl⟩
      · dsimp only at h
        split at h
        · exact nomatch h
        · exact nomatch h

/-- A numbered line says nothing. -/
theorem IsSource.ofLine (h : IsSource line) : BodyLine.ofLine line = .context := by
  obtain ⟨lead, number, gap, text, hlead, hnumber, hgap, rfl⟩ := h
  obtain ⟨digit, digits, rfl⟩ := List.exists_cons_of_ne_nil hnumber.1
  have hdigit : isDecimalDigit digit = true := hnumber.2 digit List.mem_cons_self
  have hwhite : isWhite digit = false := Text.isWhite_of_isDecimalDigit hdigit
  have hinline : isInlineBlank digit = false := by
    rw [Bool.eq_false_iff]
    intro hblank
    exact nomatch (Text.isWhite_of_isInlineBlank hblank).symm.trans hwhite
  have hblank : Text.isBlank (lead ++ (digit :: digits ++ (gap ++ '|' :: text))) = false :=
    isBlank_eq_false (List.mem_append_right _ List.mem_cons_self) hwhite
  have hstart : (lead ++ (digit :: digits ++ (gap ++ '|' :: text))).dropWhile isInlineBlank
      = digit :: digits ++ (gap ++ '|' :: text) := dropWhile_lead hlead hinline
  have hnote : Note.read? (lead ++ (digit :: digits ++ (gap ++ '|' :: text))) = none := by
    refine note_read?_eq_none ?_
    rw [hstart]
    refine Text.forall_head?_cons ?_ _
    rintro rfl
    exact absurd hdigit (by decide)
  have hend : ∀ c ∈ (gap ++ '|' :: text).head?, isDecimalDigit c = false := by
    cases gap with
    | nil => exact Text.forall_head?_cons (by decide) text
    | cons blank blanks =>
        have hwhite := Text.isWhite_of_isInlineBlank (hgap blank List.mem_cons_self)
        exact Text.forall_head?_cons (Text.isDecimalDigit_of_isWhite hwhite) _
  have hgutter : gutter? (lead ++ (digit :: digits ++ (gap ++ '|' :: text)))
      = some (true, text) := by
    rw [gutter?, hstart, Text.takeWhile_append_of_head hnumber.2 hend,
      Text.dropWhile_append_of_head hnumber.2 hend, dropWhile_lead hgap (by decide)]
    rfl
  rw [BodyLine.ofLine, hblank, hnote, hgutter]
  rfl

/-- A note says what kind it is and its text. -/
theorem IsNote.ofLine (h : IsNote note line) : BodyLine.ofLine line = .note note := by
  obtain ⟨lead, hlead, hkind, htext, rfl⟩ := h
  have hblank : Text.isBlank (lead ++ '=' :: ' ' :: (note.kind ++ ':' :: ' ' :: note.text))
      = false :=
    isBlank_eq_false (List.mem_append_right _ List.mem_cons_self) (by decide)
  have hcolon : ∀ c ∈ (':' :: ' ' :: note.text).head?, isSmallLetter c = false :=
    Text.forall_head?_cons (by decide) _
  have hread : Note.read? (lead ++ '=' :: ' ' :: (note.kind ++ ':' :: ' ' :: note.text))
      = some note := by
    rw [Note.read?, dropWhile_lead hlead (by decide)]
    show (scanRun? isSmallLetter (note.kind ++ ':' :: ' ' :: note.text)).bind _ = some note
    rw [scanRun?_append hkind hcolon]
    show some (Note.mk note.kind (Text.trimEnd note.text)) = some note
    rw [Text.trimEnd_eq_self htext]
  rw [BodyLine.ofLine, hblank, hread]
  rfl

/-! ## Markers -/

/-- Markers are no white space. -/
theorem isWhite_of_isMarker (h : isMarker c = true) : isWhite c = false := by
  simp only [isMarker, Bool.or_eq_true, beq_iff_eq] at h
  rcases h with (rfl | rfl) | rfl <;> decide

/-- A run of markers behind white space is read where its width is a word. -/
theorem underline_read?_append {blanks : List Char} {width : Nat}
    (hblanks : Text.isBlank blanks = true) (hmarker : isMarker c = true) (hwidth : 0 < width)
    (hrest : rest.head? ≠ some c) :
    Underline.read? (blanks ++ List.replicate width c ++ rest)
      = (Text.Word.ofNat? width).map (⟨c, ·⟩) := by
  obtain ⟨more, rfl⟩ : ∃ more, width = more + 1 := ⟨width - 1, by omega⟩
  have htrim : Text.trimStart (blanks ++ List.replicate (more + 1) c ++ rest)
      = c :: (List.replicate more c ++ rest) := by
    rw [List.append_assoc, List.replicate_succ, List.cons_append]
    exact Text.dropWhile_append_of_head (List.all_eq_true.1 hblanks)
      (Text.forall_head?_cons (isWhite_of_isMarker hmarker) _)
  have hrun : (List.replicate more c ++ rest).takeWhile (· == c) = List.replicate more c := by
    refine Text.takeWhile_append_of_head ?_ ?_
    · intro d hd
      rw [List.eq_of_mem_replicate hd]
      exact beq_self_eq_true c
    · intro d hd
      refine beq_false_of_ne ?_
      rintro rfl
      exact hrest hd
  rw [Underline.read?, htrim]
  show (if isMarker c = true then _ else none) = _
  rw [if_pos hmarker, hrun, List.length_replicate]

/-- Where there is no marker, none is read. -/
theorem underline_read?_eq_none (h : content.any isMarker = false) :
    Underline.read? content = none := by
  unfold Underline.read?
  split
  · rfl
  · rename_i c cs htrim
    have hmem : c ∈ content :=
      (List.dropWhile_sublist _).subset (htrim ▸ List.mem_cons_self)
    rw [if_neg (List.any_eq_false.1 h c hmem)]

/-! ## Carriage returns -/

/-- Of a text with another character in it, a final carriage return is left out behind that. -/
theorem dropFinal_append_cons (hc : c ≠ '\r') (front rest : List Char) :
    Text.dropFinal '\r' (front ++ c :: rest) = front ++ c :: Text.dropFinal '\r' rest := by
  rcases List.eq_nil_or_concat rest with rfl | ⟨others, last, rfl⟩
  · rw [Text.dropFinal_concat_eq, if_neg hc]
    rfl
  · rw [List.concat_eq_append, ← List.cons_append, ← List.append_assoc, Text.dropFinal_concat_eq,
      Text.dropFinal_concat_eq, List.append_assoc, List.cons_append]

theorem margin?_dropFinal (h : margin? line = some content) :
    margin? (Text.dropFinal '\r' line) = some (Text.dropFinal '\r' content) := by
  obtain ⟨lead, hlead, rfl⟩ := margin?_eq_some_iff.1 h
  rw [dropFinal_append_cons (by decide)]
  exact margin?_eq_some_iff.2 ⟨lead, hlead, rfl⟩

theorem IsSource.dropFinal (h : IsSource line) : IsSource (Text.dropFinal '\r' line) := by
  obtain ⟨lead, number, gap, text, hlead, hnumber, hgap, rfl⟩ := h
  refine ⟨lead, number, gap, Text.dropFinal '\r' text, hlead, hnumber, hgap, ?_⟩
  have hfront := dropFinal_append_cons (c := '|') (by decide) (lead ++ (number ++ gap)) text
  simpa using hfront

theorem IsNote.dropFinal_eq (h : IsNote note line) : Text.dropFinal '\r' line = line := by
  obtain ⟨lead, -, -, htext, rfl⟩ := h
  have hlast : note.text.getLast? ≠ some '\r' := by
    intro hlast
    exact absurd (htext '\r' hlast) (by decide)
  have hfront := dropFinal_append_cons (c := ' ') (by decide)
    (lead ++ '=' :: ' ' :: (note.kind ++ [':'])) note.text
  rw [Text.dropFinal_eq_self hlast] at hfront
  simpa using hfront

/-! ## Headers among lines -/

/-- A line that begins with a letter of a word for a level has no place in a body. -/
theorem ofLine_of_letter (hc : c ∈ ['e', 'w', 'n', 'h']) (rest : List Char) :
    BodyLine.ofLine (c :: rest) = .stop := by
  obtain ⟨hwhite, hinline, hdigit, hsigns⟩ := letter_spec hc
  simp only [List.mem_cons, List.not_mem_nil, or_false, not_or] at hsigns
  obtain ⟨hequals, hbar, hdot, hcolon, -⟩ := hsigns
  have hstart : (c :: rest).dropWhile isInlineBlank = c :: rest :=
    List.dropWhile_cons_of_neg (by simp [hinline])
  have hnote : Note.read? (c :: rest) = none := by
    refine note_read?_eq_none ?_
    rw [hstart]
    exact Text.forall_head?_cons hequals rest
  have hgutter : gutter? (c :: rest) = none := by
    have hnumber : (c :: rest).dropWhile isDecimalDigit = c :: rest :=
      List.dropWhile_cons_of_neg (by simp [hdigit])
    rw [gutter?, hstart, hnumber, hstart]
    simp [List.isPrefixOf?, Ne.symm hbar]
  have htrim : Text.trimStart (c :: rest) = c :: rest :=
    List.dropWhile_cons_of_neg (by simp [hwhite])
  rw [BodyLine.ofLine, isBlank_eq_false List.mem_cons_self hwhite, hnote, hgutter]
  simp [htrim, hdot, Ne.symm hcolon]

/-- A line that begins with a letter of a word for a level divides a text. -/
theorem divides_of_letter (hc : c ∈ ['e', 'w', 'n', 'h']) (rest : List Char) :
    Divides (c :: rest) := by
  obtain ⟨-, hinline, -, hsigns⟩ := letter_spec hc
  simp only [List.mem_cons, List.not_mem_nil, or_false, not_or] at hsigns
  obtain ⟨-, -, -, -, harrow, hreturn⟩ := hsigns
  constructor
  · rw [Location.read?, List.dropWhile_cons_of_neg (by simp [hinline])]
    simp [List.isPrefixOf?, Ne.symm harrow]
  · have hfront := dropFinal_append_cons hreturn [] rest
    rw [List.nil_append, List.nil_append] at hfront
    rw [hfront]
    exact ofLine_of_letter hc _

/-- The header of a block divides a text. -/
theorem divides_of_opening? {second : List Char} {block : Header × Location}
    (h : opening? line second = some block) : Divides line := by
  simp only [opening?, Header.read?, Option.bind_eq_bind, Option.bind_eq_some_iff, Prod.exists] at h
  obtain ⟨header, ⟨severity, left, hlevel, -⟩, -⟩ := h
  obtain ⟨word, hword, rfl⟩ := scanLevel?_eq_some_iff.1 hlevel
  obtain ⟨c, hc, letters, heq⟩ := exists_letter_of_mem_levels hword
  rw [heq]
  exact divides_of_letter hc _

end Toolbench.Diagnostic.HumanBlock
