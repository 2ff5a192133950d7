import Toolbench.Proofs.Diagnostic.BlockLines
import Mathlib.Data.List.Forall2

/-!
# Reading back rendered blocks

`Block.Renders` says how the lines of a block look, and `IsDocument` how blocks stand in a text,
between blank lines and among lines of other kinds. `diagnostics_of_document` is the round trip:
what is read of such a text is one diagnostic for each block, in order. Paths may hold colons,
messages arrows and brackets, and source lines text that looks like markers or notes.
-/

namespace Toolbench.Diagnostic.HumanBlock

open Text (IsRun isWhite isInlineBlank isDecimalDigit)
open Text.Decimal (Denotes)

/-! ## How a block looks -/

/-- What a block says. -/
structure Block where
  severity : Severity
  code : Option (List Char)
  message : List Char
  path : List Char
  line : UInt32
  column : UInt32
  /-- The run of markers under the source lines. -/
  underline : Option Underline
  notes : List Note
deriving DecidableEq, Repr

/-- The column behind the marked text, at most the greatest word. -/
def Block.endColumn (block : Block) : UInt32 :=
  block.underline.elim block.column fun underline =>
    UInt32.ofNat (min (block.column.toNat + underline.width.toNat) 4294967295)

/-- The message, and a line for each note. -/
def Block.text (block : Block) : List Char :=
  block.message ++ block.notes.flatMap fun note =>
    "\n  ".toList ++ note.kind ++ ": ".toList ++ note.text

/-- The diagnostic that a block is about. -/
def Block.diagnostic (block : Block) : Diagnostic where
  path := ⟨String.ofList block.path⟩
  range := ⟨block.line, block.column, block.line, block.endColumn⟩
  severity := block.severity
  message := String.ofList block.text
  code := block.code.map String.ofList

/-- A code stands in brackets or in parentheses. It is not empty and does not hold the sign that
closes it. -/
inductive IsCode : Option (List Char) → List Char → Prop where
  | absent : IsCode none []
  | enclosed {opening closing : Char} {code : List Char}
      (hsigns : (opening, closing) ∈ [('[', ']'), ('(', ')')]) (hcode : IsRun (· != closing) code) :
      IsCode (some code) (opening :: (code ++ [closing]))

/-- The header of a block. Its message is not empty and does not end in white space. -/
def Block.IsHeader (block : Block) (line : List Char) : Prop :=
  ∃ word code, (word, block.severity) ∈ levels ∧ IsCode block.code code ∧ block.message ≠ [] ∧
    (∀ c ∈ block.message.getLast?, isWhite c = false) ∧
    line = word.toList ++ (code ++ ':' :: ' ' :: block.message)

/-- The location line of a block. Its path is not empty and has no white space at its ends. -/
def Block.IsLocation (block : Block) (line : List Char) : Prop :=
  ∃ lead first second, (∀ c ∈ lead, isInlineBlank c = true) ∧
    Denotes first block.line ∧ Denotes second block.column ∧ block.path ≠ [] ∧
    (∀ c ∈ block.path.head?, isWhite c = false) ∧
    (∀ c ∈ block.path.getLast?, isWhite c = false) ∧
    line = lead ++ "--> ".toList ++ (block.path ++ ':' :: (first ++ ':' :: second))

/-- A bare gutter. -/
def IsGutter (line : List Char) : Prop :=
  ∃ content, margin? line = some content ∧ Text.isBlank content = true

/-- A line of markers. A label may follow the run that leads it. -/
def IsMarked (underline : Underline) (line : List Char) : Prop :=
  ∃ blanks label, Text.isBlank blanks = true ∧ isMarker underline.marker = true ∧
    0 < underline.width.toNat ∧ label.head? ≠ some underline.marker ∧
    margin? line
      = some (blanks ++ List.replicate underline.width.toNat underline.marker ++ label)

/-- A line that belongs to a block and says nothing: source text or a bare gutter. -/
def IsQuiet (line : List Char) : Prop :=
  IsSource line ∨ IsGutter line

/-- The lines behind the location of a block: source text between gutters, perhaps a line of
markers in it, and the notes. -/
def Block.IsBody (block : Block) (lines : List (List Char)) : Prop :=
  ∃ above marked below notes, (∀ line ∈ above, IsQuiet line) ∧
    List.Forall₂ IsMarked block.underline.toList marked ∧ (∀ line ∈ below, IsQuiet line) ∧
    List.Forall₂ IsNote block.notes notes ∧ lines = above ++ (marked ++ (below ++ notes))

/-- The lines of a block: its header, its location and its body. -/
def Block.Renders (block : Block) (lines : List (List Char)) : Prop :=
  ∃ header location body, block.IsHeader header ∧ block.IsLocation location ∧ block.IsBody body ∧
    lines = header :: location :: body

/-- Lines between blank lines: lines of which none begins with the word for a level, or a block. -/
inductive IsSegment : List Block → List (List Char) → Prop where
  | plain {lines : List (List Char)}
      (hwords : ∀ line ∈ lines, ∀ entry ∈ levels, ¬ entry.1.toList <+: line) : IsSegment [] lines
  | block {block : Block} {lines : List (List Char)} (hlines : block.Renders lines) :
      IsSegment [block] lines

/-- The lines of a text with these blocks: segments with a blank line after each but the last. -/
inductive IsDocument : List Block → List (List Char) → Prop where
  | last {blocks : List Block} {lines : List (List Char)} (h : IsSegment blocks lines) :
      IsDocument blocks lines
  | next {blocks others : List Block} {lines rest : List (List Char)} {gap : List Char}
      (h : IsSegment blocks lines) (hgap : Text.isBlank gap = true)
      (hrest : IsDocument others rest) : IsDocument (blocks ++ others) (lines ++ gap :: rest)

variable {block : Block} {line : List Char} {lines : List (List Char)}

/-! ## Header and location -/

/-- A code is read back in front of other text. -/
theorem IsCode.scan {code : Option (List Char)} {text : List Char} (h : IsCode code text)
    (rest : List Char) : scanOptionalCode? (text ++ ':' :: rest) = some (code, ':' :: rest) := by
  cases h with
  | absent => rfl
  | @enclosed opening closing code hsigns hcode =>
      have hclose : ∀ c ∈ (closing :: ':' :: rest).head?, (c != closing) = false :=
        Text.forall_head?_cons (bne_self_eq_false closing) _
      have hscan : scanCode? closing (code ++ closing :: ':' :: rest)
          = some (some code, ':' :: rest) := by
        unfold scanCode?
        rw [scanRun?_append hcode hclose]
        simp [List.isPrefixOf?]
      have hshape : opening :: (code ++ [closing]) ++ ':' :: rest
          = opening :: (code ++ closing :: ':' :: rest) := by simp
      rw [hshape]
      simp only [List.mem_cons, Prod.mk.injEq, List.not_mem_nil, or_false] at hsigns
      rcases hsigns with ⟨rfl, rfl⟩ | ⟨rfl, rfl⟩
      · exact hscan
      · exact hscan

/-- A code that is read stands in front of the rest. -/
theorem isCode_of_scan {cs rest : List Char} {code : Option (List Char)}
    (h : scanOptionalCode? cs = some (code, rest)) :
    ∃ text, IsCode code text ∧ cs = text ++ rest := by
  have henclosed : ∀ {opening closing : Char} {cs : List Char},
      (opening, closing) ∈ [('[', ']'), ('(', ')')] →
      scanCode? closing cs = some (code, rest) →
      ∃ text, IsCode code text ∧ opening :: cs = text ++ rest := by
    intro opening closing cs hsigns hscan
    obtain ⟨⟨run, behind⟩, hrun, hclose⟩ := Option.bind_eq_some_iff.1 hscan
    obtain ⟨left, hleft, heq⟩ := Option.bind_eq_some_iff.1 hclose
    obtain ⟨rfl, rfl⟩ := Prod.mk.inj (Option.some.inj heq)
    obtain ⟨rfl, hcode, -⟩ := scanRun?_eq_some_iff.1 hrun
    rw [← List.isPrefixOf?_eq_some_iff_append_eq.1 hleft]
    exact ⟨_, .enclosed hsigns hcode, by simp⟩
  unfold scanOptionalCode? at h
  split at h
  · exact henclosed (by decide) h
  · exact henclosed (by decide) h
  · obtain ⟨rfl, rfl⟩ := Prod.mk.inj (Option.some.inj h)
    exact ⟨[], .absent, rfl⟩

/-- A header is read exactly where a line is the word for a level, perhaps a code, and a message
that is not empty. -/
theorem Header.read?_eq_some_iff {header : Header} : Header.read? line = some header ↔
    ∃ word code, (word, header.severity) ∈ levels ∧ IsCode header.code code ∧
      header.message ≠ [] ∧ line = word.toList ++ (code ++ ':' :: ' ' :: header.message) := by
  constructor
  · intro h
    obtain ⟨⟨severity, cs⟩, hlevel, hcs⟩ := Option.bind_eq_some_iff.1 h
    obtain ⟨⟨code, rest⟩, hcode, hrest⟩ := Option.bind_eq_some_iff.1 hcs
    obtain ⟨message, hmessage, hne⟩ := Option.bind_eq_some_iff.1 hrest
    obtain ⟨word, hword, rfl⟩ := scanLevel?_eq_some_iff.1 hlevel
    obtain ⟨text, htext, rfl⟩ := isCode_of_scan hcode
    rw [← List.isPrefixOf?_eq_some_iff_append_eq.1 hmessage]
    split at hne
    · exact nomatch hne
    · rename_i hsome
      obtain rfl := Option.some.inj hne
      exact ⟨word, text, hword, htext, hsome, rfl⟩
  · rintro ⟨word, code, hword, hcode, hne, rfl⟩
    rw [Header.read?, scanLevel?_eq_some_iff.2 ⟨word, hword, rfl⟩]
    show (scanOptionalCode? (code ++ ':' :: ' ' :: header.message)).bind _ = _
    rw [hcode.scan]
    show (if header.message = [] then none else _) = _
    rw [if_neg hne]

/-- The header of a block is read back. -/
theorem Block.IsHeader.read? (h : block.IsHeader line) :
    Header.read? line = some ⟨block.severity, block.code, block.message⟩ := by
  obtain ⟨word, code, hword, hcode, hne, -, hline⟩ := h
  exact Header.read?_eq_some_iff.2 ⟨word, code, hword, hcode, hne, hline⟩

/-- A path and two runs of digits are read back from the end. -/
theorem readReversed?_append {path first second : List Char} (hpath : path ≠ [])
    (hfirst : IsRun isDecimalDigit first) (hsecond : IsRun isDecimalDigit second) :
    Location.readReversed? (path ++ ':' :: (first ++ ':' :: second)).reverse
      = some ⟨path, first, second⟩ := by
  have hcolon : ∀ {rest : List Char}, ∀ c ∈ (':' :: rest).head?, isDecimalDigit c = false :=
    Text.forall_head?_cons (by decide) _
  have hshape : (path ++ ':' :: (first ++ ':' :: second)).reverse
      = second.reverse ++ ':' :: (first.reverse ++ ':' :: path.reverse) := by simp
  have hblanks : (second.reverse ++ ':' :: (first.reverse ++ ':' :: path.reverse)).dropWhile
      isInlineBlank = second.reverse ++ ':' :: (first.reverse ++ ':' :: path.reverse) := by
    obtain ⟨digit, digits, hdigits⟩ := List.exists_cons_of_ne_nil hsecond.reverse.1
    rw [hdigits, List.cons_append, List.dropWhile_cons_of_neg]
    intro hblank
    have hdigit := hsecond.reverse.2 digit (hdigits ▸ List.mem_cons_self)
    rw [Text.isDecimalDigit_of_isWhite (Text.isWhite_of_isInlineBlank hblank)] at hdigit
    exact nomatch hdigit
  rw [hshape, Location.readReversed?, hblanks, scanRun?_append hsecond.reverse hcolon]
  show (scanRun? isDecimalDigit (first.reverse ++ ':' :: path.reverse)).bind _ = _
  rw [scanRun?_append hfirst.reverse hcolon]
  show (if path.reverse = [] then none else _) = _
  rw [if_neg (List.reverse_ne_nil_iff.2 hpath)]
  simp only [List.reverse_reverse]

/-- The location of a block is read back, with digits that denote its place. -/
theorem Block.IsLocation.read? (h : block.IsLocation line) : ∃ first second,
    Location.read? line = some ⟨block.path, first, second⟩ ∧ Denotes first block.line ∧
      Denotes second block.column ∧ Text.trim block.path = block.path := by
  obtain ⟨lead, first, second, hlead, hfirst, hsecond, hne, hstart, hend, rfl⟩ := h
  refine ⟨first, second, ?_, hfirst, hsecond, ?_⟩
  · rw [Location.read?, List.append_assoc]
    show (List.isPrefixOf? _ ((lead ++ '-' :: _).dropWhile isInlineBlank)).bind _ = _
    rw [dropWhile_lead hlead (by decide)]
    exact readReversed?_append hne hfirst.1.isDecimalDigit hsecond.1.isDecimalDigit
  · rw [Text.trim, Text.trimStart_eq_self hstart, Text.trimEnd_eq_self hend]

/-! ## The body -/

/-- The line belongs to a body, as cut at line feeds. -/
def InBody (line : List Char) : Prop :=
  BodyLine.ofLine (Text.dropFinal '\r' line) ≠ .stop

/-- No line of a body begins with the word for a level. -/
theorem InBody.scanLevel? (h : InBody line) : scanLevel? line = none := by
  rw [scanLevel?_eq_none_iff]
  rintro ⟨word, severity⟩ hentry ⟨rest, rfl⟩
  obtain ⟨c, hc, letters, hletters⟩ := exists_letter_of_mem_levels hentry
  refine h ?_
  show BodyLine.ofLine (Text.dropFinal '\r' (word.toList ++ rest)) = .stop
  rw [hletters]
  exact (divides_of_letter hc _).stops

/-- No block begins among lines that do not begin with the word for a level. -/
theorem ofPieces_eq_nil (h : ∀ line ∈ lines, scanLevel? line = none) : ofPieces lines = [] := by
  induction lines using ofPieces.induct with
  | case1 => rfl
  | case2 => rfl
  | case3 first second rest header location hopening ih =>
      have hfirst := h first List.mem_cons_self
      simp [opening?, Header.read?, hfirst] at hopening
  | case4 first second rest hopening ih =>
      rw [ofPieces_of_none hopening]
      exact ih fun line hline => h line (List.mem_cons_of_mem first hline)

/-- A quiet line adds nothing to a body. -/
theorem IsQuiet.ofLine (h : IsQuiet line) :
    BodyLine.ofLine (Text.dropFinal '\r' line) = .context ∨
      BodyLine.ofLine (Text.dropFinal '\r' line) = .margin none := by
  rcases h with hsource | ⟨content, hmargin, hblank⟩
  · exact .inl hsource.dropFinal.ofLine
  · refine .inr ?_
    rw [ofLine_of_margin? (margin?_dropFinal hmargin), Underline.read?,
      Text.trimStart_eq_nil_iff.2 (isBlank_dropFinal hblank)]

/-- A line of markers is read as the run that leads it. -/
theorem IsMarked.ofLine {underline : Underline} (h : IsMarked underline line) :
    BodyLine.ofLine (Text.dropFinal '\r' line) = .margin (some underline) := by
  obtain ⟨blanks, label, hblanks, hmarker, hwidth, hlabel, hmargin⟩ := h
  -- The final carriage return, if any, belongs to the label.
  have hdrop : Text.dropFinal '\r'
      (blanks ++ List.replicate underline.width.toNat underline.marker ++ label)
      = blanks ++ List.replicate underline.width.toNat underline.marker
        ++ Text.dropFinal '\r' label := by
    obtain ⟨more, hmore⟩ : ∃ more, underline.width.toNat = more + 1 :=
      ⟨underline.width.toNat - 1, by omega⟩
    have hreturn : underline.marker ≠ '\r' := by
      intro hreturn
      rw [hreturn] at hmarker
      exact nomatch hmarker
    have hfront := dropFinal_append_cons hreturn
      (blanks ++ List.replicate more underline.marker) label
    rw [hmore, List.replicate_succ']
    simpa using hfront
  have hhead : (Text.dropFinal '\r' label).head? ≠ some underline.marker := by
    rcases Text.dropFinal_eq_self_or '\r' label with hsame | ⟨front, rfl⟩
    · rwa [hsame]
    · rw [Text.dropFinal_concat]
      cases front with
      | nil => exact nofun
      | cons c cs => exact hlabel
  rw [ofLine_of_margin? (margin?_dropFinal hmargin), hdrop,
    underline_read?_append hblanks hmarker hwidth hhead, Text.Word.ofNat?_toNat]
  rfl

/-- A note is read back. -/
theorem IsNote.ofLine_dropFinal {note : Note} (h : IsNote note line) :
    BodyLine.ofLine (Text.dropFinal '\r' line) = .note note := by
  rw [h.dropFinal_eq, h.ofLine]

/-- Quiet lines are left out. -/
theorem extend_quiet (h : ∀ line ∈ lines, IsQuiet line) (body : Body) (rest : List (List Char)) :
    body.extend (lines ++ rest) = body.extend rest := by
  induction lines with
  | nil => rfl
  | cons line lines ih =>
      obtain ⟨hline, hlines⟩ := List.forall_mem_cons.1 h
      rw [List.cons_append, Body.extend]
      rcases hline.ofLine with hcontext | hmargin
      · rw [hcontext]
        exact ih hlines
      · rw [hmargin]
        exact ih hlines

/-- Notes are added in order. -/
theorem extend_notes {notes : List Note} (h : List.Forall₂ IsNote notes lines) (body : Body) :
    body.extend lines = { body with notes := body.notes ++ notes } := by
  induction h generalizing body with
  | nil => rw [Body.extend, List.append_nil]
  | @cons note line notes lines hnote hnotes ih =>
      rw [Body.extend, hnote.ofLine_dropFinal]
      show ({ body with notes := body.notes ++ [note] } : Body).extend lines = _
      rw [ih, List.append_assoc, List.singleton_append]

/-- A line of markers gives the body its width. -/
theorem width?_extend_marked {underline : Option Underline} {marked : List (List Char)}
    (h : List.Forall₂ IsMarked underline.toList marked) (rest : List (List Char)) : ∃ body : Body,
      Body.empty.extend (marked ++ rest) = body.extend rest ∧ body.notes = [] ∧
      body.width? = underline.map (·.width) := by
  cases underline with
  | none =>
      obtain rfl : marked = [] := List.forall₂_nil_left_iff.1 h
      exact ⟨Body.empty, rfl, rfl, rfl⟩
  | some underline =>
      obtain ⟨line, lines, hline, hlines, rfl⟩ := List.forall₂_cons_left_iff.1 h
      obtain rfl : lines = [] := List.forall₂_nil_left_iff.1 hlines
      refine ⟨Body.empty.mark underline, ?_, ?_, ?_⟩
      · rw [List.singleton_append, Body.extend, hline.ofLine]
        rfl
      · unfold Body.mark
        split <;> rfl
      · unfold Body.mark
        split <;> rfl

/-- The body of a block has its width and its notes. -/
theorem Block.IsBody.extend (h : block.IsBody lines) :
    (Body.empty.extend lines).width? = block.underline.map (·.width) ∧
      (Body.empty.extend lines).notes = block.notes := by
  obtain ⟨above, marked, below, notes, habove, hmarked, hbelow, hnotes, rfl⟩ := h
  obtain ⟨body, hextend, hnone, hwidth⟩ := width?_extend_marked hmarked (below ++ notes)
  rw [extend_quiet habove, hextend, extend_quiet hbelow, extend_notes hnotes]
  refine ⟨hwidth, ?_⟩
  rw [hnone, List.nil_append]

/-- Lines that are each read as something belong to a body. -/
theorem inBody_of_forall₂ {α : Type} {reads : α → List Char → Prop} {items : List α}
    (hbody : ∀ item line, reads item line → InBody line) (h : List.Forall₂ reads items lines) :
    ∀ line ∈ lines, InBody line := by
  induction h with
  | nil => exact List.forall_mem_nil _
  | cons hline hlines ih => exact List.forall_mem_cons.2 ⟨hbody _ _ hline, ih⟩

/-- The lines of a body belong to it. -/
theorem Block.IsBody.inBody (h : block.IsBody lines) : ∀ line ∈ lines, InBody line := by
  obtain ⟨above, marked, below, notes, habove, hmarked, hbelow, hnotes, rfl⟩ := h
  have hquiet : ∀ line, IsQuiet line → InBody line := by
    intro line hline hstop
    rcases hline.ofLine with hcontext | hmargin
    · exact nomatch hcontext.symm.trans hstop
    · exact nomatch hmargin.symm.trans hstop
  have hunderline : ∀ underline line, IsMarked underline line → InBody line := by
    intro underline line hline hstop
    exact nomatch hline.ofLine.symm.trans hstop
  have hnote : ∀ note line, IsNote note line → InBody line := by
    intro note line hline hstop
    exact nomatch hline.ofLine_dropFinal.symm.trans hstop
  simp only [List.forall_mem_append]
  exact ⟨fun line hline => hquiet line (habove line hline), inBody_of_forall₂ hunderline hmarked,
    fun line hline => hquiet line (hbelow line hline), inBody_of_forall₂ hnote hnotes⟩

/-! ## Blocks and documents -/

/-- The end column of a block is its start column plus the width of its body. -/
theorem Block.endColumn_eq (block : Block) :
    block.endColumn
      = (block.underline.map (·.width)).elim block.column (Text.Word.add block.column) := by
  unfold Block.endColumn
  cases block.underline with
  | none => rfl
  | some underline =>
      rw [← UInt32.toNat_inj]
      show (UInt32.ofNat (min (block.column.toNat + underline.width.toNat) 4294967295)).toNat
        = (Text.Word.add block.column underline.width).toNat
      have hfits : min (block.column.toNat + underline.width.toNat) 4294967295 < UInt32.size :=
        Nat.lt_of_le_of_lt (Nat.min_le_right _ _) (by decide)
      rw [Text.Word.toNat_add, UInt32.toNat_ofNat_of_lt' hfits]

/-- The code of a block is written down as it is: it is not empty. -/
theorem IsCode.filter_eq {code : Option (List Char)} {text : List Char} (h : IsCode code text) :
    (code.map String.ofList).filter (· ≠ "") = code.map String.ofList := by
  cases h with
  | absent => rfl
  | enclosed hsigns hcode =>
      have hne : String.ofList _ ≠ "" := fun hempty => hcode.1 (String.ofList_injective hempty)
      simp [Option.filter_some, hne]

/-- A rendered block is read as its diagnostic and nothing else. -/
theorem Block.Renders.ofPieces (h : block.Renders lines) :
    HumanBlock.ofPieces lines = [block.diagnostic] := by
  obtain ⟨header, location, body, hheader, hlocation, hbody, rfl⟩ := h
  obtain ⟨first, second, hplace, hline, hcolumn, htrim⟩ := hlocation.read?
  obtain ⟨hwidth, hnotes⟩ := hbody.extend
  have hopening : opening? header location
      = some (⟨block.severity, block.code, block.message⟩, ⟨block.path, first, second⟩) := by
    rw [opening?, hheader.read?, hplace]
    rfl
  obtain ⟨word, code, -, hcode, -, hend, -⟩ := hheader
  have hdiagnostic : diagnostic? ⟨block.severity, block.code, block.message⟩
      ⟨block.path, first, second⟩ (Body.empty.extend body) = some block.diagnostic := by
    rw [diagnostic?, Text.Decimal.readWord32?_eq_some_iff.2 hline,
      Text.Decimal.readWord32?_eq_some_iff.2 hcolumn]
    show some (Diagnostic.withCode _ _) = _
    rw [Diagnostic.withCode, hcode.filter_eq, Text.trimEnd_eq_self hend, htrim, hwidth,
      ← Block.endColumn_eq, Body.suffix, hnotes]
    rfl
  have hbehind : HumanBlock.ofPieces body = [] :=
    ofPieces_eq_nil fun line hmem => (hbody.inBody line hmem).scanLevel?
  rw [ofPieces_of_some hopening, hdiagnostic, hbehind]
  rfl

/-- What is read of a segment are its blocks. -/
theorem IsSegment.ofPieces {blocks : List Block} (h : IsSegment blocks lines) :
    HumanBlock.ofPieces lines = blocks.map Block.diagnostic := by
  cases h with
  | plain hwords =>
      exact ofPieces_eq_nil fun line hline => scanLevel?_eq_none_iff.2 (hwords line hline)
  | block hlines => exact hlines.ofPieces

/-- What is read of a document are its blocks, segment by segment. -/
theorem IsDocument.ofPieces {blocks : List Block} (h : IsDocument blocks lines) :
    HumanBlock.ofPieces lines = blocks.map Block.diagnostic := by
  induction h with
  | last h => exact h.ofPieces
  | next h hgap hrest ih => rw [ofPieces_append_blank hgap, h.ofPieces, ih, List.map_append]

end Toolbench.Diagnostic.HumanBlock
