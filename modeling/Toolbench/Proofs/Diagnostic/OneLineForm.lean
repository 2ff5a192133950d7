import Toolbench.Diagnostic.LegacyLine
import Toolbench.Proofs.Diagnostic.Scanning

/-!
# The language of one-line diagnostics

A line may be a path followed by the rest of the form in several ways, since a path may hold colons
and digits. The shortest path counts, and of the white space before the message as much as there
is. `line_language` says that a line holds a diagnostic exactly when it has such a first cut and
its four runs of digits denote words, and that every diagnostic written in this form is read back.
-/

namespace Toolbench.Diagnostic.LegacyLine

open Text (IsRun isWhite isDecimalDigit)
open Text.Decimal (Denotes)

/-! ## Cuts of a line -/

/-- The text is what follows a path: each part in its place, with white space where the form has
blanks. -/
def Tail.Follows (tail : Tail) (cs : List Char) : Prop :=
  ∃ (word : String) (gap levelGap messageGap : List Char),
    (word, tail.severity) ∈ levels ∧
      (∀ blanks ∈ [gap, levelGap, messageGap], IsRun isWhite blanks) ∧
      (∀ number ∈ [tail.startLine, tail.startColumn, tail.endLine, tail.endColumn],
        IsRun isDecimalDigit number) ∧
      cs = ':' :: tail.startLine ++ ':' :: tail.startColumn ++ ':' :: gap ++ tail.endLine
        ++ ':' :: tail.endColumn ++ levelGap ++ word.toList ++ ':' :: messageGap ++ tail.message

/-- The four runs of digits denote the words of the range. -/
structure Tail.HasRange (tail : Tail) (range : TextRange) : Prop where
  startLine : Denotes tail.startLine range.startLine
  startColumn : Denotes tail.startColumn range.startColumn
  endLine : Denotes tail.endLine range.endLine
  endColumn : Denotes tail.endColumn range.endColumn

/-- The line is a path, not empty, and what follows one. -/
def Cuts (line path : List Char) (tail : Tail) : Prop :=
  path ≠ [] ∧ ∃ rest, line = path ++ rest ∧ tail.Follows rest

/-- The cut with the shortest path, and with as much white space before the message as there is. -/
structure FirstCut (line path : List Char) (tail : Tail) : Prop where
  cuts : Cuts line path tail
  shortest : ∀ {other : List Char} {otherTail : Tail}, Cuts line other otherTail →
    path.length ≤ other.length
  trimmed : ∀ c ∈ tail.message.head?, isWhite c = false

variable {cs line path : List Char} {tail : Tail} {range : TextRange}

/-- What follows a path is read with as much white space before the message as there is. -/
theorem Tail.read?_eq_some_iff : Tail.read? cs = some tail ↔
    tail.Follows cs ∧ (∀ c ∈ tail.message.head?, isWhite c = false) ∧ '\n' ∉ tail.message := by
  obtain ⟨startLine, startColumn, endLine, endColumn, severity, message⟩ := tail
  simp only [Tail.read?, Tail.Follows, Option.bind_eq_bind, Option.bind_eq_some_iff, Prod.exists,
    scanRun?_eq_some_iff, scanLevel?_eq_some_iff, List.isPrefixOf?_eq_some_iff_append_eq,
    List.singleton_append, List.forall_mem_cons]
  constructor
  · rintro ⟨_, rfl, _, _, ⟨rfl, hstartLine, -⟩, _, rfl, _, _, ⟨rfl, hstartColumn, -⟩, _, rfl,
      gap, _, ⟨rfl, hgap, -⟩, _, _, ⟨rfl, hendLine, -⟩, _, rfl, _, _, ⟨rfl, hendColumn, -⟩,
      levelGap, _, ⟨rfl, hlevelGap, -⟩, _, _, ⟨word, hword, rfl⟩, _, rfl,
      messageGap, _, ⟨rfl, hmessageGap, hmessage⟩, hfeed⟩
    split at hfeed
    · exact nomatch hfeed
    · rename_i hmem
      cases hfeed
      refine ⟨⟨word, gap, levelGap, messageGap, hword, ?_, ?_, by simp⟩, hmessage, hmem⟩
      · exact ⟨hgap, hlevelGap, hmessageGap, List.forall_mem_nil _⟩
      · exact ⟨hstartLine, hstartColumn, hendLine, hendColumn, List.forall_mem_nil _⟩
  · rintro ⟨⟨word, gap, levelGap, messageGap, hword, ⟨hgap, hlevelGap, hmessageGap, -⟩,
      ⟨hstartLine, hstartColumn, hendLine, hendColumn, -⟩, rfl⟩, hmessage, hfeed⟩
    simp only [List.append_assoc, List.cons_append]
    -- Each run ends where the next part begins: at a colon, a digit, white space or a letter.
    have hcolon : ∀ {rest : List Char}, ∀ c ∈ (':' :: rest).head?, isDecimalDigit c = false :=
      Text.forall_head?_cons (by decide) _
    have hletter : ∀ {rest : List Char}, ∀ c ∈ (word.toList ++ rest).head?, isWhite c = false := by
      intro rest
      obtain ⟨letter, hletter, letters, heq⟩ := exists_letter_of_mem_levels hword
      rw [heq]
      exact Text.forall_head?_cons (letter_spec hletter).1 _
    refine ⟨_, rfl, _, _, ⟨rfl, hstartLine, hcolon⟩, _, rfl, _, _, ⟨rfl, hstartColumn, hcolon⟩, _,
      rfl, _, _, ⟨rfl, hgap, ?_⟩, _, _, ⟨rfl, hendLine, hcolon⟩, _, rfl, _, _,
      ⟨rfl, hendColumn, ?_⟩, _, _, ⟨rfl, hlevelGap, hletter⟩, _, _, ⟨word, hword, rfl⟩, _, rfl,
      _, _, ⟨rfl, hmessageGap, hmessage⟩, if_neg hfeed⟩
    · exact fun c hc => Text.isWhite_of_isDecimalDigit (hendLine.of_head? hc)
    · exact fun c hc => Text.isDecimalDigit_of_isWhite (hlevelGap.of_head? hc)

/-- Where a text follows a path in some way, it does so with as much white space before the message
as there is. -/
theorem Tail.Follows.exists_read? (h : tail.Follows cs) (hfeed : '\n' ∉ cs) :
    ∃ found, Tail.read? cs = some found := by
  obtain ⟨word, gap, levelGap, messageGap, hword, hblanks, hnumbers, rfl⟩ := h
  let blanks := tail.message.takeWhile isWhite
  let message := tail.message.dropWhile isWhite
  have hsplit : tail.message = blanks ++ message := List.takeWhile_append_dropWhile.symm
  refine ⟨{ tail with message := message }, Tail.read?_eq_some_iff.2 ⟨?_, ?_, ?_⟩⟩
  · refine ⟨word, gap, levelGap, messageGap ++ blanks, hword, ?_, hnumbers, ?_⟩
    · simp only [List.forall_mem_cons] at hblanks ⊢
      obtain ⟨hgap, hlevelGap, ⟨hne, hwhite⟩, -⟩ := hblanks
      refine ⟨hgap, hlevelGap, ⟨List.append_ne_nil_of_left_ne_nil hne _, ?_⟩,
        List.forall_mem_nil _⟩
      exact List.forall_mem_append.2 ⟨hwhite, fun c hc => List.mem_takeWhile_imp hc⟩
    · rw [hsplit]
      simp
  · intro c hc
    have hhead := List.head?_dropWhile_not isWhite tail.message
    rw [hc] at hhead
    exact hhead
  · intro hmem
    refine hfeed (List.mem_append_right _ ?_)
    rw [hsplit]
    exact List.mem_append_right _ hmem

/-- The path of a cut is the first character, or it goes on as the path of a cut of the rest. -/
theorem cuts_cons_iff {c : Char} : Cuts (c :: cs) path tail ↔
    path = [c] ∧ tail.Follows cs ∨ ∃ others, path = c :: others ∧ Cuts cs others tail := by
  constructor
  · rintro ⟨hne, rest, heq, hrest⟩
    obtain ⟨first, others, rfl⟩ := List.exists_cons_of_ne_nil hne
    obtain ⟨rfl, rfl⟩ := List.cons.inj heq
    cases others with
    | nil => exact .inl ⟨rfl, hrest⟩
    | cons next others => exact .inr ⟨_, rfl, List.cons_ne_nil next others, rest, rfl, hrest⟩
  · rintro (⟨rfl, hrest⟩ | ⟨others, rfl, -, rest, rfl, hrest⟩)
    · exact ⟨List.cons_ne_nil c [], cs, rfl, hrest⟩
    · exact ⟨List.cons_ne_nil c others, rest, rfl, hrest⟩

/-- Where no rest of the form begins right after the first character, every path goes on. -/
theorem Cuts.goes_on {c : Char} (h : Cuts (c :: cs) path tail) (hcs : '\n' ∉ cs)
    (hread : Tail.read? cs = none) : ∃ others, path = c :: others ∧ Cuts cs others tail := by
  refine (cuts_cons_iff.1 h).resolve_left ?_
  rintro ⟨-, hrest⟩
  obtain ⟨found, hfound⟩ := hrest.exists_read? hcs
  exact nomatch hread.symm.trans hfound

/-- A line that can be cut is cut. -/
theorem Cuts.exists_split? (h : Cuts line path tail) (hline : '\n' ∉ line) :
    ∃ found, split? line = some found := by
  induction line generalizing path with
  | nil =>
      obtain ⟨hne, rest, hnil, -⟩ := h
      exact absurd (List.append_eq_nil_iff.1 hnil.symm).1 hne
  | cons c cs ih =>
      obtain ⟨hc, hcs⟩ := not_or.1 (mt List.mem_cons.2 hline)
      rw [split?, if_neg (Ne.symm hc)]
      cases hread : Tail.read? cs with
      | some found => exact ⟨_, rfl⟩
      | none =>
          obtain ⟨others, -, hcuts⟩ := h.goes_on hcs hread
          obtain ⟨found, hfound⟩ := ih hcuts hcs
          rw [hfound]
          exact ⟨_, rfl⟩

/-- Where a rest of the form begins right after the first character, that is the first cut. -/
theorem firstCut_cons_of_read? {c : Char} {found : Tail} (hcs : '\n' ∉ cs)
    (hread : Tail.read? cs = some found) :
    FirstCut (c :: cs) path tail ↔ path = [c] ∧ tail = found := by
  obtain ⟨hfollows, htrimmed, -⟩ := Tail.read?_eq_some_iff.1 hread
  have hcuts : Cuts (c :: cs) [c] found := cuts_cons_iff.2 (.inl ⟨rfl, hfollows⟩)
  constructor
  · intro h
    have hone : path.length ≤ 1 := h.shortest hcuts
    rcases cuts_cons_iff.1 h.cuts with ⟨rfl, hrest⟩ | ⟨others, rfl, hothers⟩
    · have hmessage : '\n' ∉ tail.message := by
        obtain ⟨_, _, _, _, _, _, _, rfl⟩ := hrest
        exact fun hmem => hcs (List.mem_append_right _ hmem)
      have hsame := Tail.read?_eq_some_iff.2 ⟨hrest, h.trimmed, hmessage⟩
      exact ⟨rfl, Option.some.inj (hsame.symm.trans hread)⟩
    · have hpos : 0 < others.length := List.length_pos_iff.2 hothers.1
      rw [List.length_cons] at hone
      omega
  · rintro ⟨rfl, rfl⟩
    exact ⟨hcuts, fun hother => List.length_pos_iff.2 hother.1, htrimmed⟩

/-- Where none does, the first cut is that of the rest of the line, with a longer path. -/
theorem firstCut_cons_of_read?_eq_none {c : Char} (hcs : '\n' ∉ cs)
    (hread : Tail.read? cs = none) :
    FirstCut (c :: cs) path tail ↔ ∃ others, path = c :: others ∧ FirstCut cs others tail := by
  constructor
  · intro h
    obtain ⟨others, rfl, hcuts⟩ := h.cuts.goes_on hcs hread
    refine ⟨others, rfl, hcuts, ?_, h.trimmed⟩
    intro other otherTail hother
    have hlater : Cuts (c :: cs) (c :: other) otherTail :=
      cuts_cons_iff.2 (.inr ⟨other, rfl, hother⟩)
    exact Nat.le_of_succ_le_succ (h.shortest hlater)
  · rintro ⟨others, rfl, h⟩
    refine ⟨cuts_cons_iff.2 (.inr ⟨others, rfl, h.cuts⟩), ?_, h.trimmed⟩
    intro other otherTail hother
    obtain ⟨further, rfl, hcuts⟩ := hother.goes_on hcs hread
    exact Nat.succ_le_succ (h.shortest hcuts)

/-- A line is cut at its first cut. -/
theorem split?_eq_some_iff (hline : '\n' ∉ line) :
    split? line = some (path, tail) ↔ FirstCut line path tail := by
  induction line generalizing path with
  | nil =>
      constructor
      · intro h
        exact nomatch h
      · intro h
        obtain ⟨found, hfound⟩ := h.cuts.exists_split? hline
        exact nomatch hfound
  | cons c cs ih =>
      obtain ⟨hc, hcs⟩ := not_or.1 (mt List.mem_cons.2 hline)
      rw [split?, if_neg (Ne.symm hc)]
      cases hread : Tail.read? cs with
      | some found =>
          rw [firstCut_cons_of_read? hcs hread]
          show some ([c], found) = some (path, tail) ↔ _
          rw [Option.some.injEq, Prod.mk.injEq]
          exact and_congr eq_comm eq_comm
      | none =>
          rw [firstCut_cons_of_read?_eq_none hcs hread]
          show (split? cs).map _ = some (path, tail) ↔ _
          rw [Option.map_eq_some_iff]
          constructor
          · rintro ⟨⟨others, found⟩, hfound, heq⟩
            obtain ⟨rfl, rfl⟩ := Prod.mk.inj heq
            exact ⟨others, rfl, (ih hcs).1 hfound⟩
          · rintro ⟨others, rfl, hfirst⟩
            exact ⟨(others, tail), (ih hcs).2 hfirst, rfl⟩

/-- A line that can be cut has one first cut. -/
theorem Cuts.existsUnique (h : Cuts line path tail) (hline : '\n' ∉ line) :
    ∃! cut : List Char × Tail, FirstCut line cut.1 cut.2 := by
  obtain ⟨found, hfound⟩ := h.exists_split? hline
  refine ⟨found, (split?_eq_some_iff hline).1 hfound, fun other hother => ?_⟩
  exact Option.some.inj (((split?_eq_some_iff hline).2 hother).symm.trans hfound)

/-! ## The diagnostic of a line -/

theorem Tail.range?_eq_some_iff : tail.range? = some range ↔ tail.HasRange range := by
  obtain ⟨startLine, startColumn, endLine, endColumn⟩ := range
  simp only [Tail.range?, Option.bind_eq_bind, Option.bind_eq_some_iff,
    Text.Decimal.readWord32?_eq_some_iff, pure, Option.some.injEq, TextRange.mk.injEq]
  constructor
  · rintro ⟨_, hstartLine, _, hstartColumn, _, hendLine, _, hendColumn, rfl, rfl, rfl, rfl⟩
    exact ⟨hstartLine, hstartColumn, hendLine, hendColumn⟩
  · intro h
    exact ⟨_, h.startLine, _, h.startColumn, _, h.endLine, _, h.endColumn, rfl, rfl, rfl, rfl⟩

/-- What is left of a line without its trailing carriage returns. -/
theorem dropReturns_spec (line : List Char) :
    (∃ n, line = dropReturns line ++ List.replicate n '\r') ∧
      (dropReturns line).getLast? ≠ some '\r' := by
  have hsplit : line.reverse.takeWhile (· == '\r') ++ line.reverse.dropWhile (· == '\r')
      = line.reverse := List.takeWhile_append_dropWhile
  have hreturns : line.reverse.takeWhile (· == '\r')
      = List.replicate (line.reverse.takeWhile (· == '\r')).length '\r' :=
    List.eq_replicate_iff.2 ⟨rfl, fun c hc => by simpa using List.mem_takeWhile_imp hc⟩
  constructor
  · refine ⟨(line.reverse.takeWhile (· == '\r')).length, ?_⟩
    rw [hreturns] at hsplit
    rw [dropReturns, ← List.reverse_replicate, ← List.reverse_append, hsplit, List.reverse_reverse]
  · intro hlast
    rw [dropReturns, List.getLast?_reverse] at hlast
    have hhead := List.head?_dropWhile_not (· == '\r') line.reverse
    rw [hlast] at hhead
    exact nomatch hhead

/-- A line that does not end in a carriage return keeps all of it. -/
theorem dropReturns_eq_self (h : line.getLast? ≠ some '\r') : dropReturns line = line := by
  rcases List.eq_nil_or_concat line with rfl | ⟨front, last, rfl⟩
  · rfl
  · have hlast : last ≠ '\r' := by simpa using h
    simp [dropReturns, hlast]

theorem not_mem_dropReturns (hline : '\n' ∉ line) : '\n' ∉ dropReturns line := by
  obtain ⟨n, heq⟩ := (dropReturns_spec line).1
  intro hmem
  exact hline (heq ▸ List.mem_append_left _ hmem)

/-- The diagnostic of a line is that of its first cut. -/
theorem diagnostic?_eq_some_iff (hline : '\n' ∉ line) {d : Diagnostic} :
    diagnostic? line = some d ↔ ∃ path tail range, FirstCut (dropReturns line) path tail ∧
      tail.HasRange range ∧ d = ⟨⟨String.ofList path⟩, range, tail.severity,
        String.ofList (Text.trimEnd tail.message), none⟩ := by
  simp only [diagnostic?, Option.bind_eq_bind, Option.bind_eq_some_iff, Prod.exists,
    split?_eq_some_iff (not_mem_dropReturns hline), Tail.range?_eq_some_iff, pure,
    Option.some.injEq]
  constructor
  · rintro ⟨path, tail, hcut, range, hrange, rfl⟩
    exact ⟨path, tail, range, hcut, hrange, rfl⟩
  · rintro ⟨path, tail, range, hcut, hrange, rfl⟩
    exact ⟨path, tail, hcut, range, hrange, rfl⟩

/-! ## Writing a line -/

/-- The word for a severity in this form. -/
def levelWord : Severity → String
  | .error => "error"
  | .warning => "warning"
  | .info => "note"
  | .hint => "help"

/-- The line that reports a diagnostic in this form. The form has no place for a code. -/
def write (d : Diagnostic) : List Char :=
  d.path.text.toList ++ ':' :: Text.Decimal.write d.range.startLine.toNat
    ++ ':' :: Text.Decimal.write d.range.startColumn.toNat
    ++ ':' :: ' ' :: Text.Decimal.write d.range.endLine.toNat
    ++ ':' :: Text.Decimal.write d.range.endColumn.toNat
    ++ ' ' :: (levelWord d.severity).toList ++ ':' :: ' ' :: d.message.toList

theorem levelWord_mem (severity : Severity) : (levelWord severity, severity) ∈ levels := by
  cases severity <;> decide

/-- What follows a path has three colons before its first white space, one of them at its start. -/
theorem Tail.Follows.takeWhile (h : tail.Follows cs) :
    ∃ before, cs.takeWhile (fun c => !isWhite c) = ':' :: before ∧ before.count ':' = 2 := by
  obtain ⟨word, gap, levelGap, messageGap, -, hblanks, hnumbers, rfl⟩ := h
  simp only [List.forall_mem_cons] at hblanks hnumbers
  obtain ⟨⟨hgap, hwhite⟩, -⟩ := hblanks
  obtain ⟨⟨-, hline⟩, ⟨-, hcolumn⟩, -⟩ := hnumbers
  obtain ⟨blank, blanks, rfl⟩ := List.exists_cons_of_ne_nil hgap
  have hcount : ∀ {number : List Char}, (∀ c ∈ number, isDecimalDigit c = true) →
      number.count ':' = 0 := by
    intro number hnumber
    refine List.count_eq_zero.2 fun hmem => ?_
    exact absurd (hnumber ':' hmem) (by decide)
  refine ⟨tail.startLine ++ ':' :: tail.startColumn ++ [':'], ?_, ?_⟩
  · have hplain : ∀ c ∈ ':' :: (tail.startLine ++ ':' :: tail.startColumn ++ [':']),
        (!isWhite c) = true := by
      have hcolon : (!isWhite ':') = true := by decide
      have hdigit : ∀ c : Char, isDecimalDigit c = true → (!isWhite c) = true := by
        intro c hc
        rw [Text.isWhite_of_isDecimalDigit hc]
        rfl
      simp only [List.forall_mem_cons, List.forall_mem_append]
      exact ⟨hcolon, ⟨fun c hc => hdigit c (hline c hc), hcolon,
        fun c hc => hdigit c (hcolumn c hc)⟩, hcolon, List.forall_mem_nil _⟩
    have hblank : (!isWhite blank) = false := by
      rw [hwhite blank List.mem_cons_self]
      rfl
    have hform := fun rest =>
      Text.takeWhile_append_of_head hplain (Text.forall_head?_cons hblank rest)
    simpa using hform (blanks ++ (tail.endLine ++ ':' :: (tail.endColumn ++ (levelGap
      ++ (word.toList ++ ':' :: (messageGap ++ tail.message))))))
  · simp [List.count_append, hcount hline, hcount hcolumn]

/-- A path without white space is the shortest. -/
theorem Cuts.shortest (h : Cuts line path tail) (hpath : ∀ c ∈ path, isWhite c = false)
    {other : List Char} {otherTail : Tail} (hother : Cuts line other otherTail) :
    path.length ≤ other.length := by
  obtain ⟨-, rest, rfl, hrest⟩ := h
  obtain ⟨-, otherRest, heq, hotherRest⟩ := hother
  by_contra hshorter
  -- The longer path is the shorter one and more, and there the other rest begins.
  obtain ⟨more, rfl⟩ : other <+: path :=
    List.prefix_of_prefix_length_le (heq ▸ List.prefix_append other otherRest)
      (List.prefix_append path rest) (by omega)
  rw [List.append_assoc] at heq
  obtain rfl := List.append_cancel_left heq
  obtain ⟨before, hbefore, hcount⟩ := hrest.takeWhile
  obtain ⟨otherBefore, hotherBefore, hotherCount⟩ := hotherRest.takeWhile
  have hplain : ∀ c ∈ more, (!isWhite c) = true := by
    intro c hc
    rw [hpath c (List.mem_append_right _ hc)]
    rfl
  rw [List.takeWhile_append_of_pos hplain, hbefore] at hotherBefore
  have hcolons := congrArg (List.count ':') hotherBefore
  cases more with
  | nil => simp at hshorter
  | cons first others =>
      obtain ⟨rfl, -⟩ := List.cons.inj hotherBefore
      simp only [List.count_append, List.count_cons_self, List.cons_append] at hcolons
      omega

/-- The diagnostic has what this form can say: a path without white space and a message in one line
that white space neither begins nor ends. -/
structure Writable (d : Diagnostic) : Prop where
  path_ne : d.path.text.toList ≠ []
  path_plain : ∀ c ∈ d.path.text.toList, isWhite c = false
  oneLine : '\n' ∉ d.message.toList
  head : ∀ c ∈ d.message.toList.head?, isWhite c = false
  last : ∀ c ∈ d.message.toList.getLast?, isWhite c = false
  code : d.code = none

/-- What follows the path in the line of a diagnostic. -/
def Tail.ofDiagnostic (d : Diagnostic) : Tail :=
  ⟨Text.Decimal.write d.range.startLine.toNat, Text.Decimal.write d.range.startColumn.toNat,
    Text.Decimal.write d.range.endLine.toNat, Text.Decimal.write d.range.endColumn.toNat,
    d.severity, d.message.toList⟩

namespace Writable

variable {d : Diagnostic}

/-- The first cut of the line of a diagnostic is behind its path. -/
theorem firstCut (h : Writable d) :
    FirstCut (write d) d.path.text.toList (Tail.ofDiagnostic d) := by
  have hcuts : Cuts (write d) d.path.text.toList (Tail.ofDiagnostic d) := by
    refine ⟨h.path_ne, _, ?_, levelWord d.severity, [' '], [' '], [' '], levelWord_mem d.severity,
      ?_, ?_, rfl⟩
    · simp [write, Tail.ofDiagnostic]
    · have hblank : IsRun isWhite [' '] := by decide
      simp only [List.forall_mem_cons]
      exact ⟨hblank, hblank, hblank, List.forall_mem_nil _⟩
    · have hnumber := fun n => (Text.Decimal.isRun_write n).isDecimalDigit
      simp only [Tail.ofDiagnostic, List.forall_mem_cons]
      exact ⟨hnumber _, hnumber _, hnumber _, hnumber _, List.forall_mem_nil _⟩
  exact ⟨hcuts, fun hother => hcuts.shortest h.path_plain hother, h.head⟩

/-- The line of a diagnostic has no line feed. -/
theorem not_mem_write (h : Writable d) : '\n' ∉ write d := by
  have hpath : '\n' ∉ d.path.text.toList := by
    intro hmem
    exact absurd (h.path_plain _ hmem) (by decide)
  have hnumber : ∀ n, '\n' ∉ Text.Decimal.write n := by
    intro n hmem
    exact absurd ((Text.Decimal.isRun_write n).2 _ hmem) (by decide)
  have hword : '\n' ∉ (levelWord d.severity).toList := by
    cases d.severity <;> decide
  simp [write, hpath, hnumber, hword, h.oneLine]

/-- The line of a diagnostic does not end in a carriage return. -/
theorem getLast?_write (h : Writable d) : (write d).getLast? ≠ some '\r' := by
  have hlast : (write d).getLast? = some (d.message.toList.getLast?.getD ' ') := by
    rw [write, List.getLast?_append_cons, List.getLast?_cons, List.getLast?_cons, Option.getD_some]
  rw [hlast, Ne, Option.some.injEq]
  cases hmessage : d.message.toList.getLast? with
  | none => decide
  | some c =>
      rintro rfl
      exact absurd (h.last '\r' hmessage) (by decide)

/-- A diagnostic is read back from its line. -/
theorem diagnostic?_write (h : Writable d) : diagnostic? (write d) = some d := by
  refine (diagnostic?_eq_some_iff h.not_mem_write).2
    ⟨d.path.text.toList, Tail.ofDiagnostic d, d.range, ?_, ?_, ?_⟩
  · rw [dropReturns_eq_self h.getLast?_write]
    exact h.firstCut
  · exact ⟨Text.Decimal.denotes_write _, Text.Decimal.denotes_write _,
      Text.Decimal.denotes_write _, Text.Decimal.denotes_write _⟩
  · show d = ⟨⟨String.ofList d.path.text.toList⟩, d.range, d.severity,
      String.ofList (Text.trimEnd d.message.toList), none⟩
    rw [Text.trimEnd_eq_self h.last, String.ofList_toList, String.ofList_toList, ← h.code]

end Writable

/-! ## The language -/

/-- A line holds a diagnostic exactly when it can be cut and the four runs of digits of its first
cut denote words, and what it holds is then what the first cut says. A diagnostic that this form
can say is read back from its line. -/
theorem line_language :
    (∀ line : List Char, '\n' ∉ line →
      let kept := dropReturns line
      ((∃ n, line = kept ++ List.replicate n '\r') ∧ kept.getLast? ≠ some '\r') ∧
      ((∃ path tail, Cuts kept path tail) →
        ∃! cut : List Char × Tail, FirstCut kept cut.1 cut.2) ∧
      ∀ d : Diagnostic, diagnostic? line = some d ↔
        ∃ path tail range, FirstCut kept path tail ∧ tail.HasRange range ∧
          d = ⟨⟨String.ofList path⟩, range, tail.severity,
            String.ofList (Text.trimEnd tail.message), none⟩) ∧
    ∀ d : Diagnostic, Writable d → diagnostic? (write d) = some d := by
  refine ⟨fun line hline => ?_, fun d h => h.diagnostic?_write⟩
  intro kept
  obtain ⟨hreturns, hlast⟩ := dropReturns_spec line
  refine ⟨⟨hreturns, hlast⟩, ?_, fun d => diagnostic?_eq_some_iff hline⟩
  rintro ⟨path, tail, hcuts⟩
  exact hcuts.existsUnique (not_mem_dropReturns hline)

/-- A path and a message with colons and numbers in them; two carriage returns are dropped. -/
theorem line_language_colons :
    let line := "C:/a.rs:7:1:2: 3:4 \t help:  see b:1:1: 1:1 error: c \r\r".toList
    let d : Diagnostic :=
      ⟨⟨"C:/a.rs:7"⟩, ⟨1, 2, 3, 4⟩, .hint, "see b:1:1: 1:1 error: c", none⟩
    ('\n' ∉ line ∧ ∃ path tail range, FirstCut (dropReturns line) path tail ∧
      tail.HasRange range ∧ d = ⟨⟨String.ofList path⟩, range, tail.severity,
        String.ofList (Text.trimEnd tail.message), none⟩) ∧
    Writable d ∧ diagnostic? (write d) = some d := by
  intro line d
  have hplain : ∀ c ∈ d.path.text.toList, isWhite c = false := by
    intro c hc
    exact Bool.eq_false_iff.2 (List.any_eq_false.1 (by decide) c hc)
  have hd : Writable d := ⟨by decide, hplain, by decide,
    (Option.any_eq_false _ _).1 (by decide), (Option.any_eq_false _ _).1 (by decide), rfl⟩
  refine ⟨⟨by decide, ?_⟩, hd, line_language.2 d hd⟩
  exact ((line_language.1 line (by decide)).2.2 d).1 (by decide)

end Toolbench.Diagnostic.LegacyLine
