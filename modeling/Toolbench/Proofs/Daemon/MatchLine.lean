import Toolbench.Daemon.Assembly
import Toolbench.Daemon.Match
import Toolbench.Proofs.Text.Pieces
import Toolbench.Proofs.Text.Runs

/-!
# Lines of matches

A match is written as its fields with tabs between them, in one form with a snippet and in another
one without. `IsLineOf` says which lines are lines of a match: its two numbers may be spelled with a
plus sign and with leading zeros, and only the documentation, which is the last field of the longer
form, may have tabs. `read?_eq_some_iff` says that just these lines are read.
-/

namespace Toolbench.Match

variable {m : Match} {line lineNumber column text last : String} {fields texts : List String}

/-! ## Fields of a line -/

/-- A line is its fields with tabs between them. -/
theorem intercalate_fieldsOf (line : String) : "\t".intercalate (fieldsOf line) = line :=
  Text.intercalate_splitOn rfl line

theorem fieldsOf_inj {one two : String} (h : fieldsOf one = fieldsOf two) : one = two := by
  rw [← intercalate_fieldsOf one, h, intercalate_fieldsOf]

theorem fieldsOf_ne_nil (line : String) : fieldsOf line ≠ [] := by
  simp [fieldsOf, List.splitOn_ne_nil]

/-- No field of a line has a tab. -/
theorem not_mem_of_mem_fieldsOf (h : text ∈ fieldsOf line) : '\t' ∉ text.toList :=
  Text.not_mem_of_mem_map_splitOn h

/-- Texts without tabs are read back, and of the last one its fields. -/
theorem fieldsOf_intercalate_concat (h : ∀ text ∈ texts, '\t' ∉ text.toList) :
    fieldsOf ("\t".intercalate (texts ++ [last])) = texts ++ fieldsOf last := by
  induction texts with
  | nil => simp
  | cons text texts ih =>
      obtain ⟨htext, htexts⟩ := List.forall_mem_cons.1 h
      have hjoin : ("\t".intercalate (text :: (texts ++ [last]))).toList
          = text.toList ++ '\t' :: ("\t".intercalate (texts ++ [last])).toList := by
        rw [String.intercalate_cons_of_ne_nil (by simp)]
        simp
      rw [List.cons_append, fieldsOf, hjoin, List.splitOn_append_cons_self_of_not_mem htext,
        List.map_cons, String.ofList_toList, ← fieldsOf, ih htexts, List.cons_append]

/-! ## Numbers -/

/-- The text spells the number: ASCII digits, of which the first ones may be zeros, and perhaps a
plus sign before them. -/
def Spells (text : String) (w : UInt32) : Prop :=
  ∃ digits, Text.Decimal.Denotes digits w ∧ (text.toList = digits ∨ text.toList = '+' :: digits)

theorem number?_eq_some_iff {w : UInt32} : number? text = some w ↔ Spells text w :=
  Text.Decimal.readSignedWord32?_eq_some_iff

/-- Every number is spelled by its digits. -/
theorem spells_wordText (w : UInt32) : Spells (Text.Decimal.wordText w) w :=
  ⟨_, Text.Decimal.denotes_write w, .inl String.toList_ofList⟩

/-- The spelling of a number has no tab. -/
theorem Spells.not_mem {w : UInt32} (h : Spells text w) : '\t' ∉ text.toList := by
  obtain ⟨digits, hdigits, htext⟩ := h
  have hplain : '\t' ∉ digits := by
    intro hmem
    exact absurd (hdigits.1.2 '\t' hmem) (by decide)
  rcases htext with htext | htext <;> simp [htext, hplain]

/-! ## Lines -/

/-- The match can stand in one line: only its documentation may have tabs, and it has documentation
only next to a snippet. -/
structure Writable (m : Match) : Prop where
  plain : ∀ text ∈ m.name :: m.snippet.toList ++ [m.path.text, m.kind, m.context],
    '\t' ∉ text.toList
  docs : m.snippet = none → m.docs = none

/-- The fields of the line of a match whose two numbers are written like this, but for the
documentation. With a snippet they are eight, without one seven. -/
def front (m : Match) (lineNumber column : String) : List String :=
  "MATCH" :: m.name :: m.snippet.toList ++ [lineNumber, column, m.path.text, m.kind, m.context]

/-- The line is a line of the match, in the form that its snippet chooses and with any spelling of
the two numbers. -/
def IsLineOf (line : String) (m : Match) : Prop :=
  Writable m ∧ ∃ lineNumber column, Spells lineNumber m.line ∧ Spells column m.column ∧
    line = "\t".intercalate (m.front lineNumber column ++ m.docs.toList)

/-- Documentation is read from its own fields, and none from no field. -/
theorem docs_eq_iff {docs : Option String} (h : ∀ field ∈ fields, '\t' ∉ field.toList) :
    (if fields.isEmpty then none else some ("\t".intercalate fields)) = docs ↔
      fields = docs.elim [] fieldsOf := by
  cases fields with
  | nil =>
      cases docs with
      | none => exact iff_of_true rfl rfl
      | some text => exact iff_of_false nofun (fieldsOf_ne_nil text).symm
  | cons field fields =>
      have hread : fieldsOf ("\t".intercalate (field :: fields)) = field :: fields :=
        Text.splitOn_intercalate rfl (List.cons_ne_nil field fields) h
      cases docs with
      | none => exact iff_of_false nofun nofun
      | some text =>
          show some _ = some text ↔ _ = fieldsOf text
          rw [Option.some.injEq]
          constructor
          · rintro rfl
            exact hread.symm
          · intro hfields
            rw [hfields, intercalate_fieldsOf]

/-- The fields that a match is read from are those in front of its documentation and those of its
documentation. -/
theorem ofFields?_eq_some_iff (h : ∀ field ∈ fields, '\t' ∉ field.toList) :
    ofFields? fields = some m ↔ (m.snippet = none → m.docs = none) ∧
      ∃ lineNumber column, Spells lineNumber m.line ∧ Spells column m.column ∧
        fields = m.front lineNumber column ++ m.docs.elim [] fieldsOf := by
  simp only [← number?_eq_some_iff]
  constructor
  · intro hread
    unfold ofFields? at hread
    split at hread
    · rename_i name snippet lineNumber column path kind context docs
      simp only [Option.bind_eq_bind, Option.bind_eq_some_iff] at hread
      obtain ⟨_, hline, _, hcolumn, heq⟩ := hread
      obtain rfl := Option.some.inj heq
      have hplain : ∀ field ∈ docs, '\t' ∉ field.toList := by
        intro field hfield
        exact h field (by simp [hfield])
      refine ⟨nofun, lineNumber, column, hline, hcolumn, ?_⟩
      rw [← (docs_eq_iff hplain).1 rfl]
      rfl
    · rename_i name lineNumber column path kind context
      simp only [Option.bind_eq_bind, Option.bind_eq_some_iff] at hread
      obtain ⟨_, hline, _, hcolumn, heq⟩ := hread
      obtain rfl := Option.some.inj heq
      exact ⟨fun _ => rfl, lineNumber, column, hline, hcolumn, rfl⟩
    · exact nomatch hread
  · rintro ⟨hdocs, lineNumber, column, hline, hcolumn, rfl⟩
    obtain ⟨name, snippet, line, col, path, kind, context, docs⟩ := m
    cases snippet with
    | none =>
        obtain rfl : docs = none := hdocs rfl
        simp [front, ofFields?, hline, hcolumn]
    | some snippet =>
        have hplain : ∀ field ∈ docs.elim [] fieldsOf, '\t' ∉ field.toList := by
          intro field hfield
          exact h field (List.mem_append_right _ hfield)
        have hread := (docs_eq_iff hplain).2 rfl
        simp only [front, Option.toList_some, List.cons_append, List.nil_append, ofFields?, hline,
          hcolumn, hread]
        rfl

/-- The fields in front of the documentation are without tabs where the match can stand in a line
and its numbers are spelled. -/
theorem not_mem_of_mem_front (hm : Writable m) (hline : '\t' ∉ lineNumber.toList)
    (hcolumn : '\t' ∉ column.toList) :
    ∀ field ∈ m.front lineNumber column, '\t' ∉ field.toList := by
  have hplain := hm.plain
  simp only [front, List.cons_append, List.forall_mem_cons, List.forall_mem_append] at hplain ⊢
  have htag : '\t' ∉ "MATCH".toList := by decide
  exact ⟨htag, hplain.1, hplain.2.1, hline, hcolumn, hplain.2.2⟩

/-- What is read of a line whose fields in front of the documentation are without tabs. -/
theorem eq_intercalate_front_iff
    (hfront : ∀ field ∈ m.front lineNumber column, '\t' ∉ field.toList) :
    line = "\t".intercalate (m.front lineNumber column ++ m.docs.toList) ↔
      fieldsOf line = m.front lineNumber column ++ m.docs.elim [] fieldsOf := by
  have hread : fieldsOf ("\t".intercalate (m.front lineNumber column ++ m.docs.toList))
      = m.front lineNumber column ++ m.docs.elim [] fieldsOf := by
    cases m.docs with
    | none =>
        rw [Option.toList_none, List.append_nil, Option.elim_none, List.append_nil]
        exact Text.splitOn_intercalate rfl (List.cons_ne_nil _ _) hfront
    | some text => exact fieldsOf_intercalate_concat hfront
  constructor
  · rintro rfl
    exact hread
  · intro hfields
    exact fieldsOf_inj (hfields.trans hread.symm)

/-- A line is read as a match exactly when it is a line of that match. -/
theorem read?_eq_some_iff : read? line = some m ↔ IsLineOf line m := by
  rw [read?, ofFields?_eq_some_iff fun _ hfield => not_mem_of_mem_fieldsOf hfield, IsLineOf]
  constructor
  · rintro ⟨hdocs, lineNumber, column, hline, hcolumn, hfields⟩
    have hfront : ∀ field ∈ m.front lineNumber column, '\t' ∉ field.toList := by
      intro field hfield
      have hmem : field ∈ fieldsOf line := by
        rw [hfields]
        exact List.mem_append_left _ hfield
      exact not_mem_of_mem_fieldsOf hmem
    have hm : Writable m := by
      refine ⟨fun text htext => hfront text ?_, hdocs⟩
      simp only [front, List.cons_append, List.mem_cons, List.mem_append] at htext ⊢
      tauto
    exact ⟨hm, lineNumber, column, hline, hcolumn, (eq_intercalate_front_iff hfront).2 hfields⟩
  · rintro ⟨hm, lineNumber, column, hline, hcolumn, htext⟩
    have hfront := not_mem_of_mem_front hm hline.not_mem hcolumn.not_mem
    exact ⟨hm.docs, lineNumber, column, hline, hcolumn, (eq_intercalate_front_iff hfront).1 htext⟩

/-- A match that can stand in a line is written as one of its lines. -/
theorem Writable.isLineOf_write (hm : Writable m) : IsLineOf m.write m := by
  refine ⟨hm, _, _, spells_wordText m.line, spells_wordText m.column, ?_⟩
  have hdocs := hm.docs
  obtain ⟨name, snippet, line, column, path, kind, context, docs⟩ := m
  cases snippet with
  | none =>
      obtain rfl : docs = none := hdocs rfl
      rfl
  | some snippet => rfl

/-! ## Lines of an answer -/

/-- The matches are those whose lines the answer holds, in order, with any other lines between
them. -/
inductive Lists : Batch → List Match → Prop
  | nil : Lists [] []
  | found {line m batch ms} : IsLineOf line m → Lists batch ms → Lists (line :: batch) (m :: ms)
  | other {line batch ms} : (∀ m, ¬ IsLineOf line m) → Lists batch ms → Lists (line :: batch) ms

/-- Every answer lists the matches that are read of it. -/
theorem lists_ofBatch (batch : Batch) : Lists batch (ofBatch batch) := by
  induction batch with
  | nil => exact .nil
  | cons line batch ih =>
      rw [ofBatch, List.filterMap_cons]
      cases hread : read? line with
      | none =>
          refine .other (fun m hline => ?_) ih
          exact nomatch hread.symm.trans (read?_eq_some_iff.2 hline)
      | some m => exact .found (read?_eq_some_iff.1 hread) ih

/-- An answer lists nothing else. -/
theorem Lists.eq_ofBatch {batch : Batch} {ms : List Match} (h : Lists batch ms) :
    ofBatch batch = ms := by
  induction h with
  | nil => rfl
  | found hline _ ih =>
      rw [ofBatch, List.filterMap_cons_some (read?_eq_some_iff.2 hline), ← ofBatch, ih]
  | @other line batch ms hnone _ ih =>
      have hread : read? line = none :=
        Option.eq_none_iff_forall_ne_some.2 fun m hm => hnone m (read?_eq_some_iff.1 hm)
      rw [ofBatch, List.filterMap_cons_none hread, ← ofBatch, ih]

/-- A match that can stand in a line is read back from its line. Only lines of matches are read, and
each is a line of one match, so in one of the two forms. The matches of an answer are those whose
lines it holds, in order. -/
theorem lines_of_matches :
    (∀ m, Writable m → read? m.write = some m) ∧
    (∀ line m, read? line = some m ↔ IsLineOf line m) ∧
    (∀ line m other, IsLineOf line m → IsLineOf line other → m = other) ∧
    ∀ batch ms, ofBatch batch = ms ↔ Lists batch ms := by
  refine ⟨?_, fun line m => read?_eq_some_iff, ?_, ?_⟩
  · intro m hm
    exact read?_eq_some_iff.2 hm.isLineOf_write
  · intro line m other hm hother
    have hread := read?_eq_some_iff.2 hm
    exact Option.some.inj (hread.symm.trans (read?_eq_some_iff.2 hother))
  · intro batch ms
    constructor
    · rintro rfl
      exact lists_ofBatch batch
    · exact Lists.eq_ofBatch

/-- A match whose documentation has a tab, and a line of it with its numbers spelled otherwise. -/
theorem lines_of_matches_docs :
    let m : Match := ⟨"push", some "push(value)", 1023, 11, ⟨"/src/vec.rs"⟩, "Function",
      "fn push(value: T)", some "Appends\tan element"⟩
    let line := "MATCH\tpush\tpush(value)\t01023\t+11\t/src/vec.rs\tFunction\tfn push(value: T)"
      ++ "\tAppends\tan element"
    (Writable m ∧ read? m.write = some m) ∧
    (IsLineOf line m ∧ ∀ other, IsLineOf line other → other = m) ∧
    ofBatch ["PREFIX\t0\t4\tpush", line, "MATCH\tbroken"] = [m] := by
  intro m line
  have hm : Writable m := ⟨by decide, nofun⟩
  have hline : IsLineOf line m := (lines_of_matches.2.1 line m).1 (by decide +kernel)
  refine ⟨⟨hm, lines_of_matches.1 m hm⟩, ⟨hline, ?_⟩, ?_⟩
  · intro other hother
    exact lines_of_matches.2.2.1 line other m hother hline
  · decide +kernel

end Toolbench.Match
