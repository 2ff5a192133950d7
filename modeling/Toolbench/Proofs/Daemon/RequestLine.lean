import Toolbench.Daemon.Request
import Toolbench.Proofs.Text.Pieces

/-!
# Requests on the wire

At the other end of the wire a text is cut at its line feeds and each line at its tabs. What a
client writes for requests is read as one line for each exactly when no path has a line feed
(`wireLines_join_encode_iff`), and a line has the fields of its request exactly when no path has a
tab (`wireFields_wireLine_iff`).
-/

namespace Toolbench

/-- The lines that are read of a text: what stands before each of its line feeds. What comes after
the last one is not yet a line. -/
def wireLines (text : String) : List String :=
  (text.toList.splitOn '\n').dropLast.map String.ofList

/-- The fields that are read of a line. -/
def wireFields (line : String) : List String :=
  (line.toList.splitOn '\t').map String.ofList

/-- The text is read as one request: one line of four or five fields. -/
def IsOneRequest (text : String) : Prop :=
  ∃ line, text = line ++ "\n" ∧ '\n' ∉ line.toList ∧
    ((wireFields line).length = 4 ∨ (wireFields line).length = 5)

/-! ## Lines and fields -/

/-- What stands before a line feed is read as lines, and then what follows. -/
theorem wireLines_append (before after : String) :
    wireLines (before ++ "\n" ++ after)
      = (before.toList.splitOn '\n').map String.ofList ++ wireLines after := by
  have hsplit : (before.toList ++ '\n' :: after.toList).splitOn '\n'
      = before.toList.splitOn '\n' ++ after.toList.splitOn '\n' :=
    List.splitOn_append_cons_self _ _
  have htext : (before ++ "\n" ++ after).toList = before.toList ++ '\n' :: after.toList := by
    simp
  rw [wireLines, htext, hsplit, List.dropLast_append_of_ne_nil (List.splitOn_ne_nil _ _),
    List.map_append, wireLines]

/-- No line that is read has a line feed. -/
theorem not_mem_of_mem_wireLines {text line : String} (h : line ∈ wireLines text) :
    '\n' ∉ line.toList :=
  Text.not_mem_of_mem_map_splitOn (List.map_subset _ (List.dropLast_subset _) h)

/-- Lines that stand in front of a text are read first. -/
theorem wireLines_join_append {lines : List String} (h : ∀ line ∈ lines, '\n' ∉ line.toList)
    (rest : String) :
    wireLines (String.join (lines.map (· ++ "\n")) ++ rest) = lines ++ wireLines rest := by
  induction lines with
  | nil => simp
  | cons line lines ih =>
      obtain ⟨hline, hlines⟩ := List.forall_mem_cons.1 h
      rw [List.map_cons, String.join_cons, String.append_assoc, wireLines_append,
        List.splitOn_eq_singleton hline, ih hlines]
      simp

/-- Lines that are written one after the other are read so exactly when none has a line feed. -/
theorem wireLines_join_iff {lines : List String} :
    wireLines (String.join (lines.map (· ++ "\n"))) = lines ↔
      ∀ line ∈ lines, '\n' ∉ line.toList := by
  refine ⟨fun h line hline => not_mem_of_mem_wireLines (h ▸ hline), fun h => ?_⟩
  have hempty : wireLines "" = [] := by decide
  rw [← String.append_empty (s := String.join _), wireLines_join_append h, hempty, List.append_nil]

/-- No field that is read has a tab. -/
theorem not_mem_of_mem_wireFields {line field : String} (h : field ∈ wireFields line) :
    '\t' ∉ field.toList :=
  Text.not_mem_of_mem_map_splitOn h

/-- Fields are read back exactly when none of them has a tab. -/
theorem wireFields_intercalate_iff {fields : List String} (hne : fields ≠ []) :
    wireFields ("\t".intercalate fields) = fields ↔ ∀ field ∈ fields, '\t' ∉ field.toList :=
  ⟨fun h _ hfield => not_mem_of_mem_wireFields (h ▸ hfield),
    fun h => Text.splitOn_intercalate rfl hne h⟩

/-- A line has the characters, other than tabs, that its fields have. -/
theorem not_mem_intercalate_iff {c : Char} (hc : c ≠ '\t') {fields : List String} :
    c ∉ ("\t".intercalate fields).toList ↔ ∀ field ∈ fields, c ∉ field.toList := by
  induction fields with
  | nil => simp
  | cons field fields ih =>
      cases fields with
      | nil => simp
      | cons next others =>
          rw [String.intercalate_cons_cons, String.toList_append, String.toList_append,
            List.mem_append, List.mem_append, not_or, ih, List.forall_mem_cons (a := field)]
          simp [hc]

/-- A line is read as one field, and one more for each tab: between its fields and in them. -/
theorem length_wireFields_intercalate {fields : List String} (hne : fields ≠ []) :
    (wireFields ("\t".intercalate fields)).length
      = fields.length + (fields.flatMap (·.toList)).count '\t' := by
  rw [wireFields, List.length_map, Text.length_splitOn]
  induction fields with
  | nil => exact absurd rfl hne
  | cons field fields ih =>
      cases fields with
      | nil => simp [Nat.add_comm]
      | cons next others =>
          have hrest := ih (List.cons_ne_nil next others)
          have htab : "\t".toList.count '\t' = 1 := by decide
          rw [String.intercalate_cons_cons, String.toList_append, String.toList_append,
            List.count_append, List.count_append, htab, List.flatMap_cons, List.count_append,
            List.length_cons]
          omega

/-! ## Requests about places in files -/

namespace Request

variable {request : Request}

/-- The line of a request. -/
def wireLine (request : Request) : String :=
  "\t".intercalate request.fields

/-- The paths of a request. -/
def paths (request : Request) : List Path :=
  request.file :: request.substitute.toList

/-- A request has three fields and its paths. -/
theorem fields_eq (request : Request) : request.fields = [request.question.command,
    Text.Decimal.wordText request.line, Text.Decimal.wordText request.column]
      ++ request.paths.map Path.text := by
  cases hsubstitute : request.substitute <;> simp [fields, paths, hsubstitute]

theorem length_fields (request : Request) : request.fields.length = 3 + request.paths.length := by
  rw [fields_eq, List.length_append, List.length_map]
  rfl

/-- Only the paths of a request may have a line feed or a tab. -/
theorem count_fields {c : Char} (hc : c = '\n' ∨ c = '\t') (request : Request) :
    (request.fields.flatMap (·.toList)).count c
      = (request.paths.flatMap (·.text.toList)).count c := by
  have hword : ∀ w : UInt32, (Text.Decimal.wordText w).toList.count c = 0 := by
    intro w
    rw [List.count_eq_zero, Text.Decimal.wordText, String.toList_ofList, Text.Decimal.write]
    intro hmem
    have hdigit := Nat.isDigit_of_mem_toDigits (by decide) (by decide) hmem
    rcases hc with rfl | rfl <;> exact absurd hdigit (by decide)
  have hcommand : request.question.command.toList.count c = 0 := by
    rcases hc with rfl | rfl <;> cases request.question <;> decide
  rw [fields_eq, List.flatMap_append, List.count_append, List.flatMap_map]
  simp [hword, hcommand]

/-- Where no path has a line feed, no field has one, and so it is with tabs. -/
theorem forall_mem_fields_iff {c : Char} (hc : c = '\n' ∨ c = '\t') :
    (∀ field ∈ request.fields, c ∉ field.toList) ↔
      ∀ path ∈ request.paths, c ∉ path.text.toList :=
  calc (∀ field ∈ request.fields, c ∉ field.toList)
      ↔ c ∉ request.fields.flatMap (·.toList) := by simp
    _ ↔ c ∉ request.paths.flatMap (·.text.toList) := by
        rw [← List.count_eq_zero, count_fields hc, List.count_eq_zero]
    _ ↔ ∀ path ∈ request.paths, c ∉ path.text.toList := by simp

/-- The line of a request has a line feed exactly when one of its paths has. -/
theorem not_mem_wireLine_iff : '\n' ∉ request.wireLine.toList ↔
    ∀ path ∈ request.paths, '\n' ∉ path.text.toList := by
  rw [wireLine, not_mem_intercalate_iff (by decide), forall_mem_fields_iff (.inl rfl)]

/-- Its fields are read back exactly when none of its paths has a tab. -/
theorem wireFields_wireLine_iff : wireFields request.wireLine = request.fields ↔
    ∀ path ∈ request.paths, '\t' ∉ path.text.toList := by
  rw [wireLine, wireFields_intercalate_iff (by simp [fields]), forall_mem_fields_iff (.inr rfl)]

/-- Its line is read as one field more for each tab in its paths. -/
theorem length_wireFields_wireLine (request : Request) :
    (wireFields request.wireLine).length
      = 3 + request.paths.length + (request.paths.flatMap (·.text.toList)).count '\t' := by
  rw [wireLine, length_wireFields_intercalate (by simp [fields]), length_fields,
    count_fields (.inr rfl)]

/-- What is written for a request is read as one request exactly when its paths have no line feed,
and no tab but for one tab in the only path. -/
theorem encode_isOneRequest_iff : IsOneRequest request.encode ↔
    (∀ path ∈ request.paths, '\n' ∉ path.text.toList) ∧
      request.paths.length + (request.paths.flatMap (·.text.toList)).count '\t' ≤ 2 := by
  have hlength := request.length_wireFields_wireLine
  have hpaths : 1 ≤ request.paths.length := by simp [paths]
  constructor
  · rintro ⟨line, heq, hfeed, hfields⟩
    obtain rfl : request.wireLine = line := (String.append_left_inj "\n").1 heq
    exact ⟨not_mem_wireLine_iff.1 hfeed, by omega⟩
  · rintro ⟨hfeed, htabs⟩
    exact ⟨request.wireLine, rfl, not_mem_wireLine_iff.2 hfeed, by omega⟩

/-- Requests are read as their own lines exactly when no path has a line feed. -/
theorem wireLines_join_encode_iff {requests : List Request} :
    wireLines (String.join (requests.map encode)) = requests.map wireLine ↔
      ∀ request ∈ requests, ∀ path ∈ request.paths, '\n' ∉ path.text.toList := by
  have htexts : requests.map encode = (requests.map wireLine).map (· ++ "\n") := by
    rw [List.map_map]
    rfl
  rw [htexts, wireLines_join_iff, List.forall_mem_map]
  exact forall₂_congr fun _ _ => not_mem_wireLine_iff

end Request

end Toolbench
