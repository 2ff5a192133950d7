import Toolbench.Proofs.Daemon.Pairing
import Toolbench.Proofs.Daemon.RequestLine
import Toolbench.Proofs.Text.Runs

/-!
# Streams of requests

A daemon reads one request of each line, and keeps what stands after the last line feed until the
line is complete. `read_eq_iff` says that every text is read in the one way in which it can have
been written, so requests are read back from their texts whenever they have a field and no field has
a separator (`wireRequests_wireText_iff`). It does not matter when the parts of a text arrive
(`wireRequests_append`): what has arrived is read as the first of the requests. Requests about
places are read back with all that they hold (`requests_read_back`).
-/

namespace Toolbench

/-- The text that is written for requests with these fields, one after the other. -/
def wireText (sent : List (List String)) : String :=
  String.join (sent.map encodeRequest)

/-- The requests that are read of a text: the fields of each of its lines. -/
def wireRequests (text : String) : List (List String) :=
  (wireLines text).map wireFields

/-- What stands after the last line feed of a text. It is not yet a request. -/
def wireRest (text : String) : String :=
  String.ofList ((text.toList.splitOn '\n').getLastD [])

/-- The text has neither separator of the wire. -/
def IsPlain (text : String) : Prop :=
  '\t' ∉ text.toList ∧ '\n' ∉ text.toList

instance (text : String) : Decidable (IsPlain text) :=
  inferInstanceAs (Decidable (_ ∧ _))

/-- The fields can be told from their line: there is one, and none has a separator. -/
structure Sendable (fields : List String) : Prop where
  ne_nil : fields ≠ []
  plain : ∀ field ∈ fields, IsPlain field

instance (fields : List String) : Decidable (Sendable fields) :=
  decidable_of_iff (fields ≠ [] ∧ ∀ field ∈ fields, IsPlain field)
    ⟨fun h => ⟨h.1, h.2⟩, fun h => ⟨h.ne_nil, h.plain⟩⟩

variable {sent : List (List String)} {text rest : String}

/-! ## Lines that are not complete yet -/

/-- What is left has no line feed. -/
theorem not_mem_wireRest (text : String) : '\n' ∉ (wireRest text).toList := by
  rw [wireRest, String.toList_ofList]
  cases hpieces : (text.toList.splitOn '\n').getLast? with
  | none => exact absurd (List.getLast?_eq_none_iff.1 hpieces) (List.splitOn_ne_nil _ _)
  | some piece =>
      rw [List.getLastD_eq_getLast?, hpieces]
      exact Text.not_mem_of_mem_splitOn (List.mem_of_getLast? hpieces)

/-- A text is its lines, each with a line feed behind it, and what stands after the last one. -/
theorem join_wireLines (text : String) :
    String.join ((wireLines text).map (· ++ "\n")) ++ wireRest text = text := by
  have hpieces := Text.flatMap_dropLast_splitOn '\n' text.toList
  rw [← String.toList_inj, wireRest, wireLines, String.toList_append, String.toList_join,
    List.map_map, List.flatMap_map, String.toList_ofList]
  refine Eq.trans ?_ hpieces
  congr 1
  exact List.flatMap_congr fun cs _ => by simp

/-- A text without line feeds has no line. -/
theorem wireLines_eq_nil (h : '\n' ∉ text.toList) : wireLines text = [] := by
  rw [wireLines, List.splitOn_eq_singleton h]
  rfl

/-- To read a text is to read its first part and to go on with what that part leaves. -/
theorem wireLines_append_rest (before after : String) :
    wireLines (before ++ after) = wireLines before ++ wireLines (wireRest before ++ after) :=
  calc wireLines (before ++ after)
      = wireLines (String.join ((wireLines before).map (· ++ "\n"))
          ++ (wireRest before ++ after)) := by rw [← String.append_assoc, join_wireLines]
    _ = wireLines before ++ wireLines (wireRest before ++ after) :=
        wireLines_join_append (fun _ hline => not_mem_of_mem_wireLines hline) _

/-! ## Requests of a text -/

/-- The text of requests is their lines, each with a line feed behind it. -/
theorem wireText_eq (sent : List (List String)) :
    wireText sent = String.join ((sent.map ("\t".intercalate ·)).map (· ++ "\n")) := by
  rw [wireText, List.map_map]
  rfl

namespace Sendable

variable {fields : List String}

/-- The line of fields that can be told has no line feed. -/
theorem not_mem (h : Sendable fields) : '\n' ∉ ("\t".intercalate fields).toList :=
  (not_mem_intercalate_iff (by decide)).2 fun field hfield => (h.plain field hfield).2

/-- Fields that can be told are read of their line. -/
theorem wireFields_eq (h : Sendable fields) : wireFields ("\t".intercalate fields) = fields :=
  (wireFields_intercalate_iff h.ne_nil).2 fun field hfield => (h.plain field hfield).1

end Sendable

/-- What is read of a line without line feeds can be told from it. -/
theorem sendable_wireFields {line : String} (h : '\n' ∉ line.toList) :
    Sendable (wireFields line) := by
  have hline : "\t".intercalate (wireFields line) = line := Text.intercalate_splitOn rfl line
  rw [← hline, not_mem_intercalate_iff (by decide)] at h
  refine ⟨?_, fun field hfield => ⟨not_mem_of_mem_wireFields hfield, h field hfield⟩⟩
  simp [wireFields, List.splitOn_ne_nil]

/-- Whatever is read can be told from its line. -/
theorem sendable_of_mem_wireRequests {fields : List String} (h : fields ∈ wireRequests text) :
    Sendable fields := by
  obtain ⟨line, hline, rfl⟩ := List.mem_map.1 h
  exact sendable_wireFields (not_mem_of_mem_wireLines hline)

/-- A text is the text of what is read of it, and what is left. -/
theorem wireText_wireRequests (text : String) :
    wireText (wireRequests text) ++ wireRest text = text := by
  have hlines : (wireRequests text).map ("\t".intercalate ·) = wireLines text := by
    rw [wireRequests, List.map_map]
    exact (List.map_congr_left fun line _ => Text.intercalate_splitOn rfl line).trans
      (List.map_id _)
  rw [wireText_eq, hlines, join_wireLines]

/-- Requests that stand in front of a text are read first. -/
theorem wireRequests_wireText_append (h : ∀ fields ∈ sent, Sendable fields) (rest : String) :
    wireRequests (wireText sent ++ rest) = sent ++ wireRequests rest := by
  have hlines : ∀ line ∈ sent.map ("\t".intercalate ·), '\n' ∉ line.toList :=
    List.forall_mem_map.2 fun fields hfields => (h fields hfields).not_mem
  have hfields : (sent.map ("\t".intercalate ·)).map wireFields = sent := by
    rw [List.map_map]
    exact (List.map_congr_left fun fields hfields => (h fields hfields).wireFields_eq).trans
      (List.map_id _)
  rw [wireRequests, wireText_eq, wireLines_join_append hlines, List.map_append, hfields,
    wireRequests]

/-- A text is read in one way: as the requests and the rest that it is made of. -/
theorem read_eq_iff : wireRequests text = sent ∧ wireRest text = rest ↔
    text = wireText sent ++ rest ∧ (∀ fields ∈ sent, Sendable fields) ∧ '\n' ∉ rest.toList := by
  constructor
  · rintro ⟨rfl, rfl⟩
    exact ⟨(wireText_wireRequests text).symm, fun _ hfields => sendable_of_mem_wireRequests hfields,
      not_mem_wireRest text⟩
  · rintro ⟨rfl, hsent, hrest⟩
    have hread : wireRequests (wireText sent ++ rest) = sent := by
      rw [wireRequests_wireText_append hsent, wireRequests, wireLines_eq_nil hrest, List.map_nil,
        List.append_nil]
    have htext := wireText_wireRequests (wireText sent ++ rest)
    rw [hread] at htext
    exact ⟨hread, (String.append_right_inj _).1 htext⟩

/-- Requests are read back from their text exactly when each can be told from its line. -/
theorem wireRequests_wireText_iff :
    wireRequests (wireText sent) = sent ↔ ∀ fields ∈ sent, Sendable fields := by
  constructor
  · intro h fields hfields
    exact sendable_of_mem_wireRequests (h ▸ hfields)
  · intro h
    exact (read_eq_iff.2 ⟨String.append_empty.symm, h, List.not_mem_nil⟩).1

/-- To read a text is to read its first part and to go on with what that part leaves. -/
theorem wireRequests_append (before after : String) :
    wireRequests (before ++ after)
      = wireRequests before ++ wireRequests (wireRest before ++ after) := by
  rw [wireRequests, wireLines_append_rest, List.map_append, wireRequests, wireRequests]

/-! ## Requests about places in files -/

/-- A command is the one of a question. -/
theorem Question.ofCommand?_eq_some_iff {command : String} {question : Question} :
    ofCommand? command = some question ↔ command = question.command := by
  constructor
  · intro h
    unfold ofCommand? at h
    split at h
    all_goals cases h
    all_goals rfl
  · rintro rfl
    exact question.ofCommand?_command

namespace Request

open Text.Decimal (Denotes)

variable {request : Request} {command lineText columnText : String} {file : Path}
  {substitute : Option Path} {asked others : List Request}

/-- The paths of a request have no separator of the wire. -/
def HasPlainPaths (request : Request) : Prop :=
  ∀ path ∈ request.paths, IsPlain path.text

instance (request : Request) : Decidable request.HasPlainPaths :=
  inferInstanceAs (Decidable (∀ path ∈ request.paths, IsPlain path.text))

/-- Read a request from its first three fields and its paths. -/
def ofTexts? (command lineText columnText : String) (file : Path) (substitute : Option Path) :
    Option Request := do
  let question ← Question.ofCommand? command
  let line ← Text.Decimal.readWord32? lineText.toList
  let column ← Text.Decimal.readWord32? columnText.toList
  pure ⟨question, file, line, column, substitute⟩

/-- Read a request from its fields. The fifth one, which may be empty, is the substitute. -/
def ofFields? : List String → Option Request
  | [command, line, column, file] => ofTexts? command line column ⟨file⟩ none
  | [command, line, column, file, substitute] =>
      ofTexts? command line column ⟨file⟩ (some ⟨substitute⟩)
  | _ => none

/-- A request is read from its command, the digits of its two numbers, and its paths. -/
theorem ofTexts?_eq_some_iff :
    ofTexts? command lineText columnText file substitute = some request ↔
      command = request.question.command ∧ Denotes lineText.toList request.line ∧
        Denotes columnText.toList request.column ∧ file = request.file ∧
        substitute = request.substitute := by
  simp only [ofTexts?, Option.bind_eq_bind, Option.bind_eq_some_iff,
    Question.ofCommand?_eq_some_iff, Text.Decimal.readWord32?_eq_some_iff]
  constructor
  · rintro ⟨question, hcommand, line, hline, column, hcolumn, heq⟩
    obtain rfl := Option.some.inj heq
    exact ⟨hcommand, hline, hcolumn, rfl, rfl⟩
  · rintro ⟨hcommand, hline, hcolumn, rfl, rfl⟩
    exact ⟨_, hcommand, _, hline, _, hcolumn, rfl⟩

/-- The fields of a request are its command, its two numbers, which may have zeros before them, and
its paths. -/
theorem ofFields?_eq_some_iff {fields : List String} : ofFields? fields = some request ↔
    ∃ lineText columnText, Denotes lineText.toList request.line ∧
      Denotes columnText.toList request.column ∧
      fields = [request.question.command, lineText, columnText] ++ request.paths.map Path.text := by
  constructor
  · intro hread
    unfold ofFields? at hread
    split at hread
    · rename_i command lineText columnText file
      obtain ⟨rfl, hline, hcolumn, hfile, hnone⟩ := ofTexts?_eq_some_iff.1 hread
      exact ⟨lineText, columnText, hline, hcolumn, by simp [paths, ← hfile, ← hnone]⟩
    · rename_i command lineText columnText file substitute
      obtain ⟨rfl, hline, hcolumn, hfile, hsome⟩ := ofTexts?_eq_some_iff.1 hread
      exact ⟨lineText, columnText, hline, hcolumn, by simp [paths, ← hfile, ← hsome]⟩
    · cases hread
  · rintro ⟨lineText, columnText, hline, hcolumn, rfl⟩
    obtain ⟨question, file, line, column, substitute⟩ := request
    cases substitute with
    | none => exact ofTexts?_eq_some_iff.2 ⟨rfl, hline, hcolumn, rfl, rfl⟩
    | some substitute => exact ofTexts?_eq_some_iff.2 ⟨rfl, hline, hcolumn, rfl, rfl⟩

/-- Every request is read back from its fields. -/
theorem ofFields?_fields (request : Request) : ofFields? request.fields = some request := by
  refine ofFields?_eq_some_iff.2 ⟨_, _, ?_, ?_, request.fields_eq⟩
  · simpa [Text.Decimal.wordText] using Text.Decimal.denotes_write request.line
  · simpa [Text.Decimal.wordText] using Text.Decimal.denotes_write request.column

/-- The fields of a request can be told from its line exactly when its paths are plain. -/
theorem sendable_fields_iff : Sendable request.fields ↔ request.HasPlainPaths := by
  have hplain : (∀ field ∈ request.fields, IsPlain field) ↔ request.HasPlainPaths := by
    simp only [HasPlainPaths, IsPlain, forall_and, forall_mem_fields_iff (.inl rfl),
      forall_mem_fields_iff (.inr rfl)]
  exact ⟨fun h => hplain.1 h.plain, fun h => ⟨by simp [fields], hplain.2 h⟩⟩

/-- The number of its fields tells whether a request has a substitute. -/
theorem length_fields_eq (request : Request) :
    request.fields.length = if request.substitute.isSome then 5 else 4 := by
  rw [length_fields]
  cases hsubstitute : request.substitute <;> simp [paths, hsubstitute]

/-- Requests whose paths are plain are read from their text as their fields. -/
theorem wireRequests_fields (h : ∀ request ∈ asked, request.HasPlainPaths) :
    wireRequests (wireText (asked.map Request.fields)) = asked.map Request.fields :=
  wireRequests_wireText_iff.2 <| List.forall_mem_map.2 fun request hrequest =>
    sendable_fields_iff.2 (h request hrequest)

/-- Requests are read back from their text exactly when their paths are plain. -/
theorem map_ofFields?_wireRequests_iff :
    (wireRequests (wireText (asked.map Request.fields))).map ofFields? = asked.map some ↔
      ∀ request ∈ asked, request.HasPlainPaths := by
  constructor
  · intro h request hrequest path hpath
    have hmem : some request ∈ asked.map some := List.mem_map_of_mem hrequest
    rw [← h] at hmem
    obtain ⟨read, hread, heq⟩ := List.mem_map.1 hmem
    obtain ⟨_, _, -, -, rfl⟩ := ofFields?_eq_some_iff.1 heq
    exact (sendable_of_mem_wireRequests hread).plain path.text
      (List.mem_append_right _ (List.mem_map_of_mem hpath))
  · intro h
    rw [wireRequests_fields h, List.map_map]
    exact List.map_congr_left fun request _ => request.ofFields?_fields

/-- A tab in a path is read as the one in front of a substitute. -/
example : encode ⟨.complete, ⟨"a\tb"⟩, 1, 0, none⟩
    = encode ⟨.complete, ⟨"a"⟩, 1, 0, some ⟨"b"⟩⟩ := by
  decide +kernel

/-- Requests whose paths are plain are the same when their texts are. -/
theorem eq_of_wireText_eq (hasked : ∀ request ∈ asked, request.HasPlainPaths)
    (hothers : ∀ request ∈ others, request.HasPlainPaths)
    (h : wireText (asked.map Request.fields) = wireText (others.map Request.fields)) :
    asked = others := by
  have hread := map_ofFields?_wireRequests_iff.2 hasked
  rw [h, map_ofFields?_wireRequests_iff.2 hothers] at hread
  exact (List.map_injective_iff.2 (Option.some_injective _) hread).symm

end Request

/-! ## Requests of a session -/

namespace DaemonClient

/-- What the writer of a generation was given is read as the requests that were accepted in its
session, in the order in which they were accepted, exactly when each can be told from its line. -/
theorem wireRequests_texts_iff {settings : DaemonSettings} {actions : List Action}
    {client : DaemonClient} {outputs : List Output} {generation : Nat}
    (hrun : (ofSettings settings).run? actions = some (client, outputs)) :
    let log := sessionLog generation (ofSettings settings) actions
    wireRequests (String.join (client.texts generation)) = (accepted log).map (·.2) ↔
      ∀ request ∈ accepted log, Sendable request.2 := by
  intro log
  have hpaired : Paired generation log client := .of_run hrun generation
  have htext : String.join (client.texts generation) = wireText ((accepted log).map (·.2)) := by
    rw [hpaired.texts, wireText, List.map_map]
    rfl
  rw [htext, wireRequests_wireText_iff, List.forall_mem_map]

end DaemonClient

/-! ## Unique reading -/

/-- The text of a sequence of requests is read as that sequence, with nothing left over, exactly
when each request has a field and no field has a separator. Every text is read in one way, as the
requests and the rest that it is made of, and what has arrived of the text of such requests is read
as the first of them. Requests about places are read back with question, line, column, file and
substitute exactly when no field of theirs has a separator, which only a path may have. Then the
number of fields tells which of them have a substitute, and no other such requests have the same
text. -/
theorem requests_read_back :
    (∀ sent, wireRequests (wireText sent) = sent ∧ wireRest (wireText sent) = "" ↔
      ∀ fields ∈ sent, Sendable fields) ∧
    (∀ text sent rest, wireRequests text = sent ∧ wireRest text = rest ↔
      text = wireText sent ++ rest ∧ (∀ fields ∈ sent, Sendable fields) ∧ '\n' ∉ rest.toList) ∧
    (∀ sent before after, (∀ fields ∈ sent, Sendable fields) → wireText sent = before ++ after →
      wireRequests before <+: sent) ∧
    (∀ request : Request, Sendable request.fields ↔ request.HasPlainPaths) ∧
    (∀ asked : List Request,
      (wireRequests (wireText (asked.map Request.fields))).map Request.ofFields? = asked.map some ↔
        ∀ request ∈ asked, request.HasPlainPaths) ∧
    ∀ asked : List Request, (∀ request ∈ asked, request.HasPlainPaths) →
      (wireRequests (wireText (asked.map Request.fields))).map List.length
        = asked.map (fun request => if request.substitute.isSome then 5 else 4) ∧
      ∀ others : List Request, (∀ request ∈ others, request.HasPlainPaths) →
        wireText (asked.map Request.fields) = wireText (others.map Request.fields) →
        asked = others := by
  refine ⟨?_, fun text sent rest => read_eq_iff, ?_, fun request => Request.sendable_fields_iff,
    fun asked => Request.map_ofFields?_wireRequests_iff, ?_⟩
  · intro sent
    rw [read_eq_iff, String.append_empty]
    simp
  · intro sent before after hsent htext
    refine ⟨wireRequests (wireRest before ++ after), ?_⟩
    rw [← wireRequests_append, ← htext, wireRequests_wireText_iff.2 hsent]
  · intro asked hasked
    refine ⟨?_, fun others hothers htext => Request.eq_of_wireText_eq hasked hothers htext⟩
    rw [Request.wireRequests_fields hasked, List.map_map]
    exact List.map_congr_left fun request _ => request.length_fields_eq

/-- Requests with empty fields at every place, of which the second one has no other, and requests
with an empty path, of which the first one has an empty substitute and the second one none. -/
theorem requests_read_back_empty_fields :
    let sent := [["complete", "", ""], [""], ["", "x", ""]]
    let asked : List Request := [⟨.complete, ⟨""⟩, 1, 0, some ⟨""⟩⟩, ⟨.complete, ⟨""⟩, 1, 0, none⟩,
      ⟨.findDefinition, ⟨"/p/src/lib.rs"⟩, 12, 4, some ⟨"/tmp/buffer.rs"⟩⟩]
    ((∀ fields ∈ sent, Sendable fields) ∧ wireText sent = "complete\t\t\n\n\tx\t\n" ∧
      wireRequests (wireText sent) = sent ∧ wireRest (wireText sent) = "") ∧
    wireRequests "complete\t\t\n\n\tx" <+: sent ∧
    (∀ request ∈ asked, request.HasPlainPaths) ∧
    (wireRequests (wireText (asked.map Request.fields))).map Request.ofFields? = asked.map some ∧
    (wireRequests (wireText (asked.map Request.fields))).map List.length = [5, 4, 5] := by
  intro sent asked
  have hsent : ∀ fields ∈ sent, Sendable fields := by decide
  have htext : wireText sent = "complete\t\t\n\n\tx\t\n" := by decide +kernel
  have hasked : ∀ request ∈ asked, request.HasPlainPaths := by decide
  obtain ⟨hread, -, hpart, -, hrequests, hlengths⟩ := requests_read_back
  exact ⟨⟨hsent, htext, (hread sent).2 hsent⟩, hpart sent _ "\t\n" hsent (htext.trans rfl), hasked,
    (hrequests asked).2 hasked, (hlengths asked hasked).1⟩

end Toolbench
