import Toolbench.Diagnostic.ToolMessage
import Toolbench.Proofs.Json.Alike
import Toolbench.Proofs.Json.Objects

/-!
# Compiler messages with and without an envelope

A compiler message may stand on a line by itself or in the envelope that a build tool puts around
it. Reading a message, its spans and its children looks at the members of objects by name only, so
it cannot tell alike values apart (`CompilerMessage.decode?_eq_of_alike`). Hence
`ToolMessage.bare_and_enveloped_agree`: both lines say the same, whatever else the envelope holds.
-/

namespace Toolbench

open Json (Alike)

variable {x y : Json} {a b : Option Json} {look other : String → Option Json}

/-! ## Alike members read alike -/

section Members

variable {α β : Type} {read : Json → Option α}

/-- What must be there is read alike. -/
theorem bind_eq_of_rel {relation : β → β → Prop} {a b : Option β} {read : β → Option α}
    (h : Option.Rel relation a b) (hread : ∀ x ∈ a, ∀ y, relation x y → read x = read y) :
    a.bind read = b.bind read := by
  cases h with
  | none => rfl
  | some hrelated => exact hread _ rfl _ hrelated

/-- What may be missing is read alike, or stands for the same. -/
theorem elim_eq_of_rel {relation : β → β → Prop} {a b : Option β} {read : β → Option α}
    (missing : Option α) (h : Option.Rel relation a b)
    (hread : ∀ x ∈ a, ∀ y, relation x y → read x = read y) :
    a.elim missing read = b.elim missing read := by
  cases h with
  | none => rfl
  | some hrelated => exact hread _ rfl _ hrelated

/-- What may be missing is alike in place of a default. -/
theorem getD_alike (h : Option.Rel Alike a b) (default : Json) :
    (a.getD default).Alike (b.getD default) := by
  cases h with
  | none => exact .refl default
  | some halike => exact halike

/-- What may be missing or null is read alike. -/
theorem optional?_eq_of_alike (h : Option.Rel Alike a b)
    (hread : ∀ x ∈ a, ∀ y, x.Alike y → read x = read y) :
    CompilerMessage.optional? read a = CompilerMessage.optional? read b := by
  cases h with
  | none => rfl
  | some halike =>
      have hsame := congrArg (Option.map some) (hread _ rfl _ halike)
      cases halike with
      | null => rfl
      | bool | number | string | array | object => exact hsame

/-- Lists of alike values are read alike. -/
theorem mapM_eq_of_alike {xs ys : List Json} (h : List.Forall₂ Alike xs ys)
    (hread : ∀ x y, x.Alike y → read x = read y) : xs.mapM read = ys.mapM read := by
  induction h with
  | nil => rfl
  | cons halike _ ih => rw [List.mapM_cons, List.mapM_cons, hread _ _ halike, ih]

end Members

namespace CompilerSpan

/-- Read a span whose members are looked up by name. -/
def ofLookup? (look : String → Option Json) : Option CompilerSpan := do
  let file ← (look "file_name").bind Json.text?
  let lineStart ← (look "line_start").bind Json.word32?
  let lineEnd ← (look "line_end").bind Json.word32?
  let columnStart ← (look "column_start").bind Json.word32?
  let columnEnd ← (look "column_end").bind Json.word32?
  let isPrimary ← ((look "is_primary").getD (.bool false)).bool?
  let expansion ← CompilerMessage.optional? decodeExpansion? (look "expansion")
  pure ⟨file, lineStart, lineEnd, columnStart, columnEnd, isPrimary, expansion⟩

theorem decode?_eq (json : Json) : decode? json
    = (json.members? memberNames).bind fun members => ofLookup? (members.lookup ·) := by
  rw [decode?]
  split
  · rename_i hnone
    rw [hnone]
    rfl
  · rename_i members hmembers
    refine Eq.trans ?_ (congrArg (Option.bind · _) hmembers).symm
    simp only [ofLookup?, Option.bind_eq_bind, Option.bind_some, Option.bind_assoc]
    cases members.lookup "expansion" with
    | none => rfl
    | some value => cases value <;> rfl

theorem decodeExpansion?_eq (json : Json) : decodeExpansion? json
    = (json.members? ["span"]).bind fun members => (members.lookup "span").bind decode? := by
  rw [decodeExpansion?]
  split
  · rename_i hnone
    rw [hnone]
    rfl
  · rename_i members hmembers
    refine Eq.trans ?_ (congrArg (Option.bind · _) hmembers).symm
    simp only [Option.bind_some]
    cases members.lookup "span" <;> rfl

/-- A span is read alike from alike members when this holds of its expansion. -/
theorem ofLookup?_eq (h : ∀ name, Option.Rel Alike (look name) (other name))
    (hexpansion : ∀ x ∈ look "expansion", ∀ y, x.Alike y →
      decodeExpansion? x = decodeExpansion? y) : ofLookup? look = ofLookup? other := by
  have htext := fun name => bind_eq_of_rel (h name) fun x _ y halike => halike.text?
  have hword := fun name => bind_eq_of_rel (h name) fun x _ y halike => halike.word32?
  rw [ofLookup?, ofLookup?, htext, hword, hword, hword, hword,
    (getD_alike (h "is_primary") _).bool?, optional?_eq_of_alike (h "expansion") hexpansion]

mutual
/-- A span is read alike from alike values. -/
theorem decode?_eq_of_alike {x y : Json} (h : x.Alike y) : decode? x = decode? y := by
  rw [decode?_eq, decode?_eq]
  refine bind_eq_of_rel (h.members? memberNames) fun members hmembers _ hlookups =>
    ofLookup?_eq hlookups fun value hvalue _ halike => ?_
  have hsmaller := Json.sizeOf_lt_of_members? hmembers (Json.mem_of_lookup hvalue)
  exact decodeExpansion?_eq_of_alike halike
termination_by sizeOf x

/-- The span of an expansion is read alike from alike values. -/
theorem decodeExpansion?_eq_of_alike {x y : Json} (h : x.Alike y) :
    decodeExpansion? x = decodeExpansion? y := by
  rw [decodeExpansion?_eq, decodeExpansion?_eq]
  refine bind_eq_of_rel (h.members? ["span"]) fun members hmembers _ hlookups =>
    bind_eq_of_rel (hlookups "span") fun value hvalue _ halike => ?_
  have hsmaller := Json.sizeOf_lt_of_members? hmembers (Json.mem_of_lookup hvalue)
  exact decode?_eq_of_alike halike
termination_by sizeOf x
end

end CompilerSpan

namespace CompilerMessage

/-- Read a message whose members are looked up by name. -/
def ofLookup? (look : String → Option Json) : Option CompilerMessage := do
  let message ← (look "message").bind Json.text?
  let code ← optional? decodeCode? (look "code")
  let level ← (look "level").bind Json.text?
  let spans ← ((look "spans").getD (.array [])).items?.bind (·.mapM CompilerSpan.decode?)
  let children ← (look "children").elim (some []) fun value => value.items?.bind decodeAll?
  let rendered ← optional? Json.text? (look "rendered")
  pure ⟨message, code, level, spans, children, rendered⟩

theorem decode?_eq (json : Json) : decode? json
    = (json.members? memberNames).bind fun members => ofLookup? (members.lookup ·) := by
  rw [decode?]
  split
  · rename_i hnone
    rw [hnone]
    rfl
  · rename_i members hmembers
    refine Eq.trans ?_ (congrArg (Option.bind · _) hmembers).symm
    simp only [ofLookup?, Option.bind_eq_bind, Option.bind_some, Option.bind_assoc]
    cases members.lookup "children" with
    | none => rfl
    | some value => cases value <;> rfl

theorem decodeCode?_eq_of_alike (h : x.Alike y) : decodeCode? x = decodeCode? y :=
  bind_eq_of_rel (h.members? ["code"]) fun _ _ _ hlookups =>
    bind_eq_of_rel (hlookups "code") fun _ _ _ halike => halike.text?

/-- A message is read alike from alike members when this holds of its children. -/
theorem ofLookup?_eq (h : ∀ name, Option.Rel Alike (look name) (other name))
    (hchildren : ∀ items, look "children" = some (.array items) → ∀ others,
      List.Forall₂ Alike items others → decodeAll? items = decodeAll? others) :
    ofLookup? look = ofLookup? other := by
  have htext := fun name => bind_eq_of_rel (h name) fun x _ y halike => halike.text?
  have hcode := optional?_eq_of_alike (h "code") fun x _ y halike => decodeCode?_eq_of_alike halike
  have hrendered := optional?_eq_of_alike (h "rendered") fun x _ y halike => halike.text?
  have hspans := bind_eq_of_rel (getD_alike (h "spans") (.array [])).items? fun xs _ ys halike =>
    mapM_eq_of_alike halike fun _ _ => CompilerSpan.decode?_eq_of_alike
  have helim : (look "children").elim (some []) (fun value => value.items?.bind decodeAll?)
      = (other "children").elim (some []) fun value => value.items?.bind decodeAll? := by
    refine elim_eq_of_rel _ (h "children") fun value hvalue _ halike =>
      bind_eq_of_rel halike.items? fun items hitems others hothers => ?_
    cases value with
    | array => exact hchildren items (Option.some.inj hitems ▸ hvalue) others hothers
    | null | bool | number | string | object => exact nomatch hitems
  rw [ofLookup?, ofLookup?, htext, hcode, htext, hspans, helim, hrendered]

mutual
/-- A message is read alike from alike values. -/
theorem decode?_eq_of_alike {x y : Json} (h : x.Alike y) : decode? x = decode? y := by
  rw [decode?_eq, decode?_eq]
  refine bind_eq_of_rel (h.members? memberNames) fun members hmembers _ hlookups =>
    ofLookup?_eq hlookups fun items hitems _ halike => ?_
  have hsmaller : sizeOf items < sizeOf x := by
    have harray := Json.sizeOf_lt_of_members? hmembers (Json.mem_of_lookup hitems)
    rw [Json.array.sizeOf_spec] at harray
    omega
  exact decodeAll?_eq_of_alike halike
termination_by sizeOf x

/-- Messages are read alike from alike values. -/
theorem decodeAll?_eq_of_alike {xs ys : List Json} (h : List.Forall₂ Alike xs ys) :
    decodeAll? xs = decodeAll? ys := by
  cases h with
  | nil => rfl
  | cons hfirst hrest =>
      rw [decodeAll?, decodeAll?, decode?_eq_of_alike hfirst, decodeAll?_eq_of_alike hrest]
termination_by sizeOf xs
end

end CompilerMessage

namespace ToolMessage

/-- A line that holds an object may be machine-readable. -/
theorem isCandidate_of_read? {line : List Char} {fields : List (Option String × Json)}
    (h : Json.read? (Text.trim line) = some (.object fields)) : isCandidate line = true :=
  beq_iff_eq.2 (Json.head?_trimStart_of_read? h)

/-- What a line says that holds an object. -/
theorem ofLine?_eq_of_read? {line : List Char} {fields : List (Option String × Json)}
    (h : Json.read? (Text.trim line) = some (.object fields)) :
    ofLine? line = ofJson? (.object fields) := by
  rw [ofLine?, if_pos (isCandidate_of_read? h), h, Option.bind_some]

/-- An object whose `reason` is no text is read as a compiler message. -/
theorem ofJson?_of_bare {json : Json}
    (h : ∀ text, json.field? "reason" ≠ some (.string (some text))) :
    ofJson? json = (CompilerMessage.decode? json).map ofCompiler := by
  have hnone : (json.field? "reason").bind Json.text? = none := by
    refine Option.bind_eq_none_iff.2 fun value hvalue => ?_
    cases value with
    | string text =>
        cases text with
        | none => rfl
        | some text => exact absurd hvalue (h text)
    | null | bool | number | array | object => rfl
  rw [ofJson?, hnone]

/-- An envelope says what the message in it says. -/
theorem ofJson?_of_enveloped {envelope message : Json}
    (hreason : envelope.field? "reason" = some (.string (some "compiler-message")))
    (hmessage : envelope.field? "message" = some message) :
    ofJson? envelope = (CompilerMessage.decode? message).map ofCompiler := by
  rw [ofJson?, hreason, hmessage]
  rfl

/-- A compiler message says the same on a line by itself and in an envelope: in both forms the line
gives its diagnostic and its text for people, or in both forms it gives nothing. -/
theorem bare_and_enveloped_agree {bare enveloped : List Char}
    {fields : List (Option String × Json)} {envelope message : Json}
    (hbare : Json.read? (Text.trim bare) = some (.object fields))
    (hplain : ∀ text, (Json.object fields).field? "reason" ≠ some (.string (some text)))
    (henveloped : Json.read? (Text.trim enveloped) = some envelope)
    (hreason : envelope.field? "reason" = some (.string (some "compiler-message")))
    (hmessage : envelope.field? "message" = some message)
    (halike : message.Alike (.object fields)) :
    ofLine? enveloped = ofLine? bare ∧
      ofLine? bare = (CompilerMessage.decode? (.object fields)).map ofCompiler := by
  have hsaid : ofLine? bare = (CompilerMessage.decode? (.object fields)).map ofCompiler := by
    rw [ofLine?_eq_of_read? hbare, ofJson?_of_bare hplain]
  refine ⟨?_, hsaid⟩
  cases envelope with
  | object others =>
      rw [hsaid, ofLine?_eq_of_read? henveloped, ofJson?_of_enveloped hreason hmessage,
        CompilerMessage.decode?_eq_of_alike halike]
  | null | bool | number | string | array => exact nomatch hmessage

/-- The keys of a message stand in one order on a line by itself and in another in its envelope,
and there is white space around both lines. -/
theorem bare_and_enveloped_agree_reordered :
    let bare := " \x7b\"reason\":null,\"message\":\"unused\",\"level\":\"note\",".toList ++
      "\"rendered\":\"unused variable\"\x7d".toList
    let enveloped :=
      "\x7b\"message\":\x7b\"rendered\":\"unused variable\",\"level\":\"note\",".toList ++
      ("\"message\":\"unused\",\"reason\":null\x7d,".toList ++
      "\"fresh\":true,\"reason\":\"compiler-message\"\x7d\t".toList)
    (∃ fields envelope, Json.read? (Text.trim bare) = some (.object fields) ∧
      (∀ text, (Json.object fields).field? "reason" ≠ some (.string (some text))) ∧
      Json.read? (Text.trim enveloped) = some envelope ∧
      envelope.field? "reason" = some (.string (some "compiler-message")) ∧
      ∃ message, envelope.field? "message" = some message ∧ message.Alike (.object fields)) ∧
    ofLine? enveloped = ofLine? bare ∧
      ofLine? bare = some (.compiler none (some "unused variable")) := by
  intro bare enveloped
  let fields : List (Option String × Json) :=
    [(some "reason", .null), (some "message", .string (some "unused")),
      (some "level", .string (some "note")), (some "rendered", .string (some "unused variable"))]
  let message := Json.object fields.reverse
  let envelope := Json.object [(some "message", message), (some "fresh", .bool true),
    (some "reason", .string (some "compiler-message"))]
  have hbare : Json.read? (Text.trim bare) = some (.object fields) :=
    Json.read?_of_tokens [.openObject, .string (some "reason"), .colon, .null, .comma,
      .string (some "message"), .colon, .string (some "unused"), .comma, .string (some "level"),
      .colon, .string (some "note"), .comma, .string (some "rendered"), .colon,
      .string (some "unused variable"), .closeObject] (by decide +kernel) rfl rfl
  have henveloped : Json.read? (Text.trim enveloped) = some envelope :=
    Json.read?_of_tokens [.openObject, .string (some "message"), .colon, .openObject,
      .string (some "rendered"), .colon, .string (some "unused variable"), .comma,
      .string (some "level"), .colon, .string (some "note"), .comma, .string (some "message"),
      .colon, .string (some "unused"), .comma, .string (some "reason"), .colon, .null,
      .closeObject, .comma, .string (some "fresh"), .colon, .bool true, .comma,
      .string (some "reason"), .colon, .string (some "compiler-message"), .closeObject]
      (by decide +kernel) rfl rfl
  have hplain : ∀ text, (Json.object fields).field? "reason" ≠ some (.string (some text)) :=
    fun text h => nomatch Option.some.inj (show some Json.null = _ from h)
  have halike : message.Alike (.object fields) := Alike.of_perm fields.reverse_perm (by decide)
  obtain ⟨hsame, hsaid⟩ := bare_and_enveloped_agree hbare hplain henveloped rfl rfl halike
  exact ⟨⟨fields, envelope, hbare, hplain, henveloped, rfl, message, rfl, halike⟩, hsame,
    hsaid.trans (by decide +kernel)⟩

end ToolMessage

end Toolbench
