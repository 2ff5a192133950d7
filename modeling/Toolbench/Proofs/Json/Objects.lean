import Toolbench.Json.Reader
import Toolbench.Text.Blank

/-!
# Documents that hold an object

A document holds an object only when it begins with an opening brace: what begins with a bracket
stays inside an array up to its end (`Reader.InArray`), and any other token is the whole document.
`head?_trimStart_of_read?` says this of a text that may have white space around it.
-/

namespace Toolbench.Json

variable {reader next : Reader} {token : Token} {tokens : List Token} {json value : Json}
  {fields : List (Option String × Json)}

namespace Reader

/-- The outermost open bracket is that of an array. -/
def Nested (frames : List Frame) : Prop :=
  ∃ items, frames.getLast? = some (.array items)

/-- The outermost value that is being read, or that has been read, is an array. -/
def InArray (reader : Reader) : Prop :=
  Nested reader.frames ∨ reader.frames = [] ∧ ∃ items, reader.expected = .next (.array items)

theorem nested_cons {frame : Frame} {frames : List Frame} :
    Nested (frame :: frames) ↔ Nested frames ∨ frames = [] ∧ ∃ items, frame = .array items := by
  cases frames with
  | nil => simp [Nested]
  | cons next frames => simp [Nested]

theorem run?_cons (reader : Reader) (token : Token) (tokens : List Token) :
    reader.run? (token :: tokens) = (reader.step? token).bind (·.run? tokens) := by
  rw [run?]

/-- After a finished document there is nothing more to read. -/
theorem run?_finished (h : run? ⟨[], fields, .next value⟩ tokens = some json) : json = value := by
  cases tokens with
  | nil => exact (Option.some.inj h).symm
  | cons token tokens => cases token <;> exact nomatch h

/-- Where a value must stand, a token leaves the open brackets as they are or adds one. -/
theorem nested_beginValue? (hnested : Nested reader.frames)
    (h : reader.beginValue? token = some next) : Nested next.frames := by
  cases token with
  | null | bool | number | string | openObject =>
      obtain rfl := Option.some.inj h
      exact hnested
  | openArray =>
      obtain rfl := Option.some.inj h
      exact nested_cons.2 (.inl hnested)
  | closeObject | closeArray | comma | colon => exact nomatch h

/-- After a value inside an array, a token leads out of the array only by closing it. -/
theorem inArray_afterValue? (hnested : Nested reader.frames)
    (h : reader.afterValue? value token = some next) : next.InArray := by
  obtain ⟨frames, fields, expected⟩ := reader
  cases frames with
  | nil => exact nomatch hnested
  | cons frame frames =>
      cases token with
      | null | bool | number | string | openArray | openObject | colon => exact nomatch h
      | comma =>
          cases frame with
          | array items =>
              obtain rfl := Option.some.inj h
              exact .inl (nested_cons.2 ((nested_cons.1 hnested).imp_right fun hfirst =>
                ⟨hfirst.1, _, rfl⟩))
          | field others name =>
              obtain rfl := Option.some.inj h
              exact .inl ((nested_cons.1 hnested).resolve_right (nomatch ·))
      | closeArray =>
          cases frame with
          | array items =>
              obtain rfl := Option.some.inj h
              exact (nested_cons.1 hnested).imp_right fun hfirst => ⟨hfirst.1, _, rfl⟩
          | field others name => exact nomatch h
      | closeObject =>
          cases frame with
          | array items => exact nomatch h
          | field others name =>
              obtain rfl := Option.some.inj h
              exact .inl ((nested_cons.1 hnested).resolve_right (nomatch ·))

/-- No token leads out of the outermost array but the one that closes it. -/
theorem InArray.step (hin : reader.InArray) (h : reader.step? token = some next) :
    next.InArray := by
  obtain ⟨frames, fields, expected⟩ := reader
  rcases hin with hnested | ⟨hframes, items, hexpected⟩
  · cases expected with
    | value => exact .inl (nested_beginValue? hnested h)
    | firstItem =>
        simp only [step?] at h
        split at h
        · rename_i frame outer
          obtain rfl := Option.some.inj h
          exact (nested_cons.1 hnested).imp_right fun hfirst => ⟨hfirst.1, _, rfl⟩
        · exact .inl (nested_beginValue? hnested h)
    | firstName =>
        cases token with
        | closeObject | string =>
            obtain rfl := Option.some.inj h
            exact .inl hnested
        | _ => exact nomatch h
    | name =>
        cases token with
        | string =>
            obtain rfl := Option.some.inj h
            exact .inl hnested
        | _ => exact nomatch h
    | colon =>
        cases token with
        | colon =>
            obtain rfl := Option.some.inj h
            exact .inl (nested_cons.2 (.inl hnested))
        | _ => exact nomatch h
    | next value => exact inArray_afterValue? hnested h
  · obtain rfl : frames = [] := hframes
    obtain rfl : expected = _ := hexpected
    cases token <;> exact nomatch h

/-- What is read inside an array is an array. -/
theorem InArray.run? (hin : reader.InArray) (h : reader.run? tokens = some json) :
    ∃ items, json = .array items := by
  induction tokens generalizing reader with
  | nil =>
      obtain ⟨frames, fields, expected⟩ := reader
      rcases hin with hnested | ⟨hframes, items, hexpected⟩
      · cases frames with
        | nil => exact nomatch hnested
        | cons frame frames => exact nomatch h
      · obtain rfl : frames = [] := hframes
        obtain rfl : expected = _ := hexpected
        exact ⟨items, (Option.some.inj h).symm⟩
  | cons token tokens ih =>
      rw [run?_cons] at h
      obtain ⟨next, hstep, hrun⟩ := Option.bind_eq_some_iff.1 h
      exact ih (hin.step hstep) hrun

/-- Only after an opening brace an object is read. -/
theorem run?_start_object (h : start.run? tokens = some (.object fields)) :
    ∃ rest, tokens = .openObject :: rest := by
  cases tokens with
  | nil => exact nomatch h
  | cons token tokens =>
      cases token with
      | openObject => exact ⟨tokens, rfl⟩
      | openArray =>
          have hin : InArray ⟨[.array []], [], .firstItem⟩ := .inl (nested_cons.2 (.inr ⟨rfl, _, rfl⟩))
          obtain ⟨items, hitems⟩ := hin.run? h
          exact nomatch hitems
      | null | bool | number | string => exact nomatch run?_finished h
      | closeObject | closeArray | comma | colon => exact nomatch h

end Reader

/-- Only a brace is read as an opening brace. -/
theorem Token.head?_of_scan? {text rest : List Char}
    (h : Token.scan? text = some (.openObject, rest)) : text.head? = some '\x7b' := by
  unfold Token.scan? at h
  split at h
  all_goals first | rfl | simp at h

/-- The first token that is read begins behind the white space. -/
theorem Token.scan?_of_ofText? {cs : List Char} (h : Token.ofText? cs = some (token :: tokens)) :
    ∃ rest, Token.scan? (cs.dropWhile Token.isSpace) = some (token, rest) := by
  cases cs with
  | nil => exact nomatch h
  | cons c cs =>
      rw [Token.ofText?, List.length_cons, Token.scanAll?] at h
      split at h
      · exact nomatch h
      · obtain ⟨⟨first, rest⟩, hscan, htokens⟩ := Option.bind_eq_some_iff.1 h
        obtain ⟨others, -, hcons⟩ := Option.map_eq_some_iff.1 htokens
        obtain rfl : first = token := (List.cons.inj hcons).1
        exact ⟨rest, hscan⟩

/-- A document that holds an object begins with an opening brace. -/
theorem head?_of_read?_object {cs : List Char} (h : read? cs = some (.object fields)) :
    (cs.dropWhile Token.isSpace).head? = some '\x7b' := by
  obtain ⟨htext, -⟩ := Option.filter_eq_some_iff.1 h
  obtain ⟨tokens, htokens, hrun⟩ := Option.bind_eq_some_iff.1 htext
  obtain ⟨rest, rfl⟩ := Reader.run?_start_object hrun
  obtain ⟨after, hscan⟩ := Token.scan?_of_ofText? htokens
  exact Token.head?_of_scan? hscan

/-- What may stand between tokens is white space. -/
theorem Token.isWhite_of_isSpace {c : Char} (h : Token.isSpace c = true) :
    Text.isWhite c = true := by
  simp only [Token.isSpace, Bool.or_eq_true, beq_iff_eq] at h
  rcases h with ((rfl | rfl) | rfl) | rfl <;> decide

/-- A text that holds an object once it is trimmed begins with an opening brace behind its white
space. -/
theorem head?_trimStart_of_read? {cs : List Char}
    (h : read? (Text.trim cs) = some (.object fields)) :
    (Text.trimStart cs).head? = some '\x7b' := by
  have hbrace := head?_of_read?_object h
  have hblank : ∀ c ∈ (Text.trimStart cs).head?, Text.isWhite c = false := by
    intro c hc
    have hnot := List.head?_dropWhile_not Text.isWhite cs
    rw [Text.trimStart, Option.mem_def] at hc
    simpa [hc] using hnot
  have hkept : Text.trim cs <+: Text.trimStart cs :=
    List.reverse_suffix.1 (by simpa [Text.trim, Text.trimEnd] using List.dropWhile_suffix _)
  obtain ⟨more, hmore⟩ := hkept
  cases htrim : Text.trim cs with
  | nil => simp [htrim] at hbrace
  | cons c rest =>
      rw [htrim, List.cons_append] at hmore
      have hspace : Token.isSpace c = false := by
        rw [← hmore] at hblank
        exact Bool.eq_false_iff.2 fun hblanks =>
          Bool.false_ne_true ((hblank c rfl).symm.trans (Token.isWhite_of_isSpace hblanks))
      rw [htrim, List.dropWhile_cons_of_neg (by simp [hspace])] at hbrace
      rw [← hmore]
      exact hbrace

/-- A document holds what its tokens are read as. -/
theorem read?_of_tokens {cs : List Char} (tokens : List Token)
    (htokens : Token.ofText? cs = some tokens) (hrun : Reader.start.run? tokens = some json)
    (hreadable : json.readable = true) : read? cs = some json := by
  rw [read?, ofText?, htokens, Option.bind_some, hrun, Option.filter_some, if_pos hreadable]

end Toolbench.Json
