import Toolbench.Diagnostic.Basic
import Toolbench.Json.Basic

/-!
# Structured compiler messages

What a compiler reports about one problem: a message with its level, the source spans it is about,
and child messages. `CompilerMessage.decode?` reads one from a JSON value. Members that are not
named here are ignored; a member of the wrong form makes the whole message unreadable.

The diagnostic of a message lies at its first primary span. A span inside an expanded macro is
followed outwards through its expansions to the place where the outermost macro is used. The
children become further lines of the message.
-/

namespace Toolbench

/-- A stretch of source text in a compiler message. -/
structure CompilerSpan where
  file : String
  lineStart : UInt32
  lineEnd : UInt32
  columnStart : UInt32
  columnEnd : UInt32
  isPrimary : Bool
  /-- Where the macro is used whose expansion holds this span. -/
  expansion : Option CompilerSpan
deriving Repr

/-- A compiler message with its children. -/
structure CompilerMessage where
  message : String
  code : Option String
  level : String
  spans : List CompilerSpan
  children : List CompilerMessage
  /-- The text that the compiler would print for people. -/
  rendered : Option String
deriving Repr

namespace CompilerSpan

/-- The names of the members of a span. -/
def memberNames : List String :=
  ["file_name", "line_start", "line_end", "column_start", "column_end", "is_primary", "expansion"]

mutual
/-- Read a span from a JSON value. -/
def decode? (json : Json) : Option CompilerSpan :=
  match hmembers : json.members? memberNames with
  | none => none
  | some members => do
      let file ← (← members.lookup "file_name").text?
      let lineStart ← (← members.lookup "line_start").word32?
      let lineEnd ← (← members.lookup "line_end").word32?
      let columnStart ← (← members.lookup "column_start").word32?
      let columnEnd ← (← members.lookup "column_end").word32?
      let isPrimary ← ((members.lookup "is_primary").getD (.bool false)).bool?
      let expansion ←
        match hvalue : members.lookup "expansion" with
        | none => some none
        | some value =>
            have := Json.sizeOf_lt_of_members? hmembers (Json.mem_of_lookup hvalue)
            if value.isNull then some none else (decodeExpansion? value).map some
      pure ⟨file, lineStart, lineEnd, columnStart, columnEnd, isPrimary, expansion⟩
termination_by sizeOf json

/-- Read the span of an expansion from a JSON value. -/
def decodeExpansion? (json : Json) : Option CompilerSpan :=
  match hmembers : json.members? ["span"] with
  | none => none
  | some members =>
      match hvalue : members.lookup "span" with
      | none => none
      | some value =>
          have := Json.sizeOf_lt_of_members? hmembers (Json.mem_of_lookup hvalue)
          decode? value
termination_by sizeOf json
end

/-- The last span of the chain of expansions. -/
def outermost : CompilerSpan → CompilerSpan
  | ⟨_, _, _, _, _, _, some outer⟩ => outermost outer
  | span => span

/-- The range of a span. -/
def range (span : CompilerSpan) : TextRange :=
  ⟨span.lineStart, span.columnStart, span.lineEnd, span.columnEnd⟩

/-- A short reference to where a span begins. -/
def reference (span : CompilerSpan) : String :=
  span.file ++ "(" ++ Text.Decimal.wordText span.lineStart ++ ")"

end CompilerSpan

namespace CompilerMessage

/-- The names of the members of a message. -/
def memberNames : List String :=
  ["message", "code", "level", "spans", "children", "rendered"]

/-- Read a code from a JSON value. -/
def decodeCode? (json : Json) : Option String := do
  (← (← json.members? ["code"]).lookup "code").text?

/-- Read a member that may be missing or null. -/
def optional? {α : Type} (decode : Json → Option α) : Option Json → Option (Option α)
  | none => some none
  | some .null => some none
  | some value => (decode value).map some

mutual
/-- Read a message from a JSON value. -/
def decode? (json : Json) : Option CompilerMessage :=
  match hmembers : json.members? memberNames with
  | none => none
  | some members => do
      let message ← (← members.lookup "message").text?
      let code ← optional? decodeCode? (members.lookup "code")
      let level ← (← members.lookup "level").text?
      let spans ← ((members.lookup "spans").getD (.array [])).items?
      let spans ← spans.mapM CompilerSpan.decode?
      let children ←
        match hvalue : members.lookup "children" with
        | none => some []
        | some (.array items) =>
            have := Json.sizeOf_lt_of_members? hmembers (Json.mem_of_lookup hvalue)
            have : sizeOf items < sizeOf json := by
              simp only [Json.array.sizeOf_spec] at *
              omega
            decodeAll? items
        | some _ => none
      let rendered ← optional? Json.text? (members.lookup "rendered")
      pure ⟨message, code, level, spans, children, rendered⟩
termination_by sizeOf json

/-- Read messages from JSON values. -/
def decodeAll? : List Json → Option (List CompilerMessage)
  | [] => some []
  | item :: items => do
      let message ← decode? item
      let messages ← decodeAll? items
      pure (message :: messages)
termination_by items => sizeOf items
end

/-- What follows the message of a child: references to its spans. -/
def references : List CompilerSpan → String
  | [] => ""
  | spans => " [" ++ ", ".intercalate (spans.map CompilerSpan.reference) ++ "]"

mutual
/-- The line of a message that stands `depth` levels below another, and the lines of its own
children. Each line begins with a line feed. -/
def flattened (depth : Nat) : CompilerMessage → String
  | ⟨message, _, level, spans, children, _⟩ =>
      "\n" ++ String.join (List.replicate depth "  ") ++ level ++ ": " ++ message
        ++ references spans ++ flattenedAll (depth + 1) children

/-- The lines of messages that stand `depth` levels below another. -/
def flattenedAll (depth : Nat) : List CompilerMessage → String
  | [] => ""
  | child :: children => flattened depth child ++ flattenedAll depth children
end

/-- The place of a message: its first primary span, followed to the outermost expansion. -/
def place? (message : CompilerMessage) : Option CompilerSpan :=
  (message.spans.find? (·.isPrimary)).map CompilerSpan.outermost

/-- The diagnostic of a message; there is none without a primary span. -/
def diagnostic? (message : CompilerMessage) : Option Diagnostic :=
  message.place?.map fun span =>
    Diagnostic.withCode
      ⟨⟨span.file⟩, span.range, (Severity.ofLabel? message.level).getD .info,
        message.message ++ flattenedAll 1 message.children, none⟩
      message.code

end CompilerMessage

end Toolbench
