import Toolbench.Diagnostic.CompilerMessage
import Toolbench.Json.Reader
import Toolbench.Text.Lines

/-!
# Machine-readable lines

A build tool reports one JSON object per line. An object whose `reason` is `compiler-message`
carries a compiler message, one whose `reason` is `build-finished` tells how the build ended, and
any other `reason` is of no concern. An object without a `reason` may be a compiler message
itself. Every other line is plain output.
-/

namespace Toolbench

/-- What a machine-readable line says. -/
inductive ToolMessage where
  /-- A compiler message: its diagnostic, if it has a place, and its text for people. -/
  | compiler (diagnostic : Option Diagnostic) (rendered : Option String)
  /-- The end of the build. -/
  | buildFinished (success : Bool)
  /-- Something else that the tool tells about itself. -/
  | other (reason : String)
deriving DecidableEq, Repr

namespace ToolMessage

/-- The line may be machine-readable: its first character that is not white space opens an
object. -/
def isCandidate (line : List Char) : Bool :=
  (Text.trimStart line).head? == some '\x7b'

/-- What a compiler message says in a line. -/
def ofCompiler (message : CompilerMessage) : ToolMessage :=
  .compiler message.diagnostic? message.rendered

/-- What an object says. -/
def ofJson? (json : Json) : Option ToolMessage :=
  match (json.field? "reason").bind Json.text? with
  | some "compiler-message" =>
      ((json.field? "message").bind CompilerMessage.decode?).map ofCompiler
  | some "build-finished" =>
      some (.buildFinished (((json.field? "success").bind Json.bool?).getD false))
  | some reason => some (.other reason)
  | none => (CompilerMessage.decode? json).map ofCompiler

/-- What a line says; nothing when the line is plain output. -/
def ofLine? (line : List Char) : Option ToolMessage :=
  if isCandidate line then (Json.read? (Text.trim line)).bind ofJson? else none

/-- The diagnostic of a message. -/
def diagnostic? : ToolMessage → Option Diagnostic
  | .compiler diagnostic _ => diagnostic
  | _ => none

end ToolMessage

namespace Diagnostic.JsonLine

/-- The diagnostic that a machine-readable line holds. -/
def diagnostic? (line : List Char) : Option Diagnostic :=
  (ToolMessage.ofLine? line).bind ToolMessage.diagnostic?

/-- The diagnostics that the lines of a text hold. -/
def diagnostics (text : List Char) : List Diagnostic :=
  (Text.lines text).filterMap diagnostic?

end Diagnostic.JsonLine

end Toolbench
