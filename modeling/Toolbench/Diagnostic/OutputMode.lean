import Toolbench.Text.Blank

/-!
# Output modes

The three forms in which a build tool can report diagnostics: one line each, blocks of several
lines for people, or one record per line for programs.
-/

namespace Toolbench

/-- The form in which a tool reports diagnostics. -/
inductive OutputMode where
  /-- One line each: `path:line:column: endLine:endColumn severity: message`. -/
  | legacy
  /-- Blocks of several lines with a source excerpt. -/
  | human
  /-- One JSON record per line. -/
  | json
deriving DecidableEq, Repr, Inhabited

namespace OutputMode

/-- The mode that is used when none is chosen. -/
def standard : OutputMode :=
  .json

/-- The name of a mode. -/
def label : OutputMode → String
  | .legacy => "legacy"
  | .human => "human"
  | .json => "json"

/-- The mode with this exact name. -/
def ofName? : String → Option OutputMode
  | "legacy" => some .legacy
  | "human" => some .human
  | "json" => some .json
  | _ => none

/-- A text that names no mode. -/
structure Unknown where
  text : String
deriving DecidableEq, Repr

/-- What is said about a text that names no mode. -/
def Unknown.message (unknown : Unknown) : String :=
  "unknown output mode `" ++ unknown.text ++ "` (expected legacy, human or json)"

/-- The mode that a text names. Case and white space around the name do not matter. -/
def read (text : String) : Except Unknown OutputMode :=
  match ofName? (String.ofList ((Text.trim text.toList).map Char.toLower)) with
  | some mode => .ok mode
  | none => .error ⟨text⟩

/-- The tool has to be asked for this form. -/
def isStructured (mode : OutputMode) : Bool :=
  mode == .json

theorem ofName?_label (mode : OutputMode) : ofName? mode.label = some mode := by
  cases mode <;> rfl

theorem read_label (mode : OutputMode) : read mode.label = .ok mode := by
  cases mode <;> rfl

end OutputMode

end Toolbench
