import Toolbench.Text.Blank

/-!
# Severities

The four severities of a diagnostic, from the gravest to the mildest, with the words that tools
use for them and the one word with which this library names each.
-/

namespace Toolbench

/-- How grave a diagnostic is. -/
inductive Severity where
  | error
  | warning
  | info
  | hint
deriving DecidableEq, Repr

namespace Severity

/-- The number of a severity. Graver severities have smaller numbers. -/
def rank : Severity → Nat
  | .error => 1
  | .warning => 2
  | .info => 3
  | .hint => 4

/-- Severities are ordered by their numbers. -/
def order (a b : Severity) : Ordering :=
  compare a.rank b.rank

/-- The name of a severity. -/
def label : Severity → String
  | .error => "error"
  | .warning => "warning"
  | .info => "info"
  | .hint => "hint"

/-- The severity that a compiler's word for a level means. White space around the word does not
matter. -/
def ofLabel? (word : String) : Option Severity :=
  match String.ofList (Text.trim word.toList) with
  | "error" | "error: internal compiler error" => some .error
  | "warning" => some .warning
  | "note" | "failure-note" | "info" => some .info
  | "help" | "hint" => some .hint
  | _ => none

/-- The severity with this exact name. -/
def ofName? : String → Option Severity
  | "error" => some .error
  | "warning" => some .warning
  | "info" => some .info
  | "hint" => some .hint
  | _ => none

instance : ToString Severity := ⟨label⟩

theorem ofName?_label (severity : Severity) : ofName? severity.label = some severity := by
  cases severity <;> rfl

/-- The name of a severity is also a word that compilers use for it. -/
theorem ofLabel?_label (severity : Severity) : ofLabel? severity.label = some severity := by
  cases severity <;> decide

end Severity

end Toolbench
