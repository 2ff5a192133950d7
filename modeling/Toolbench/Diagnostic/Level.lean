import Toolbench.Diagnostic.Severity
import Toolbench.Text.Digit

/-!
# Pieces of a report line

The parts that the line formats share: the word for a level at the start of a diagnostic, and the
longest run of characters of one kind, which must not be empty. Each scanner returns what it
read and the rest of the text.
-/

namespace Toolbench.Diagnostic

/-- The words for a level in the line formats. -/
def levels : List (String × Severity) :=
  [("error", .error), ("warning", .warning), ("note", .info), ("help", .hint)]

/-- Read the word for a level. -/
def scanLevel? (cs : List Char) : Option (Severity × List Char) :=
  levels.findSome? fun (word, severity) => (word.toList.isPrefixOf? cs).map (severity, ·)

/-- Read the longest run of characters with a property; there must be at least one. -/
def scanRun? (p : Char → Bool) (cs : List Char) : Option (List Char × List Char) :=
  match cs.takeWhile p with
  | [] => none
  | run => some (run, cs.dropWhile p)

/-- Each word for a level names the severity that it has as a level label. -/
theorem levels_eq_ofLabel? :
    ∀ entry ∈ levels, Severity.ofLabel? entry.1 = some entry.2 := by
  decide

/-- What a scan read and what it left make up the text. -/
theorem append_of_scanRun? {p : Char → Bool} {cs run rest : List Char}
    (h : scanRun? p cs = some (run, rest)) : run ++ rest = cs ∧ run ≠ [] := by
  unfold scanRun? at h
  split at h
  · exact nomatch h
  · rename_i hne
    cases h
    exact ⟨List.takeWhile_append_dropWhile, fun hnil => hne hnil⟩

end Toolbench.Diagnostic
