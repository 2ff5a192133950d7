import Toolbench.Diagnostic.Level
import Toolbench.Proofs.Text.Runs
import Mathlib.Data.List.Basic
import Mathlib.Data.List.TakeWhile

/-!
# What scanners read

A scanner reads a piece at the start of a text exactly when the text is that piece and the rest.
For a run the rest does not go on with it; a word for a level is determined by the text.
-/

namespace Toolbench.Diagnostic

open Text (IsRun isWhite isInlineBlank isDecimalDigit)

/-- A run is read back when what follows it cannot extend it. -/
theorem scanRun?_append {p : Char → Bool} {run rest : List Char} (hrun : IsRun p run)
    (hrest : ∀ c ∈ rest.head?, p c = false) : scanRun? p (run ++ rest) = some (run, rest) := by
  unfold scanRun?
  rw [Text.takeWhile_append_of_head hrun.2 hrest, Text.dropWhile_append_of_head hrun.2 hrest]
  obtain ⟨c, cs, rfl⟩ := List.exists_cons_of_ne_nil hrun.1
  rfl

/-- A run is read up to the first character of another kind. -/
theorem scanRun?_eq_some_iff {p : Char → Bool} {cs run rest : List Char} :
    scanRun? p cs = some (run, rest) ↔
      cs = run ++ rest ∧ IsRun p run ∧ ∀ c ∈ rest.head?, p c = false := by
  constructor
  · intro h
    have hwhole := append_of_scanRun? h
    unfold scanRun? at h
    split at h
    · exact nomatch h
    · obtain ⟨rfl, rfl⟩ := h
      refine ⟨hwhole.1.symm, ⟨hwhole.2, fun c hc => List.mem_takeWhile_imp hc⟩, ?_⟩
      intro c hc
      have hhead := List.head?_dropWhile_not p cs
      rw [hc] at hhead
      exact hhead
  · rintro ⟨rfl, hrun, hrest⟩
    exact scanRun?_append hrun hrest

/-- A word for a level is read exactly where the text begins with it. -/
theorem scanLevel?_eq_some_iff {cs rest : List Char} {severity : Severity} :
    scanLevel? cs = some (severity, rest) ↔
      ∃ word, (word, severity) ∈ levels ∧ cs = word.toList ++ rest := by
  constructor
  · intro h
    obtain ⟨⟨word, found⟩, hentry, hread⟩ := List.exists_of_findSome?_eq_some h
    obtain ⟨left, hleft, heq⟩ := Option.map_eq_some_iff.1 hread
    obtain ⟨rfl, rfl⟩ := heq
    exact ⟨word, hentry, (List.isPrefixOf?_eq_some_iff_append_eq.1 hleft).symm⟩
  · -- The words begin with different characters, so at most one of them is read.
    rintro ⟨word, hentry, rfl⟩
    simp only [levels, List.mem_cons, Prod.mk.injEq, List.not_mem_nil, or_false] at hentry
    rcases hentry with ⟨rfl, rfl⟩ | ⟨rfl, rfl⟩ | ⟨rfl, rfl⟩ | ⟨rfl, rfl⟩ <;> rfl

/-- No word for a level is read exactly where the text begins with none of them. -/
theorem scanLevel?_eq_none_iff {cs : List Char} :
    scanLevel? cs = none ↔ ∀ entry ∈ levels, ¬ entry.1.toList <+: cs := by
  rw [scanLevel?, List.findSome?_eq_none_iff]
  refine forall₂_congr fun entry _ => ?_
  rw [Option.map_eq_none_iff, ← Option.not_isSome_iff_eq_none,
    List.isSome_isPrefixOf?_eq_isPrefixOf, List.isPrefixOf_iff_prefix]

/-- The words for the levels begin with one of four letters. -/
theorem exists_letter_of_mem_levels {word : String} {severity : Severity}
    (h : (word, severity) ∈ levels) :
    ∃ c ∈ ['e', 'w', 'n', 'h'], ∃ letters, word.toList = c :: letters := by
  simp only [levels, List.mem_cons, Prod.mk.injEq, List.not_mem_nil, or_false] at h
  rcases h with ⟨rfl, -⟩ | ⟨rfl, -⟩ | ⟨rfl, -⟩ | ⟨rfl, -⟩ <;> exact ⟨_, by decide, _, rfl⟩

/-- None of these letters is white space, a digit or a sign. -/
theorem letter_spec {c : Char} (hc : c ∈ ['e', 'w', 'n', 'h']) :
    isWhite c = false ∧ isInlineBlank c = false ∧ isDecimalDigit c = false ∧
      c ∉ ['=', '|', '.', ':', '-', '\r'] := by
  simp only [List.mem_cons, List.not_mem_nil, or_false] at hc
  rcases hc with rfl | rfl | rfl | rfl <;> decide

end Toolbench.Diagnostic
