import Mathlib.Data.List.Basic

/-!
# Texts in pieces

A text is cut at each occurrence of a separator. No piece has the separator, there is one piece more
than separators, and the text is its pieces with the separator between them (`intercalate_splitOn`),
or behind each but the last (`flatMap_dropLast_splitOn`). Texts without the separator are read back
when it is put between them (`splitOn_intercalate`).
-/

namespace Toolbench.Text

variable {α : Type} [DecidableEq α] {a : α} {xs : List α}

/-- A piece between separators has no separator. -/
theorem not_mem_of_mem_splitOn {piece : List α} (h : piece ∈ xs.splitOn a) : a ∉ piece := by
  induction xs generalizing piece with
  | nil =>
      rw [List.splitOn_nil, List.mem_singleton] at h
      simp [h]
  | cons x xs ih =>
      rw [List.splitOn_cons_eq_if_modifyHead] at h
      split at h
      · rcases List.mem_cons.1 h with rfl | hrest
        · exact List.not_mem_nil
        · exact ih hrest
      · rename_i hx
        cases hpieces : xs.splitOn a with
        | nil => exact absurd hpieces (List.splitOn_ne_nil a xs)
        | cons first rest =>
            rw [hpieces] at ih h
            rcases List.mem_cons.1 h with rfl | hrest
            · have hfirst : a ∉ first := ih List.mem_cons_self
              simp only [beq_iff_eq] at hx
              simp [Ne.symm hx, hfirst]
            · exact ih (List.mem_cons_of_mem first hrest)

/-- There is one piece more than separators. -/
theorem length_splitOn (a : α) (xs : List α) : (xs.splitOn a).length = xs.count a + 1 := by
  induction xs with
  | nil => simp
  | cons x xs ih =>
      rw [List.splitOn_cons_eq_if_modifyHead, List.count_cons]
      split
      · rw [List.length_cons, ih]
      · rw [List.length_modifyHead, ih, Nat.add_zero]

/-- What was cut is every piece but the last with the separator behind it, and then the last. -/
theorem flatMap_dropLast_splitOn (a : α) (xs : List α) :
    (xs.splitOn a).dropLast.flatMap (· ++ [a]) ++ (xs.splitOn a).getLastD [] = xs := by
  induction xs with
  | nil => simp
  | cons x xs ih =>
      rw [List.splitOn_cons_eq_if_modifyHead]
      cases hpieces : xs.splitOn a with
      | nil => exact absurd hpieces (List.splitOn_ne_nil a xs)
      | cons first rest =>
          rw [hpieces] at ih
          -- The first element either ends an empty piece or stands before the first piece.
          split
          · rename_i hx
            rw [beq_iff_eq] at hx
            simpa [hx] using ih
          · cases rest with
            | nil => simpa using ih
            | cons next others => simpa using ih

/-- A piece of a text has no separator. -/
theorem not_mem_of_mem_map_splitOn {c : Char} {text piece : String}
    (h : piece ∈ (text.toList.splitOn c).map String.ofList) : c ∉ piece.toList := by
  obtain ⟨cs, hcs, rfl⟩ := List.mem_map.1 h
  rw [String.toList_ofList]
  exact not_mem_of_mem_splitOn hcs

/-- A text is its pieces with the separator between them. -/
theorem intercalate_splitOn {separator : String} {c : Char} (hseparator : separator.toList = [c])
    (text : String) :
    separator.intercalate ((text.toList.splitOn c).map String.ofList) = text := by
  have hpieces : [c].intercalate (text.toList.splitOn c) = text.toList := List.intercalate_splitOn c
  rw [← String.toList_inj, String.toList_intercalate, hseparator, List.map_map]
  refine Eq.trans ?_ hpieces
  congr 1
  exact (List.map_congr_left fun cs _ => String.toList_ofList).trans (List.map_id _)

/-- Texts without the separator are read back when it is put between them. -/
theorem splitOn_intercalate {separator : String} {c : Char} (hseparator : separator.toList = [c])
    {texts : List String} (hne : texts ≠ []) (h : ∀ text ∈ texts, c ∉ text.toList) :
    ((separator.intercalate texts).toList.splitOn c).map String.ofList = texts := by
  have hread : ([c].intercalate (texts.map String.toList)).splitOn c
      = texts.map String.toList := by
    refine List.splitOn_intercalate c ?_ (by simpa using hne)
    intro cs hcs
    obtain ⟨text, htext, rfl⟩ := List.mem_map.1 hcs
    exact h text htext
  rw [String.toList_intercalate, hseparator, hread, List.map_map]
  exact (List.map_congr_left fun text _ => String.ofList_toList).trans (List.map_id texts)

end Toolbench.Text
