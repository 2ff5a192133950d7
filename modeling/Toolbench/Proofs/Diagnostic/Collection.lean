import Toolbench.Diagnostic.Collection

/-!
# What a collection holds

A collection takes in no diagnostic that repeats one of the same file, so what it holds is best
said of identities: a file, a range and a message. `Collection.publishAll_spec` says that the
identities of the diagnostics offered, and no others, are added. Whether a diagnostic repeats
another one is looked up under its file, which is where all diagnostics of that file are
(`Filed`).
-/

namespace Toolbench

/-- Two paths are the same when they have the same components. -/
theorem Path.same_iff {p q : Path} : p.same q = true ↔ p.components = q.components := by
  simp [same]

namespace Collection

/-- The collection has a diagnostic of this file with this range and message. -/
def Holds (c : Collection) (path : Path) (range : TextRange) (message : String) : Prop :=
  ∃ entry ∈ c.files, ∃ d ∈ entry.2, d.path.same path = true ∧ d.range = range ∧ d.message = message

/-- Every diagnostic stands under its own path. -/
def Filed (c : Collection) : Prop :=
  ∀ entry ∈ c.files, ∀ d ∈ entry.2, d.path.same entry.1 = true

/-- The empty collection holds nothing. -/
theorem not_holds_empty (path : Path) (range : TextRange) (message : String) :
    ¬ empty.Holds path range message := by
  rintro ⟨entry, hentry, -⟩
  exact List.not_mem_nil hentry

/-- The empty collection is in order. -/
theorem filed_empty : empty.Filed :=
  fun _ hentry => absurd hentry List.not_mem_nil

/-- A diagnostic that is put behind those of its path is added to the others. -/
theorem exists_mem_setEntry {path : Path} {d : Diagnostic} {R : Diagnostic → Prop}
    (files : List (Path × List Diagnostic)) :
    (∃ entry ∈ setEntry path ((entryAt? path files).getD [] ++ [d]) files, ∃ e ∈ entry.2, R e) ↔
      (∃ entry ∈ files, ∃ e ∈ entry.2, R e) ∨ R d := by
  -- The look-up and the change both stop at the first entry of the path.
  induction files with
  | nil => simp [setEntry, entryAt?]
  | cons entry files ih =>
      obtain ⟨key, ds⟩ := entry
      by_cases hkey : key.same path = true
      · simp [setEntry, entryAt?, hkey, or_and_right, exists_or, or_right_comm]
      · have hrest : entryAt? path ((key, ds) :: files) = entryAt? path files := by
          simp [entryAt?, hkey]
        rw [hrest]
        simp only [setEntry, hkey, Bool.false_eq_true, if_false, List.mem_cons, exists_eq_or_imp]
        rw [ih, or_assoc]

/-- A diagnostic that is put behind those of its path stands under its own path. -/
theorem filed_setEntry {path : Path} {d : Diagnostic} (hd : d.path = path)
    {files : List (Path × List Diagnostic)} (h : Filed ⟨files⟩) :
    Filed ⟨setEntry path ((entryAt? path files).getD [] ++ [d]) files⟩ := by
  induction files with
  | nil =>
      intro entry hentry e he
      simp only [setEntry, List.mem_singleton] at hentry
      subst hentry
      simp only [entryAt?, List.find?_nil, Option.map_none, Option.getD_none, List.nil_append,
        List.mem_singleton] at he
      rw [he, hd, Path.same_iff]
  | cons first files ih =>
      obtain ⟨key, ds⟩ := first
      obtain ⟨hfirst, hfiles⟩ := List.forall_mem_cons.1 h
      by_cases hkey : key.same path = true
      · simp only [setEntry, entryAt?, List.find?_cons, hkey, Option.map_some, Option.getD_some,
          if_true]
        refine List.forall_mem_cons.2 ⟨fun e he => ?_, hfiles⟩
        rcases List.mem_append.1 he with hold | hnew
        · exact hfirst e hold
        · rw [List.mem_singleton.1 hnew, hd, Path.same_iff, Path.same_iff.1 hkey]
      · have hrest : entryAt? path ((key, ds) :: files) = entryAt? path files := by
          simp [entryAt?, hkey]
        rw [hrest]
        simp only [setEntry, hkey, Bool.false_eq_true, if_false]
        exact List.forall_mem_cons.2 ⟨hfirst, ih hfiles⟩

variable {directory path : Path} {range : TextRange} {message : String} {c : Collection}

/-- The diagnostics of a path are diagnostics of the collection. -/
theorem exists_entry_of_mem_forPath {d : Diagnostic} (h : d ∈ c.forPath path) :
    ∃ entry ∈ c.files, d ∈ entry.2 ∧ entry.1.same path = true := by
  unfold forPath entryAt? at h
  cases hentry : c.files.find? (·.1.same path) with
  | none => simp [hentry] at h
  | some entry =>
      simp only [hentry, Option.map_some, Option.getD_some] at h
      exact ⟨entry, List.mem_of_find?_eq_some hentry, h, by simpa using List.find?_some hentry⟩

/-- Taking in a diagnostic adds its identity and no other, and keeps the collection in order. -/
theorem publish_spec (h : c.Filed) (directory : Path) (d : Diagnostic) :
    (c.publish directory d).1.Filed ∧
      ∀ path range message, (c.publish directory d).1.Holds path range message ↔
        c.Holds path range message ∨
          ((d.resolvedIn directory).path.same path = true ∧ d.range = range ∧
            d.message = message) := by
  unfold publish
  dsimp only
  split
  · rename_i hrepeats
    refine ⟨h, fun path range message => ⟨.inl, fun hnow => ?_⟩⟩
    rcases hnow with hold | ⟨hpath, rfl, rfl⟩
    · exact hold
    · obtain ⟨e, he, hsame⟩ := List.any_eq_true.1 hrepeats
      obtain ⟨entry, hentry, hmem, hkey⟩ := exists_entry_of_mem_forPath he
      obtain ⟨hrange, hmessage⟩ := Diagnostic.repeats_iff.1 hsame
      have hfiled := Path.same_iff.1 (h entry hentry e hmem)
      refine ⟨entry, hentry, e, hmem, ?_, hrange, hmessage⟩
      rw [Path.same_iff, hfiled, Path.same_iff.1 hkey, Path.same_iff.1 hpath]
  · exact ⟨filed_setEntry rfl h, fun path range message => exists_mem_setEntry c.files⟩

/-- Taking in diagnostics adds their identities and no others, and keeps the collection in
order. -/
theorem publishAll_spec (h : c.Filed) (directory : Path) (ds : List Diagnostic) :
    (c.publishAll directory ds).1.Filed ∧
      ∀ path range message, (c.publishAll directory ds).1.Holds path range message ↔
        c.Holds path range message ∨
          ∃ d ∈ ds, (d.resolvedIn directory).path.same path = true ∧ d.range = range ∧
            d.message = message := by
  induction ds generalizing c with
  | nil => exact ⟨h, fun path range message => by simp [publishAll]⟩
  | cons d ds ih =>
      obtain ⟨hfiled, hholds⟩ := publish_spec h directory d
      obtain ⟨hfiledAll, hholdsAll⟩ := ih hfiled
      refine ⟨hfiledAll, fun path range message => ?_⟩
      show (publishAll directory ds (c.publish directory d).1).1.Holds path range message ↔ _
      rw [hholdsAll, hholds, or_assoc]
      simp only [List.mem_cons, exists_eq_or_imp]

end Collection

end Toolbench
