import Mathlib.Data.List.Pairwise
import Mathlib.Data.List.Perm.Basic
import Mathlib.Data.Prod.Lex
import Toolbench.Proofs.Diagnostic.Contents
import Toolbench.Proofs.Path.Order

/-!
# A collection in reading order

The snapshot of a collection has its files and their diagnostics, rearranged: `snapshot_of_calls`
says what a reader of it can rely on after any calls. Read `ByStart` and `Precedes` first, the two
orders. The sort inside a file is stable, so the order of arrival decides between diagnostics that
start at one position; between files nothing is left to decide, because no two keys of a collection
are the same path, and so the snapshot does not depend on how the files are enumerated.
-/

namespace Toolbench

/-- Sorting leaves those elements in their order between which the order does not decide. -/
theorem filter_mergeSort {α : Type} {le : α → α → Bool}
    (htrans : ∀ a b c, le a b = true → le b c = true → le a c = true)
    (htotal : ∀ a b, (le a b || le b a) = true) {p : α → Bool}
    (hp : ∀ a b, p a = true → p b = true → le a b = true) (as : List α) :
    (as.mergeSort le).filter p = as.filter p := by
  have hsorted : (as.filter p).Pairwise fun a b => le a b = true := by
    refine List.pairwise_of_forall_mem_list fun a ha b hb => ?_
    exact hp a b (List.mem_filter.1 ha).2 (List.mem_filter.1 hb).2
  have hsublist : (as.filter p).Sublist ((as.mergeSort le).filter p) := by
    have h := (List.sublist_mergeSort htrans htotal hsorted List.filter_sublist).filter p
    simpa only [List.filter_filter, Bool.and_self] using h
  have hlength := ((List.mergeSort_perm as le).filter p).length_eq
  exact (hsublist.eq_of_length hlength.symm).symm

/-- Where a diagnostic starts: the line first, the column then. -/
def Diagnostic.start (d : Diagnostic) : ℕ ×ₗ ℕ :=
  toLex (d.range.startLine.toNat, d.range.startColumn.toNat)

namespace Snapshot

/-! ## Inside a file -/

theorem startsBefore_iff {d e : Diagnostic} : startsBefore d e = true ↔ d.start ≤ e.start := by
  simp only [startsBefore, Diagnostic.start, Prod.Lex.toLex_le_toLex, Bool.or_eq_true,
    Bool.and_eq_true, decide_eq_true_eq, beq_iff_eq, UInt32.lt_iff_toNat_lt,
    UInt32.le_iff_toNat_le, UInt32.toNat_inj]

/-- The diagnostics that arrived, by start, and where they start at one position in the order in
which they arrived. -/
structure ByStart (read arrived : List Diagnostic) : Prop where
  perm : read.Perm arrived
  sorted : read.Pairwise fun d e => d.start ≤ e.start
  stable : ∀ position, read.filter (·.start = position) = arrived.filter (·.start = position)

theorem startsBefore_trans (d e f : Diagnostic) (hde : startsBefore d e = true)
    (hef : startsBefore e f = true) : startsBefore d f = true := by
  rw [startsBefore_iff] at *
  exact hde.trans hef

theorem startsBefore_total (d e : Diagnostic) :
    (startsBefore d e || startsBefore e d) = true := by
  rw [Bool.or_eq_true, startsBefore_iff, startsBefore_iff]
  exact le_total d.start e.start

/-- The diagnostics of a file are put in order by start. -/
theorem byStart_mergeSort (ds : List Diagnostic) : ByStart (ds.mergeSort startsBefore) ds where
  perm := List.mergeSort_perm ds startsBefore
  sorted := (List.pairwise_mergeSort startsBefore_trans startsBefore_total ds).imp
    startsBefore_iff.1
  stable position := by
    refine filter_mergeSort startsBefore_trans startsBefore_total (fun d e hd he => ?_) ds
    rw [startsBefore_iff, of_decide_eq_true hd, of_decide_eq_true he]

/-- A diagnostic that is read first of some kind arrived before all others of this kind that start
where it starts. -/
theorem ByStart.first {read arrived : List Diagnostic} (h : ByStart read arrived)
    {p : Diagnostic → Bool} {d e : Diagnostic} (hfirst : read.find? p = some d) (he : e ∈ arrived)
    (hp : p e = true) :
    d.start < e.start ∨ d.start = e.start ∧ (e = d ∨ [d, e].Sublist arrived) := by
  obtain ⟨-, before, after, rfl, hbefore⟩ := List.find?_eq_some_iff_append.1 hfirst
  have hmem : e ∈ d :: after := by
    refine (List.mem_append.1 (h.perm.mem_iff.2 he)).resolve_left fun hearly => ?_
    have hnot := hbefore e hearly
    rw [hp] at hnot
    exact nomatch hnot
  rcases List.mem_cons.1 hmem with rfl | hafter
  · exact .inr ⟨rfl, .inl rfl⟩
  · have hle : d.start ≤ e.start :=
      (List.pairwise_cons.1 (List.pairwise_append.1 h.sorted).2.1).1 e hafter
    refine hle.lt_or_eq.imp_right fun heq => ⟨heq, .inr ?_⟩
    -- Both are among the diagnostics of one position, and these are as they arrived.
    have hread : [d, e].Sublist (before ++ d :: after) :=
      ((List.singleton_sublist.2 hafter).cons_cons d).trans (List.sublist_append_right _ _)
    have hposition := hread.filter (·.start = d.start)
    rw [h.stable, List.filter_cons_of_pos (by simp), List.filter_cons_of_pos (by simp [heq]),
      List.filter_nil] at hposition
    exact hposition.trans List.filter_sublist

/-! ## Across files -/

/-- A diagnostic of the file is an error. -/
def HoldsError (file : Path × List Diagnostic) : Prop :=
  ∃ d ∈ file.2, d.severity = .error

/-- This is what the snapshot looks for in a file. -/
theorem hasErrors_iff {file : Path × List Diagnostic} :
    hasErrors file.2 = true ↔ HoldsError file := by
  simp [hasErrors, HoldsError]

/-- The first file comes before the second: it holds an error and the other holds none, or both do
or none does and its path comes first. -/
def Precedes (f g : Path × List Diagnostic) : Prop :=
  HoldsError f ∧ ¬ HoldsError g ∨ (HoldsError f ↔ HoldsError g) ∧ f.1.order g.1 = .lt

/-- Files are read in the order of errors, and then of paths. -/
theorem readBefore_iff {f g : Path × List Diagnostic} :
    readBefore f g = true ↔ HoldsError f ∧ ¬ HoldsError g ∨
      (HoldsError f ↔ HoldsError g) ∧ (f.1.order g.1).isLE = true := by
  rw [← hasErrors_iff, ← hasErrors_iff]
  unfold readBefore
  cases hasErrors f.2 <;> cases hasErrors g.2 <;> simp

theorem readBefore_trans (f g k : Path × List Diagnostic) (hfg : readBefore f g = true)
    (hgk : readBefore g k = true) : readBefore f k = true := by
  rw [readBefore_iff] at *
  rcases hfg with ⟨hf, hg⟩ | ⟨hfg, horder⟩
  · rcases hgk with ⟨hg', -⟩ | ⟨hgk, -⟩
    · exact absurd hg' hg
    · exact .inl ⟨hf, mt hgk.2 hg⟩
  · rcases hgk with ⟨hg, hk⟩ | ⟨hgk, horder'⟩
    · exact .inl ⟨hfg.2 hg, hk⟩
    · exact .inr ⟨hfg.trans hgk, Std.TransCmp.isLE_trans horder horder'⟩

theorem readBefore_total (f g : Path × List Diagnostic) :
    (readBefore f g || readBefore g f) = true := by
  have hswap : g.1.order f.1 = (f.1.order g.1).swap := Std.OrientedCmp.eq_swap
  rw [Bool.or_eq_true, readBefore_iff, readBefore_iff, hswap]
  by_cases hf : HoldsError f <;> by_cases hg : HoldsError g <;>
    cases f.1.order g.1 <;> simp [hf, hg]

/-- Of files with different paths, one precedes the other. -/
theorem precedes_of_readBefore {f g : Path × List Diagnostic} (h : readBefore f g = true)
    (hne : f.1.same g.1 = false) : Precedes f g := by
  refine (readBefore_iff.1 h).imp_right fun ⟨heq, horder⟩ => ⟨heq, ?_⟩
  cases hcmp : f.1.order g.1 with
  | lt => rfl
  | eq =>
      rw [Path.order_eq_eq_iff, hne] at hcmp
      exact nomatch hcmp
  | gt =>
      rw [hcmp] at horder
      exact nomatch horder

/-- Of files with different paths, only one precedes the other. -/
theorem same_of_readBefore {f g : Path × List Diagnostic} (hfg : readBefore f g = true)
    (hgf : readBefore g f = true) : f.1.same g.1 = true := by
  rw [readBefore_iff] at hfg hgf
  rw [← Path.order_eq_eq_iff]
  rcases hfg with ⟨hf, hg⟩ | ⟨hsame, hle⟩
  · rcases hgf with ⟨hg', -⟩ | ⟨hsame, -⟩
    · exact absurd hg' hg
    · exact absurd (hsame.2 hf) hg
  · rcases hgf with ⟨hg, hf⟩ | ⟨-, hge⟩
    · exact absurd (hsame.2 hg) hf
    · exact Std.OrientedCmp.isLE_antisymm hle hge

/-! ## The files of a snapshot -/

/-- The files have different paths. -/
def Differs (f g : Path × List Diagnostic) : Prop :=
  f.1.same g.1 = false

instance : Std.Symm Differs where
  symm f g hfg := by
    rw [Differs, Path.same_comm]
    exact hfg

/-- No two files have the same path. -/
def Distinct (files : List (Path × List Diagnostic)) : Prop :=
  files.Pairwise Differs

namespace Distinct

variable {files others : List (Path × List Diagnostic)} {f g : Path × List Diagnostic}

/-- Files with the same path are one. -/
theorem eq_of_same (h : Distinct files) (hf : f ∈ files) (hg : g ∈ files)
    (hsame : f.1.same g.1 = true) : f = g := by
  by_contra hne
  exact nomatch hsame.symm.trans (List.Pairwise.forall h hf hg hne)

/-- The file that is found at a path is the one that has this path. -/
theorem entryAt?_eq (h : Distinct files) (hf : f ∈ files) {path : Path}
    (hsame : f.1.same path = true) : entryAt? path files = some f.2 := by
  cases hfound : files.find? (·.1.same path) with
  | none => exact absurd hsame (List.find?_eq_none.1 hfound f hf)
  | some g =>
      have hg : g.1.same path = true := by simpa using List.find?_some hfound
      have hfg : f.1.same g.1 = true := by
        rw [Path.same_iff] at *
        exact hsame.trans hg.symm
      obtain rfl := h.eq_of_same hf (List.mem_of_find?_eq_some hfound) hfg
      rw [entryAt?, hfound, Option.map_some]

end Distinct

/-- A file with its diagnostics by start. -/
def sortedFile (file : Path × List Diagnostic) : Path × List Diagnostic :=
  (file.1, file.2.mergeSort startsBefore)

variable {files others : List (Path × List Diagnostic)}

/-- Files without diagnostics aside, a snapshot has the files that it was made of. -/
theorem files_ofFiles_perm (hne : ∀ file ∈ files, file.2 ≠ []) :
    (ofFiles files).files.Perm (files.map sortedFile) := by
  have hall : files.filter (!·.2.isEmpty) = files :=
    List.filter_eq_self.2 fun file hfile => by simpa using hne file hfile
  show (((files.filter (!·.2.isEmpty)).map sortedFile).mergeSort readBefore).Perm _
  rw [hall]
  exact List.mergeSort_perm _ _

/-- A snapshot of files with different paths has different paths. -/
theorem Distinct.ofFiles (h : Distinct files) (hne : ∀ file ∈ files, file.2 ≠ []) :
    Distinct (ofFiles files).files := by
  have hsorted : (files.map sortedFile).Pairwise Differs := List.pairwise_map.2 h
  exact (List.Perm.pairwise_iff (Std.Symm.symm _ _) (files_ofFiles_perm hne)).2 hsorted

/-- Each file precedes those after it. -/
theorem Distinct.precedes (h : Distinct files) (hne : ∀ file ∈ files, file.2 ≠ []) :
    (Snapshot.ofFiles files).files.Pairwise Precedes := by
  have hsorted : (Snapshot.ofFiles files).files.Pairwise fun f g => readBefore f g = true :=
    List.pairwise_mergeSort readBefore_trans readBefore_total _
  exact (hsorted.and (h.ofFiles hne)).imp fun ⟨hread, hother⟩ =>
    precedes_of_readBefore hread hother

/-- The order in which files with different paths are enumerated does not matter. -/
theorem Distinct.ofFiles_eq (h : Distinct files) (hperm : others.Perm files) :
    Snapshot.ofFiles others = Snapshot.ofFiles files := by
  have hmap := (hperm.filter (!·.2.isEmpty)).map sortedFile
  refine congrArg Snapshot.mk (List.Perm.eq_of_pairwise (fun f g hf hg hfg hgf => ?_)
    (List.pairwise_mergeSort readBefore_trans readBefore_total _)
    (List.pairwise_mergeSort readBefore_trans readBefore_total _)
    ((List.mergeSort_perm _ _).trans (hmap.trans (List.mergeSort_perm _ _).symm)))
  -- The two lists have the same members, and no two of them have the same path.
  have hmem : ∀ file ∈ (files.filter (!·.2.isEmpty)).map sortedFile,
      ∃ given ∈ files, sortedFile given = file := by
    intro file hfile
    obtain ⟨given, hgiven, heq⟩ := List.mem_map.1 hfile
    exact ⟨given, List.mem_of_mem_filter hgiven, heq⟩
  obtain ⟨given, hgiven, rfl⟩ := hmem f (hmap.mem_iff.1 (List.mem_mergeSort.1 hf))
  obtain ⟨other, hother, rfl⟩ := hmem g (List.mem_mergeSort.1 hg)
  have hsame : (sortedFile given).1.same (sortedFile other).1 = true := same_of_readBefore hfg hgf
  rw [h.eq_of_same hgiven hother hsame]

/-! ## What a reader can rely on -/

/-- The diagnostic is the error that comes first by path, then by start, and then by arrival. -/
structure IsFirstError (c : Collection) (d : Diagnostic) : Prop where
  severity : d.severity = .error
  mem : d ∈ c.forPath d.path
  least : ∀ file ∈ c.files, ∀ e ∈ file.2, e.severity = .error →
    d.path.order e.path = .lt ∨ d.path.order e.path = .eq ∧
      (d.start < e.start ∨ d.start = e.start ∧ (e = d ∨ [d, e].Sublist (c.forPath d.path)))

/-- How many diagnostics of a severity a collection holds. -/
def numberOf (c : Collection) (severity : Severity) : Nat :=
  (c.files.flatMap (·.2)).countP (·.severity = severity)

/-- What a reader of the snapshot of a collection can rely on. -/
structure Presents (snapshot : Snapshot) (c : Collection) : Prop where
  /-- The files are those of the collection, each once. -/
  paths : (snapshot.files.map (·.1)).Perm (c.files.map (·.1))
  /-- Each has the diagnostics that the collection has under its path, each once and by start, and
  this is their own path. -/
  file : ∀ file ∈ snapshot.files, ∃ arrived, (file.1, arrived) ∈ c.files ∧
    ByStart file.2 arrived ∧ ∀ d ∈ file.2, d.path.same file.1 = true
  forFile : ∀ path, ByStart (snapshot.forFile path) (c.forPath path)
  /-- All diagnostics of the collection are there, each once, and no others. -/
  diagnostics : snapshot.diagnostics.Perm (c.files.flatMap (·.2))
  precedes : snapshot.files.Pairwise Precedes
  /-- However the files of the collection are enumerated, this is their snapshot. -/
  unordered : ∀ files, files.Perm c.files → ofFiles files = snapshot
  counts : snapshot.counts
    = ⟨numberOf c .error, numberOf c .warning, numberOf c .info, numberOf c .hint⟩
  total : snapshot.counts.total = (c.files.flatMap (·.2)).length
  isEmpty : snapshot.isEmpty = c.isEmpty
  isEmpty_iff : snapshot.isEmpty = true ↔ snapshot.counts.total = 0
  status : snapshot.status = if snapshot.counts.total = 0 then ""
    else "E:" ++ toString snapshot.counts.errors ++ " W:" ++ toString snapshot.counts.warnings
  /-- There is an error to look at first exactly when there are errors. -/
  isSome_firstError? : snapshot.firstError?.isSome = true ↔ 0 < snapshot.counts.errors
  firstError : ∀ d, snapshot.firstError? = some d → IsFirstError c d

/-- The error to look at first stands in the first file that holds one. -/
theorem exists_of_firstError? {snapshot : Snapshot} {d : Diagnostic}
    (h : snapshot.firstError? = some d) :
    ∃ before file after, snapshot.files = before ++ file :: after ∧
      file.2.find? (·.severity == .error) = some d ∧
      ∀ other ∈ before, ¬ HoldsError other := by
  rw [firstError?, diagnostics, List.find?_flatMap, List.findSome?_eq_some_iff] at h
  obtain ⟨before, file, after, hfiles, hfound, hbefore⟩ := h
  refine ⟨before, file, after, hfiles, hfound, fun other hother => ?_⟩
  rw [← hasErrors_iff, Bool.not_eq_true]
  exact List.any_eq_false.2 (List.find?_eq_none.1 (hbefore other hother))

theorem total_ofList (ds : List Diagnostic) : (SeverityCounts.ofList ds).total = ds.length := by
  induction ds with
  | nil => rfl
  | cons d ds ih =>
      simp only [SeverityCounts.total, SeverityCounts.ofList, List.countP_cons, List.length_cons]
        at ih ⊢
      cases d.severity <;> simp <;> omega

end Snapshot

namespace Collection

open Snapshot

variable {c : Collection} {earlier : List Diagnostic}

namespace Refines

theorem distinct_files (h : c.Refines earlier) : Distinct c.files := by
  have hkeys := h.distinct
  rw [List.pairwise_map] at hkeys
  exact hkeys

/-- The files of the collection are read with their diagnostics by start. -/
theorem files_perm (h : c.Refines earlier) :
    c.snapshot.files.Perm (c.files.map sortedFile) :=
  files_ofFiles_perm h.nonempty

theorem mem_snapshot_iff (h : c.Refines earlier) {file : Path × List Diagnostic} :
    file ∈ c.snapshot.files ↔ ∃ given ∈ c.files, sortedFile given = file := by
  rw [h.files_perm.mem_iff, List.mem_map]

/-- There is nothing to read exactly when nothing is held. -/
theorem isEmpty_snapshot (h : c.Refines earlier) : c.snapshot.isEmpty = c.isEmpty := by
  rw [Snapshot.isEmpty, Collection.isEmpty, h.files_perm.isEmpty_eq, List.isEmpty_map]

theorem precedes (h : c.Refines earlier) : c.snapshot.files.Pairwise Precedes :=
  h.distinct_files.precedes h.nonempty

/-- The diagnostics of a path are those of the file with this path. -/
theorem forPath_of_mem (h : c.Refines earlier) {file : Path × List Diagnostic}
    (hfile : file ∈ c.files) {path : Path} (hsame : file.1.same path = true) :
    c.forPath path = file.2 := by
  rw [forPath, h.distinct_files.entryAt?_eq hfile hsame, Option.getD_some]

/-- A look-up in the snapshot gives what a look-up in the collection gives, by start. -/
theorem byStart_forFile (h : c.Refines earlier) (path : Path) :
    ByStart (c.snapshot.forFile path) (c.forPath path) := by
  have hsnapshot : Distinct c.snapshot.files := h.distinct_files.ofFiles h.nonempty
  show ByStart ((entryAt? path c.snapshot.files).getD []) (c.forPath path)
  by_cases hthere : ∃ file ∈ c.files, file.1.same path = true
  · obtain ⟨file, hfile, hsame⟩ := hthere
    rw [h.forPath_of_mem hfile hsame,
      hsnapshot.entryAt?_eq (h.mem_snapshot_iff.2 ⟨file, hfile, rfl⟩) hsame, Option.getD_some]
    exact byStart_mergeSort file.2
  · have hcollection : entryAt? path c.files = none := by
      simpa [entryAt?] using hthere
    have hread : entryAt? path c.snapshot.files = none := by
      rw [entryAt?, Option.map_eq_none_iff, List.find?_eq_none]
      intro file hfile hsame
      obtain ⟨given, hgiven, rfl⟩ := h.mem_snapshot_iff.1 hfile
      exact hthere ⟨given, hgiven, hsame⟩
    rw [forPath, hcollection, hread]
    exact ⟨.refl _, .nil, fun _ => rfl⟩

/-- All diagnostics of the collection are read, each once. -/
theorem diagnostics_perm (h : c.Refines earlier) :
    c.snapshot.diagnostics.Perm (c.files.flatMap (·.2)) := by
  have hfiles := h.files_perm.flatMap_right (·.2)
  rw [List.flatMap_map] at hfiles
  exact hfiles.trans (List.Perm.flatMap_left _ fun file _ => List.mergeSort_perm file.2 _)

/-- The error to look at first comes before all others. -/
theorem isFirstError (h : c.Refines earlier) {d : Diagnostic}
    (hfirst : c.snapshot.firstError? = some d) : IsFirstError c d := by
  obtain ⟨before, file, after, hfiles, hfound, hbefore⟩ := exists_of_firstError? hfirst
  have herror : d.severity = .error := by simpa using List.find?_some hfound
  obtain ⟨given, hgiven, rfl⟩ := h.mem_snapshot_iff.1
    (by rw [hfiles]; exact List.mem_append_right before List.mem_cons_self)
  have hmem : d ∈ given.2 := List.mem_mergeSort.1 (List.mem_of_find?_eq_some hfound)
  have hpath : d.path.same given.1 = true := h.filed given hgiven d hmem
  have hforPath : c.forPath d.path = given.2 := by
    refine h.forPath_of_mem hgiven ?_
    rw [Path.same_comm]
    exact hpath
  refine ⟨herror, hforPath ▸ hmem, fun other hother e he hseverity => ?_⟩
  have hother' : e.path.same other.1 = true := h.filed other hother e he
  have horder : d.path.order e.path = given.1.order other.1 := Path.order_congr hpath hother'
  have hread : sortedFile other ∈ before ++ sortedFile given :: after :=
    hfiles ▸ h.mem_snapshot_iff.2 ⟨other, hother, rfl⟩
  have hhas : HoldsError (sortedFile other) := ⟨e, List.mem_mergeSort.2 he, hseverity⟩
  rcases List.mem_append.1 hread with hearly | hlate
  · exact absurd hhas (hbefore _ hearly)
  rcases List.mem_cons.1 hlate with hsame | hafter
  · have hfile : other = given := h.distinct_files.eq_of_same hother hgiven
      (Path.same_iff.2 (congrArg (·.1.components) hsame))
    subst hfile
    right
    refine ⟨?_, ?_⟩
    · rw [horder, Path.order_eq_eq_iff, Path.same_iff]
    · rw [hforPath]
      exact (byStart_mergeSort other.2).first hfound he (by simp [hseverity])
  · left
    have hprecedes := h.precedes
    rw [hfiles] at hprecedes
    have hnext := (List.pairwise_cons.1 (List.pairwise_append.1 hprecedes).2.1).1 _ hafter
    rcases hnext with ⟨-, hnone⟩ | ⟨-, hlt⟩
    · exact absurd hhas hnone
    · rw [horder]
      exact hlt

end Refines

end Collection

end Toolbench
