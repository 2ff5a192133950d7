import Toolbench.Path
import Toolbench.Proofs.Text.Pieces

/-!
# Normal paths

A normal path is absolute, has no `.` and no `..`, and is spelled in the one way that normalizing
gives it. `isNormal_normalize` says that an absolute path becomes normal, `IsNormal.normalize_eq`
that a normal path stays as it is. Both rest on `components_ofComponents`: a list of components
that could stand between slashes is read back from its spelling.
-/

namespace Toolbench

namespace Component

/-- The component is what its text names between slashes. -/
def IsProper (component : Component) : Prop :=
  '/' ∉ component.text.toList ∧ ofPiece? component.text = some component

/-- The component is an ordinary name. -/
def IsName (component : Component) : Prop :=
  component.IsProper ∧ component ≠ .parent

theorem not_isProper_root : ¬ IsProper .root :=
  fun h => h.1 (by decide)

theorem not_isProper_current : ¬ IsProper .current :=
  fun h => nomatch (h.2 : none = some current)

/-- A proper component is a `..` or a name. -/
theorem IsProper.eq_parent_or_name {component : Component} (h : component.IsProper) :
    component = .parent ∨ ∃ text, component = .name text := by
  cases component with
  | root => exact absurd h not_isProper_root
  | current => exact absurd h not_isProper_current
  | parent => exact .inl rfl
  | name text => exact .inr ⟨text, rfl⟩

theorem IsName.exists_text {component : Component} (h : component.IsName) :
    ∃ text, component = .name text :=
  h.1.eq_parent_or_name.resolve_left h.2

/-- What a piece of text names has that text. -/
theorem text_of_ofPiece? {piece : String} {component : Component}
    (h : ofPiece? piece = some component) : component.text = piece := by
  unfold ofPiece? at h
  split at h
  · exact nomatch h
  · exact nomatch h
  · cases h
    rfl
  · cases h
    rfl

/-- What a piece between slashes names is proper. -/
theorem isProper_of_ofPiece? {piece : String} {component : Component}
    (hpiece : '/' ∉ piece.toList) (h : ofPiece? piece = some component) : component.IsProper := by
  obtain rfl := text_of_ofPiece? h
  exact ⟨hpiece, h⟩

end Component

namespace Path

variable {p base : Path} {rest names : List Component}

/-! ## Components and their spelling -/

/-- The pieces of a path have no slash. -/
theorem not_mem_of_mem_pieces {piece : String} (h : piece ∈ p.pieces) : '/' ∉ piece.toList :=
  Text.not_mem_of_mem_map_splitOn h

/-- An absolute path has the root and what its pieces name. -/
theorem components_of_isAbsolute (h : p.isAbsolute = true) :
    ∃ rest, p.components = .root :: rest ∧ ∀ component ∈ rest, component.IsProper := by
  refine ⟨p.pieces.filterMap Component.ofPiece?, by rw [components, if_pos h], ?_⟩
  intro component hmem
  obtain ⟨piece, hpiece, hsome⟩ := List.mem_filterMap.1 hmem
  exact Component.isProper_of_ofPiece? (not_mem_of_mem_pieces hpiece) hsome

/-- Texts without slashes are the pieces of the path that they spell. -/
theorem pieces_intercalate {texts : List String} (hne : texts ≠ [])
    (h : ∀ text ∈ texts, '/' ∉ text.toList) : pieces ⟨"/".intercalate texts⟩ = texts :=
  Text.splitOn_intercalate rfl hne h

/-- A path after the root has one empty piece more. -/
theorem pieces_root (text : String) : pieces ⟨"/" ++ text⟩ = "" :: pieces ⟨text⟩ := by
  simp only [pieces, String.toList_append]
  exact congrArg (List.map String.ofList)
    (List.splitOn_append_cons_self_of_not_mem List.not_mem_nil text.toList)

/-- Proper components after the root are read back from their spelling. -/
theorem components_ofComponents (h : ∀ component ∈ rest, component.IsProper) :
    (ofComponents (.root :: rest)).isAbsolute = true ∧
      (ofComponents (.root :: rest)).components = .root :: rest := by
  have hroot : (ofComponents (.root :: rest)).isAbsolute = true := by
    simp [ofComponents, isAbsolute]
  refine ⟨hroot, ?_⟩
  rw [components, if_pos hroot, ofComponents, pieces_root]
  cases hrest : rest with
  | nil => rfl
  | cons first others =>
      rw [← hrest, pieces_intercalate (by simp [hrest])]
      · -- The empty piece before the first slash names nothing.
        show Component.root :: (rest.map Component.text).filterMap Component.ofPiece? = _
        rw [List.filterMap_map]
        exact congrArg _ ((List.filterMap_congr fun component hmem => (h component hmem).2).trans
          List.filterMap_some)
      · intro text htext
        obtain ⟨component, hmem, rfl⟩ := List.mem_map.1 htext
        exact (h component hmem).1

/-! ## Resolving `..` -/

/-- A name goes on top. -/
@[simp] theorem resolveOnto_name (stack : List Component) (text : String) :
    resolveOnto stack (.name text) = .name text :: stack := by
  cases stack <;> rfl

/-- On top of names below the root, one more component leaves names below the root. -/
theorem resolveOnto_root (hnames : ∀ name ∈ names, name.IsName) {component : Component}
    (hcomponent : component.IsProper) :
    ∃ left, resolveOnto (names ++ [.root]) component = left ++ [.root] ∧
      ∀ name ∈ left, name.IsName := by
  rcases hcomponent.eq_parent_or_name with rfl | ⟨text, rfl⟩
  · cases names with
    | nil => exact ⟨[], rfl, hnames⟩
    | cons top others =>
        obtain ⟨htop, hothers⟩ := List.forall_mem_cons.1 hnames
        obtain ⟨text, rfl⟩ := htop.exists_text
        exact ⟨others, rfl, hothers⟩
  · exact ⟨.name text :: names, resolveOnto_name _ text,
      List.forall_mem_cons.2 ⟨⟨hcomponent, nofun⟩, hnames⟩⟩

/-- Resolving proper components from names below the root on gives names below the root. -/
theorem foldl_resolveOnto_root (hnames : ∀ name ∈ names, name.IsName)
    (hrest : ∀ component ∈ rest, component.IsProper) :
    ∃ left, rest.foldl resolveOnto (names ++ [.root]) = left ++ [.root] ∧
      ∀ name ∈ left, name.IsName := by
  induction rest generalizing names with
  | nil => exact ⟨names, rfl, hnames⟩
  | cons component rest ih =>
      obtain ⟨hcomponent, hrest⟩ := List.forall_mem_cons.1 hrest
      obtain ⟨left, heq, hleft⟩ := resolveOnto_root hnames hcomponent
      rw [List.foldl_cons, heq]
      exact ih hleft hrest

/-- Names stay as they are. -/
theorem foldl_resolveOnto_names (stack : List Component) (hnames : ∀ name ∈ names, name.IsName) :
    names.foldl resolveOnto stack = names.reverse ++ stack := by
  induction names generalizing stack with
  | nil => rfl
  | cons name names ih =>
      obtain ⟨hname, hrest⟩ := List.forall_mem_cons.1 hnames
      obtain ⟨text, rfl⟩ := hname.exists_text
      rw [List.foldl_cons, resolveOnto_name, ih _ hrest, List.reverse_cons, List.append_assoc]
      rfl

/-! ## Normal paths -/

/-- The path is absolute and spells names only. -/
def IsNormal (p : Path) : Prop :=
  ∃ names, (∀ name ∈ names, Component.IsName name) ∧ p = ofComponents (.root :: names)

/-- An absolute path becomes normal. -/
theorem isNormal_normalize (h : p.isAbsolute = true) : p.normalize.IsNormal := by
  obtain ⟨rest, hcomponents, hrest⟩ := components_of_isAbsolute h
  obtain ⟨left, heq, hleft⟩ := foldl_resolveOnto_root (fun _ h => absurd h List.not_mem_nil) hrest
  refine ⟨left.reverse, fun name hname => hleft name (List.mem_reverse.1 hname), ?_⟩
  have hresolve : resolve p.components = .root :: left.reverse := by
    rw [hcomponents, resolve, List.foldl_cons]
    show (rest.foldl resolveOnto ([] ++ [.root])).reverse = _
    rw [heq, List.reverse_append]
    rfl
  rw [normalize, hresolve]

namespace IsNormal

/-- A normal path has names after the root. -/
theorem components_eq (h : p.IsNormal) :
    p.isAbsolute = true ∧
      ∃ names, p.components = .root :: names ∧ ∀ name ∈ names, name.IsName := by
  obtain ⟨names, hnames, rfl⟩ := h
  obtain ⟨hroot, hcomponents⟩ := components_ofComponents fun name hname => (hnames name hname).1
  exact ⟨hroot, names, hcomponents, hnames⟩

/-- A normal path stays as it is. -/
theorem normalize_eq (h : p.IsNormal) : p.normalize = p := by
  obtain ⟨names, hnames, rfl⟩ := h
  have hcomponents := (components_ofComponents fun name hname => (hnames name hname).1).2
  rw [normalize, hcomponents, resolve, List.foldl_cons]
  show ofComponents (names.foldl resolveOnto [.root]).reverse = _
  rw [foldl_resolveOnto_names _ hnames, List.reverse_append, List.reverse_reverse]
  rfl

end IsNormal

/-- What is seen from an absolute directory is absolute. -/
theorem isAbsolute_join (h : base.isAbsolute = true) (p : Path) :
    (base.join p).isAbsolute = true := by
  have hhead : base.text.toList.head? = some '/' := by simpa [isAbsolute] using h
  have happend : ∀ text : String, isAbsolute ⟨base.text ++ text⟩ = true := by
    intro text
    simp [isAbsolute, List.head?_append, hhead]
  unfold join
  split
  · rename_i habsolute
    exact habsolute
  · split
    · exact happend p.text
    · exact happend p.text
    · show isAbsolute ⟨base.text ++ "/" ++ p.text⟩ = true
      rw [String.append_assoc]
      exact happend _

end Path

end Toolbench
