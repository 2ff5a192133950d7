/-!
# Paths

A path is the text it was written as; what it names is the list of its components. Empty pieces
and inner `.` pieces name nothing, so `/a/./b//` and `/a/b` have the same components. Two paths
are the same file name when their components agree, and they are ordered component by component,
root first, then `.`, then `..`, then names by their code points.

Normalizing a path resolves `.` and `..` from the text alone: a `..` removes the name before it,
stays at the root, and is kept where a relative path has no name left to remove.
-/

namespace Toolbench

/-- One step of a path. -/
inductive Component where
  /-- The `/` at the start of an absolute path. -/
  | root
  /-- A `.` at the start of a relative path. -/
  | current
  /-- A `..`. -/
  | parent
  /-- An ordinary name. -/
  | name (text : String)
deriving DecidableEq, Repr

namespace Component

/-- The text of a component. -/
def text : Component → String
  | .root => "/"
  | .current => "."
  | .parent => ".."
  | .name text => text

/-- The place of a component's kind in the order of components. -/
def rank : Component → Nat
  | .root => 0
  | .current => 1
  | .parent => 2
  | .name _ => 3

/-- Components are ordered by kind and names by their code points. -/
def order : Component → Component → Ordering
  | .name x, .name y => compare x y
  | x, y => compare x.rank y.rank

/-- The component that a piece of text between slashes names. -/
def ofPiece? : String → Option Component
  | "" => none
  | "." => none
  | ".." => some .parent
  | text => some (.name text)

end Component

/-- A path, as written. -/
structure Path where
  text : String
deriving DecidableEq, Repr

namespace Path

/-- The path begins at the root. -/
def isAbsolute (p : Path) : Bool :=
  p.text.toList.head? == some '/'

/-- The text between slashes. -/
def pieces (p : Path) : List String :=
  (p.text.toList.splitOn '/').map String.ofList

/-- The components of a path. -/
def components (p : Path) : List Component :=
  if p.isAbsolute then .root :: p.pieces.filterMap Component.ofPiece?
  else
    match p.pieces with
    | "." :: rest => .current :: rest.filterMap Component.ofPiece?
    | pieces => pieces.filterMap Component.ofPiece?

/-- The path that spells out a list of components. -/
def ofComponents : List Component → Path
  | .root :: rest => ⟨"/" ++ "/".intercalate (rest.map Component.text)⟩
  | components => ⟨"/".intercalate (components.map Component.text)⟩

/-- Two paths are the same when their components are. -/
def same (p q : Path) : Bool :=
  p.components == q.components

/-- Paths are ordered component by component; a path comes before its extensions. -/
def order (p q : Path) : Ordering :=
  go p.components q.components
where
  /-- Compare two component lists at the first difference. -/
  go : List Component → List Component → Ordering
    | [], [] => .eq
    | [], _ :: _ => .lt
    | _ :: _, [] => .gt
    | x :: xs, y :: ys => (x.order y).then (go xs ys)

/-- The path `p` as seen from the directory `base`: an absolute path stands for itself. -/
def join (base p : Path) : Path :=
  if p.isAbsolute then p
  else
    match base.text.toList.getLast? with
    | none | some '/' => ⟨base.text ++ p.text⟩
    | some _ => ⟨base.text ++ "/" ++ p.text⟩

/-- Take one more component onto a resolved path, whose last component comes first. -/
def resolveOnto : List Component → Component → List Component
  | stack, .current => stack
  | .name _ :: rest, .parent => rest
  | .root :: rest, .parent => .root :: rest
  | stack, component => component :: stack

/-- A component list without `.`, and without each `..` that has a name or the root to resolve
against. -/
def resolve (components : List Component) : List Component :=
  (components.foldl resolveOnto []).reverse

/-- The path with `.` and `..` resolved from its text alone. -/
def normalize (p : Path) : Path :=
  ofComponents (resolve p.components)

/-- The path as seen from `directory`, with its `..` left in place: `.` pieces and repeated
slashes are dropped, a leading `//` and a trailing slash are kept. -/
def absoluteIn (p directory : Path) : Path :=
  let rest := p.pieces.filterMap Component.ofPiece?
  let start : Path :=
    if p.isAbsolute then
      if "//".toList.isPrefixOf p.text.toList && !"///".toList.isPrefixOf p.text.toList then ⟨"//"⟩
      else ⟨"/"⟩
    else directory
  let joined := rest.foldl (fun base component => base.join ⟨component.text⟩) start
  if p.text.toList.getLast? == some '/' then joined.join ⟨""⟩ else joined

instance : ToString Path := ⟨Path.text⟩

example : (Path.mk "/a/./b//").same ⟨"/a/b"⟩ = true := by decide
example : (Path.mk "a/../../b").normalize = ⟨"../b"⟩ := by decide
example : (Path.mk "/../a").normalize = ⟨"/a"⟩ := by decide

end Path

end Toolbench
