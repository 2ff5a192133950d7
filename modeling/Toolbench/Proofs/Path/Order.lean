import Toolbench.Path

/-!
# The order of paths

Paths are ordered by their components, and components by their kinds and then their names, so the
order of paths is the lexicographic order of lists over a linear order. `Path.order_eq_eq_iff` says
that only paths that are the same are at one place of it.
-/

namespace Toolbench

namespace Component

/-- The name that a component adds to its kind. -/
def nameText : Component → String
  | .name text => text
  | .root | .current | .parent => ""

/-- Components are ordered by kind first and by name then. -/
theorem order_eq_compareLex :
    order = compareLex (compareOn rank) (compareOn nameText) := by
  funext x y
  cases x with
  | name text =>
      cases y with
      | name other => simp [order, compareLex, compareOn, rank, nameText]
      | root | current | parent => rfl
  | root | current | parent => cases y <;> rfl

instance : Std.TransCmp order := by
  rw [order_eq_compareLex]
  infer_instance

instance : Std.LawfulEqCmp order where
  eq_of_compare {x y} h := by
    cases x <;> cases y <;> simp_all [order, rank]

end Component

namespace Path

variable {p q : Path}

theorem go_eq_compareLex (xs ys : List Component) :
    order.go xs ys = List.compareLex Component.order xs ys := by
  induction xs generalizing ys with
  | nil => cases ys <;> rfl
  | cons x xs ih =>
      cases ys with
      | nil => rfl
      | cons y ys => rw [order.go, List.compareLex_cons_cons, ih]

/-- Paths are ordered as the lists of their components. -/
theorem order_eq_compareLex (p q : Path) :
    p.order q = List.compareLex Component.order p.components q.components :=
  go_eq_compareLex p.components q.components

instance : Std.TransCmp order where
  eq_swap {p q} := by
    rw [order_eq_compareLex, order_eq_compareLex]
    exact Std.OrientedCmp.eq_swap
  isLE_trans {p q r} hpq hqr := by
    rw [order_eq_compareLex] at hpq hqr ⊢
    exact Std.TransCmp.isLE_trans hpq hqr

theorem same_comm (p q : Path) : p.same q = q.same p :=
  Bool.beq_comm

/-- Only paths that are the same are at one place of the order. -/
theorem order_eq_eq_iff : p.order q = .eq ↔ p.same q = true := by
  rw [order_eq_compareLex, same, beq_iff_eq]
  exact Std.LawfulEqCmp.compare_eq_iff_eq

/-- Paths that are the same are ordered alike. -/
theorem order_congr {p' q' : Path} (hp : p.same p' = true) (hq : q.same q' = true) :
    p.order q = p'.order q' := by
  rw [same, beq_iff_eq] at hp hq
  rw [order_eq_compareLex, order_eq_compareLex, hp, hq]

end Path

end Toolbench
