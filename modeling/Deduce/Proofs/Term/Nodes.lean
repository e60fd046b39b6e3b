import Deduce.Term.Metrics

/-!
# The nodes of a term

The nodes of a term are the term itself and the nodes of its arguments (`Expr.mem_nodes_app`); a
node of a node is a node (`Expr.mem_nodes_trans`).  The nodes of a well-sorted term are well sorted
(`Expr.wellSorted_of_mem_nodes`).
-/

namespace Deduce.Expr

variable {a e x : Expr} {op : Op} {as : List Expr}

theorem mem_nodes_app : x ∈ (app op as).nodes ↔ x = app op as ∨ ∃ a ∈ as, x ∈ a.nodes := by
  rw [nodes, nodesList_eq_flatMap, List.mem_cons, List.mem_flatMap]

theorem mem_nodes_arg (ha : a ∈ as) (hx : x ∈ a.nodes) : x ∈ (app op as).nodes :=
  mem_nodes_app.2 (.inr ⟨a, ha, hx⟩)

theorem mem_nodes_of_mem_args (ha : a ∈ as) : a ∈ (app op as).nodes :=
  mem_nodes_arg ha (mem_nodes_self a)

theorem mem_nodes_trans (hx : x ∈ a.nodes) (ha : a ∈ e.nodes) : x ∈ e.nodes := by
  induction e using Expr.induction with
  | var | int | real | truth | bound | quant => rwa [List.mem_singleton.1 ha] at hx
  | app op as ih =>
    rcases mem_nodes_app.1 ha with rfl | ⟨b, hb, hab⟩
    · exact hx
    · exact mem_nodes_arg hb (ih b hb hab)

theorem wellSorted_of_mem_args (h : (app op as).wellSorted = true) (ha : a ∈ as) :
    a.wellSorted = true := by
  rw [wellSorted, wellSortedList_eq_all, Bool.and_eq_true, List.all_eq_true] at h
  exact h.1 a ha

theorem wellSorted_of_mem_nodes (he : e.wellSorted = true) (hx : x ∈ e.nodes) :
    x.wellSorted = true := by
  induction e using Expr.induction with
  | var | int | real | truth | bound | quant => rwa [List.mem_singleton.1 hx]
  | app op as ih =>
    rcases mem_nodes_app.1 hx with rfl | ⟨a, ha, hxa⟩
    · exact he
    · exact ih a ha (wellSorted_of_mem_args he ha) hxa

end Deduce.Expr
