import Deduce.Inspect.Threshold
import Deduce.Proofs.Term.Exchange

/-!
# Replacing what is similar to a pattern

Replacing patterns rebuilds what stands above and below the nodes replaced, and there are two
questions about it.

Is a term left as it is where nothing in it resembles the pattern?  A sum, a product, a conjunction
or a disjunction of a single operand is not: it is rebuilt as the operand.  All else is
(`Expr.replacePattern_unmatched`, and `Expr.lone_sum_unmatched` for a sum).

Can it fail, or change sorts on the way?  Not where the nodes replaced are of the sort of the new
term (`Expr.replacePattern_keeps_sort`).
-/

namespace Deduce.Expr

variable {e p r : Expr} {x : Float}

/-- The nodes that are replaced: they resemble the pattern more than the threshold allows. -/
def resembles (p : Expr) (x : Float) (n : Expr) : Bool := n.similarity p > x

theorem replacePattern_of_exchangeable (h : Exchangeable (resembles p x) r e) :
    e.replacePattern (.level x) p r = .ok (exchange (resembles p x) r e) := by
  have hrun : replaceWhere (fun n => n.similarity p > x) r e =
      .ok (exchange (resembles p x) r e) := h.replaceWhere_eq
  rw [replacePattern, hrun]
  rfl

/-! ### Nothing to replace -/

theorem replacePattern_of_unmatched (he : e.wellSorted = true)
    (hdistinct : ∀ n ∈ e.nodes, n.isLoneDistinct = false) (p r : Expr) (x : Float)
    (hno : ∀ n ∈ e.nodes, ¬ n.similarity p > x) :
    e.replacePattern (.level x) p r = .ok e.collapse := by
  have hnone : ∀ n ∈ e.nodes, resembles p x n = false := by
    intro n hn
    simpa [resembles] using hno n hn
  have hexchangeable : Exchangeable (resembles p x) r e := by
    refine ⟨he, hdistinct, ?_⟩
    simp [outermost_of_no_hit hnone]
  rw [replacePattern_of_exchangeable hexchangeable, exchange_of_no_hit hnone]

theorem rebuild_app {op : Op} {as : List Expr} (h : (app op as).wellSorted = true) (has : as ≠ []) :
    (app op as).rebuild as = .ok (.term (reapply op as)) := by
  obtain ⟨a, as, rfl⟩ := List.exists_cons_of_ne_nil has
  rw [rebuild, withArgs_eq_reapply h rfl]
  rfl

theorem rebuild_args (he : e.wellSorted = true) (hcompound : e.isCompound = true)
    (hlone : e.isLone = false) : e.rebuild e.args = .ok (.term e) := by
  unfold isCompound at hcompound
  split at hcompound
  · rename_i op a as
    have hrebuild := rebuild_app he (List.cons_ne_nil a as)
    rwa [reapply_of_not_lone (isLone_eq_false_iff.1 hlone)] at hrebuild
  · cases hcompound

theorem rebuild_lone (he : e.wellSorted = true) (hlone : e.isLone = true) :
    ∃ a, e.args = [a] ∧ e.rebuild e.args = .ok (.term a) := by
  unfold isLone at hlone
  split at hlone
  · rename_i op a
    have hrebuild := rebuild_app he (List.cons_ne_nil a [])
    rw [reapply_singleton hlone] at hrebuild
    exact ⟨a, rfl, hrebuild⟩
  · cases hlone

/-- **Where nothing resembles the pattern**, a well-sorted term is left as it is, except that the
operands of sums, products, conjunctions and disjunctions of a single one take their places; so it
is left as it is exactly if it has no such nodes.  In particular an application that is none itself
is rebuilt from its arguments, and one that is gives its operand.  The statement that a single term
is distinct has no part in this. -/
theorem replacePattern_unmatched (he : e.wellSorted = true) :
    ((∀ n ∈ e.nodes, n.isLoneDistinct = false) →
      ∀ p r x, (∀ n ∈ e.nodes, ¬ n.similarity p > x) →
        e.replacePattern (.level x) p r = .ok e.collapse) ∧
    (e.collapse = e ↔ ∀ n ∈ e.nodes, n.isLone = false) ∧
    (e.isCompound = true → e.isLone = false → e.rebuild e.args = .ok (.term e)) ∧
    (e.isLone = true → e.isLoneDistinct = false →
      ∃ a, e.args = [a] ∧ e.rebuild e.args = .ok (.term a)) := by
  refine ⟨replacePattern_of_unmatched he, collapse_eq_self_iff, rebuild_args he, ?_⟩
  intro hlone _
  exact rebuild_lone he hlone

/-- The sum of `x` alone in a product with `y` is left out although nothing resembles `z`. -/
theorem replacePattern_unmatched_product :
    let x : Expr := .var "x" .int
    let y : Expr := .var "y" .int
    let z : Expr := .var "z" .int
    let e : Expr := .app .mul [.app .add [x], y]
    e.wellSorted = true ∧ (∀ n ∈ e.nodes, n.isLoneDistinct = false) ∧
      (∀ n ∈ e.nodes, ¬ n.similarity z > 0.99) ∧
      e.replacePattern (.level 0.99) z (.int 0) = .ok (.app .mul [x, y]) ∧
      e.rebuild e.args = .ok (.term e) ∧
      (app .add [x]).rebuild [x] = .ok (.term x) := by
  intro x y z e
  have hsorted : e.wellSorted = true := by decide
  have hsum : (app .add [x]).wellSorted = true := by decide
  have hdistinct : ∀ n ∈ e.nodes, n.isLoneDistinct = false := by decide
  have hno : ∀ n ∈ e.nodes, ¬ n.similarity z > 0.99 := by decide +kernel
  obtain ⟨hrun, -, hrebuild, -⟩ := replacePattern_unmatched hsorted
  obtain ⟨-, -, -, hlone⟩ := replacePattern_unmatched hsum
  obtain ⟨a, ha, hrebuilt⟩ := hlone rfl rfl
  obtain rfl : x = a := List.head_eq_of_cons_eq ha
  exact ⟨hsorted, hdistinct, hno, hrun hdistinct z (.int 0) 0.99 hno, hrebuild rfl rfl, hrebuilt⟩

/-- The sum of a single operand is not left as it is, although nothing resembles the pattern: the
operand takes its place. -/
theorem lone_sum_unmatched :
    let x : Expr := .var "x" .int
    let y : Expr := .var "y" .int
    let z : Expr := .var "z" .int
    let e : Expr := .app .add [x]
    e.wellSorted = true ∧ (∀ n ∈ e.nodes, ¬ n.similarity y > 0.99) ∧
      e.replacePattern (.level 0.99) y z = .ok x ∧ e.rebuild e.args = .ok (.term x) ∧ x ≠ e := by
  intro x y z e
  have hno : ∀ n ∈ e.nodes, ¬ n.similarity y > 0.99 := by decide +kernel
  have hrun : e.replacePattern (.level 0.99) y z = .ok x :=
    replacePattern_of_unmatched (by decide) (by decide) y z 0.99 hno
  exact ⟨by decide, hno, hrun, rfl, by decide⟩

/-! ### Nodes of the sort of the new term -/

/-- **Replacing nodes by a term of their sort** does not fail and keeps well-sorted terms well
sorted and of their sort.  The nodes are exchanged for the new term and all else stays as it is, but
for the operators that have a single operand: no coercion comes in, since every application in the
result is one in the new term or one of the old term over what became of its operands. -/
theorem replacePattern_keeps_sort (he : e.wellSorted = true) (hr : r.wellSorted = true)
    (hdistinct : ∀ n ∈ e.nodes, n.isLoneDistinct = false)
    (hsort : ∀ n ∈ e.outermost (resembles p x), n.sort = r.sort) :
    ∃ e', e.replacePattern (.level x) p r = .ok e' ∧ e'.wellSorted = true ∧ e'.sort = e.sort ∧
      e' = exchange (resembles p x) r e ∧
      ∀ op bs, .app op bs ∈ e'.nodes → .app op bs ∈ r.nodes ∨
        ∃ as, .app op as ∈ e.nodes ∧ bs = as.map (exchange (resembles p x) r) := by
  have hexchangeable : Exchangeable (resembles p x) r e := ⟨he, hdistinct, hsort⟩
  refine ⟨exchange (resembles p x) r e, replacePattern_of_exchangeable hexchangeable,
    hexchangeable.wellSorted_exchange hr, hexchangeable.sort_exchange, rfl, ?_⟩
  intro op bs hmem
  exact mem_nodes_exchange hmem

/-- A call of `f` is replaced by `z` on both sides of a comparison, on one of them as a lone
operand. -/
theorem replacePattern_keeps_sort_comparison :
    let x : Expr := .var "x" .int
    let y : Expr := .var "y" .real
    let z : Expr := .var "z" .real
    let call : Expr := .app (.fn "f" [.int] .real) [x]
    let e : Expr := .app .le [.app .add [call], .app .mul [call, y]]
    e.wellSorted = true ∧ (∀ n ∈ e.outermost (resembles call 0.99), n.sort = z.sort) ∧
      e.replacePattern (.level 0.99) call z = .ok (.app .le [z, .app .mul [z, y]]) := by
  intro x y z call e
  have hsorted : e.wellSorted = true := by decide
  have hdistinct : ∀ n ∈ e.nodes, n.isLoneDistinct = false := by decide
  have hsort : ∀ n ∈ e.outermost (resembles call 0.99), n.sort = z.sort := by decide +kernel
  obtain ⟨e', hrun, -, -, rfl, -⟩ := replacePattern_keeps_sort hsorted rfl hdistinct hsort
  have hresult : exchange (resembles call 0.99) z e = .app .le [z, .app .mul [z, y]] := by
    decide +kernel
  exact ⟨hsorted, hsort, hresult ▸ hrun⟩

end Deduce.Expr
