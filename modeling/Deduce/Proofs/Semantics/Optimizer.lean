import Deduce.Proofs.Reduction.Optimizer
import Deduce.Proofs.Semantics.Arithmetic
import Mathlib.Algebra.Order.Archimedean.Real.Basic
import Mathlib.Algebra.Order.Floor.Ring

/-!
# The optimizer keeps the value

In an arithmetic interpretation the optimizer changes neither the sort of a well-sorted term nor its
value, in however many passes (`optimize_preserves_value`).
-/

namespace Deduce

universe u

variable {V : Type u} {I : ArithmeticInterpretation V} {env : ℕ → V} {e e' : Expr}

/-! ### One step -/

theorem Simplifies.eval_eq (h : Simplifies e e') (he : e.wellSorted = true)
    (henv : I.Respects env e) : I.eval env e' = I.eval env e := by
  cases h with
  | dropNeutral hop hneutral hother =>
    exact ArithmeticInterpretation.eval_combine_filter hop he henv hother
  | cancelMinus =>
    exact (ArithmeticInterpretation.eval_neg_neg he
      ((henv.arg List.mem_cons_self).arg List.mem_cons_self)).symm

theorem Simplifies.respects (h : Simplifies e e') (henv : I.Respects env e) :
    I.Respects env e' := by
  cases h with
  | dropNeutral =>
    unfold Expr.combine
    split
    · rename_i a hsingle
      have ha : a ∈ [a] := List.mem_cons_self
      exact henv.arg (List.mem_filter.1 (hsingle ▸ ha)).1
    · exact .app fun a ha => henv.arg (List.mem_filter.1 ha).1
  | cancelMinus => exact (henv.arg List.mem_cons_self).arg List.mem_cons_self

/-! ### Runs -/

/-- What the passes over `e` keep: the node is a well-sorted term of the sort and the value of
`e`. -/
structure Stands (I : ArithmeticInterpretation V) (env : ℕ → V) (e r : Expr) : Prop where
  wellSorted : r.wellSorted = true
  sort_eq : r.sort = e.sort
  eval_eq : I.eval env r = I.eval env e
  respects : I.Respects env r

theorem Stands.step {r r' : Expr} (h : Stands I env e r) (hstep : Simplifies r r') :
    Stands I env e r' := by
  obtain ⟨hwell, hsort⟩ := hstep.wellSorted_and_sort h.wellSorted
  exact ⟨hwell, hsort.trans h.sort_eq, (hstep.eval_eq h.wellSorted h.respects).trans h.eval_eq,
    hstep.respects h.respects⟩

/-- **The optimizer keeps sort and value.**  Under whatever bound on the passes that can be written
as an integer, and in every arithmetic interpretation, what the optimizer makes of a well-sorted
term is a term of the same sort and the same value. -/
theorem optimize_preserves_value (I : ArithmeticInterpretation V) (he : e.wellSorted = true)
    (henv : I.Respects env e) {b : Bound} {k : Int} (hk : b.shown = .ok k) :
    ∃ r : Expr, (reduceWithin b optimizations (.term e)).1 = .ok (.term r) ∧
      r.sort = e.sort ∧ I.eval env r = I.eval env e := by
  have hrun : ∃ r, (reduce optimizations b.passes (.term e)).1 = .term r ∧ Stands I env e r := by
    refine reduce_induction (P := fun n => ∃ r, n = .term r ∧ Stands I env e r) ?_ b.passes
      ⟨e, rfl, he, rfl, rfl, henv⟩
    rintro o ho - m ⟨r, rfl, hr⟩ happly
    obtain ⟨r', rfl, hstep⟩ := simplifies_of_changed ho hr.wellSorted happly
    exact ⟨r', rfl, hr.step hstep⟩
  obtain ⟨r, hr, hstands⟩ := hrun
  refine ⟨r, ?_, hstands.sort_eq, hstands.eval_eq⟩
  rw [reduceWithin_eq_ok hk, hr]

/-- Terms read in the real numbers, the integers among them: what should be an integer is rounded
down, operators without a meaning give zero, and variables stand for three. -/
noncomputable def reals : ArithmeticInterpretation ℝ where
  var _ _ := 3
  int k := k
  real q := q
  truth _ := 0
  app op ts vs :=
    let v := match op with
      | .add => vs.sum
      | .mul => vs.prod
      | .neg => -vs.sum
      | _ => 0
    if op.result ts = .int then (⌊v⌋ : ℤ) else v
  quant _ _ _ _ := 0
  ofInt k := k
  ofReal x := x
  int_eq _ := rfl
  real_eq _ := rfl
  add_int ks hks := by
    obtain ⟨k, ks, rfl⟩ := List.exists_cons_of_ne_nil hks
    have hsum : ((k :: ks).map fun k : ℤ => (k : ℝ)).sum = ((k :: ks).sum : ℤ) :=
      (map_list_sum (Int.castRingHom ℝ) (k :: ks)).symm
    change (if Ty.int = .int then (⌊((k :: ks).map fun k : ℤ => (k : ℝ)).sum⌋ : ℝ) else _) = _
    rw [if_pos rfl, hsum, Int.floor_intCast]
  add_real xs hxs := by
    obtain ⟨x, xs, rfl⟩ := List.exists_cons_of_ne_nil hxs
    simp [Op.result, List.replicate_succ]
  mul_int ks hks := by
    obtain ⟨k, ks, rfl⟩ := List.exists_cons_of_ne_nil hks
    have hprod : ((k :: ks).map fun k : ℤ => (k : ℝ)).prod = ((k :: ks).prod : ℤ) :=
      (map_list_prod (Int.castRingHom ℝ) (k :: ks)).symm
    change (if Ty.int = .int then (⌊((k :: ks).map fun k : ℤ => (k : ℝ)).prod⌋ : ℝ) else _) = _
    rw [if_pos rfl, hprod, Int.floor_intCast]
  mul_real xs hxs := by
    obtain ⟨x, xs, rfl⟩ := List.exists_cons_of_ne_nil hxs
    simp [Op.result, List.replicate_succ]
  neg_int k := by
    have hneg : -[(k : ℝ)].sum = (-k : ℤ) := by simp
    change (if Ty.int = .int then (⌊-[(k : ℝ)].sum⌋ : ℝ) else _) = _
    rw [if_pos rfl, hneg, Int.floor_intCast]
  neg_real x := by simp [Op.result]
  fits_var _ s := by
    cases s with
    | int => exact ⟨3, by norm_num⟩
    | real => exact ⟨3, rfl⟩
    | bool | named => trivial
  fits_app op ts vs _ _ := by
    dsimp only
    split
    · rename_i h
      rw [h]
      exact ⟨_, rfl⟩
    · rename_i h
      unfold Ty.Fits
      split
      · exact absurd ‹_› h
      · exact ⟨_, rfl⟩
      · trivial

/-- From `0 + -(-x) + 0` the zeros go first, and then the double minus. -/
theorem optimize_preserves_value_sum :
    let x : Expr := .var "x" .real
    let e : Expr := .app .add [.real 0, .app .neg [.app .neg [x]], .real 0]
    (reduceWithin .default optimizations (.term e)).1 = .ok (.term x) ∧
      x.sort = e.sort ∧ reals.eval (fun _ => 0) x = reals.eval (fun _ => 0) e := by
  intro x e
  have hsorted : e.wellSorted = true := by decide
  have henv : reals.Respects (fun _ => 0) e := by
    intro i s hi
    simp [e, x, Expr.nodes, Expr.nodesList] at hi
  have hk : Bound.default.shown = .ok 100 := rfl
  obtain ⟨r, hr, hsort, hvalue⟩ := optimize_preserves_value reals hsorted henv hk
  have hx : (reduceWithin .default optimizations (.term e)).1 = .ok (.term x) := rfl
  obtain rfl : r = x := Node.term.inj (Except.ok.inj (hr.symm.trans hx))
  exact ⟨hx, hsort, hvalue⟩

end Deduce
