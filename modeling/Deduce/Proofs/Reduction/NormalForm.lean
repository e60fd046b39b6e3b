import Deduce.Proofs.Reduction.Fixpoint
import Deduce.Proofs.Reduction.Optimizer
import Deduce.Proofs.Term.Variables
import Deduce.Term.Metrics
import Mathlib.Algebra.Ring.Nat

/-!
# Normal forms of the optimizer

Every step of the optimizer drops a node at least, and lowers the complexity, but keeps the
variables (`Simplifies.shrinks`).  So a term has no more steps than nodes, and with as many passes
as it has nodes the optimizer ends in a fixed point.  There the root is normal
(`Expr.IsNormal`): neutral operands are not found beside others, and there is no double minus.
Both are put together in `optimize_reaches_normal_form`.
-/

namespace Deduce

variable {op : Op} {q : Rat} {as : List Expr} {e e' r : Expr} {i j k : Nat}

/-- At the root of a term there is nothing to simplify. -/
structure Expr.IsNormal (e : Expr) : Prop where
  sum : ∀ as, e = .app .add as →
    ¬ ((∃ a ∈ as, a.isNumeralOf 0 = true) ∧ ∃ a ∈ as, ¬ a.isNumeralOf 0 = true)
  product : ∀ as, e = .app .mul as →
    ¬ ((∃ a ∈ as, a.isNumeralOf 1 = true) ∧ ∃ a ∈ as, ¬ a.isNumeralOf 1 = true)
  minus : ∀ a, e = .app .neg [a] → a.isNegation = false

/-! ### What is counted over operands -/

namespace Expr

theorem eq_neg_of_isNegation (h : e.wellSorted = true) (hneg : e.isNegation = true) :
    ∃ a, e = app .neg [a] := by
  unfold isNegation at hneg
  split at hneg
  · rename_i as
    rw [wellSorted, Bool.and_eq_true] at h
    have hsorts : sorts as = [.int] ∨ sorts as = [.real] := by simpa [Op.accepts] using h.2
    have hlength : as.length = (sorts as).length := by simp [sorts_eq_map]
    obtain ⟨a, rfl⟩ : ∃ a, as = [a] := by
      rw [← List.length_eq_one_iff, hlength]
      rcases hsorts with hsorts | hsorts <;> simp [hsorts]
    exact ⟨a, rfl⟩
  · cases hneg

theorem length_nodes_pos (e : Expr) : 0 < e.nodes.length :=
  List.length_pos_of_mem (mem_nodes_self e)

theorem complexity_pos (e : Expr) : 0 < e.complexity := by
  unfold complexity
  split <;> omega

theorem length_nodes_app (op : Op) (as : List Expr) :
    (app op as).nodes.length = (as.map fun a => a.nodes.length).sum + 1 := by
  simp [nodes, nodesList_eq_flatMap]

theorem complexityList_eq_sum (as : List Expr) : complexityList as = (as.map complexity).sum := by
  induction as with
  | nil => rfl
  | cons a as ih => simp [complexityList, ih]

/-- Sums and products weigh one. -/
theorem complexity_arith (hop : op = .add ∨ op = .mul) (hne : as ≠ []) :
    (app op as).complexity = (as.map complexity).sum + 2 := by
  obtain ⟨a, as, rfl⟩ := List.exists_cons_of_ne_nil hne
  have hweight : operatorWeight (op.name (op.result (sorts (a :: as)))) = 1 := by
    rcases hop with rfl | rfl <;> simp [Op.name, operatorWeight]
  rw [complexity, hweight, complexityList_eq_sum, List.map_cons, List.sum_cons]
  omega

theorem length_nodes_combine_le (op : Op) (as : List Expr) :
    (combine op as).nodes.length ≤ (as.map fun a => a.nodes.length).sum + 1 := by
  unfold combine
  split
  · simp
  · exact Nat.le_of_eq (length_nodes_app op _)

theorem complexity_combine_le (hop : op = .add ∨ op = .mul) (hne : as ≠ []) :
    (combine op as).complexity ≤ (as.map complexity).sum + 2 := by
  unfold combine
  split
  · simp
  · exact Nat.le_of_eq (complexity_arith hop hne)

theorem occurrences_combine (op : Op) (as : List Expr) :
    (combine op as).occurrences = occurrencesList as := by
  unfold combine
  split
  · simp [occurrencesList]
  · rfl

theorem occurrences_of_isNumeralOf (h : e.isNumeralOf q = true) : e.occurrences = [] := by
  cases e <;> simp_all [isNumeralOf, occurrences]

theorem occurrencesList_filter (q : Rat) (as : List Expr) :
    occurrencesList (as.filter fun a => !a.isNumeralOf q) = occurrencesList as := by
  induction as with
  | nil => rfl
  | cons a as ih =>
    by_cases ha : a.isNumeralOf q = true
    · simp [ha, occurrencesList, occurrences_of_isNumeralOf ha, ih]
    · simp [ha, occurrencesList, ih]

/-- Every operand that is left out counts. -/
theorem sum_filter_add_length_le {f : Expr → Nat} (hpos : ∀ a, 0 < f a) (p : Expr → Bool)
    (as : List Expr) :
    ((as.filter p).map f).sum + (as.filter fun a => !p a).length ≤ (as.map f).sum := by
  induction as with
  | nil => simp
  | cons a as ih =>
    have ha := hpos a
    by_cases h : p a = true
    · simp [h]
      omega
    · simp [h]
      omega

theorem sum_filter_lt {f : Expr → Nat} (hpos : ∀ a, 0 < f a)
    (h : ∃ a ∈ as, a.isNumeralOf q = true) :
    ((as.filter fun a => !a.isNumeralOf q).map f).sum < (as.map f).sum := by
  have hle := sum_filter_add_length_le hpos (fun a => !a.isNumeralOf q) as
  obtain ⟨a, ha, hneutral⟩ := h
  have hdropped : 0 < (as.filter fun a => !!a.isNumeralOf q).length :=
    List.length_pos_of_mem (List.mem_filter.2 ⟨ha, by simpa using hneutral⟩)
  omega

end Expr

/-! ### Steps shrink a term -/

/-- A term comes from another by leaving out `k` nodes or more, none of them a variable. -/
structure Shrinks (k : Nat) (e r : Expr) : Prop where
  wellSorted : r.wellSorted = true
  length_nodes_le : r.nodes.length + k ≤ e.nodes.length
  complexity_le : r.complexity + k ≤ e.complexity
  freeVariables_eq : r.freeVariables = e.freeVariables

theorem Shrinks.refl (he : e.wellSorted = true) : Shrinks 0 e e :=
  ⟨he, by omega, by omega, rfl⟩

theorem Shrinks.trans (h : Shrinks i e e') (h' : Shrinks j e' r) : Shrinks (j + i) e r where
  wellSorted := h'.wellSorted
  length_nodes_le := by
    have := h.length_nodes_le
    have := h'.length_nodes_le
    omega
  complexity_le := by
    have := h.complexity_le
    have := h'.complexity_le
    omega
  freeVariables_eq := h'.freeVariables_eq.trans h.freeVariables_eq

theorem Simplifies.length_nodes_lt (h : Simplifies e e') : e'.nodes.length < e.nodes.length := by
  cases h with
  | @dropNeutral op q as hop hneutral hother =>
    have hcombine := Expr.length_nodes_combine_le op (as.filter fun a => !a.isNumeralOf q)
    have hlt := Expr.sum_filter_lt Expr.length_nodes_pos hneutral
    rw [Expr.length_nodes_app]
    omega
  | cancelMinus =>
    simp only [Expr.length_nodes_app, List.map_cons, List.map_nil, List.sum_cons, List.sum_nil]
    omega

theorem Simplifies.complexity_lt (h : Simplifies e e') : e'.complexity < e.complexity := by
  cases h with
  | @dropNeutral op q as hop hneutral hother =>
    have has : as ≠ [] := by
      obtain ⟨a, ha, -⟩ := hneutral
      exact List.ne_nil_of_mem ha
    have hkept : (as.filter fun a => !a.isNumeralOf q) ≠ [] := by
      simpa [List.filter_eq_nil_iff] using hother
    have hcombine := Expr.complexity_combine_le hop.arith hkept
    have hlt := Expr.sum_filter_lt Expr.complexity_pos hneutral
    rw [Expr.complexity_arith hop.arith has]
    omega
  | cancelMinus =>
    simp only [Expr.complexity, Expr.complexityList]
    omega

theorem Simplifies.freeVariables_eq (h : Simplifies e e') :
    e'.freeVariables = e.freeVariables := by
  have hoccurrences : e'.occurrences = e.occurrences := by
    cases h with
    | dropNeutral =>
      rw [Expr.occurrences_combine, Expr.occurrencesList_filter, Expr.occurrences]
    | cancelMinus => simp [Expr.occurrences, Expr.occurrencesList]
  rw [Expr.freeVariables_eq, Expr.freeVariables_eq, hoccurrences]

theorem Simplifies.shrinks (h : Simplifies e e') (he : e.wellSorted = true) :
    Shrinks 1 e e' :=
  ⟨(h.wellSorted_and_sort he).1, h.length_nodes_lt, h.complexity_lt, h.freeVariables_eq⟩

/-! ### Runs of the optimizer -/

theorem plain_of_mem_optimizations {o : Reduction} (ho : o ∈ optimizations) : o.Plain := by
  obtain ⟨o, -, rfl⟩ := List.mem_map.1 ho
  constructor
  · intro e s h
    change o.run (.term e) = _ at h
    rw [Optimization.run] at h
    split at h <;> cases h
  · simp [Optimization.toReduction, Optimization.toFunction, Warns]

theorem rewrites_iff {o : Optimization} :
    o.toReduction.Rewrites e e' ↔ o.onTerm e = .ok e' ∧ e' ≠ e := by
  refine and_congr_left fun _ => ?_
  change o.run (.term e) = _ ↔ _
  rw [Optimization.run]
  cases o.onTerm e <;> simp

theorem Simplifies.of_rewrites {o : Reduction} (ho : o ∈ optimizations) (he : e.wellSorted = true)
    (h : o.Rewrites e e') : Simplifies e e' := by
  have hchanged : o.apply (.term e) = .changed (.term e') :=
    apply_eq_changed_iff.2 (.inl ⟨e', h.1, h.2, rfl⟩)
  obtain ⟨d, hd, hstep⟩ := simplifies_of_changed ho he hchanged
  obtain rfl := Node.term.inj hd
  exact hstep

/-- The optimizer finds every simplification. -/
theorem Simplifies.exists_rewrites (h : Simplifies e e') (he : e.wellSorted = true) :
    ∃ o ∈ optimizations, o.Rewrites e e' := by
  have hne : e' ≠ e := by
    rintro rfl
    exact absurd h.length_nodes_lt (Nat.lt_irrefl _)
  cases h with
  | dropNeutral hop hneutral hother =>
    have hdrop := dropNeutral_of_mixed hop he hneutral hother
    rcases hop with ⟨rfl, rfl⟩ | ⟨rfl, rfl⟩
    · exact ⟨_, Optimization.dropZeros.mem_optimizations, rewrites_iff.2 ⟨hdrop, hne⟩⟩
    · exact ⟨_, Optimization.dropOnes.mem_optimizations, rewrites_iff.2 ⟨hdrop, hne⟩⟩
  | cancelMinus => exact ⟨_, Optimization.cancelMinus.mem_optimizations, rewrites_iff.2 ⟨rfl, hne⟩⟩

theorem Fixed.not_simplifies (h : Fixed optimizations e) (he : e.wellSorted = true) :
    ¬ Simplifies e e' := by
  intro hstep
  obtain ⟨o, ho, hrewrites⟩ := hstep.exists_rewrites he
  exact h o ho e' hrewrites

/-- What the optimizer does not change is normal. -/
theorem Fixed.isNormal (h : Fixed optimizations e) (he : e.wellSorted = true) : e.IsNormal where
  sum := by
    rintro as rfl ⟨hneutral, hother⟩
    exact h.not_simplifies he (.dropNeutral (.inl ⟨rfl, rfl⟩) hneutral hother)
  product := by
    rintro as rfl ⟨hneutral, hother⟩
    exact h.not_simplifies he (.dropNeutral (.inr ⟨rfl, rfl⟩) hneutral hother)
  minus := by
    rintro a rfl
    by_contra ha
    obtain ⟨b, rfl⟩ := Expr.eq_neg_of_isNegation (Expr.wellSorted_neg.1 he).1 (by simpa using ha)
    exact h.not_simplifies he (.cancelMinus b)

theorem Reduces.shrinks (h : Reduces optimizations k e r) (he : e.wellSorted = true) :
    Shrinks k e r := by
  induction h with
  | refl e => exact .refl he
  | step hstep hrest ih =>
    obtain ⟨before, o, after, hsplit, -, hrewrites⟩ := hstep
    have ho : o ∈ optimizations := by simp [hsplit]
    have hfirst := (Simplifies.of_rewrites ho he hrewrites).shrinks he
    exact hfirst.trans (ih hfirst.wellSorted)

/-- With as many passes as there are nodes, the optimizer ends in a fixed point. -/
theorem reduce_of_length_nodes_le (he : e.wellSorted = true) (hi : e.nodes.length ≤ i) :
    ∃ r, reduce optimizations i (.term e) = (.term r, false) ∧ r.IsNormal ∧
      Fixed optimizations r := by
  obtain ⟨k, r, hrun, -, hsteps, hfixed⟩ :=
    exists_reduces (fun _ => plain_of_mem_optimizations) i e
  have hshrinks := hsteps.shrinks he
  have hk : k ≠ i := by
    have := hshrinks.length_nodes_le
    have := r.length_nodes_pos
    omega
  refine ⟨r, ?_, (hfixed hk).isNormal hshrinks.wellSorted, hfixed hk⟩
  simpa [hk] using hrun

/-- **The optimizer reaches a normal form.**  With at least as many passes as the well-sorted term
has nodes, it does not warn, and its result is normal and the same for all these bounds.  Under
whatever bound, the result has the variables of the term in the same order, and is less complex
unless it is the term itself. -/
theorem optimize_reaches_normal_form (he : e.wellSorted = true) :
    (∃ r : Expr, r.IsNormal ∧ ∀ b : Bound, e.nodes.length ≤ b.passes →
      (reduceWithin b optimizations (.term e)).1 = .ok (.term r) ∧
        ¬ Warns (reduceWithin b optimizations (.term e)).2) ∧
    ∀ (b : Bound) (k : Int), b.shown = .ok k → ∃ r : Expr,
      (reduceWithin b optimizations (.term e)).1 = .ok (.term r) ∧
        (r ≠ e → r.complexity < e.complexity) ∧ r.freeVariables = e.freeVariables := by
  have hplain : ∀ o ∈ optimizations, o.Plain := fun _ => plain_of_mem_optimizations
  constructor
  · obtain ⟨r, hrun, hnormal, hfixed⟩ := reduce_of_length_nodes_le he (Nat.le_refl _)
    refine ⟨r, hnormal, ?_⟩
    intro b hb
    obtain ⟨r', hrun', -, -⟩ := reduce_of_length_nodes_le he hb
    -- the passes beyond the number of nodes start at the fixed point
    have hr' : r' = r := by
      have hcompose := reduce_reduce optimizations e.nodes.length (b.passes - e.nodes.length)
        (.term e)
      rw [Nat.add_sub_cancel' hb, hrun', hrun,
        reduce_of_none ((reduceOnce_eq_none_iff hplain).2 hfixed)] at hcompose
      simpa using hcompose.symm
    rw [reduceWithin_of_not_exhausted hrun', hr']
    exact ⟨rfl, not_warns_reduceLog (fun o ho => (hplain o ho).silent) _ _⟩
  · intro b k hk
    obtain ⟨i, r, hrun, -, hsteps, -⟩ := exists_reduces hplain b.passes e
    have hshrinks := hsteps.shrinks he
    refine ⟨r, by rw [reduceWithin_eq_ok hk, hrun], ?_, hshrinks.freeVariables_eq⟩
    intro hne
    have hi : i ≠ 0 := by
      rintro rfl
      cases hsteps
      exact hne rfl
    have := hshrinks.complexity_le
    omega

/-- Each simplification uncovers the next: a double minus over a sum with a zero over a product with
a one is brought down to the variable in it. -/
theorem optimize_reaches_normal_form_nested :
    let x : Expr := .var "x" .int
    let e : Expr := .app .neg [.app .neg [.app .add [.int 0, .app .mul [x, .int 1]]]]
    e.wellSorted = true ∧ e.nodes.length = 7 ∧ x.IsNormal ∧
      (reduceWithin (.ofNat 7) optimizations (.term e)).1 = .ok (.term x) ∧
      ¬ Warns (reduceWithin (.ofNat 7) optimizations (.term e)).2 ∧
      x.complexity < e.complexity ∧ x.freeVariables = e.freeVariables := by
  intro x e
  have hsorted : e.wellSorted = true := by decide
  have hresult : (reduceWithin (.ofNat 7) optimizations (.term e)).1 = .ok (.term x) := rfl
  obtain ⟨⟨r, hnormal, henough⟩, hall⟩ := optimize_reaches_normal_form hsorted
  obtain ⟨hr, hquiet⟩ := henough (.ofNat 7) (Nat.le_refl 7)
  obtain ⟨r', hr', hcomplexity, hvars⟩ := hall (.ofNat 7) 7 rfl
  obtain rfl : x = r := by simpa [hresult] using hr
  obtain rfl : x = r' := by simpa [hresult] using hr'
  exact ⟨hsorted, rfl, hnormal, hresult, hquiet, hcomplexity (by simp [x, e]), hvars⟩

end Deduce
