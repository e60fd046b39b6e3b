import Deduce.Proofs.Semantics.Interpretation
import Deduce.Proofs.Term.Building
import Deduce.Proofs.Term.Nodes
import Mathlib.Data.List.Forall2
import Mathlib.Data.Real.Basic

/-!
# Arithmetic interpretations

An interpretation is *arithmetic* (`ArithmeticInterpretation`) if terms of the integer sort stand
for integers and terms of the real sort for real numbers, numerals for themselves, and sums,
products and negatives are what they should be.  Which values the integers and the reals are, and
whether they have any in common, is left open, and so is everything else: the other operators,
functions, quantifiers and sorts.

What is asked of numbers is asked of well-sorted applications only; from it follows that every
well-sorted term of a numeric sort stands for a number (`fits_eval`).  With numbers for operands, a
sum or a product keeps its value when neutral operands are left out (`eval_combine_filter`).
-/

namespace Deduce

universe u

/-- A value that a term of a sort may have: an integer or a real number if the sort is numeric, and
otherwise any value. -/
def Ty.Fits {V : Type u} (ofInt : ℤ → V) (ofReal : ℝ → V) : Ty → V → Prop
  | .base .int, v => ∃ k, ofInt k = v
  | .base .real, v => ∃ x, ofReal x = v
  | _, _ => True

/-- An interpretation in which numbers and their sums, products and negatives are what they should
be. -/
structure ArithmeticInterpretation (V : Type u) extends Interpretation V where
  /-- The values that are integers. -/
  ofInt : ℤ → V
  /-- The values that are real numbers. -/
  ofReal : ℝ → V
  int_eq : ∀ k, int k = ofInt k
  real_eq : ∀ q, real q = ofReal q
  add_int : ∀ ks ≠ [], app .add (.replicate ks.length .int) (ks.map ofInt) = ofInt ks.sum
  add_real : ∀ xs ≠ [], app .add (.replicate xs.length .real) (xs.map ofReal) = ofReal xs.sum
  mul_int : ∀ ks ≠ [], app .mul (.replicate ks.length .int) (ks.map ofInt) = ofInt ks.prod
  mul_real : ∀ xs ≠ [], app .mul (.replicate xs.length .real) (xs.map ofReal) = ofReal xs.prod
  neg_int : ∀ k, app .neg [.int] [ofInt k] = ofInt (-k)
  neg_real : ∀ x, app .neg [.real] [ofReal x] = ofReal (-x)
  /-- A variable stands for a value of its sort. -/
  fits_var : ∀ name s, Ty.Fits ofInt ofReal (.base s) (var name s)
  /-- An operator applied to values of its argument sorts gives a value of its result sort. -/
  fits_app : ∀ op ts vs, op.accepts ts = true → List.Forall₂ (Ty.Fits ofInt ofReal) ts vs →
    Ty.Fits ofInt ofReal (op.result ts) (app op ts vs)

namespace ArithmeticInterpretation

variable {V : Type u} (I : ArithmeticInterpretation V) {env : ℕ → V}

/-- A value that a term of the sort may have. -/
def Fits (t : Ty) (v : V) : Prop := t.Fits I.ofInt I.ofReal v

/-! ### Terms of numeric sorts -/

/-- An environment gives values of their sorts to the bound variables among the nodes of a term.
They are bound nowhere, since what is below a binder is no node. -/
def Respects (env : ℕ → V) (e : Expr) : Prop :=
  ∀ i s, .bound i s ∈ e.nodes → I.Fits (.base s) (env i)

variable {I}

theorem Respects.of_mem_nodes {e a : Expr} (h : I.Respects env e) (ha : a ∈ e.nodes) :
    I.Respects env a := fun i s hi => h i s (Expr.mem_nodes_trans hi ha)

theorem Respects.arg {op : Op} {as : List Expr} {a : Expr} (h : I.Respects env (.app op as))
    (ha : a ∈ as) : I.Respects env a :=
  h.of_mem_nodes (Expr.mem_nodes_of_mem_args ha)

theorem Respects.app {op : Op} {as : List Expr} (h : ∀ a ∈ as, I.Respects env a) :
    I.Respects env (.app op as) := by
  intro i s hi
  rcases Expr.mem_nodes_app.1 hi with heq | ⟨a, ha, hia⟩
  · cases heq
  · exact h a ha i s hia

/-- A well-sorted term has a value of its sort. -/
theorem fits_eval {e : Expr} (he : e.wellSorted = true) (henv : I.Respects env e) :
    I.Fits e.sort (I.eval env e) := by
  induction e using Expr.induction with
  | var name s => exact I.fits_var name s
  | int k => exact ⟨k, (I.int_eq k).symm⟩
  | real q => exact ⟨q, (I.real_eq q).symm⟩
  | truth => trivial
  | bound i s => exact henv i s (Expr.mem_nodes_self _)
  | quant q =>
    -- quantified terms are statements or functions, and nothing is asked of their values
    cases q <;> trivial
  | app op as ih =>
    rw [Expr.wellSorted, Expr.wellSortedList_eq_all, Bool.and_eq_true, List.all_eq_true] at he
    refine I.fits_app op (Expr.sorts as) (I.evalList env as) he.2 ?_
    rw [Expr.sorts_eq_map, Interpretation.evalList_eq_map, List.forall₂_map_left_iff,
      List.forall₂_map_right_iff, List.forall₂_same]
    exact fun a ha => ih a ha (he.1 a ha) (henv.arg ha)

/-! ### Sums and products -/

/-- Over the sort `t`, the values of which are those of `of`, an operator folds `f` over its
operands, starting from the neutral `unit`, and numerals of the value `q` stand for that. -/
structure Folds {R : Type} (I : ArithmeticInterpretation V) (op : Op) (q : Rat) (t : Ty)
    (of : R → V) (f : R → R → R) (unit : R) : Prop where
  app_eq : ∀ xs ≠ [], I.app op (.replicate xs.length t) (xs.map of) = of (xs.foldr f unit)
  unit_left : ∀ x, f unit x = x
  unit_right : ∀ x, f x unit = x
  exists_of_fits : ∀ v, I.Fits t v → ∃ x, of x = v
  eval_numeral : ∀ (env : ℕ → V) (a : Expr), a.sort = t → a.isNumeralOf q = true →
    I.eval env a = of unit

theorem isNumeralOf_iff {a : Expr} {q : Rat} :
    a.isNumeralOf q = true ↔ (∃ k : ℤ, a = .int k ∧ (k : Rat) = q) ∨ a = .real q := by
  cases a <;> simp [Expr.isNumeralOf]

theorem eval_int_numeral {a : Expr} (hsort : a.sort = .int) {k : ℤ}
    (h : a.isNumeralOf k = true) : I.eval env a = I.ofInt k := by
  rcases isNumeralOf_iff.1 h with ⟨k', rfl, hk⟩ | rfl
  · rw [Interpretation.eval, I.int_eq, Int.cast_injective hk]
  · cases hsort

theorem eval_real_numeral {a : Expr} (hsort : a.sort = .real) {q : Rat}
    (h : a.isNumeralOf q = true) : I.eval env a = I.ofReal q := by
  rcases isNumeralOf_iff.1 h with ⟨k, rfl, -⟩ | rfl
  · cases hsort
  · exact I.real_eq q

variable {op : Op} {q : Rat} {t : Ty}

/-- Sums and products are folds, over the integers and over the reals. -/
theorem exists_folds (I : ArithmeticInterpretation V) (h : op.Neutral q)
    (ht : t.isArith = true) :
    ∃ (R : Type) (of : R → V) (f : R → R → R) (unit : R), I.Folds op q t of f unit := by
  rcases Ty.isArith_iff.1 ht with rfl | rfl <;> rcases h with ⟨rfl, rfl⟩ | ⟨rfl, rfl⟩
  · refine ⟨ℤ, I.ofInt, (· + ·), 0, I.add_int, zero_add, add_zero, fun v hv => hv, ?_⟩
    intro env a hsort hnum
    exact eval_int_numeral hsort (by simpa using hnum)
  · refine ⟨ℤ, I.ofInt, (· * ·), 1, I.mul_int, one_mul, mul_one, fun v hv => hv, ?_⟩
    intro env a hsort hnum
    exact eval_int_numeral hsort (by simpa using hnum)
  · refine ⟨ℝ, I.ofReal, (· + ·), 0, I.add_real, zero_add, add_zero, fun v hv => hv, ?_⟩
    intro env a hsort hnum
    simpa using eval_real_numeral hsort hnum
  · refine ⟨ℝ, I.ofReal, (· * ·), 1, I.mul_real, one_mul, mul_one, fun v hv => hv, ?_⟩
    intro env a hsort hnum
    simpa using eval_real_numeral hsort hnum

section Folds

variable {R : Type} {of : R → V} {f : R → R → R} {unit : R} {as : List Expr}

/-- The operands stand for numbers, and so do those that are not neutral; both fold to the same. -/
theorem Folds.exists_numbers (h : I.Folds op q t of f unit)
    (has : ∀ a ∈ as, a.sort = t ∧ I.Fits t (I.eval env a)) :
    ∃ xs ys : List R, as.map (I.eval env) = xs.map of ∧
      (as.filter fun a => !a.isNumeralOf q).map (I.eval env) = ys.map of ∧
      xs.foldr f unit = ys.foldr f unit := by
  induction as with
  | nil => exact ⟨[], [], rfl, rfl, rfl⟩
  | cons a as ih =>
    obtain ⟨xs, ys, hxs, hys, heq⟩ := ih fun a ha => has a (List.mem_cons_of_mem _ ha)
    obtain ⟨hsort, hfits⟩ := has a List.mem_cons_self
    by_cases hnum : a.isNumeralOf q = true
    · -- a value may be that of several numbers; a neutral numeral has to be taken for `unit`
      refine ⟨unit :: xs, ys, ?_, ?_, ?_⟩
      · rw [List.map_cons, List.map_cons, hxs, h.eval_numeral env a hsort hnum]
      · rw [List.filter_cons_of_neg (by simpa using hnum), hys]
      · rw [List.foldr_cons, h.unit_left, heq]
    · obtain ⟨x, hx⟩ := h.exists_of_fits _ hfits
      refine ⟨x :: xs, x :: ys, ?_, ?_, ?_⟩
      · rw [List.map_cons, List.map_cons, hxs, hx]
      · rw [List.filter_cons_of_pos (by simpa using hnum), List.map_cons, List.map_cons, hys, hx]
      · rw [List.foldr_cons, List.foldr_cons, heq]

theorem Folds.eval_app (h : I.Folds op q t of f unit) (hne : as ≠ [])
    (hsort : ∀ a ∈ as, a.sort = t) {xs : List R} (hxs : as.map (I.eval env) = xs.map of) :
    I.eval env (.app op as) = of (xs.foldr f unit) := by
  have hlength : as.length = xs.length := by simpa using congrArg List.length hxs
  have hxs_ne : xs ≠ [] := by
    rintro rfl
    exact hne (List.length_eq_zero_iff.1 hlength)
  rw [Interpretation.eval, Expr.sorts_of_sort_eq hsort, Interpretation.evalList_eq_map, hxs,
    hlength]
  exact h.app_eq xs hxs_ne

theorem Folds.eval_combine (h : I.Folds op q t of f unit) (hne : as ≠ [])
    (hsort : ∀ a ∈ as, a.sort = t) {xs : List R} (hxs : as.map (I.eval env) = xs.map of) :
    I.eval env (.combine op as) = of (xs.foldr f unit) := by
  unfold Expr.combine
  split
  · obtain ⟨x, rfl⟩ : ∃ x, xs = [x] := List.length_eq_one_iff.1 (by
      simpa using (congrArg List.length hxs).symm)
    rw [List.foldr_cons, List.foldr_nil, h.unit_right]
    exact (List.cons.inj hxs).1
  · exact h.eval_app hne hsort hxs

end Folds

/-- **Neutral operands do not count.**  Without them a sum or a product has the same value, as long
as there are others. -/
theorem eval_combine_filter (h : op.Neutral q) {as : List Expr}
    (has : (Expr.app op as).wellSorted = true) (henv : I.Respects env (.app op as))
    (hother : ∃ a ∈ as, ¬ a.isNumeralOf q = true) :
    I.eval env (.combine op (as.filter fun a => !a.isNumeralOf q)) = I.eval env (.app op as) := by
  obtain ⟨hne, hwell, t, ht, hsort⟩ := (Expr.wellSorted_arith h.arith).1 has
  obtain ⟨R, of, f, unit, hfolds⟩ := I.exists_folds h ht
  have hvalues : ∀ a ∈ as, a.sort = t ∧ I.Fits t (I.eval env a) := fun a ha =>
    ⟨hsort a ha, hsort a ha ▸ fits_eval (hwell a ha) (henv.arg ha)⟩
  obtain ⟨xs, ys, hxs, hys, heq⟩ := hfolds.exists_numbers hvalues
  have hkept : (as.filter fun a => !a.isNumeralOf q) ≠ [] := by
    simpa [List.filter_eq_nil_iff] using hother
  have hkept_sort : ∀ a ∈ as.filter fun a => !a.isNumeralOf q, a.sort = t := fun a ha =>
    hsort a (List.mem_filter.1 ha).1
  rw [hfolds.eval_combine hkept hkept_sort hys, hfolds.eval_app hne hsort hxs, heq]

/-! ### Negatives -/

/-- A double minus does not count. -/
theorem eval_neg_neg {e : Expr} (he : (Expr.app .neg [.app .neg [e]]).wellSorted = true)
    (henv : I.Respects env e) : I.eval env (.app .neg [.app .neg [e]]) = I.eval env e := by
  obtain ⟨hinner, -⟩ := Expr.wellSorted_neg.1 he
  obtain ⟨hwell, harith⟩ := Expr.wellSorted_neg.1 hinner
  have hfits := fits_eval hwell henv
  have hsort : (Expr.app .neg [e]).sort = e.sort := rfl
  simp only [Interpretation.eval, Interpretation.evalList, Expr.sorts, hsort]
  rcases Ty.isArith_iff.1 harith with ht | ht <;> rw [ht] at hfits ⊢
  · obtain ⟨k, hk⟩ := hfits
    rw [← hk, I.neg_int, I.neg_int, neg_neg]
  · obtain ⟨x, hx⟩ := hfits
    rw [← hx, I.neg_real, I.neg_real, neg_neg]

end ArithmeticInterpretation

end Deduce
