import Deduce.Proofs.Reduction.Runs
import Deduce.Proofs.Term.Building
import Deduce.Reduction.Optimize

/-!
# The steps of the optimizer

There are two ways in which the optimizer changes a well-sorted term (`Simplifies`): some, but not
all, of the operands of a sum or a product are neutral and are dropped, or a double minus is
cancelled.  Neither changes the sort (`Simplifies.wellSorted_and_sort`), and no reduction is at
fault on a well-sorted term (`onTerm_eq_ok`).
-/

namespace Deduce

/-- One step of the optimizer, at the root of a term. -/
inductive Simplifies : Expr → Expr → Prop where
  /-- Neutral operands are dropped, unless there are none or no others. -/
  | dropNeutral {op : Op} {q : Rat} {as : List Expr} (hop : op.Neutral q)
      (hneutral : ∃ a ∈ as, a.isNumeralOf q = true)
      (hother : ∃ a ∈ as, ¬ a.isNumeralOf q = true) :
      Simplifies (.app op as) (.combine op (as.filter fun a => !a.isNumeralOf q))
  /-- A double minus is cancelled. -/
  | cancelMinus (e : Expr) : Simplifies (.app .neg [.app .neg [e]]) e

variable {op : Op} {q : Rat} {as : List Expr} {e e' : Expr}

/-! ### The built-in reductions -/

theorem withArgs_others (hop : op.Neutral q) (he : (Expr.app op as).wellSorted = true)
    (hother : ∃ a ∈ as, ¬ a.isNumeralOf q = true) :
    (Expr.app op as).withArgs (as.filter fun a => !a.isNumeralOf q) =
      .ok (.combine op (as.filter fun a => !a.isNumeralOf q)) := by
  obtain ⟨has, -, t, ht, hsort⟩ := (Expr.wellSorted_arith hop.arith).1 he
  refine Expr.withArgs_arith hop.arith ht has ?_ fun a ha => hsort a (List.mem_filter.1 ha).1
  simpa [List.filter_eq_nil_iff] using hother

/-- Neutral operands are dropped where there are others. -/
theorem dropNeutral_of_mixed (hop : op.Neutral q) (he : (Expr.app op as).wellSorted = true)
    (hneutral : ∃ a ∈ as, a.isNumeralOf q = true) (hother : ∃ a ∈ as, ¬ a.isNumeralOf q = true) :
    dropNeutral op q (.app op as) = .ok (.combine op (as.filter fun a => !a.isNumeralOf q)) := by
  have hlength : (as.filter fun a => !a.isNumeralOf q).length ≠ as.length := by
    simpa [List.length_filter_eq_length_iff] using hneutral
  have hnil : (as.filter fun a => !a.isNumeralOf q) ≠ [] := by
    simpa [List.filter_eq_nil_iff] using hother
  rw [dropNeutral, if_pos rfl]
  dsimp only
  rw [if_neg (not_or.2 ⟨hlength, hnil⟩), withArgs_others hop he hother]

theorem dropNeutral_eq_ok (hop : op.Neutral q) (he : e.wellSorted = true) :
    ∃ r, dropNeutral op q e = .ok r ∧ (r = e ∨ Simplifies e r) := by
  unfold dropNeutral
  split
  · rename_i o as
    split
    · rename_i ho
      subst ho
      dsimp only
      split
      · exact ⟨_, rfl, .inl rfl⟩
      · rename_i hkept
        -- the two ways in which the operands stay are excluded
        obtain ⟨hlength, hnil⟩ := not_or.1 hkept
        have hother : ∃ a ∈ as, ¬ a.isNumeralOf q = true := by
          simpa [List.filter_eq_nil_iff] using hnil
        refine ⟨_, withArgs_others hop he hother, .inr (.dropNeutral hop ?_ hother)⟩
        simpa [List.length_filter_eq_length_iff] using hlength
    · exact ⟨_, rfl, .inl rfl⟩
  · exact ⟨_, rfl, .inl rfl⟩

theorem cancelMinus_eq (e : Expr) : cancelMinus e = e ∨ Simplifies e (cancelMinus e) := by
  unfold cancelMinus
  split
  · exact .inr (.cancelMinus _)
  · exact .inl rfl

/-- A built-in reduction of a well-sorted term is not at fault: it leaves the term as it is or
simplifies it. -/
theorem onTerm_eq_ok (o : Optimization) (he : e.wellSorted = true) :
    ∃ r, o.onTerm e = .ok r ∧ (r = e ∨ Simplifies e r) := by
  cases o with
  | dropZeros => exact dropNeutral_eq_ok (.inl ⟨rfl, rfl⟩) he
  | dropOnes => exact dropNeutral_eq_ok (.inr ⟨rfl, rfl⟩) he
  | cancelMinus => exact ⟨_, rfl, cancelMinus_eq e⟩

theorem Optimization.mem_optimizations (o : Optimization) : o.toReduction ∈ optimizations :=
  List.mem_map_of_mem (by cases o <;> decide)

theorem simplifies_of_changed {r : Reduction} (hr : r ∈ optimizations) {m : Node}
    (he : e.wellSorted = true) (h : r.apply (.term e) = .changed m) :
    ∃ e', m = .term e' ∧ Simplifies e e' := by
  obtain ⟨o, -, rfl⟩ := List.mem_map.1 hr
  obtain ⟨e', hok, hstep⟩ := onTerm_eq_ok o he
  have hrun : o.toReduction.run (.term e) = .ok (.term e') := by
    change o.run (.term e) = _
    rw [Optimization.run, hok]
  rw [Reduction.apply, hrun] at h
  change (if Node.term e' = .term e then Change.unchanged else .changed (.term e')) = _ at h
  split at h
  · cases h
  · rename_i hne
    obtain rfl := Change.changed.inj h
    exact ⟨e', rfl, hstep.resolve_left fun heq => hne (congrArg Node.term heq)⟩

/-! ### Sorts -/

theorem Simplifies.wellSorted_and_sort (h : Simplifies e e') (he : e.wellSorted = true) :
    e'.wellSorted = true ∧ e'.sort = e.sort := by
  cases h with
  | @dropNeutral op q as hop hneutral hother =>
    obtain ⟨has, hwell, t, ht, hsort⟩ := (Expr.wellSorted_arith hop.arith).1 he
    have hkept : (as.filter fun a => !a.isNumeralOf q) ≠ [] := by
      simpa [List.filter_eq_nil_iff] using hother
    rw [Expr.sort_arith hop.arith has hsort]
    refine Expr.wellSorted_combine hop.arith ht hkept fun a ha => ?_
    have hmem := (List.mem_filter.1 ha).1
    exact ⟨hwell a hmem, hsort a hmem⟩
  | cancelMinus =>
    have hinner := (Expr.wellSorted_neg.1 he).1
    exact ⟨(Expr.wellSorted_neg.1 hinner).1, rfl⟩

end Deduce
