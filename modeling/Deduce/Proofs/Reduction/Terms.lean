import Deduce.Proofs.Reduction.Runs
import Deduce.Reduction.Stock

/-!
# Reductions of terms

What a reduction makes of a term is checked only by comparing it with the term, and besides terms
it is the sorts that can be compared with one.  So plain data are never put in place of a term
(`apply_eq_faulted`): a reduction that returns them is at fault.  A sort is put there
(`apply_eq_changed_iff`), and reducing a term may end with one (`reduce_to_sort`).  Where no
reduction returns a sort, a term stays a term (`reduce_stays_term`).
-/

namespace Deduce

variable {r : Reduction} {e : Expr}

/-! ### One application -/

/-- There are two ways in which a reduction changes a term: it returns another term, or a sort. -/
theorem apply_eq_changed_iff {m : Node} :
    r.apply (.term e) = .changed m ↔
      (∃ e', r.run (.term e) = .ok (.term e') ∧ e' ≠ e ∧ m = .term e') ∨
        ∃ s, r.run (.term e) = .ok (.sort s) ∧ m = .sort s := by
  unfold Reduction.apply
  cases r.run (.term e) with
  | error f => simp [Change.ofReturn]
  | ok v =>
    cases v with
    | term e' =>
      by_cases he : e' = e
      · simp [Change.ofReturn, Node.ofValue?, he]
      · simp [Change.ofReturn, Node.ofValue?, he, @eq_comm _ m]
    | sort s => simp [Change.ofReturn, Node.ofValue?, @eq_comm _ m]
    | _ => simp [Change.ofReturn, Node.ofValue?]

/-- A reduction that returns plain data is at fault. -/
theorem apply_eq_faulted {v : Value} (hrun : r.run (.term e) = .ok v) (hnothing : v ≠ .nothing)
    (hterm : v.isTerm = false) (hsort : ∀ s, v ≠ .sort s) :
    r.apply (.term e) = .faulted (.notComparable v.typeName) := by
  unfold Reduction.apply
  rw [hrun]
  cases v with
  | nothing => exact absurd rfl hnothing
  | term e' => cases hterm
  | sort s => exact absurd rfl (hsort s)
  | _ => rfl

/-! ### Runs -/

/-- Unless it returns a sort for a term, a reduction leaves terms terms. -/
theorem exists_term_of_changed {m : Node} (hsort : ∀ s, r.run (.term e) ≠ .ok (.sort s))
    (h : r.apply (.term e) = .changed m) : ∃ e', m = .term e' := by
  rcases apply_eq_changed_iff.1 h with ⟨e', -, -, rfl⟩ | ⟨s, hs, -⟩
  · exact ⟨e', rfl⟩
  · exact absurd hs (hsort s)

/-- **A term stays a term** where no reduction returns a sort for a term: within any bound,
reducing a term gives a term.  Each time a reduction returns something that is neither nothing nor
a term, it is at fault and the node stays as it is. -/
theorem reduce_stays_term {rs : List Reduction}
    (hsort : ∀ r ∈ rs, ∀ e s, r.run (.term e) ≠ .ok (.sort s)) {b : Bound} {k : Int}
    (hk : b.shown = .ok k) (e : Expr) :
    (∃ e', (reduceWithin b rs (.term e)).1 = .ok (.term e')) ∧
      ∀ r ∈ rs, ∀ e v, r.run (.term e) = .ok v → v ≠ .nothing → v.isTerm = false →
        r.apply (.term e) = .faulted (.notComparable v.typeName) ∧
          (r.apply (.term e)).result (.term e) = .term e := by
  constructor
  · -- every application leaves a term a term, and so does the run
    have hrun : ∃ e', (reduce rs b.passes (.term e)).1 = .term e' := by
      refine reduce_induction (P := fun n => ∃ e', n = .term e') ?_ b.passes ⟨e, rfl⟩
      rintro r hr - m ⟨e, rfl⟩ hchanged
      exact exists_term_of_changed (hsort r hr e) hchanged
    obtain ⟨e', he'⟩ := hrun
    exact ⟨e', by rw [reduceWithin_eq_ok hk, he']⟩
  · intro r hr e v hrun hnothing hterm
    have hfault := apply_eq_faulted hrun hnothing hterm fun s hs => hsort r hr e s (hs ▸ hrun)
    exact ⟨hfault, by rw [hfault]; rfl⟩

/-- A reduction that returns a number does not keep the zero from being dropped. -/
theorem reduce_stays_term_beside_number :
    let number : Reduction := ⟨.constant (.number 42), "number"⟩
    let x : Expr := .var "x" .int
    (∃ e', (reduceWithin .default [number, Optimization.dropZeros.toReduction]
        (.term (.app .add [x, .int 0]))).1 = .ok (.term e')) ∧
      number.apply (.term x) = .faulted (.notComparable "int") := by
  intro number x
  have hsort : ∀ r ∈ [number, Optimization.dropZeros.toReduction], ∀ e s,
      r.run (.term e) ≠ .ok (.sort s) := by
    intro r hr e s hrun
    simp only [List.mem_cons, List.not_mem_nil, or_false] at hr
    rcases hr with rfl | rfl
    · cases hrun
    · change Optimization.dropZeros.run (.term e) = _ at hrun
      rw [Optimization.run] at hrun
      split at hrun <;> cases hrun
  have hk : Bound.default.shown = .ok 100 := rfl
  obtain ⟨hterm, hfault⟩ := reduce_stays_term hsort hk (.app .add [x, .int 0])
  exact ⟨hterm, (hfault number (by simp) x (.number 42) rfl (by simp) rfl).1⟩

/-- A variable is turned into the sort of the integers. -/
theorem reduce_to_sort :
    (reduceWithin .default [⟨.constant (.sort .int), "sort"⟩] (.term (.var "x" .int))).1 =
      .ok (.sort .int) := rfl

end Deduce
