import Deduce.Proofs.Term.Sorting

/-!
# Terms of one sort

Terms that are of one sort already are put together without coercions (`Expr.unify_of_sort_eq`).
So a sum or a product of at least one operand is built over further operands of its sort by
applying the operator to them (`Expr.withArgs_arith`); a single one stands for itself
(`Expr.combine`).
-/

namespace Deduce

/-- Numerals of the value `q` are neutral among the operands of a sum or a product. -/
def Op.Neutral (op : Op) (q : Rat) : Prop := op = .add ∧ q = 0 ∨ op = .mul ∧ q = 1

theorem Op.Neutral.arith {op : Op} {q : Rat} (h : op.Neutral q) : op = .add ∨ op = .mul :=
  h.imp And.left And.left

theorem Ty.isArith_iff {t : Ty} : t.isArith = true ↔ t = .int ∨ t = .real := by
  unfold isArith
  split <;> simp_all

namespace Expr

variable {t : Ty} {op : Op} {as es : List Expr}

theorem sorts_of_sort_eq (h : ∀ a ∈ as, a.sort = t) : sorts as = List.replicate as.length t := by
  rw [sorts_eq_map, List.map_congr_left h, List.map_const']

/-- The sorts in which a well-sorted application takes its arguments are theirs. -/
theorem domain_of_wellSorted (h : (app op as).wellSorted = true) : domain op as = sorts as := by
  cases op with
  | fn name d range =>
    rw [wellSorted, Op.accepts, Bool.and_eq_true, Bool.and_eq_true, decide_eq_true_eq] at h
    exact h.2.2.symm
  | _ => rfl

/-! ### No coercions -/

theorem joinAll?_replicate (t : Ty) (n : Nat) : t.joinAll? (List.replicate n t) = some t := by
  induction n with
  | zero => rfl
  | succ n ih => rw [List.replicate_succ, Ty.joinAll?, join?_self, Option.bind_some, ih]

theorem castAll_of_sort_eq (h : ∀ e ∈ es, e.sort = t) : castAll t es = .ok es := by
  induction es with
  | nil => rfl
  | cons e es ih =>
    have he : castTo t e = .ok e := if_pos (h e List.mem_cons_self)
    rw [castAll, he, ih fun e he => h e (List.mem_cons_of_mem _ he)]
    rfl

theorem unify_of_sort_eq (hne : es ≠ []) (h : ∀ e ∈ es, e.sort = t) :
    unify es = .ok (t, es) := by
  obtain ⟨e, es, rfl⟩ := List.exists_cons_of_ne_nil hne
  have he : e.sort = t := h e List.mem_cons_self
  have hes : sorts es = List.replicate es.length t :=
    sorts_of_sort_eq fun e he => h e (List.mem_cons_of_mem _ he)
  rw [unify, he, hes, joinAll?_replicate]
  dsimp only
  rw [castAll_of_sort_eq h]
  rfl

theorem buildArith_of_sort_eq (op : Op) (ht : t.isArith = true) (hne : es ≠ [])
    (h : ∀ e ∈ es, e.sort = t) : buildArith op es = .ok (.app op es) := by
  have hbool : t ≠ .bool := by
    rintro rfl
    simp [Ty.isArith] at ht
  rw [buildArith, unify_of_sort_eq hne h]
  change (if t = .bool then _ else if t.isArith then _ else _) = _
  rw [if_neg hbool, if_pos ht]
  rfl

/-! ### Sums and products -/

/-- Operands taken together by an operator; a single one stands for itself. -/
def combine (op : Op) : List Expr → Expr
  | [a] => a
  | as => .app op as

theorem combine_of_ne_singleton (h : ∀ a, as ≠ [a]) : combine op as = .app op as := by
  unfold combine
  split
  · exact absurd rfl (h _)
  · rfl

/-- The sort of a sum or a product is that of its operands. -/
theorem sort_arith (hop : op = .add ∨ op = .mul) (hne : as ≠ []) (h : ∀ a ∈ as, a.sort = t) :
    (app op as).sort = t := by
  obtain ⟨a, as, rfl⟩ := List.exists_cons_of_ne_nil hne
  have ha : a.sort = t := h a List.mem_cons_self
  rcases hop with rfl | rfl <;> rw [sort, sorts, ha] <;> rfl

/-- A sum or a product is well sorted if it has operands and these are well sorted and of one
numeric sort. -/
theorem wellSorted_arith (hop : op = .add ∨ op = .mul) :
    (app op as).wellSorted = true ↔ as ≠ [] ∧ (∀ a ∈ as, a.wellSorted = true) ∧
      ∃ t : Ty, t.isArith = true ∧ ∀ a ∈ as, a.sort = t := by
  have haccepts : op.accepts (sorts as) =
      (!(sorts as).isEmpty && ((sorts as).all (· = .int) || (sorts as).all (· = .real))) := by
    rcases hop with rfl | rfl <;> rfl
  have hempty : (sorts as).isEmpty = as.isEmpty := by cases as <;> rfl
  rw [wellSorted, wellSortedList_eq_all, haccepts, hempty, sorts_eq_map]
  simp [Ty.isArith_iff, and_left_comm]

/-- Operands of one numeric sort, taken together, are a term of that sort. -/
theorem wellSorted_combine (hop : op = .add ∨ op = .mul) (ht : t.isArith = true) (hne : es ≠ [])
    (h : ∀ e ∈ es, e.wellSorted = true ∧ e.sort = t) :
    (combine op es).wellSorted = true ∧ (combine op es).sort = t := by
  unfold combine
  split
  · exact h _ List.mem_cons_self
  · exact ⟨(wellSorted_arith hop).2 ⟨hne, fun e he => (h e he).1, t, ht, fun e he => (h e he).2⟩,
      sort_arith hop hne fun e he => (h e he).2⟩

theorem wellSorted_neg {a : Expr} :
    (app .neg [a]).wellSorted = true ↔ a.wellSorted = true ∧ a.isArith = true := by
  simp [wellSorted, wellSortedList, sorts, Op.accepts, isArith, Ty.isArith_iff]

theorem withArgs_arith (hop : op = .add ∨ op = .mul) (ht : t.isArith = true) (has : as ≠ [])
    (hne : es ≠ []) (h : ∀ e ∈ es, e.sort = t) :
    (app op as).withArgs es = .ok (combine op es) := by
  obtain ⟨a, as, rfl⟩ := List.exists_cons_of_ne_nil has
  have hnary : (app op (a :: as)).withArgs es = buildNary op (buildArith op) es := by
    rcases hop with rfl | rfl <;> rfl
  rw [hnary]
  unfold buildNary
  split
  · exact absurd rfl hne
  · rfl
  · rename_i hsingle
    rw [buildArith_of_sort_eq op ht hne h, combine_of_ne_singleton hsingle]

end Expr

end Deduce
