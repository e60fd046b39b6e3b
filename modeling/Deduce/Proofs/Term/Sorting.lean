import Deduce.Term.Build
import Deduce.Term.Substitution

/-!
# Sorts under replacement

Lifting leaves the sort of a term alone, and so does replacing a term by another of its sort, at
any depth and under binders too (`Expr.sort_replace`).  Both keep terms well sorted
(`Expr.wellSorted_replace`).  Two terms of one sort can always be equated, in one order or the
other and without coercions (`Expr.mkEq?_of_sort_eq`).
-/

namespace Deduce.Expr

/-! ### Parts of the same sorts -/

/-- The sort of a quantified term depends on the body through its sort alone. -/
theorem sort_quant_congr {q : Quantifier} {bs : List (String × Srt)} {body body' : Expr}
    (h : body'.sort = body.sort) : (Expr.quant q bs body').sort = (Expr.quant q bs body).sort := by
  cases q <;> simp [sort, h]

theorem wellSorted_quant_congr {q : Quantifier} {bs : List (String × Srt)} {body body' : Expr}
    (hsort : body'.sort = body.sort)
    (hbody : body.wellSorted = true → body'.wellSorted = true)
    (h : (Expr.quant q bs body).wellSorted = true) :
    (Expr.quant q bs body').wellSorted = true := by
  cases q <;> simp_all [wellSorted]

theorem sorts_map {as : List Expr} {f : Expr → Expr} (h : ∀ a ∈ as, (f a).sort = a.sort) :
    sorts (as.map f) = sorts as := by
  rw [sorts_eq_map, sorts_eq_map, List.map_map]
  exact List.map_congr_left h

theorem wellSorted_app_congr {op : Op} {as : List Expr} {f : Expr → Expr}
    (hsort : ∀ a ∈ as, (f a).sort = a.sort)
    (hargs : ∀ a ∈ as, a.wellSorted = true → (f a).wellSorted = true)
    (h : (Expr.app op as).wellSorted = true) : (Expr.app op (as.map f)).wellSorted = true := by
  simp only [wellSorted, wellSortedList_eq_all, Bool.and_eq_true, List.all_eq_true,
    sorts_map hsort, List.mem_map] at h ⊢
  refine ⟨?_, h.2⟩
  rintro - ⟨a, ha, rfl⟩
  exact hargs a ha (h.1 a ha)

/-! ### Lifting -/

theorem liftList_eq_map (n depth : Nat) (as : List Expr) :
    liftList n depth as = as.map (lift n depth) := by
  induction as with
  | nil => rfl
  | cons a as ih => simp [liftList, ih]

theorem sort_lift (n depth : Nat) (e : Expr) : (lift n depth e).sort = e.sort := by
  induction e using Expr.induction generalizing depth with
  | var | int | real | truth | bound => rfl
  | quant q bs body ih => exact sort_quant_congr (ih _)
  | app op as ih =>
    rw [lift, liftList_eq_map, sort, sort, sorts_map fun a ha => ih a ha depth]

theorem wellSorted_lift (n depth : Nat) {e : Expr} (h : e.wellSorted = true) :
    (lift n depth e).wellSorted = true := by
  induction e using Expr.induction generalizing depth with
  | var | int | real | truth | bound => rfl
  | quant q bs body ih => exact wellSorted_quant_congr (sort_lift n _ body) (fun hb => ih _ hb) h
  | app op as ih =>
    rw [lift, liftList_eq_map]
    exact wellSorted_app_congr (fun a _ => sort_lift n depth a) (fun a ha => ih a ha depth) h

/-! ### Replacement -/

theorem sort_replace {old new : Expr} (h : old.sort = new.sort) (e : Expr) :
    (replace old new e).sort = e.sort := by
  induction e using Expr.induction generalizing old new with
  | var | int | real | truth | bound =>
    simp only [replace]
    split
    · rename_i he
      rw [he, h]
    · rfl
  | quant q bs body ih =>
    rw [replace]
    split
    · rename_i he
      rw [he, h]
    · exact sort_quant_congr (ih (by rw [sort_lift, sort_lift, h]))
  | app op as ih =>
    rw [replace]
    split
    · rename_i he
      rw [he, h]
    · rw [replaceList_eq_map, sort, sort, sorts_map fun a ha => ih a ha h]

theorem wellSorted_replace {old new : Expr} (h : old.sort = new.sort)
    (hnew : new.wellSorted = true) {e : Expr} (he : e.wellSorted = true) :
    (replace old new e).wellSorted = true := by
  induction e using Expr.induction generalizing old new with
  | var | int | real | truth | bound =>
    simp only [replace]
    split
    · exact hnew
    · exact he
  | quant q bs body ih =>
    rw [replace]
    split
    · exact hnew
    · have hlift : (lift bs.length 0 old).sort = (lift bs.length 0 new).sort := by
        rw [sort_lift, sort_lift, h]
      exact wellSorted_quant_congr (sort_replace hlift body)
        (ih hlift (wellSorted_lift _ _ hnew)) he
  | app op as ih =>
    rw [replace]
    split
    · exact hnew
    · rw [replaceList_eq_map]
      exact wellSorted_app_congr (fun a _ => sort_replace h a) (fun a ha => ih a ha h hnew) he

/-! ### Equations and implications -/

theorem join?_self (t : Ty) : t.join? t = some t := by
  simp [Ty.join?]

theorem equate?_of_sort_eq {l r : Expr} (h : l.sort = r.sort) :
    equate? l r = some (.app .eq [l, r]) := by
  have hjoin : l.sort.joinAll? (sorts [r]) = some l.sort := by
    simp [sorts, Ty.joinAll?, ← h, join?_self]
  have hcast : castAll l.sort [l, r] = .ok [l, r] := by
    simp [castAll, castTo, h]
    rfl
  rw [equate?, unify, hjoin]
  simp [hcast, Except.map, Except.toOption]

theorem mkEq?_of_sort_eq {l r : Expr} (h : l.sort = r.sort) :
    mkEq? l r = some (if l.yields r then .app .eq [r, l] else .app .eq [l, r]) := by
  rw [mkEq?]
  split
  · exact equate?_of_sort_eq h.symm
  · exact equate?_of_sort_eq h

theorem wellSorted_eq {l r : Expr} :
    (Expr.app .eq [l, r]).wellSorted = true ↔
      l.wellSorted = true ∧ r.wellSorted = true ∧ l.sort = r.sort := by
  simp [wellSorted, wellSortedList, sorts, Op.accepts, and_assoc]

theorem wellSorted_implies {a b : Expr} :
    (Expr.app .implies [a, b]).wellSorted = true ↔
      a.wellSorted = true ∧ b.wellSorted = true ∧ a.sort = .bool ∧ b.sort = .bool := by
  simp [wellSorted, wellSortedList, sorts, Op.accepts, and_assoc]

end Deduce.Expr
