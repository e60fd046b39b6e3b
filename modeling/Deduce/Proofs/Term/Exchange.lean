import Deduce.Proofs.Term.Rebuilding
import Deduce.Term.Pattern

/-!
# Exchanging nodes

`Expr.exchange` puts a term in the place of the outermost nodes that meet a condition
(`Expr.outermost`) and leaves all else as it is, except that an operator of any number of operands
is left out over a single one (`Expr.reapply`).  It does not look at sorts and so makes no
coercions: an application in the result comes from the new term, or it is an application of the old
one with what became of its operands (`Expr.mem_nodes_exchange`).

Where the nodes are of the sort of the new term (`Expr.Exchangeable`), this is how nodes are replaced
(`Expr.Exchangeable.replaceWhere_eq`), and the result is well sorted and of the sort of the term.
The statement that a single term is distinct has to be excluded: it is a statement, but its operand
need not be.

Where no node meets the condition, single operands still take the places of their operators
(`Expr.collapse`); if there are none, the term is left as it is (`Expr.collapse_eq_self_iff`).  Where
the nodes are those equal to a given one, and neither single operands nor quantified terms occur,
exchanging them is replacement (`Expr.replaceWhere_eq_replace`).
-/

namespace Deduce.Expr

variable {hit : Expr → Bool} {new e n : Expr} {op : Op} {as bs : List Expr}

/-! ### Definitions -/

/-- An operator over operands as they are; over a single one, an operator of any number of operands
is left out. -/
def reapply (op : Op) (bs : List Expr) : Expr :=
  if op.isVariadic then combine op bs else .app op bs

mutual

/-- The outermost nodes that meet a condition. -/
def outermost (hit : Expr → Bool) : Expr → List Expr
  | .app op as => if hit (.app op as) then [.app op as] else outermostList hit as
  | e => if hit e then [e] else []

/-- The outermost nodes of the terms of a list. -/
def outermostList (hit : Expr → Bool) : List Expr → List Expr
  | [] => []
  | a :: as => outermost hit a ++ outermostList hit as

end

mutual

/-- Puts `new` in the place of every outermost node that meets a condition. -/
def exchange (hit : Expr → Bool) (new : Expr) : Expr → Expr
  | .app op as => if hit (.app op as) then new else reapply op (exchangeList hit new as)
  | e => if hit e then new else e

/-- `exchange` in every term of a list. -/
def exchangeList (hit : Expr → Bool) (new : Expr) : List Expr → List Expr
  | [] => []
  | a :: as => exchange hit new a :: exchangeList hit new as

end

mutual

/-- Leaves out the operators of any number of operands that have a single one. -/
def collapse : Expr → Expr
  | .app op as => reapply op (collapseList as)
  | e => e

/-- `collapse` for every term of a list. -/
def collapseList : List Expr → List Expr
  | [] => []
  | a :: as => collapse a :: collapseList as

end

/-- The statement that a single term is distinct. -/
def isLoneDistinct : Expr → Bool
  | .app .distinct [_] => true
  | _ => false

theorem exchangeList_eq_map (hit : Expr → Bool) (new : Expr) (as : List Expr) :
    exchangeList hit new as = as.map (exchange hit new) := by
  induction as with
  | nil => rfl
  | cons a as ih => simp [exchangeList, ih]

theorem collapseList_eq_map (as : List Expr) : collapseList as = as.map collapse := by
  induction as with
  | nil => rfl
  | cons a as ih => simp [collapseList, ih]

theorem replaceWhereList_of_ok {hit : Expr → Bool} {new : Expr} {f : Expr → Expr}
    (h : ∀ a ∈ as, replaceWhere hit new a = .ok (f a)) :
    replaceWhereList hit new as = .ok (as.map f) := by
  induction as with
  | nil => rfl
  | cons a as ih =>
    rw [replaceWhereList, h a List.mem_cons_self, ih fun b hb => h b (List.mem_cons_of_mem _ hb)]
    rfl

theorem mem_outermostList : n ∈ outermostList hit as ↔ ∃ a ∈ as, n ∈ a.outermost hit := by
  induction as with
  | nil => simp [outermostList]
  | cons a as ih => simp [outermostList, ih]

theorem mem_nodes_of_mem_outermost (h : n ∈ e.outermost hit) : n ∈ e.nodes ∧ hit n = true := by
  induction e using Expr.induction with
  | var | int | real | truth | bound | quant =>
    simp only [outermost] at h
    split at h
    · simp_all [nodes]
    · cases h
  | app op as ih =>
    rw [outermost] at h
    split at h
    · obtain rfl := List.mem_singleton.1 h
      exact ⟨mem_nodes_self _, ‹_›⟩
    · obtain ⟨a, ha, hn⟩ := mem_outermostList.1 h
      exact (ih a ha hn).imp_left fun hn => mem_nodes_arg ha hn

/-! ### One node -/

theorem not_isLoneDistinct (h : e.isLone = false) : e.isLoneDistinct = false := by
  unfold isLoneDistinct
  split
  · cases h
  · rfl

theorem reapply_of_not_lone (h : op.isVariadic = true → bs.length ≠ 1) :
    reapply op bs = .app op bs := by
  unfold reapply
  split
  · rename_i hop
    refine combine_of_ne_singleton ?_
    rintro b rfl
    exact h hop rfl
  · rfl

theorem reapply_singleton (hop : op.isVariadic = true) (b : Expr) : reapply op [b] = b := by
  rw [reapply, if_pos hop, combine]

/-- Either the operator is left out over its single operand, or it stays. -/
theorem reapply_cases (op : Op) (bs : List Expr) :
    (∃ b, op.isVariadic = true ∧ bs = [b] ∧ reapply op bs = b) ∨
      (op.isVariadic = true → bs.length ≠ 1) ∧ reapply op bs = .app op bs := by
  by_cases h : op.isVariadic = true ∧ bs.length = 1
  · obtain ⟨b, rfl⟩ := List.length_eq_one_iff.1 h.2
    exact .inl ⟨b, h.1, rfl, reapply_singleton h.1 b⟩
  · have hnot : op.isVariadic = true → bs.length ≠ 1 := not_and.1 h
    exact .inr ⟨hnot, reapply_of_not_lone hnot⟩

theorem withArgs_eq_reapply (h : (app op as).wellSorted = true) (hsorts : sorts bs = sorts as) :
    (app op as).withArgs bs = .ok (reapply op bs) := by
  have hlength : bs.length = as.length := by
    simpa [sorts_eq_map] using congrArg List.length hsorts
  obtain ⟨b, hop, rfl, hb⟩ | ⟨hnot, hb⟩ := reapply_cases op bs
  · obtain ⟨a, rfl⟩ := List.length_eq_one_iff.1 hlength.symm
    rw [hb]
    cases op <;> first | rfl | cases hop
  · rw [hb]
    exact withArgs_of_sorts_eq h (hlength ▸ hnot) hsorts

theorem sort_reapply (h : (app op as).wellSorted = true)
    (hdistinct : (app op as).isLoneDistinct = false) (hsorts : sorts bs = sorts as) :
    (reapply op bs).sort = (app op as).sort := by
  have hlength : bs.length = as.length := by
    simpa [sorts_eq_map] using congrArg List.length hsorts
  obtain ⟨b, hop, rfl, hb⟩ | ⟨-, hb⟩ := reapply_cases op bs
  · obtain ⟨a, rfl⟩ := List.length_eq_one_iff.1 hlength.symm
    have hsort : b.sort = a.sort := by simpa [sorts] using hsorts
    rw [hb, hsort]
    cases op with
    | add | mul => rfl
    | and | or => exact sort_of_wellSorted_connective (by simp) h a List.mem_cons_self
    | distinct => cases hdistinct
    | _ => cases hop
  · rw [hb, sort, sort, hsorts]

theorem wellSorted_reapply (h : (app op as).wellSorted = true) (hsorts : sorts bs = sorts as)
    (hbs : ∀ b ∈ bs, b.wellSorted = true) : (reapply op bs).wellSorted = true := by
  obtain ⟨b, -, rfl, hb⟩ | ⟨-, hb⟩ := reapply_cases op bs
  · rw [hb]
    exact hbs b List.mem_cons_self
  · rw [wellSorted, Bool.and_eq_true] at h
    simpa [hb, wellSorted, wellSortedList_eq_all, hsorts, h.2] using hbs

/-! ### Exchanging nodes of the sort of the new term -/

/-- The outermost nodes that meet a condition are of the sort of the new term, and no operator that
has a single operand is needed for its sort. -/
structure Exchangeable (hit : Expr → Bool) (new e : Expr) : Prop where
  wellSorted : e.wellSorted = true
  not_lone_distinct : ∀ n ∈ e.nodes, n.isLoneDistinct = false
  sort_eq : ∀ n ∈ e.outermost hit, n.sort = new.sort

namespace Exchangeable

theorem sort_root (h : Exchangeable hit new e) (hroot : hit e = true) : e.sort = new.sort := by
  refine h.sort_eq e ?_
  cases e <;> simp [outermost, hroot]

theorem arg (h : Exchangeable hit new (.app op as)) (hroot : ¬ hit (.app op as) = true) {a : Expr}
    (ha : a ∈ as) : Exchangeable hit new a where
  wellSorted := wellSorted_of_mem_args h.wellSorted ha
  not_lone_distinct n hn := h.not_lone_distinct n (mem_nodes_arg ha hn)
  sort_eq n hn := by
    refine h.sort_eq n ?_
    rw [outermost, if_neg hroot]
    exact mem_outermostList.2 ⟨a, ha, hn⟩

theorem sort_exchange (h : Exchangeable hit new e) : (exchange hit new e).sort = e.sort := by
  induction e using Expr.induction with
  | var | int | real | truth | bound | quant =>
    simp only [exchange]
    split
    · exact (h.sort_root ‹_›).symm
    · rfl
  | app op as ih =>
    rw [exchange]
    split
    · exact (h.sort_root ‹_›).symm
    · rename_i hroot
      have hargs : ∀ a ∈ as, (exchange hit new a).sort = a.sort :=
        fun a ha => ih a ha (h.arg hroot ha)
      rw [exchangeList_eq_map]
      exact sort_reapply h.wellSorted (h.not_lone_distinct _ (mem_nodes_self _)) (sorts_map hargs)

theorem sorts_exchange (h : Exchangeable hit new (.app op as))
    (hroot : ¬ hit (.app op as) = true) : sorts (as.map (exchange hit new)) = sorts as :=
  sorts_map fun _ ha => (h.arg hroot ha).sort_exchange

theorem wellSorted_exchange (h : Exchangeable hit new e) (hnew : new.wellSorted = true) :
    (exchange hit new e).wellSorted = true := by
  induction e using Expr.induction with
  | var | int | real | truth | bound | quant =>
    simp only [exchange]
    split
    · exact hnew
    · exact h.wellSorted
  | app op as ih =>
    rw [exchange]
    split
    · exact hnew
    · rename_i hroot
      rw [exchangeList_eq_map]
      refine wellSorted_reapply h.wellSorted (h.sorts_exchange hroot) ?_
      intro b hb
      obtain ⟨a, ha, rfl⟩ := List.mem_map.1 hb
      exact ih a ha (h.arg hroot ha)

/-- Nodes are replaced without failure and without coercions. -/
theorem replaceWhere_eq (h : Exchangeable hit new e) :
    replaceWhere hit new e = .ok (exchange hit new e) := by
  induction e using Expr.induction with
  | var | int | real | truth | bound | quant =>
    simp only [replaceWhere, exchange]
    split <;> rfl
  | app op as ih =>
    rw [replaceWhere, exchange]
    split
    · rfl
    · rename_i hroot
      have hargs : ∀ a ∈ as, replaceWhere hit new a = .ok (exchange hit new a) :=
        fun a ha => ih a ha (h.arg hroot ha)
      rw [replaceWhereList_of_ok hargs, exchangeList_eq_map]
      exact withArgs_eq_reapply h.wellSorted (h.sorts_exchange hroot)

end Exchangeable

/-- Every application in the result comes from the new term, or is one of the old term with what
became of its operands. -/
theorem mem_nodes_exchange {e : Expr} (h : .app op bs ∈ (exchange hit new e).nodes) :
    .app op bs ∈ new.nodes ∨ ∃ as, .app op as ∈ e.nodes ∧ bs = as.map (exchange hit new) := by
  induction e using Expr.induction with
  | var | int | real | truth | bound | quant =>
    simp only [exchange] at h
    split at h
    · exact .inl h
    · simp [nodes] at h
  | app f as ih =>
    have hargs : ∀ b ∈ as.map (exchange hit new), .app op bs ∈ b.nodes →
        .app op bs ∈ new.nodes ∨
          ∃ cs, .app op cs ∈ (app f as).nodes ∧ bs = cs.map (exchange hit new) := by
      intro b hb hmem
      obtain ⟨a, ha, rfl⟩ := List.mem_map.1 hb
      refine (ih a ha hmem).imp_right ?_
      rintro ⟨cs, hcs, rfl⟩
      exact ⟨cs, mem_nodes_arg ha hcs, rfl⟩
    rw [exchange] at h
    split at h
    · exact .inl h
    · rw [exchangeList_eq_map] at h
      obtain ⟨b, -, hb, heq⟩ | ⟨-, heq⟩ := reapply_cases f (as.map (exchange hit new))
      · rw [heq] at h
        exact hargs b (by simp [hb]) h
      · rw [heq] at h
        rcases mem_nodes_app.1 h with hroot | ⟨b, hb, hmem⟩
        · obtain ⟨rfl, rfl⟩ := app.inj hroot
          exact .inr ⟨as, mem_nodes_self _, rfl⟩
        · exact hargs b hb hmem

/-! ### No nodes to exchange -/

theorem exchange_of_no_hit (h : ∀ n ∈ e.nodes, hit n = false) :
    exchange hit new e = collapse e := by
  induction e using Expr.induction with
  | var | int | real | truth | bound | quant =>
    simp [exchange, collapse, h _ (mem_nodes_self _)]
  | app op as ih =>
    have hargs : ∀ a ∈ as, exchange hit new a = collapse a :=
      fun a ha => ih a ha fun n hn => h n (mem_nodes_arg ha hn)
    rw [exchange, collapse, exchangeList_eq_map, collapseList_eq_map, List.map_congr_left hargs]
    simp [h _ (mem_nodes_self _)]

theorem outermost_of_no_hit (h : ∀ n ∈ e.nodes, hit n = false) : e.outermost hit = [] := by
  refine List.eq_nil_iff_forall_not_mem.2 ?_
  intro n hn
  obtain ⟨hmem, hhit⟩ := mem_nodes_of_mem_outermost hn
  simp [h n hmem] at hhit

theorem size_collapse_le (e : Expr) : e.collapse.size ≤ e.size := by
  induction e using Expr.induction with
  | var | int | real | truth | bound | quant => exact Nat.le_refl _
  | app op as ih =>
    have hlist : sizeList (as.map collapse) ≤ sizeList as := by
      induction as with
      | nil => exact Nat.le_refl _
      | cons a as ihs =>
        have ha := ih a List.mem_cons_self
        have has := ihs fun b hb => ih b (List.mem_cons_of_mem a hb)
        simp only [List.map_cons, sizeList]
        omega
    rw [collapse, collapseList_eq_map]
    obtain ⟨b, -, hb, heq⟩ | ⟨-, heq⟩ := reapply_cases op (as.map collapse)
    · rw [heq]
      simp only [hb, sizeList] at hlist
      simp only [size]
      omega
    · simp only [heq, size]
      omega

/-- A term stays as it is if and only if no operator of any number of operands has a single one. -/
theorem collapse_eq_self_iff : e.collapse = e ↔ ∀ n ∈ e.nodes, n.isLone = false := by
  induction e using Expr.induction with
  | var | int | real | truth | bound | quant => simp [collapse, nodes, isLone]
  | app op as ih =>
    rw [collapse, collapseList_eq_map]
    constructor
    · intro h
      obtain ⟨b, -, hb, heq⟩ | ⟨hnot, heq⟩ := reapply_cases op (as.map collapse)
      · -- the operand would have to be as large as the whole term
        obtain ⟨a, rfl⟩ : ∃ a, as = [a] := by
          rw [← List.length_eq_one_iff]
          simpa using congrArg List.length hb
        obtain rfl : a.collapse = b := by simpa using hb
        have hle := size_collapse_le a
        rw [heq.symm.trans h] at hle
        simp only [size, sizeList] at hle
        omega
      · have hargs : ∀ a ∈ as, a.collapse = id a :=
          List.map_inj_left.1 ((app.inj (heq.symm.trans h)).2.trans as.map_id.symm)
        intro n hn
        rcases mem_nodes_app.1 hn with rfl | ⟨a, ha, hna⟩
        · exact isLone_eq_false_iff.2 (by simpa using hnot)
        · exact (ih a ha).1 (hargs a ha) n hna
    · intro h
      have hargs : ∀ a ∈ as, a.collapse = id a :=
        fun a ha => (ih a ha).2 fun n hn => h n (mem_nodes_arg ha hn)
      rw [List.map_congr_left hargs, List.map_id]
      exact reapply_of_not_lone (isLone_eq_false_iff.1 (h _ (mem_nodes_self _)))

/-! ### Replacement -/

theorem exchange_eq_replace {old : Expr} (hhit : ∀ n ∈ e.nodes, hit n = true ↔ n = old)
    (hquant : ∀ n ∈ e.nodes, n.isQuantified = false) (hlone : ∀ n ∈ e.nodes, n.isLone = false) :
    exchange hit new e = replace old new e := by
  induction e using Expr.induction with
  | var | int | real | truth | bound =>
    simp only [exchange, replace, hhit _ (mem_nodes_self _)]
  | quant q bs body => cases hquant _ (mem_nodes_self _)
  | app op as ih =>
    have hargs : ∀ a ∈ as, exchange hit new a = replace old new a := by
      intro a ha
      have hsub : ∀ n ∈ a.nodes, n ∈ (app op as).nodes :=
        fun n hn => mem_nodes_arg ha hn
      exact ih a ha (fun n hn => hhit n (hsub n hn)) (fun n hn => hquant n (hsub n hn))
        fun n hn => hlone n (hsub n hn)
    have hnot := isLone_eq_false_iff.1 (hlone _ (mem_nodes_self _))
    rw [exchange, replace, exchangeList_eq_map, replaceList_eq_map, List.map_congr_left hargs,
      reapply_of_not_lone (by simpa using hnot)]
    simp only [hhit _ (mem_nodes_self _)]

/-- Exchanging the nodes equal to a given one for a term of its sort is replacement, where
quantified terms and operators with a single operand do not occur. -/
theorem replaceWhere_eq_replace {old : Expr} (hhit : ∀ n ∈ e.nodes, hit n = true ↔ n = old)
    (hsort : old.sort = new.sort) (he : e.wellSorted = true)
    (hquant : ∀ n ∈ e.nodes, n.isQuantified = false) (hlone : ∀ n ∈ e.nodes, n.isLone = false) :
    replaceWhere hit new e = .ok (replace old new e) := by
  have hexchangeable : Exchangeable hit new e := by
    refine ⟨he, fun n hn => not_isLoneDistinct (hlone n hn), ?_⟩
    intro n hn
    obtain ⟨hmem, hfound⟩ := mem_nodes_of_mem_outermost hn
    rw [(hhit n hmem).1 hfound, hsort]
  rw [hexchangeable.replaceWhere_eq, exchange_eq_replace hhit hquant hlone]

end Deduce.Expr
