import Deduce.Proofs.Term.Building
import Deduce.Proofs.Term.Nodes

/-!
# Rebuilding with arguments of the same sorts

A well-sorted application whose arguments are exchanged for others of the same sorts is rebuilt as
the operator applied to these, without coercions (`Expr.withArgs_of_sorts_eq`).  An operator that
takes any number of operands has to have more than one, since a single operand stands for itself.
-/

namespace Deduce

/-- An operator that is rebuilt over any number of operands. -/
def Op.isVariadic : Op → Bool
  | .add | .mul | .and | .or | .distinct => true
  | _ => false

namespace Expr

variable {t : Ty} {op : Op} {as bs es : List Expr}

/-! ### No coercions -/

theorem castEach_sorts (es : List Expr) : castEach (sorts es) es = .ok es := by
  induction es with
  | nil => rfl
  | cons e es ih =>
    have he : castTo e.sort e = .ok e := if_pos rfl
    rw [sorts, castEach, he, ih]
    rfl

theorem buildBool_of_sort_eq (op : Op) (hne : es ≠ []) (h : ∀ e ∈ es, e.sort = .bool) :
    buildBool op es = .ok (.app op es) := by
  rw [buildBool, unify_of_sort_eq hne h]
  rfl

theorem buildDistinct_of_sort_eq (hne : es ≠ []) (h : ∀ e ∈ es, e.sort = t) :
    buildDistinct es = .ok (.app .distinct es) := by
  rw [buildDistinct, unify_of_sort_eq hne h]
  rfl

theorem buildNary_of_ne_singleton {build : List Expr → Except Misfit Expr} (hne : es ≠ [])
    (hlone : es.length ≠ 1) : buildNary op build es = build es := by
  match es with
  | [] => exact absurd rfl hne
  | [e] => exact absurd rfl hlone
  | _ :: _ :: _ => rfl

theorem sort_of_sorts_eq (hsorts : sorts bs = sorts as) (has : ∀ a ∈ as, a.sort = t) :
    ∀ b ∈ bs, b.sort = t := by
  intro b hb
  have hmem : b.sort ∈ as.map sort := by
    rw [← sorts_eq_map, ← hsorts, sorts_eq_map]
    exact List.mem_map_of_mem hb
  obtain ⟨a, ha, hab⟩ := List.mem_map.1 hmem
  rw [← hab, has a ha]

/-! ### One node -/

theorem sort_of_wellSorted_connective (hop : op = .and ∨ op = .or)
    (h : (app op as).wellSorted = true) : ∀ a ∈ as, a.sort = .bool := by
  have haccepts : op.accepts (sorts as) = (sorts as).all (· = .bool) := by
    rcases hop with rfl | rfl <;> rfl
  rw [wellSorted, haccepts, sorts_eq_map, Bool.and_eq_true] at h
  simpa using h.2

theorem sort_of_wellSorted_distinct (h : (app .distinct as).wellSorted = true) :
    ∃ t, ∀ a ∈ as, a.sort = t := by
  rw [wellSorted, Bool.and_eq_true] at h
  cases as with
  | nil => cases h.2
  | cons a as => exact ⟨a.sort, by simpa [sorts, sorts_eq_map, Op.accepts] using h.2⟩

theorem withArgs_of_isVariadic (hop : op.isVariadic = true) (hne : bs ≠ [])
    (hlone : bs.length ≠ 1) (has : as ≠ []) (h : (app op as).wellSorted = true)
    (hsorts : sorts bs = sorts as) : (app op as).withArgs bs = .ok (.app op bs) := by
  obtain ⟨a, as, rfl⟩ := List.exists_cons_of_ne_nil has
  cases op with
  | add | mul =>
    obtain ⟨-, -, t, ht, hsort⟩ := (wellSorted_arith (by simp)).1 h
    rw [withArgs, buildNary_of_ne_singleton hne hlone]
    exact buildArith_of_sort_eq _ ht hne (sort_of_sorts_eq hsorts hsort)
  | and | or =>
    have hsort := sort_of_wellSorted_connective (by simp) h
    rw [withArgs, buildNary_of_ne_singleton hne hlone]
    exact buildBool_of_sort_eq _ hne (sort_of_sorts_eq hsorts hsort)
  | distinct =>
    obtain ⟨t, hsort⟩ := sort_of_wellSorted_distinct h
    rw [withArgs, buildNary_of_ne_singleton hne hlone]
    exact buildDistinct_of_sort_eq hne (sort_of_sorts_eq hsorts hsort)
  | _ => cases hop

theorem withArgs_of_not_isVariadic (hop : op.isVariadic = false) (has : as ≠ []) :
    (app op as).withArgs bs = (castEach (domain op as) bs).map (.app op) := by
  obtain ⟨a, as, rfl⟩ := List.exists_cons_of_ne_nil has
  cases op <;> cases hop <;> rfl

/-- Arguments of the sorts of the old ones take their places as they are. -/
theorem withArgs_of_sorts_eq (h : (app op as).wellSorted = true)
    (hlone : op.isVariadic = true → as.length ≠ 1) (hsorts : sorts bs = sorts as) :
    (app op as).withArgs bs = .ok (.app op bs) := by
  have hlength : bs.length = as.length := by
    simpa [sorts_eq_map] using congrArg List.length hsorts
  cases as with
  | nil =>
    rw [List.length_eq_zero_iff.1 hlength]
    rfl
  | cons a as =>
    have hne : bs ≠ [] := List.ne_nil_of_length_pos (by simp [hlength])
    cases hop : op.isVariadic with
    | true =>
      exact withArgs_of_isVariadic hop hne (hlength ▸ hlone hop) (List.cons_ne_nil _ _) h hsorts
    | false =>
      rw [withArgs_of_not_isVariadic hop (List.cons_ne_nil _ _), domain_of_wellSorted h, ← hsorts,
        castEach_sorts]
      rfl

/-! ### Single operands -/

/-- A node to which an operator of any number of operands gives a single one. -/
def isLone : Expr → Bool
  | .app op [_] => op.isVariadic
  | _ => false

theorem isLone_eq_false_iff :
    (app op as).isLone = false ↔ (op.isVariadic = true → as.length ≠ 1) := by
  match as with
  | [] => simp [isLone]
  | [_] => simp [isLone]
  | _ :: _ :: _ => simp [isLone]

end Expr

end Deduce
