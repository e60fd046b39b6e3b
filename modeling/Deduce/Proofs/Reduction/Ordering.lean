import Deduce.Proofs.Reduction.NormalForm

/-!
# The order of the built-in reductions

Each built-in reduction changes applications of one operator only (`Optimization.root`), and no two
of them have that operator in common.  So at most one of them changes a given node
(`Optimization.eq_of_node?_eq_some`), and the first that does is the same one in every list of them
that leaves none out, in whatever order and however often it has them.  A run is then the same, step
by step, and so is what it reports (`order_of_optimizations_irrelevant`).
-/

namespace Deduce

variable {o o' : Optimization} {rs : List Reduction} {n m m' : Node} {e d : Expr}

/-! ### One operator each -/

namespace Optimization

/-- The operator whose applications a built-in reduction changes. -/
def root : Optimization → Op
  | .dropZeros => .add
  | .dropOnes => .mul
  | .cancelMinus => .neg

theorem root_injective (h : o.root = o'.root) : o = o' := by
  cases o <;> cases o' <;> simp_all [root]

/-- Applications of other operators are left as they are. -/
theorem onTerm_eq_self (o : Optimization) (h : ∀ as, e ≠ .app o.root as) :
    o.onTerm e = .ok e := by
  have hdrop {q : Rat} : dropNeutral o.root q e = .ok e := by
    unfold dropNeutral
    split
    · rename_i op as
      rw [if_neg]
      rintro rfl
      exact h as rfl
    · rfl
  cases o with
  | dropZeros => exact hdrop
  | dropOnes => exact hdrop
  | cancelMinus =>
    change Except.ok (Deduce.cancelMinus e) = _
    unfold Deduce.cancelMinus
    split
    · exact absurd rfl (h _)
    · rfl

theorem exists_root_of_node?_eq_some (h : (o.toReduction.apply n).node? = some m) :
    ∃ as, n = .term (.app o.root as) := by
  cases n with
  | sort s =>
    have hsame : (o.toReduction.apply (.sort s)).node? = none := by
      simp [Reduction.apply, toReduction, toFunction, run, Change.ofReturn, Node.ofValue?,
        Change.node?]
    rw [hsame] at h
    cases h
  | term e =>
    obtain ⟨d, -, hrewrites⟩ :=
      (plain_of_mem_optimizations o.mem_optimizations).node?_eq_some.1 h
    obtain ⟨hok, hne⟩ := rewrites_iff.1 hrewrites
    by_contra hroot
    rw [o.onTerm_eq_self fun as has => hroot ⟨as, by rw [has]⟩] at hok
    exact hne (Except.ok.inj hok).symm

/-- At most one of the built-in reductions changes a node. -/
theorem eq_of_node?_eq_some (h : (o.toReduction.apply n).node? = some m)
    (h' : (o'.toReduction.apply n).node? = some m') : o = o' := by
  obtain ⟨as, rfl⟩ := exists_root_of_node?_eq_some h
  obtain ⟨as', heq⟩ := exists_root_of_node?_eq_some h'
  obtain ⟨hroot, -⟩ := Expr.app.inj (Node.term.inj heq)
  exact root_injective hroot

end Optimization

/-! ### Lists of built-in reductions -/

/-- A list of the built-in reductions, in some order and under whatever names, which may repeat them
but leaves none out. -/
structure IsOptimizer (rs : List Reduction) : Prop where
  builtin : ∀ r ∈ rs, ∃ o : Optimization, r.toReductionFunction = o.toFunction
  complete : ∀ o : Optimization, ∃ r ∈ rs, r.toReductionFunction = o.toFunction

theorem isOptimizer_optimizations : IsOptimizer optimizations where
  builtin := by
    intro r hr
    obtain ⟨o, -, rfl⟩ := List.mem_map.1 hr
    exact ⟨o, rfl⟩
  complete o := ⟨_, o.mem_optimizations, rfl⟩

namespace IsOptimizer

theorem reduceOnce_eq_some_iff (hrs : IsOptimizer rs) :
    reduceOnce rs n = some m ↔ ∃ o : Optimization, (o.toReduction.apply n).node? = some m := by
  have happly {r : Reduction} {o : Optimization} (h : r.toReductionFunction = o.toFunction) :
      r.apply n = o.toReduction.apply n := by
    rw [Reduction.apply, h]
    rfl
  have hsome {m : Node} (h : reduceOnce rs n = some m) :
      ∃ o : Optimization, (o.toReduction.apply n).node? = some m := by
    obtain ⟨r, hr, hnode⟩ := List.exists_of_findSome?_eq_some h
    obtain ⟨o, ho⟩ := hrs.builtin r hr
    exact ⟨o, happly ho ▸ hnode⟩
  refine ⟨hsome, ?_⟩
  rintro ⟨o, ho⟩
  obtain ⟨r, hr, hro⟩ := hrs.complete o
  have hchanges : (reduceOnce rs n).isSome = true :=
    List.findSome?_isSome_iff.2 ⟨r, hr, by rw [happly hro, ho]; rfl⟩
  obtain ⟨m', hm'⟩ := Option.isSome_iff_exists.1 hchanges
  -- the first that changes the node is the only one
  obtain ⟨o', ho'⟩ := hsome hm'
  obtain rfl := Optimization.eq_of_node?_eq_some ho ho'
  rw [hm', ← ho', ho]

theorem reduceOnce_eq (hrs : IsOptimizer rs) (n : Node) :
    reduceOnce rs n = reduceOnce optimizations n := by
  ext m
  rw [hrs.reduceOnce_eq_some_iff, isOptimizer_optimizations.reduceOnce_eq_some_iff]

theorem log_eq_nil (hrs : IsOptimizer rs) {r : Reduction} (hr : r ∈ rs) (n : Node) :
    r.log n = [] := by
  obtain ⟨o, ho⟩ := hrs.builtin r hr
  rw [ho]
  rfl

end IsOptimizer

/-- **The order of the built-in reductions does not matter**, and neither does how often they are
repeated.  Within whatever bound, a list of them that leaves none out makes of a term what the
optimizer makes of it, and reports what the optimizer reports, so that both warn or neither does. -/
theorem order_of_optimizations_irrelevant (hrs : IsOptimizer rs) (b : Bound) (e : Expr) :
    reduceWithin b rs (.term e) = reduceWithin b optimizations (.term e) := by
  have hrun := reduce_congr hrs.reduceOnce_eq b.passes (.term e)
  have hlog := reduceLog_eq_nil (fun r hr n => hrs.log_eq_nil hr n) b.passes (.term e)
  have hlog' := reduceLog_eq_nil (fun r hr n => isOptimizer_optimizations.log_eq_nil hr n)
    b.passes (.term e)
  rw [reduceWithin, reduceWithin, hrun, hlog, hlog']

/-- In reverse, with one of them twice and under another name: seven passes over a double minus of a
sum with a zero of a product with a one end in the variable, and two passes are used up. -/
theorem order_of_optimizations_irrelevant_reversed :
    let x : Expr := .var "x" .int
    let product : Expr := .app .mul [x, .int 1]
    let e : Expr := .app .neg [.app .neg [.app .add [.int 0, product]]]
    let rs : List Reduction := [Optimization.cancelMinus.toReduction,
      Optimization.dropOnes.toReduction, Optimization.dropZeros.toReduction,
      ⟨Optimization.dropOnes.toFunction, "ones"⟩]
    IsOptimizer rs ∧ reduceWithin (.ofNat 7) rs (.term e) = (.ok (.term x), []) ∧
      reduceWithin (.ofNat 2) rs (.term e) = (.ok (.term product), [Bound.warning 2]) := by
  intro x product e rs
  have hrs : IsOptimizer rs := by
    constructor
    · simp [rs, Optimization.toReduction]
    · intro o
      cases o <;> simp [rs, Optimization.toReduction]
  refine ⟨hrs, ?_, ?_⟩
  · rw [order_of_optimizations_irrelevant hrs]
    rfl
  · rw [order_of_optimizations_irrelevant hrs]
    rfl

end Deduce
