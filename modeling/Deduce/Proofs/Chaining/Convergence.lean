import Deduce.Proofs.Chaining.Fixpoint
import Deduce.Proofs.Rule.Canonical
import Deduce.Proofs.Term.Nodes
import Deduce.Proofs.Term.Sorting
import Mathlib.Data.List.Perm.Subperm
import Mathlib.Data.List.ProdSigma

/-!
# Forward chaining without substitution comes to an end

Modus ponens takes an implication apart, transitivity puts two together and symmetry exchanges the
sides of an equation.  Transitivity makes terms that occur nowhere among the facts, but it makes
them of parts that do: whatever is found is a node of a fact, an implication between two such nodes
or an equation between two of one sort (`horizon`).  This list is finite, and the three rules do not
lead out of it (`derive_mem_horizon`), so no run finds more terms than it has members, and a run
that is allowed more rounds than that has one that finds nothing (`saturate_converges`).

Substitution is left out for a reason: from `x = f x` it finds ever larger terms.
-/

namespace Deduce

variable {kb known : List Expr} {probe e : Expr}

/-! ### The horizon of the facts -/

/-- All nodes of a list of facts. -/
def nodesOf (kb : List Expr) : List Expr := kb.flatMap Expr.nodes

/-- The terms that the facts lead to without substitution: their nodes, the implications between
these, and the equations between those of one sort. -/
def horizon (kb : List Expr) : List Expr :=
  nodesOf kb ++
    ((nodesOf kb ×ˢ nodesOf kb).map fun p => .app .implies [p.1, p.2]) ++
    ((nodesOf kb ×ˢ nodesOf kb).filter fun p => p.1.sort = p.2.sort).map fun p => .app .eq [p.1, p.2]

theorem mem_nodesOf : e ∈ nodesOf kb ↔ ∃ f ∈ kb, e ∈ f.nodes := List.mem_flatMap

theorem mem_horizon :
    e ∈ horizon kb ↔ e ∈ nodesOf kb ∨
      (∃ a b, a ∈ nodesOf kb ∧ b ∈ nodesOf kb ∧ e = .app .implies [a, b]) ∨
      ∃ l r, l ∈ nodesOf kb ∧ r ∈ nodesOf kb ∧ l.sort = r.sort ∧ e = .app .eq [l, r] := by
  simp only [horizon, List.mem_append, List.mem_map, List.mem_filter, List.mem_product,
    decide_eq_true_eq, Prod.exists, or_assoc, and_assoc, eq_comm (a := e)]

theorem subset_horizon : kb ⊆ horizon kb := fun f hf =>
  mem_horizon.2 (.inl (mem_nodesOf.2 ⟨f, hf, f.mem_nodes_self⟩))

theorem arg_mem_nodesOf {op : Op} {as : List Expr} {a : Expr} (h : .app op as ∈ nodesOf kb)
    (ha : a ∈ as) : a ∈ nodesOf kb := by
  obtain ⟨f, hf, hnode⟩ := mem_nodesOf.1 h
  exact mem_nodesOf.2 ⟨f, hf, Expr.mem_nodes_trans (Expr.mem_nodes_of_mem_args ha) hnode⟩

theorem implication_mem_horizon {a b : Expr} :
    .app .implies [a, b] ∈ horizon kb ↔ a ∈ nodesOf kb ∧ b ∈ nodesOf kb := by
  constructor
  · intro h
    -- it may be a node itself, or made of two
    rcases mem_horizon.1 h with h | ⟨a', b', ha, hb, heq⟩ | ⟨l, r, -, -, -, heq⟩
    · exact ⟨arg_mem_nodesOf h (by simp), arg_mem_nodesOf h (by simp)⟩
    · cases heq
      exact ⟨ha, hb⟩
    · cases heq
  · rintro ⟨ha, hb⟩
    exact mem_horizon.2 (.inr (.inl ⟨a, b, ha, hb, rfl⟩))

/-- The sides of an equation are of one sort, because those of an equation in the facts are. -/
theorem equation_mem_horizon (hsorted : ∀ f ∈ kb, f.wellSorted = true) {l r : Expr} :
    .app .eq [l, r] ∈ horizon kb ↔ l ∈ nodesOf kb ∧ r ∈ nodesOf kb ∧ l.sort = r.sort := by
  constructor
  · intro h
    rcases mem_horizon.1 h with h | ⟨a, b, -, -, heq⟩ | ⟨l', r', hl, hr, hsort, heq⟩
    · obtain ⟨f, hf, hnode⟩ := mem_nodesOf.1 h
      have hwell := Expr.wellSorted_of_mem_nodes (hsorted f hf) hnode
      exact ⟨arg_mem_nodesOf h (by simp), arg_mem_nodesOf h (by simp),
        (Expr.wellSorted_eq.1 hwell).2.2⟩
    · cases heq
    · cases heq
      exact ⟨hl, hr, hsort⟩
  · rintro ⟨hl, hr, hsort⟩
    exact mem_horizon.2 (.inr (.inr ⟨l, r, hl, hr, hsort, rfl⟩))

/-! ### The three rules -/

theorem modusPonens_mem_horizon (hknown : ∀ f ∈ known, f ∈ horizon kb)
    (h : modusPonens known probe = some e) : e ∈ horizon kb := by
  have himp := hknown _ (modusPonens_eq_some h)
  exact mem_horizon.2 (.inl (implication_mem_horizon.1 himp).2)

theorem transitivity_mem_horizon (hknown : ∀ f ∈ known, f ∈ horizon kb)
    (h : transitivity known = some e) : e ∈ horizon kb := by
  obtain ⟨a, b, c, hab, hbc, rfl⟩ := transitivity_eq_some h
  have ha := (implication_mem_horizon.1 (hknown _ hab)).1
  have hc := (implication_mem_horizon.1 (hknown _ hbc)).2
  exact implication_mem_horizon.2 ⟨ha, hc⟩

theorem symmetry_mem_horizon (hsorted : ∀ f ∈ kb, f.wellSorted = true)
    (hknown : ∀ f ∈ known, f ∈ horizon kb) (h : symmetry known = some e) : e ∈ horizon kb := by
  obtain ⟨l, r, hlr, hmk⟩ := symmetry_eq_some h
  obtain ⟨hl, hr, hsort⟩ := (equation_mem_horizon hsorted).1 (hknown _ hlr)
  -- without coercions the new equation has the sides of the old one, in one order or the other
  rw [Expr.mkEq?_of_sort_eq hsort.symm] at hmk
  obtain rfl := Option.some.inj hmk
  split
  · exact (equation_mem_horizon hsorted).2 ⟨hl, hr, hsort⟩
  · exact (equation_mem_horizon hsorted).2 ⟨hr, hl, hsort.symm⟩

/-- The rules other than substitution do not lead beyond the horizon. -/
theorem derive_mem_horizon (hsorted : ∀ f ∈ kb, f.wellSorted = true) {c : Canonical}
    (hc : c ≠ .substitution) (hknown : ∀ f ∈ known, f ∈ horizon kb)
    (h : c.derive known probe = some e) : e ∈ horizon kb := by
  cases c with
  | modusPonens => exact modusPonens_mem_horizon hknown h
  | transitivity => exact transitivity_mem_horizon hknown h
  | symmetry => exact symmetry_mem_horizon hsorted hknown h
  | substitution => exact absurd rfl hc

/-! ### Runs -/

theorem nodup_chained (rules : List Rule) (n : ℕ) (known : List Expr) :
    (chained rules n known).Nodup := by
  rw [← facts_saturation]
  exact (trace_rounds rules n 1 known).nodup

section Runs

variable {rules : List Rule}
  (hrules : ∀ r ∈ rules, ∃ c : Canonical, c ≠ .substitution ∧ r.run = c.run)
  (hsorted : ∀ f ∈ kb, f.wellSorted = true)

include hrules hsorted

theorem length_chained_le (n : ℕ) : (chained rules n kb).length ≤ (horizon kb).length := by
  have hsub : chained rules n kb ⊆ horizon kb := by
    refine forall_mem_chained (P := (· ∈ horizon kb)) ?_ n fun f hf => subset_horizon hf
    intro known hknown f hf r hr e happly
    obtain ⟨c, hc, hrun⟩ := hrules r hr
    exact derive_mem_horizon hsorted hc hknown ((apply_eq_derived hrun).1 happly)
  exact (List.subperm_of_subset (nodup_chained rules n kb) hsub).length_le

/-- With more rounds than the horizon has members, one round finds nothing. -/
theorem exists_idle_round {n : ℕ} (hn : (horizon kb).length < n) :
    ∃ r ∈ rounds rules n 1 kb, r.facts = [] := by
  -- otherwise every round found something, and there were more rounds than terms to be found
  by_contra hnone
  push Not at hnone
  have hcount := le_length_chained_of_productive hnone
  have hbound := length_chained_le hrules hsorted n
  omega

end Runs

/-- **Forward chaining without substitution converges.**  If the rules are canonical ones other
than substitution, in any order and number, and the facts are well sorted, then from some bound on
no run warns, and all of them find the same. -/
theorem saturate_converges {g : Engine}
    (hrules : ∀ r ∈ g.rules, ∃ c : Canonical, c ≠ .substitution ∧ r.run = c.run)
    {kb : List Expr} (hsorted : ∀ f ∈ kb, f.wellSorted = true) :
    ∃ (N : ℕ) (found : List Expr), (g.saturate kb (.number N)).2.1 = .ok found ∧
      ∀ bound n, g.roundBound bound = .ok n → (N : Int) ≤ n →
        ¬ Warns (g.saturate kb bound).2.2 ∧ (g.saturate kb bound).2.1 = .ok found := by
  refine ⟨(horizon kb).length + 1, _, g.found_saturate_number kb _, fun bound n hn hle => ?_⟩
  have hidle {m : ℕ} (hm : (horizon kb).length < m) := exists_idle_round hrules hsorted hm
  constructor
  · rw [Engine.warns_saturate_iff hn (by omega)]
    intro hproductive
    obtain ⟨r, hr, hnil⟩ := hidle (m := n.toNat) (by omega)
    exact hproductive r hr hnil
  · have hclosed := closed_of_idle (hidle (Nat.lt_succ_self _))
    rw [Engine.found_saturate hn, hclosed.chained_eq (by omega)]

/-- The three rules out of order, symmetry twice, and each of the three finds something.  All is found
in three rounds, but a run of three warns; a run of four or more does not. -/
theorem saturate_converges_mixed :
    let g := Engine.new ([.transitivity, .symmetry, .modusPonens, .symmetry].map .ofCanonical)
      (.number 3)
    let p : Expr := .var "p" .bool
    let q : Expr := .var "q" .bool
    let x : Expr := .var "x" .int
    let kb : List Expr := [p, .app .implies [p, q], .app .implies [q, .app .eq [x, .int 1]]]
    (g.saturate kb (.number 3)).1.steps =
        [⟨1, p, "transitivity", .app .implies [p, .app .eq [x, .int 1]]⟩,
          ⟨1, p, "modus_ponens", q⟩, ⟨2, q, "modus_ponens", .app .eq [x, .int 1]⟩,
          ⟨3, p, "symmetry", .app .eq [.int 1, x]⟩] ∧
      Warns (g.saturate kb (.number 3)).2.2 ∧
      ∀ n : ℕ, 4 ≤ n →
        ¬ Warns (g.saturate kb (.number n)).2.2 ∧
          (g.saturate kb (.number n)).2.1 =
            .ok [.app .implies [p, .app .eq [x, .int 1]], q, .app .eq [x, .int 1],
              .app .eq [.int 1, x]] := by
  intro g p q x kb
  have hrules : ∀ r ∈ g.rules, ∃ c : Canonical, c ≠ .substitution ∧ r.run = c.run := by
    intro r hr
    obtain ⟨c, hc, rfl⟩ := List.mem_map.1 hr
    refine ⟨c, ?_, rfl⟩
    rintro rfl
    simp at hc
  have hsorted : ∀ f ∈ kb, f.wellSorted = true := by decide
  obtain ⟨N, found, -, hall⟩ := saturate_converges hrules hsorted
  have hbound (n : ℕ) : g.roundBound (.number n) = .ok n := rfl
  -- the fourth round finds nothing, so runs that may have more rounds are all the same
  have hidle : ∃ r ∈ rounds g.rules 4 1 kb, r.facts = [] := by decide
  have hrun (m : ℕ) : Saturation.run g.rules (m + 4) kb = Saturation.run g.rules 4 kb :=
    congrArg Saturation.mk (rounds_eq_of_idle hidle (Nat.le_add_left 4 m))
  refine ⟨by decide, (Engine.warns_saturate (hbound 3) kb).2 (by decide), fun n hn => ?_⟩
  obtain ⟨m, rfl⟩ := Nat.exists_eq_add_of_le' hn
  obtain ⟨hquiet, -⟩ := hall (.number (N + 4 : ℕ)) _ (hbound (N + 4)) (by omega)
  rw [Engine.warns_saturate (hbound _), Int.toNat_natCast, hrun] at hquiet ⊢
  refine ⟨hquiet, ?_⟩
  rw [Engine.found_saturate (hbound _), Int.toNat_natCast, ← facts_saturation, hrun]
  exact congrArg Except.ok (by decide)

end Deduce
