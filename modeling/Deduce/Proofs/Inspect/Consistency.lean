import Deduce.Inspect.Profile
import Deduce.Inspect.Query
import Deduce.Proofs.Data.Attempts
import Deduce.Proofs.Term.Patterns

/-!
# The parts of a profile agree

The parts of a profile come from walks of their own: complexity, operators and patterns from
recursions over the term, variables from a stack of terms to be read.  They fit together, and they
fit what a search finds (`Expr.profile_consistent`).
-/

namespace Deduce.Expr

open Attempts

/-! ### What a search finds -/

/-- A search for a condition that never fails keeps the nodes that meet it. -/
theorem search_eq {q : Query} {p : Expr → Bool} (h : ∀ n, q.holds n = .ok (p n)) (e : Expr) :
    e.search q = .ok (e.nodes.filter p) := by
  have hwalk : ∀ ns found : List Expr,
      ns.filterAuxM q.holds found = .ok ((ns.filter p).reverse ++ found) := by
    intro ns
    induction ns with
    | nil => exact fun found => rfl
    | cons n ns ih =>
      intro found
      rw [List.filterAuxM, h n]
      refine (ih _).trans ?_
      cases hn : p n <;> simp [hn]
  rw [search, List.filterM, hwalk e.nodes []]
  change Except.ok _ = _
  rw [List.append_nil, List.reverse_reverse]

/-- Compound terms have operators, so asking all of them for theirs does not fail. -/
theorem mapM_operator (ns : List Expr) :
    (ns.filter isCompound).mapM operator = .ok (ns.filterMap operator?) := by
  rw [mapM_eq_ok_iff]
  induction ns with
  | nil => rfl
  | cons n ns ih =>
    have hn := n.operator?_isSome
    cases hop : n.operator? with
    | none =>
      rw [hop] at hn
      rw [List.filter_cons_of_neg (by simp [← hn]), List.filterMap_cons_none hop, ih]
    | some op =>
      rw [hop] at hn
      rw [List.filter_cons_of_pos hn.symm, List.filterMap_cons_some hop, List.map_cons,
        List.map_cons, ih, operator, hop]

theorem map_name_filterMap_operator? (ns : List Expr) :
    (ns.filterMap operator?).map Operator.name = ns.filterMap operatorName? :=
  List.map_filterMap

/-! ### Profiles -/

/-- **The parts of a profile agree.**  There is always a profile under the usual threshold.  In
every profile, under whatever threshold it was made, the complexity is the number of nodes that a
search for anything finds, plus the weights of the operators of those that a search for compound
terms finds; the operators are those of the compound patterns, each once, in the order of first
occurrence; and the variables are the patterns that are variables, unless the term has
quantifiers. -/
theorem profile_consistent (e : Expr) :
    (∃ p, e.profile .symmetry = .ok p) ∧
    ∀ t p, e.profile t = .ok p →
      (∃ found compound operators, e.search .all = .ok found ∧ e.search .compound = .ok compound ∧
        compound.mapM operator = .ok operators ∧
        p.complexity = found.length + (operators.map fun op => operatorWeight op.name).sum) ∧
      (∃ operators, (p.patterns.filter isCompound).mapM operator = .ok operators ∧
        p.operations = (operators.map Operator.name).eraseDups) ∧
      ((∀ n ∈ e.nodes, n.isQuantified = false) → p.vars = p.patterns.filter isVariable) := by
  refine ⟨⟨_, rfl⟩, fun t p hp => ?_⟩
  obtain ⟨hcomplexity, hpatterns, hvars, hoperations⟩ : p.complexity = e.complexity ∧
      p.patterns = e.patterns ∧ p.vars = e.freeVariables ∧ p.operations = e.operations := by
    unfold profile at hp
    cases hs : e.symmetries t with
    | error f =>
      rw [hs] at hp
      cases hp
    | ok symmetries =>
      rw [hs] at hp
      rw [← Except.ok.inj hp]
      exact ⟨rfl, rfl, rfl, rfl⟩
  refine ⟨⟨_, _, _, search_eq (fun _ => rfl) e, search_eq (fun _ => rfl) e, mapM_operator _, ?_⟩,
    ⟨_, mapM_operator _, ?_⟩, fun hquant => ?_⟩
  · rw [hcomplexity, complexity_eq, List.filter_eq_self.2 fun _ _ => rfl,
      ← map_name_filterMap_operator?, List.map_map]
    rfl
  · rw [hoperations, hpatterns, operations_eq_patterns, map_name_filterMap_operator?]
  · rw [hvars, hpatterns, freeVariables_eq_filter_patterns hquant]

/-- A product of a sum of three terms with one of them: the pairs of neighbours of the sum are
patterns that are no nodes, and one of the variables occurs twice. -/
theorem profile_consistent_product :
    let x : Expr := .var "x" .int
    let y : Expr := .var "y" .int
    let e : Expr := .app .mul [.app .add [x, .app .neg [y], x], x]
    ∃ p, e.profile .symmetry = .ok p ∧ p.complexity = 10 ∧ p.operations = ["*", "+", "-"] ∧
      p.patterns = [e, .app .add [x, .app .neg [y], x], x, .app .neg [y], y,
        .app .add [x, .app .neg [y]], .app .add [.app .neg [y], x]] ∧
      p.vars = p.patterns.filter isVariable := by
  intro x y e
  obtain ⟨⟨p, hp⟩, hparts⟩ := profile_consistent e
  have hvars := (hparts _ p hp).2.2 (by decide)
  obtain rfl := Except.ok.inj hp
  exact ⟨_, rfl, rfl, rfl, rfl, hvars⟩

end Deduce.Expr
