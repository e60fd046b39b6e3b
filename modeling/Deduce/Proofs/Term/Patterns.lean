import Deduce.Proofs.Term.Building
import Deduce.Proofs.Term.Nodes
import Deduce.Proofs.Term.Variables
import Deduce.Term.Pattern
import Deduce.Value.Build
import Mathlib.Algebra.Ring.Nat

/-!
# The patterns of a term

The patterns of a term are its nodes and the pairs of neighbouring operands of its wide sums and
products, and repetitions are removed at every level.  That is as good as removing them once, from
the list in which all nodes and pairs stand as they come (`Expr.patterns_eq_eraseDups`).  So the
patterns are exactly these terms, each once and the term itself in front
(`Expr.patterns_are_nodes_and_pairs`).

Whatever a pair has in common with the sum or product that it was taken from can be read off the
patterns as well as off the nodes (`Expr.eraseDups_filterMap_patterns`): the pair comes after the
sum or product, and the removal of repetitions keeps what stands first.  The names of operators are
read off in this way, and so are the variables of a term without quantifiers
(`Expr.freeVariables_eq_filter_patterns`).
-/

namespace Deduce.Expr

open Dedup

/-! ### Pairs of neighbours -/

theorem mem_neighbours {op : Op} {as : List Expr} {p : Expr} :
    p ∈ neighbours op as ↔ ∃ a b, [a, b] <:+: as ∧ p = .app op [a, b] := by
  fun_induction neighbours op as with
  | case1 c d as ih =>
    simp only [List.mem_cons, ih, List.infix_cons_iff (a := c), List.cons_prefix_cons,
      List.nil_prefix, and_true]
    constructor
    · rintro (rfl | ⟨a, b, hab, rfl⟩)
      · exact ⟨c, d, .inl ⟨rfl, rfl⟩, rfl⟩
      · exact ⟨a, b, .inr hab, rfl⟩
    · rintro ⟨a, b, ⟨rfl, rfl⟩ | hab, rfl⟩
      · exact .inl rfl
      · exact .inr ⟨a, b, hab, rfl⟩
  | case2 as has =>
    simp only [List.not_mem_nil, false_iff]
    rintro ⟨a, b, ⟨before, after, rfl⟩, -⟩
    match before with
    | [] => exact has a b after rfl
    | [c] => exact has c a (b :: after) rfl
    | c :: d :: before => exact has c d _ rfl

theorem mem_adjacentPairs {op : Op} {as : List Expr} {p : Expr} :
    p ∈ adjacentPairs op as ↔ (op = .add ∨ op = .mul) ∧ 2 < as.length ∧
      ∃ a b, [a, b] <:+: as ∧ p = .app op [a, b] := by
  unfold adjacentPairs
  split
  · rename_i hop
    simp [hop, mem_neighbours]
  · rename_i hop
    simp only [List.not_mem_nil, false_iff]
    exact fun h => hop ⟨h.1, h.2.1⟩

/-- Two operands of a well-sorted sum or product are rebuilt without coercions. -/
theorem rebuild_pair {op : Op} {as : List Expr} {a b : Expr} (hop : op = .add ∨ op = .mul)
    (h : (app op as).wellSorted = true) (hab : [a, b] <:+: as) :
    (app op as).rebuild [a, b] = .ok (.term (.app op [a, b])) := by
  obtain ⟨hne, -, t, ht, hsort⟩ := (wellSorted_arith hop).1 h
  have hpair : ∀ c ∈ [a, b], c.sort = t := fun c hc => hsort c (hab.subset hc)
  rw [rebuild, withArgs_arith hop ht hne (List.cons_ne_nil a [b]) hpair]
  rfl

/-! ### Repetitions -/

mutual

/-- The nodes of a term, and after the nodes of a sum or product its pairs of neighbouring
operands, as they come. -/
def rawPatterns : Expr → List Expr
  | .app op as => .app op as :: rawPatternsList as ++ adjacentPairs op as
  | e => [e]

/-- `rawPatterns` of the terms of a list, one list after the other. -/
def rawPatternsList : List Expr → List Expr
  | [] => []
  | a :: as => rawPatterns a ++ rawPatternsList as

end

theorem rawPatternsList_eq_flatMap (as : List Expr) :
    rawPatternsList as = as.flatMap rawPatterns := by
  induction as with
  | nil => rfl
  | cons a as ih => rw [rawPatternsList, ih, List.flatMap_cons]

/-- Removing repetitions at every level is removing them once. -/
theorem patterns_eq_eraseDups (e : Expr) : e.patterns = e.rawPatterns.eraseDups := by
  induction e using Expr.induction with
  | var | int | real | truth | bound | quant => rfl
  | app op as ih =>
    have hlist : (patternsList as).eraseDups = (rawPatternsList as).eraseDups := by
      induction as with
      | nil => rfl
      | cons a as ihs =>
        rw [patternsList, rawPatternsList, ih a List.mem_cons_self]
        exact eraseDups_append_congr (eraseDups_of_nodup (nodup_eraseDups _))
          (ihs fun b hb => ih b (List.mem_cons_of_mem a hb))
    have hcons : ([app op as] ++ patternsList as).eraseDups =
        ([app op as] ++ rawPatternsList as).eraseDups := eraseDups_append_congr rfl hlist
    exact eraseDups_append_congr hcons rfl

theorem nodup_patterns (e : Expr) : e.patterns.Nodup := by
  rw [patterns_eq_eraseDups]
  exact nodup_eraseDups _

theorem head?_patterns (e : Expr) : e.patterns.head? = some e := by
  cases e with
  | app op as => rw [patterns, List.cons_append, List.eraseDups_cons, List.head?_cons]
  | _ => rfl

theorem mem_rawPatterns {e p : Expr} :
    p ∈ e.rawPatterns ↔
      p ∈ e.nodes ∨ ∃ op as, .app op as ∈ e.nodes ∧ p ∈ adjacentPairs op as := by
  induction e using Expr.induction with
  | var | int | real | truth | bound | quant => simp [rawPatterns, nodes]
  | app op as ih =>
    rw [rawPatterns, rawPatternsList_eq_flatMap, List.mem_append, List.mem_cons, List.mem_flatMap]
    constructor
    · rintro ((rfl | ⟨a, ha, hp⟩) | hp)
      · exact .inl (mem_nodes_self _)
      · obtain hp | ⟨op', as', hn, hp⟩ := (ih a ha).1 hp
        · exact .inl (mem_nodes_arg ha hp)
        · exact .inr ⟨op', as', mem_nodes_arg ha hn, hp⟩
      · exact .inr ⟨op, as, mem_nodes_self _, hp⟩
    · rintro (hp | ⟨op', as', hn, hp⟩)
      · rcases mem_nodes_app.1 hp with rfl | ⟨a, ha, hp⟩
        · exact .inl (.inl rfl)
        · exact .inl (.inr ⟨a, ha, (ih a ha).2 (.inl hp)⟩)
      · rcases mem_nodes_app.1 hn with heq | ⟨a, ha, hn⟩
        · obtain ⟨rfl, rfl⟩ := app.inj heq
          exact .inr hp
        · exact .inl (.inr ⟨a, ha, (ih a ha).2 (.inr ⟨op', as', hn, hp⟩)⟩)

theorem mem_patterns {e p : Expr} :
    p ∈ e.patterns ↔ p ∈ e.nodes ∨ ∃ op as a b, .app op as ∈ e.nodes ∧
      (op = .add ∨ op = .mul) ∧ 2 < as.length ∧ [a, b] <:+: as ∧ p = .app op [a, b] := by
  rw [patterns_eq_eraseDups, List.mem_eraseDups, mem_rawPatterns]
  simp only [mem_adjacentPairs, exists_and_left]

/-- **The patterns of a well-sorted term are its nodes and pairs.**  Each is listed once, and the
term itself first.  The pairs are two neighbouring operands under the operator of a sum or product
of more than two, as it is rebuilt over them.  They stand where they stand first when the nodes of
the term, and after the nodes of a sum or product its pairs, are listed with all repetitions. -/
theorem patterns_are_nodes_and_pairs {e : Expr} (he : e.wellSorted = true) :
    e.patterns.Nodup ∧ e.patterns.head? = some e ∧
      (∀ p, p ∈ e.patterns ↔ p ∈ e.nodes ∨ ∃ op as a b, .app op as ∈ e.nodes ∧
        (op = .add ∨ op = .mul) ∧ 2 < as.length ∧ [a, b] <:+: as ∧ p = .app op [a, b]) ∧
      (∀ op as a b, .app op as ∈ e.nodes → (op = .add ∨ op = .mul) → [a, b] <:+: as →
        (app op as).rebuild [a, b] = .ok (.term (.app op [a, b]))) ∧
      e.patterns = e.rawPatterns.eraseDups := by
  refine ⟨nodup_patterns e, head?_patterns e, fun p => mem_patterns, ?_, patterns_eq_eraseDups e⟩
  intro op as a b hn hop hab
  exact rebuild_pair hop (wellSorted_of_mem_nodes he hn) hab

/-- In `(x + y + x) * (x + y)` a pair of the first factor is the second factor. -/
theorem patterns_are_nodes_and_pairs_shared :
    let x : Expr := .var "x" .int
    let y : Expr := .var "y" .int
    let wide : Expr := .app .add [x, y, x]
    let e : Expr := .app .mul [wide, .app .add [x, y]]
    e.wellSorted = true ∧
      e.rawPatterns = [e, wide, x, y, x, .app .add [x, y], .app .add [y, x], .app .add [x, y],
        x, y] ∧
      e.patterns = [e, wide, x, y, .app .add [x, y], .app .add [y, x]] ∧
      .app .add [y, x] ∉ e.nodes ∧ wide.rebuild [y, x] = .ok (.term (.app .add [y, x])) := by
  intro x y wide e
  have he : e.wellSorted = true := by decide
  obtain ⟨-, -, hmem, hrebuild, hraw⟩ := patterns_are_nodes_and_pairs he
  refine ⟨he, rfl, ?_, by decide, ?_⟩
  · rw [hraw]
    decide
  · exact hrebuild .add [x, y, x] y x (by decide) (.inl rfl) ⟨[x], [], rfl⟩

/-! ### Patterns and nodes -/

variable {β : Type} [DecidableEq β] {f : Expr → Option β}

/-- What every pair has in common with the node that it was taken from is found among the patterns
in the order in which it is found among the nodes. -/
theorem eraseDups_filterMap_patterns
    (hpair : ∀ op as, ∀ p ∈ adjacentPairs op as, ∀ b, f p = some b → f (.app op as) = some b)
    (e : Expr) : (e.patterns.filterMap f).eraseDups = (e.nodes.filterMap f).eraseDups := by
  induction e using Expr.induction with
  | var | int | real | truth | bound | quant => rfl
  | app op as ih =>
    have hlist : ((patternsList as).filterMap f).eraseDups =
        ((nodesList as).filterMap f).eraseDups := by
      induction as with
      | nil => rfl
      | cons a as ihs =>
        rw [patternsList, nodesList, List.filterMap_append, List.filterMap_append]
        exact eraseDups_append_congr (ih a List.mem_cons_self)
          (ihs fun b hb => ih b (List.mem_cons_of_mem a hb))
    -- the pairs come last and bring nothing that the node itself did not bring
    have hpairs : (adjacentPairs op as).filterMap f ⊆
        (.app op as :: patternsList as).filterMap f := by
      intro b hb
      obtain ⟨p, hp, hpb⟩ := List.mem_filterMap.1 hb
      exact List.mem_filterMap.2 ⟨.app op as, List.mem_cons_self, hpair op as p hp b hpb⟩
    rw [patterns, nodes, eraseDups_filterMap_eraseDups, List.filterMap_append,
      eraseDups_append_of_subset hpairs, List.filterMap_cons, List.filterMap_cons]
    cases f (.app op as) with
    | none => exact hlist
    | some b =>
      change ([b] ++ _).eraseDups = ([b] ++ _).eraseDups
      exact eraseDups_append_congr rfl hlist

/-! ### Operators -/

/-- The name of the operator of a compound term. -/
def operatorName? (e : Expr) : Option String := e.operator?.map Operator.name

theorem operatorName?_app_of_commutative {op : Op} (hop : op = .add ∨ op = .mul) {as : List Expr}
    (has : as ≠ []) : operatorName? (.app op as) = some (if op = .add then "+" else "*") := by
  obtain ⟨a, as, rfl⟩ := List.exists_cons_of_ne_nil has
  rcases hop with rfl | rfl <;> rfl

/-- The operators of a term are those of its patterns. -/
theorem operations_eq_patterns (e : Expr) :
    e.operations = (e.patterns.filterMap operatorName?).eraseDups := by
  symm
  refine eraseDups_filterMap_patterns (f := operatorName?) (fun op as p hp name hname => ?_) e
  obtain ⟨hop, hlen, a, b, -, rfl⟩ := mem_adjacentPairs.1 hp
  have has : as ≠ [] := List.ne_nil_of_length_pos (by omega)
  rw [operatorName?_app_of_commutative hop has]
  rwa [operatorName?_app_of_commutative hop (List.cons_ne_nil a [b])] at hname

/-- The complexity of a term is the number of its nodes and the weight of their operators. -/
theorem complexity_eq (e : Expr) :
    e.complexity = e.nodes.length + ((e.nodes.filterMap operatorName?).map operatorWeight).sum := by
  induction e using Expr.induction with
  | var | int | real | truth | bound | quant => rfl
  | app op as ih =>
    have hlist : complexityList as = (nodesList as).length +
        (((nodesList as).filterMap operatorName?).map operatorWeight).sum := by
      induction as with
      | nil => rfl
      | cons a as ihs =>
        rw [complexityList, nodesList, ih a List.mem_cons_self,
          ihs fun b hb => ih b (List.mem_cons_of_mem a hb)]
        simp only [List.length_append, List.filterMap_append, List.map_append, List.sum_append]
        omega
    cases as with
    | nil => rfl
    | cons a as =>
      have hname : operatorName? (.app op (a :: as)) =
          some (op.name (op.result (sorts (a :: as)))) := rfl
      rw [complexity, nodes, ← complexityList, hlist, List.filterMap_cons_some hname]
      simp only [List.length_cons, List.map_cons, List.sum_cons]
      omega

/-! ### Variables -/

/-- In a term without quantifiers, the occurrences of variables are nodes. -/
theorem occurrences_eq_filter_nodes {e : Expr} (h : ∀ n ∈ e.nodes, n.isQuantified = false) :
    e.occurrences = e.nodes.filter isVariable := by
  induction e using Expr.induction with
  | var | int | real | truth | bound => rfl
  | quant q bs body => cases h _ (mem_nodes_self _)
  | app op as ih =>
    have hargs : ∀ a ∈ as, a.occurrences = a.nodes.filter isVariable := fun a ha =>
      ih a ha fun n hn => h n (mem_nodes_arg ha hn)
    have hlist : occurrencesList as = (nodesList as).filter isVariable := by
      clear h ih
      induction as with
      | nil => rfl
      | cons a as ihs =>
        rw [occurrencesList, nodesList, List.filter_append, hargs a List.mem_cons_self,
          ihs fun b hb => hargs b (List.mem_cons_of_mem a hb)]
    rw [occurrences, nodes, hlist, List.filter_cons_of_neg (by simp [isVariable])]

/-- The variables of a term without quantifiers are those among its patterns, in their order. -/
theorem freeVariables_eq_filter_patterns {e : Expr}
    (h : ∀ n ∈ e.nodes, n.isQuantified = false) :
    e.freeVariables = e.patterns.filter isVariable := by
  have hpatterns : (e.patterns.filter isVariable).eraseDups =
      (e.nodes.filter isVariable).eraseDups := by
    rw [← List.filterMap_eq_filter]
    refine eraseDups_filterMap_patterns (fun op as p hp b hb => ?_) e
    -- no pair is a variable
    obtain ⟨-, -, a, a', -, rfl⟩ := mem_adjacentPairs.1 hp
    cases hb
  rw [freeVariables_eq, occurrences_eq_filter_nodes h, ← hpatterns]
  exact eraseDups_of_nodup (e.nodup_patterns.filter _)

end Deduce.Expr
