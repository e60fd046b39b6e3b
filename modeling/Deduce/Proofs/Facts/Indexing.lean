import Deduce.Facts.Graph
import Deduce.Proofs.Term.Variables

/-!
# The graph of a list of facts

A graph *indexes* a list of facts (`Graph.Indexes`) when it lists, under every term, the facts in
which this term is a free variable, and when its variables are those of the facts, in the order
of their first mention.  The empty graph indexes the empty list, and entering a fact keeps graph
and list in step (`Graph.Indexes.index`): the fact goes under each of its variables once, however
often the variable occurs in it.
-/

namespace Deduce.Graph

/-! ### Entering one fact -/

theorem factsFor_foldl_link (fact w : Expr) {vs : List Expr} (hvs : vs.Nodup) (g : Graph) :
    (vs.foldl (fun g v => g.link fact v) g).factsFor w =
      if w ∈ vs then g.factsFor w ++ [fact] else g.factsFor w := by
  induction vs generalizing g with
  | nil => simp
  | cons v vs ih =>
    obtain ⟨hv, hvs⟩ := List.nodup_cons.1 hvs
    rw [List.foldl_cons, ih hvs, factsFor_link]
    by_cases hw : w = v
    · subst hw
      simp [hv]
    · simp [hw]

theorem factsFor_index (g : Graph) (fact w : Expr) :
    (g.index fact).factsFor w =
      if w ∈ fact.freeVariables then g.factsFor w ++ [fact] else g.factsFor w :=
  factsFor_foldl_link fact w fact.nodup_freeVariables g

theorem nodup_vars (g : Graph) : g.vars.Nodup := g.entries.nodup_keys

theorem vars_link (g : Graph) (fact v : Expr) :
    (g.link fact v).vars = (g.vars ++ [v]).eraseDups := by
  rw [Dedup.eraseDups_concat, Dedup.eraseDups_of_nodup g.nodup_vars]
  exact Table.keys_insert _ _ _

theorem vars_foldl_link (fact : Expr) (vs : List Expr) (g : Graph) :
    (vs.foldl (fun g v => g.link fact v) g).vars = (g.vars ++ vs).eraseDups := by
  induction vs generalizing g with
  | nil =>
    rw [List.append_nil, Dedup.eraseDups_of_nodup g.nodup_vars]
    rfl
  | cons v vs ih =>
    rw [List.foldl_cons, ih, vars_link, Dedup.eraseDups_eraseDups_append, List.append_assoc,
      List.singleton_append]

theorem vars_index (g : Graph) (fact : Expr) :
    (g.index fact).vars = (g.vars ++ fact.freeVariables).eraseDups :=
  vars_foldl_link fact fact.freeVariables g

/-! ### Graph and list in step -/

/-- The graph is the index of the facts by their free variables. -/
structure Indexes (g : Graph) (facts : List Expr) : Prop where
  /-- Under a term stand the facts in which it is a free variable, in order and as often as they
  are listed. -/
  factsFor : ∀ v, g.factsFor v = facts.filter fun f => v ∈ f.occurrences
  /-- The variables are listed once each, in the order of their first mention. -/
  vars : g.vars = (facts.flatMap Expr.freeVariables).eraseDups

theorem Indexes.empty : Graph.empty.Indexes [] := ⟨fun _ => rfl, rfl⟩

theorem Indexes.index {g : Graph} {facts : List Expr} (h : g.Indexes facts) (fact : Expr) :
    (g.index fact).Indexes (facts ++ [fact]) := by
  constructor
  · intro v
    rw [factsFor_index, h.factsFor, List.filter_append]
    by_cases hv : v ∈ fact.occurrences
    · simp [Expr.mem_freeVariables, hv]
    · simp [Expr.mem_freeVariables, hv]
  · rw [vars_index, h.vars, Dedup.eraseDups_eraseDups_append, List.flatMap_append]
    simp

theorem Indexes.indexAll {g : Graph} {facts : List Expr} (h : g.Indexes facts)
    (es : List Expr) : (es.foldl Graph.index g).Indexes (facts ++ es) := by
  induction es generalizing g facts with
  | nil => simpa using h
  | cons e es ih => simpa using ih (h.index e)

end Deduce.Graph
