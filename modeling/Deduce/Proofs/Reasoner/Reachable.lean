import Deduce.Proofs.Facts.Indexing
import Deduce.Proofs.Reasoner.Entry

/-!
# Reachable systems

A system is reachable (`Reasoner.Reachable`) if it was built and then asked anything, any number
of times, with any catalog at hand; what it is in the middle of a block counts too.  In every
reachable system the graph is the index of the facts (`Reachable.graph_indexes_facts`): ledger
and graph start out empty, and every command enters the same terms in both.
-/

namespace Deduce.Reasoner

/-- The systems that can come about. -/
inductive Reachable : Reasoner → Prop where
  /-- A system that was just built. -/
  | built {c : Catalog} {b : Blueprint} {s : Reasoner} (h : create c b = .ok s) : Reachable s
  /-- A system after a command, whether or not the command failed. -/
  | asked {s : Reasoner} (h : Reachable s) (c : Catalog) (command : Command) :
      Reachable (command.run c s).system
  /-- A system at the start of a block with further rules. -/
  | inRuleBlock {s : Reasoner} (h : Reachable s) (c : Catalog)
      (candidates : List RuleCandidate) : Reachable (s.addRules c candidates).1
  /-- A system at the start of a block with another bound on rounds. -/
  | inLimitBlock {s : Reasoner} (h : Reachable s) {bound : Value} {limit : Whole}
      (hlimit : Settings.rounds bound = .ok limit) : Reachable (s.withMaxRounds limit)

/-- The part of a system that keeps facts is in order. -/
def Indexed (s : Reasoner) : Prop := s.graph.Indexes s.facts

theorem Indexed.enters {s s' : Reasoner} {es : List Expr} (h : s.Indexed) (he : s.Enters es s') :
    s'.Indexed := by
  unfold Indexed
  rw [he.graph, he.facts_eq]
  exact Graph.Indexes.indexAll h es

theorem create_indexed {c : Catalog} {b : Blueprint} {s : Reasoner} (h : create c b = .ok s) :
    s.Indexed := by
  unfold create at h
  obtain ⟨name, -, h⟩ := exists_of_bind_eq_ok h
  obtain ⟨description, -, h⟩ := exists_of_bind_eq_ok h
  obtain ⟨settings, -, h⟩ := exists_of_bind_eq_ok h
  obtain ⟨source, -, h⟩ := exists_of_bind_eq_ok h
  obtain ⟨facts, -, h⟩ := exists_of_bind_eq_ok h
  obtain ⟨-, -, h⟩ := exists_of_bind_eq_ok h
  obtain ⟨candidates, -, h⟩ := exists_of_bind_eq_ok h
  obtain ⟨rules, -, h⟩ := exists_of_bind_eq_ok h
  rw [← Except.ok.inj h]
  have hstart : Indexed ⟨name, description, .empty, .empty, .new rules settings.maxRounds⟩ :=
    Graph.Indexes.empty
  exact hstart.enters (.recordAll _ (termsOf facts))

theorem Reachable.indexed {s : Reasoner} (h : s.Reachable) : s.Indexed := by
  induction h with
  | built h => exact create_indexed h
  | @asked s _ c command ih =>
    obtain ⟨es, hes⟩ := Command.run_enters c s command
    exact ih.enters hes
  | @inRuleBlock s _ c candidates ih => exact ih.enters (addRules_enters c s candidates)
  | @inLimitBlock s _ bound limit _ ih => exact ih.enters (s.withMaxRounds_enters limit)

/-- **The graph is the index of the facts.**  In every reachable system, the facts about a term
are those in which it is a free variable, in the order of the ledger and as often as they stand
there, and the variables of the graph are those of the facts, each listed once, where it is first
mentioned. -/
theorem Reachable.graph_indexes_facts {s : Reasoner} (h : s.Reachable) (c : Catalog) (v : Expr) :
    ((Command.factsAbout v).run c s).answer =
        .ok (.facts (s.facts.filter fun f => v ∈ f.occurrences)) ∧
      s.graph.vars = (s.facts.flatMap Expr.freeVariables).eraseDups ∧ s.graph.vars.Nodup := by
  have hs := h.indexed
  refine ⟨?_, hs.vars, s.graph.nodup_vars⟩
  rw [Command.run, hs.factsFor v]
  rfl

/-- A variable and a quantified term are entered at first, then an equation before an item that
is no term. -/
theorem graph_indexes_facts_after_failure :
    ∃ s : Reasoner, s.Reachable ∧
      s.facts = [.var "x" .int,
        .quant .universal [("z", .int)] (.app .lt [.var "x" .int, .bound 0 .int]),
        .app .eq [.var "y" .int, .var "x" .int]] ∧
      ((Command.factsAbout (.var "y" .int)).run .initial s).answer =
        .ok (.facts [.app .eq [.var "y" .int, .var "x" .int]]) ∧
      s.graph.vars = (s.facts.flatMap Expr.freeVariables).eraseDups ∧ s.graph.vars.Nodup := by
  have hbuilt : Reachable _ := .built (c := .initial) (b := ⟨.text "demo",
    .list [.term (.var "x" .int), .term (.quant .universal [("z", .int)]
      (.app .lt [.var "x" .int, .bound 0 .int]))], .many [], .text "", .value .nothing⟩) rfl
  have hasked := hbuilt.asked .initial (.addFacts [.term (.app .eq [.var "y" .int, .var "x" .int]),
    .nothing, .term (.var "z" .int)])
  exact ⟨_, hasked, rfl, hasked.graph_indexes_facts .initial (.var "y" .int)⟩

end Deduce.Reasoner
