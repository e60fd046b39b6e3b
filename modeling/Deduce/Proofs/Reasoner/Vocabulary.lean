import Deduce.Proofs.Chaining.Rounds
import Deduce.Proofs.Reasoner.Reachable
import Deduce.Proofs.Rule.Canonical
import Deduce.Proofs.Term.Nodes

/-!
# Canonical rules invent no symbols

A term stays *within* a list of facts (`Expr.Within`) if it is well sorted and all its variables
occur in the facts.  What a canonical rule derives from such terms is such a term again
(`derive_within`): implications and equations are taken apart and put together from their sides,
without coercions since the sorts agree, and a replacement brings in no variables but those of the
equation.  So this goes through all rounds of forward chaining, and when the terms found are entered
as facts, the graph has the same variables in the same order
(`Reasoner.Reachable.saturate_stays_within`).
-/

namespace Deduce

/-! ### Terms within a list of facts -/

/-- A term is well sorted and has no variables but those of the facts. -/
structure Expr.Within (kb : List Expr) (e : Expr) : Prop where
  wellSorted : e.wellSorted = true
  vars : ∀ v ∈ e.occurrences, ∃ f ∈ kb, v ∈ f.occurrences

variable {kb known : List Expr} {probe e : Expr}

theorem within_of_mem (hsorted : e.wellSorted = true) (he : e ∈ kb) : e.Within kb :=
  ⟨hsorted, fun _ hv => ⟨e, he, hv⟩⟩

theorem within_app {op : Op} {as : List Expr} :
    (Expr.app op as).Within kb ↔
      (Expr.app op as).wellSorted = true ∧ ∀ a ∈ as, a.Within kb := by
  constructor
  · intro h
    refine ⟨h.wellSorted, fun a ha => ⟨Expr.wellSorted_of_mem_args h.wellSorted ha, ?_⟩⟩
    exact fun v hv => h.vars v (Expr.mem_occurrencesList.2 ⟨a, ha, hv⟩)
  · rintro ⟨hsorted, hargs⟩
    refine ⟨hsorted, fun v hv => ?_⟩
    obtain ⟨a, ha, hva⟩ := Expr.mem_occurrencesList.1 hv
    exact (hargs a ha).vars v hva

theorem within_implication {a b : Expr} :
    (Expr.app .implies [a, b]).Within kb ↔
      a.Within kb ∧ b.Within kb ∧ a.sort = .bool ∧ b.sort = .bool := by
  rw [within_app, Expr.wellSorted_implies]
  simp only [List.forall_mem_cons, List.not_mem_nil, false_imp_iff, implies_true, and_true]
  constructor
  · rintro ⟨⟨-, -, hsorts⟩, ha, hb⟩
    exact ⟨ha, hb, hsorts⟩
  · rintro ⟨ha, hb, hsorts⟩
    exact ⟨⟨ha.wellSorted, hb.wellSorted, hsorts⟩, ha, hb⟩

theorem within_equation {l r : Expr} :
    (Expr.app .eq [l, r]).Within kb ↔ l.Within kb ∧ r.Within kb ∧ l.sort = r.sort := by
  rw [within_app, Expr.wellSorted_eq]
  simp only [List.forall_mem_cons, List.not_mem_nil, false_imp_iff, implies_true, and_true]
  constructor
  · rintro ⟨⟨-, -, hsort⟩, hl, hr⟩
    exact ⟨hl, hr, hsort⟩
  · rintro ⟨hl, hr, hsort⟩
    exact ⟨⟨hl.wellSorted, hr.wellSorted, hsort⟩, hl, hr⟩

theorem Expr.Within.replace {l r : Expr} (hsort : l.sort = r.sort) (hr : r.Within kb)
    (he : e.Within kb) : (Expr.replace l r e).Within kb := by
  refine ⟨Expr.wellSorted_replace hsort hr.wellSorted he.wellSorted, fun v hv => ?_⟩
  rcases Expr.mem_occurrences_replace hv with hv | hv
  · exact he.vars v hv
  · exact hr.vars v hv

/-! ### The four rules -/

section Rules

variable (hknown : ∀ f ∈ known, f.Within kb)

include hknown

theorem modusPonens_within (h : modusPonens known probe = some e) : e.Within kb :=
  (within_implication.1 (hknown _ (modusPonens_eq_some h))).2.1

theorem transitivity_within (h : transitivity known = some e) : e.Within kb := by
  obtain ⟨a, b, c, hab, hbc, rfl⟩ := transitivity_eq_some h
  obtain ⟨ha, -, hasort, -⟩ := within_implication.1 (hknown _ hab)
  obtain ⟨-, hc, -, hcsort⟩ := within_implication.1 (hknown _ hbc)
  exact within_implication.2 ⟨ha, hc, hasort, hcsort⟩

theorem symmetry_within (h : symmetry known = some e) : e.Within kb := by
  obtain ⟨l, r, hlr, hmk⟩ := symmetry_eq_some h
  obtain ⟨hl, hr, hsort⟩ := within_equation.1 (hknown _ hlr)
  rw [Expr.mkEq?_of_sort_eq hsort.symm] at hmk
  obtain rfl := Option.some.inj hmk
  split
  · exact within_equation.2 ⟨hl, hr, hsort⟩
  · exact within_equation.2 ⟨hr, hl, hsort.symm⟩

theorem substitution_within (hprobe : probe.Within kb) (h : substitution known probe = some e) :
    e.Within kb := by
  obtain ⟨l, r, hlr, hsort, rfl, -⟩ := substitution_eq_some h
  exact .replace hsort (within_equation.1 (hknown _ hlr)).2.1 hprobe

theorem derive_within (c : Canonical) (hprobe : probe.Within kb)
    (h : c.derive known probe = some e) : e.Within kb := by
  cases c with
  | modusPonens => exact modusPonens_within hknown h
  | transitivity => exact transitivity_within hknown h
  | symmetry => exact symmetry_within hknown h
  | substitution => exact substitution_within hknown hprobe h

end Rules

/-- All terms found from well-sorted facts by canonical rules stay within the facts. -/
theorem chained_within {rules : List Rule}
    (hrules : ∀ r ∈ rules, ∃ c : Canonical, r.run = c.run)
    (hsorted : ∀ f ∈ kb, f.wellSorted = true) (n : ℕ) : ∀ e ∈ chained rules n kb, e.Within kb := by
  refine forall_mem_chained (P := Expr.Within kb) ?_ n fun f hf => within_of_mem (hsorted f hf) hf
  intro known hknown f hf r hr e happly
  obtain ⟨c, hc⟩ := hrules r hr
  exact derive_within hknown c (hknown f hf) ((apply_eq_derived hc).1 happly)

/-! ### Entering what was found -/

namespace Reasoner

/-- Facts that bring in no variables leave those of the graph as they are. -/
theorem Indexed.vars_eq {s s' : Reasoner} {es : List Expr} (h : s.Indexed) (he : s.Enters es s')
    (hes : ∀ e ∈ es, e.Within s.facts) : s'.graph.vars = s.graph.vars := by
  have hsub : es.flatMap Expr.freeVariables ⊆ s.facts.flatMap Expr.freeVariables := by
    intro v hv
    obtain ⟨e, hmem, hve⟩ := List.mem_flatMap.1 hv
    obtain ⟨f, hf, hvf⟩ := (hes e hmem).vars v (Expr.mem_freeVariables.1 hve)
    exact List.mem_flatMap.2 ⟨f, hf, Expr.mem_freeVariables.2 hvf⟩
  rw [(h.enters he).vars, h.vars, he.facts_eq, List.flatMap_append,
    Dedup.eraseDups_append_of_subset hsub]

theorem saturate_enters_nothing (s : Reasoner) (bound : Value) :
    s.Enters [] (s.saturate bound false).system := by
  unfold saturate
  dsimp only
  split
  · exact .none rfl rfl
  · exact .none rfl rfl

theorem addFacts_enters_terms (c : Catalog) (s : Reasoner) (es : List Expr) :
    s.Enters es ((Command.addFacts (es.map .term)).run c s).system := by
  rw [Command.run, addFacts_terms]
  exact .recordAll s es

theorem answer_saturate (c : Catalog) {s : Reasoner} {bound : Value} {n : Int}
    (hn : s.engine.roundBound bound = .ok n) :
    ∃ steps stats size, ((Command.saturate bound false).run c s).answer =
      .ok (.saturated (chained s.engine.rules n.toNat s.facts) steps stats size) := by
  have hfound := Engine.found_saturate hn s.facts
  rw [Command.run, saturate]
  dsimp only
  rw [hfound]
  exact ⟨_, _, _, rfl⟩

/-- **Canonical rules invent no symbols.**  In a reachable system with well-sorted facts and
canonical rules, in any order and number, everything that a run finds is well sorted, and its
variables are variables of the facts.  So when it is entered, all of it becomes facts, and the
variables of the graph stay the same, in the same order. -/
theorem Reachable.saturate_stays_within {s : Reasoner} (hs : s.Reachable)
    (hrules : ∀ r ∈ s.engine.rules, ∃ c : Canonical, r.run = c.run)
    (hsorted : ∀ f ∈ s.facts, f.wellSorted = true)
    {bound : Value} {n : Int} (hn : s.engine.roundBound bound = .ok n) (c : Catalog) :
    ∃ found steps stats size,
      ((Command.saturate bound false).run c s).answer =
        .ok (.saturated found steps stats size) ∧
      (∀ e ∈ found, e.wellSorted = true ∧
        ∀ v ∈ e.freeVariables, ∃ f ∈ s.facts, v ∈ f.freeVariables) ∧
      let entered := ((Command.addFacts (found.map .term)).run c
        ((Command.saturate bound false).run c s).system).system
      entered.facts = s.facts ++ found ∧ entered.graph.vars = s.graph.vars := by
  obtain ⟨steps, stats, size, hrun⟩ := answer_saturate c hn
  have hwithin := chained_within hrules hsorted n.toNat
  generalize chained s.engine.rules n.toNat s.facts = found at hrun hwithin
  refine ⟨found, steps, stats, size, hrun, fun e he => ⟨(hwithin e he).wellSorted, ?_⟩, ?_⟩
  · simpa only [Expr.mem_freeVariables] using (hwithin e he).vars
  · have henters := (s.saturate_enters_nothing bound).trans (addFacts_enters_terms c _ found)
    exact ⟨henters.facts_eq, hs.indexed.vars_eq henters hwithin⟩

/-- From `x = y` and `∃ z, x < z` the system finds `y = y` and, under the binder, `∃ z, y < z`. -/
theorem saturate_stays_within_binder :
    ∃ s : Reasoner, s.Reachable ∧
      s.facts = [.app .eq [.var "x" .int, .var "y" .int],
        .quant .existential [("z", .int)] (.app .lt [.var "x" .int, .bound 0 .int])] ∧
      ∃ found steps stats size,
        ((Command.saturate .nothing false).run .initial s).answer =
          .ok (.saturated found steps stats size) ∧
        found = [.app .eq [.var "y" .int, .var "y" .int],
          .quant .existential [("z", .int)] (.app .lt [.var "y" .int, .bound 0 .int])] ∧
        let entered := ((Command.addFacts (found.map .term)).run .initial
          ((Command.saturate .nothing false).run .initial s).system).system
        entered.facts = s.facts ++ found ∧ entered.graph.vars = s.graph.vars := by
  obtain ⟨s, hs⟩ : ∃ s, create .initial ⟨.text "demo",
      .list [.term (.app .eq [.var "x" .int, .var "y" .int]),
        .term (.quant .existential [("z", .int)] (.app .lt [.var "x" .int, .bound 0 .int]))],
      .many [.canonical .substitution], .text "", .value .nothing⟩ = .ok s := ⟨_, rfl⟩
  obtain rfl := Except.ok.inj hs
  have hrules : ∀ r ∈ [Rule.ofCanonical .substitution], ∃ c : Canonical, r.run = c.run := by
    intro r hr
    obtain rfl := List.mem_singleton.1 hr
    exact ⟨.substitution, rfl⟩
  have hn : (Engine.new [.ofCanonical .substitution] (.number 3)).roundBound .nothing = .ok 3 := rfl
  obtain ⟨found, steps, stats, size, hanswer, -, hentered⟩ :=
    Reachable.saturate_stays_within (.built hs) hrules (by decide) hn .initial
  refine ⟨_, .built hs, rfl, found, steps, stats, size, hanswer, ?_, hentered⟩
  injection Except.ok.inj hanswer with hfound
  exact hfound.symm

end Reasoner

end Deduce
