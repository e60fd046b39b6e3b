import Deduce.Proofs.Reasoner.Items

/-!
# How facts enter a system

Whatever is asked of a system, and whether or not it fails, its ledger and its graph afterwards
are those from before with some terms entered at the end, the same terms in both
(`Command.run_enters`).  Nothing else that a command does touches them.
-/

namespace Deduce

namespace Reasoner

variable {s s' s'' : Reasoner} {es es' : List Expr}

/-- The second system is the first after the terms `es` were entered, as far as ledger and graph
are concerned. -/
structure Enters (s : Reasoner) (es : List Expr) (s' : Reasoner) : Prop where
  ledger : s'.ledger = s.ledger.extend es
  graph : s'.graph = es.foldl Graph.index s.graph

namespace Enters

theorem none (hl : s'.ledger = s.ledger) (hg : s'.graph = s.graph) : s.Enters [] s' := ⟨hl, hg⟩

theorem refl (s : Reasoner) : s.Enters [] s := .none rfl rfl

theorem trans (h : s.Enters es s') (h' : s'.Enters es' s'') : s.Enters (es ++ es') s'' where
  ledger := by rw [h'.ledger, h.ledger, Ledger.extend, Ledger.extend, Ledger.extend,
    List.foldl_append]
  graph := by rw [h'.graph, h.graph, List.foldl_append]

theorem exists_trans (h : ∃ es, s.Enters es s') (h' : ∃ es, s'.Enters es s'') :
    ∃ es, s.Enters es s'' := by
  obtain ⟨es, hes⟩ := h
  obtain ⟨es', hes'⟩ := h'
  exact ⟨es ++ es', hes.trans hes'⟩

theorem facts_eq (h : s.Enters es s') : s'.facts = s.facts ++ es := by
  rw [facts, h.ledger, Ledger.facts_extend]
  rfl

theorem facts_eq_of_nil (h : s.Enters [] s') : s'.facts = s.facts := by
  simpa using h.facts_eq

theorem record (s : Reasoner) (e : Expr) : s.Enters [e] (s.record e) := ⟨rfl, rfl⟩

theorem recordAll (s : Reasoner) (es : List Expr) : s.Enters es (es.foldl Reasoner.record s) := by
  induction es generalizing s with
  | nil => exact .refl s
  | cons e es ih => exact (Enters.record s e).trans (ih (s.record e))

end Enters

/-! ### Facts and models -/

theorem addFact_enters {v : Value} (h : s.addFact v = .ok s') : ∃ es, s.Enters es s' := by
  obtain ⟨e, -, rfl⟩ := addFact_eq_ok h
  exact ⟨[e], .record s e⟩

theorem addFacts_enters (s : Reasoner) (vs : List Value) : ∃ es, s.Enters es (s.addFacts vs).1 := by
  rw [addFacts_eq]
  exact ⟨_, .recordAll s _⟩

theorem connectModel_enters (s : Reasoner) (m : Model) :
    ∃ es, s.Enters es (s.connectModel m).system := by
  obtain ⟨es, hes⟩ := s.exists_connect_eq m
  rw [connectModel_system, hes]
  exact ⟨es, .recordAll s es⟩

/-! ### Rules and reasoning -/

theorem withRules_enters (s : Reasoner) (rules : List Rule) : s.Enters [] (s.withRules rules) :=
  .none rfl rfl

theorem withMaxRounds_enters (s : Reasoner) (limit : Whole) :
    s.Enters [] (s.withMaxRounds limit) :=
  .none rfl rfl

theorem addRule_enters {c : Catalog} {candidate : RuleCandidate} {r : Rule}
    (h : s.addRule c candidate = .ok (s', r)) : s.Enters [] s' := by
  obtain ⟨rules, rfl⟩ := exists_withRules_of_addRule h
  exact s.withRules_enters rules

theorem addRules_enters (c : Catalog) (s : Reasoner) (candidates : List RuleCandidate) :
    s.Enters [] (s.addRules c candidates).1 := by
  rw [addRules_eq]
  exact s.withRules_enters _

theorem setRules_enters {c : Catalog} {source : RuleSource} (h : s.setRules c source = .ok s') :
    s.Enters [] s' := by
  obtain ⟨rules, rfl⟩ := exists_withRules_of_setRules h
  exact s.withRules_enters rules

theorem infer_enters (s : Reasoner) (probe : Value) : s.Enters [] (s.infer probe).system := by
  unfold infer
  split
  · exact .refl s
  · exact .none rfl rfl

theorem saturate_enters (s : Reasoner) (bound : Value) (commit : Bool) :
    ∃ es, s.Enters es (s.saturate bound commit).system := by
  unfold saturate
  dsimp only
  split
  · exact ⟨[], .none rfl rfl⟩
  · rename_i es _
    cases commit with
    | false => exact ⟨[], .none rfl rfl⟩
    | true =>
      have hs : s.Enters [] { s with engine := (s.engine.saturate s.facts bound).1 } :=
        .none rfl rfl
      exact ⟨es, hs.trans (.recordAll _ es)⟩

end Reasoner

namespace Command

open Reasoner

/-! ### Commands -/

theorem system_runBody_cons (c : Catalog) (stop : Bool) (s : Reasoner) (command : Command)
    (rest : List Command) :
    (runBody c stop s (command :: rest)).system = (command.run c s).system ∨
      (runBody c stop s (command :: rest)).system =
        (runBody c stop (command.run c s).system rest).system := by
  rw [runBody]
  cases (command.run c s).answer <;> cases stop <;> simp

mutual

/-- **What a command does to the facts.**  It enters some terms, in ledger and graph alike. -/
theorem run_enters (c : Catalog) (s : Reasoner) :
    ∀ command : Command, ∃ es, s.Enters es (command.run c s).system
  | .addFact v => by
    rw [run]
    split
    · rename_i s' hs'
      exact addFact_enters hs'
    · exact ⟨[], .refl s⟩
  | .addFacts vs => by
    obtain ⟨es, hes⟩ := s.addFacts_enters vs
    rw [run]
    exact ⟨es, respondState_system _ _ ▸ hes⟩
  | .setRules source => by
    rw [run]
    split
    · rename_i s' hs'
      exact ⟨[], setRules_enters hs'⟩
    · exact ⟨[], .refl s⟩
  | .addRule candidate => by
    rw [run]
    split
    · rename_i s' r hs'
      exact ⟨[], addRule_enters hs'⟩
    · exact ⟨[], .refl s⟩
  | .infer probe => ⟨[], s.infer_enters probe⟩
  | .saturate bound commit => s.saturate_enters bound commit
  | .connect m => s.connectModel_enters m
  | .state | .factsAbout _ | .faults | .outcomeCount _ | .stats | .describe
  | .malformed _ => ⟨[], .refl s⟩
  | .resetStats => ⟨[], .none rfl rfl⟩
  | .extraRules candidates body stop => by
    have hadd := addRules_enters c s candidates
    rw [run]
    split
    · rename_i s' f hs'
      rw [hs'] at hadd
      exact ⟨[], hadd⟩
    · rename_i entered hs'
      rw [hs'] at hadd
      obtain ⟨es, hes⟩ := runBody_enters c stop entered body
      exact ⟨_, (hadd.trans hes).trans (withRules_enters _ _)⟩
  | .roundLimit bound body stop => by
    rw [run]
    split
    · exact ⟨[], .refl s⟩
    · rename_i limit _
      obtain ⟨es, hes⟩ := runBody_enters c stop (s.withMaxRounds limit) body
      exact ⟨_, ((s.withMaxRounds_enters limit).trans hes).trans (withMaxRounds_enters _ _)⟩

/-- The commands of a body enter terms one after the other, also if the body is left early. -/
theorem runBody_enters (c : Catalog) (stop : Bool) (s : Reasoner) :
    ∀ body : List Command, ∃ es, s.Enters es (runBody c stop s body).system
  | [] => ⟨[], .refl s⟩
  | command :: rest => by
    have hcommand := run_enters c s command
    rcases system_runBody_cons c stop s command rest with h | h
    · rw [h]
      exact hcommand
    · rw [h]
      exact Enters.exists_trans hcommand (runBody_enters c stop (command.run c s).system rest)

end

end Command

end Deduce
