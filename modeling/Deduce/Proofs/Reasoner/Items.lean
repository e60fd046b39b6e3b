import Deduce.Proofs.Data.Attempts
import Deduce.Reasoner.Session

/-!
# Items one after the other

Facts, the items of a model and further rules are handled one after the other, up to the first that
fails.  What such an operation makes of a system is what the items before that one make of it, and
the failure is that item's: `addFacts_eq` for a list of facts, `connect_eq` for a model, equation by
equation, then unknown by unknown and parameter by parameter, and `addRules_eq` for rules.
-/

namespace Deduce

open Attempts

/-- A computation in two parts succeeds only if both parts do. -/
theorem exists_of_bind_eq_ok {α β : Type} {x : Except Failure α} {f : α → Except Failure β} {b : β}
    (h : x >>= f = .ok b) : ∃ a, x = .ok a ∧ f a = .ok b := by
  cases x with
  | error e => cases h
  | ok a => exact ⟨a, rfl, h⟩

/-- A computation in two parts fails only if one of its parts does. -/
theorem of_bind_eq_error {α β : Type} {x : Except Failure α} {k : α → Except Failure β}
    {f : Failure} (h : x >>= k = .error f) : x = .error f ∨ ∃ a, x = .ok a ∧ k a = .error f := by
  cases x with
  | error g => exact .inl (congrArg _ (Except.error.inj h))
  | ok a => exact .inr ⟨a, rfl, h⟩

namespace Reasoner

variable {c : Catalog} {s s' : Reasoner} {candidates : List RuleCandidate} {rules : List Rule}

/-! ### Items that are to become facts -/

/-- A value that is to become a fact. -/
def asFact (v : Value) : Except Failure Expr := requireExpression "fact" v

/-- An equation of a model that is to become a fact; a pair stands for the equation of its
members. -/
def asEquation (v : Value) : Except Failure Expr := equationFact v >>= asFact

theorem kind_of_asFact_eq_error {v : Value} {f : Failure} (h : asFact v = .error f) :
    f.kind = .invalidExpression ∧ v.isTerm = false := by
  cases v with
  | term e => cases h
  | _ =>
    rw [← Except.error.inj h]
    exact ⟨rfl, rfl⟩

/-- An equation fails because its sides make none, or because what it is, or what its sides make,
is no term. -/
theorem kind_of_asEquation_eq_error {v : Value} {f : Failure} (h : asEquation v = .error f) :
    (∃ l r, v = .tuple [l, r] ∧ l.equate r = .error f) ∨
      f.kind = .invalidExpression ∧ ∃ w, equationFact v = .ok w ∧ w.isTerm = false := by
  unfold asEquation at h
  cases hfact : equationFact v with
  | error g =>
    rw [hfact] at h
    obtain rfl : g = f := Except.error.inj h
    unfold equationFact at hfact
    split at hfact
    · exact .inl ⟨_, _, rfl, hfact⟩
    · cases hfact
  | ok w =>
    rw [hfact] at h
    have hw : asFact w = .error f := h
    exact .inr ⟨(kind_of_asFact_eq_error hw).1, w, rfl, (kind_of_asFact_eq_error hw).2⟩

/-! ### Entering items one after the other -/

theorem addFact_eq (s : Reasoner) (v : Value) : s.addFact v = (asFact v).map s.record := rfl

theorem addFact_eq_ok {v : Value} (h : s.addFact v = .ok s') :
    ∃ e, v = .term e ∧ s' = s.record e := by
  cases v with
  | term e => exact ⟨e, rfl, (Except.ok.inj h).symm⟩
  | _ => cases h

theorem addFacts_eq (s : Reasoner) (vs : List Value) :
    s.addFacts vs = ((gained (vs.map asFact)).foldl record s, verdict (vs.map asFact)) := by
  induction vs generalizing s with
  | nil => rfl
  | cons v vs ih =>
    rw [addFacts, addFact_eq, List.map_cons]
    cases asFact v with
    | error f => rfl
    | ok e => exact ih (s.record e)

theorem addFacts_terms (s : Reasoner) (es : List Expr) :
    s.addFacts (es.map .term) = (es.foldl record s, .ok ()) := by
  have hok : (es.map Value.term).map asFact = es.map .ok := by
    rw [List.map_map]
    rfl
  rw [addFacts_eq, hok, gained_map_ok, verdict_map_ok]

theorem addEquations_eq (s : Reasoner) (vs : List Value) :
    s.addEquations vs =
      ((gained (vs.map asEquation)).foldl record s, verdict (vs.map asEquation)) := by
  induction vs generalizing s with
  | nil => rfl
  | cons v vs ih =>
    rw [addEquations, List.map_cons, asEquation]
    cases equationFact v with
    | error f => rfl
    | ok w =>
      change _ = (List.foldl record s (gained (asFact w :: _)), verdict (asFact w :: _))
      dsimp only
      rw [addFact_eq]
      cases asFact w with
      | error f => rfl
      | ok e => exact ih (s.record e)

/-- A model enters its equations, its unknowns and its parameters, in this order. -/
theorem connect_eq (s : Reasoner) (equations unknowns parameters : List Value) :
    s.connect ⟨.listing equations, .listing unknowns, .listing parameters⟩ =
      let items := equations.map asEquation ++ (unknowns.map asFact ++ parameters.map asFact)
      ((gained items).foldl record s, verdict items) := by
  rw [← List.map_append]
  unfold connect
  -- all three offers are there
  dsimp only [Offer.items, bind, Except.bind, pure, Except.pure]
  rw [addEquations_eq]
  cases hverdict : verdict (equations.map asEquation) with
  | error f =>
    obtain ⟨hgained, hfailed⟩ :=
      append_of_verdict_error hverdict ((unknowns ++ parameters).map asFact)
    rw [hgained, hfailed]
  | ok u =>
    obtain ⟨hgained, hrest⟩ := append_of_verdict_ok hverdict ((unknowns ++ parameters).map asFact)
    rw [hgained, hrest, List.foldl_append]
    exact addFacts_eq _ _

/-- A model without one of the three offers enters nothing. -/
theorem connect_of_lacking (s : Reasoner) {m : Model}
    (h : ∀ equations unknowns parameters,
      m ≠ ⟨.listing equations, .listing unknowns, .listing parameters⟩) :
    ∃ name, s.connect m = (s, .error (.modelLacks name)) := by
  obtain ⟨equations, unknowns, parameters⟩ := m
  cases equations with
  | missing | plain => exact ⟨"equations", rfl⟩
  | listing equations =>
    cases unknowns with
    | missing | plain => exact ⟨"unknowns", rfl⟩
    | listing unknowns =>
      cases parameters with
      | missing | plain => exact ⟨"parameters", rfl⟩
      | listing parameters => exact absurd rfl (h equations unknowns parameters)

theorem exists_connect_eq (s : Reasoner) (m : Model) :
    ∃ es : List Expr, (s.connect m).1 = es.foldl record s := by
  by_cases h : ∃ equations unknowns parameters,
      m = ⟨.listing equations, .listing unknowns, .listing parameters⟩
  · obtain ⟨equations, unknowns, parameters, rfl⟩ := h
    rw [connect_eq]
    exact ⟨_, rfl⟩
  · obtain ⟨name, hname⟩ := s.connect_of_lacking fun equations unknowns parameters hm =>
      h ⟨equations, unknowns, parameters, hm⟩
    exact ⟨[], by rw [hname]; rfl⟩

theorem connectModel_system (s : Reasoner) (m : Model) :
    (s.connectModel m).system = (s.connect m).1 := by
  unfold connectModel
  split
  · rename_i s' hs'
    rw [hs']
  · rename_i s' f hs'
    rw [hs']
    rfl

theorem respondState_system (s : Reasoner) (result : Except Failure Unit) :
    (s.respondState result).system = s := by
  cases result <;> rfl

theorem engine_foldl_record (es : List Expr) (s : Reasoner) :
    (es.foldl record s).engine = s.engine := by
  induction es generalizing s with
  | nil => rfl
  | cons e es ih => exact ih (s.record e)

/-! ### Adding rules one after the other -/

theorem addRules_eq (c : Catalog) (s : Reasoner) (candidates : List RuleCandidate) :
    s.addRules c candidates =
      (s.withRules (s.engine.rules ++ gained (candidates.map c.resolveRule)),
        verdict (candidates.map c.resolveRule)) := by
  induction candidates generalizing s with
  | nil =>
    change (s, _) = (s.withRules (s.engine.rules ++ []), _)
    rw [List.append_nil]
    rfl
  | cons candidate candidates ih =>
    rw [addRules, addRule, List.map_cons]
    cases c.resolveRule candidate with
    | error f =>
      rw [gained_error_cons, List.append_nil]
      rfl
    | ok r =>
      refine (ih _).trans ?_
      change (s.withRules ((s.engine.rules ++ [r]) ++ _), _) = (s.withRules (_ ++ r :: _), _)
      rw [List.append_assoc, List.singleton_append]
      rfl

theorem addRules_of_resolveRules_ok (h : c.resolveRules candidates = .ok rules) (s : Reasoner) :
    s.addRules c candidates = (s.withRules (s.engine.rules ++ rules), .ok ()) := by
  rw [addRules_eq, mapM_eq_ok_iff.1 h, gained_map_ok, verdict_map_ok]

/-- Rules that a system has resolve to themselves, so setting them does not fail. -/
theorem setRules_rules (c : Catalog) (s : Reasoner) (rules : List Rule) :
    s.setRules c (.many (rules.map .rule)) = .ok (s.withRules rules) := by
  have hrules : c.resolveRules (rules.map .rule) = .ok rules :=
    mapM_eq_ok_iff.2 (by rw [List.map_map]; rfl)
  unfold setRules
  change c.resolveRules (rules.map .rule) >>= _ = _
  rw [hrules]
  rfl

theorem exists_withRules_of_addRule {candidate : RuleCandidate} {r : Rule}
    (h : s.addRule c candidate = .ok (s', r)) : ∃ rules, s' = s.withRules rules := by
  unfold addRule at h
  cases hc : c.resolveRule candidate with
  | error f =>
    rw [hc] at h
    cases h
  | ok r' =>
    rw [hc] at h
    obtain ⟨rfl, -⟩ := Prod.mk.inj (Except.ok.inj h)
    exact ⟨_, rfl⟩

theorem exists_withRules_of_setRules {source : RuleSource}
    (h : s.setRules c source = .ok s') : ∃ rules, s' = s.withRules rules := by
  unfold setRules at h
  obtain ⟨candidates, -, h⟩ := exists_of_bind_eq_ok h
  obtain ⟨rules, -, h⟩ := exists_of_bind_eq_ok h
  exact ⟨rules, (Except.ok.inj h).symm⟩

end Reasoner

end Deduce
