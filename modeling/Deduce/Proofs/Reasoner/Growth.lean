import Deduce.Proofs.Reasoner.Entry

/-!
# The growth of the facts

The facts of a system only grow.  Of a list of facts, and of the items of a model, those before the
first that fails are entered and no others (`EntersUpTo`).  A block enters what its body enters, and
all other commands keep the facts as they are (`Command.facts_append_only`).
-/

namespace Deduce

open Attempts

/-! ### Responses -/

/-- The response to entering items one after the other, up to the first that fails. -/
structure EntersUpTo (s : Reasoner) (items : List (Except Failure Expr)) (r : Response) : Prop where
  /-- If no item fails, all are entered. -/
  all : ∀ es, items = es.map .ok → r.system.facts = s.facts ++ es
  /-- If one fails, those before the first such are entered, and its failure is the answer. -/
  upTo : ∀ es f rest, items = es.map .ok ++ .error f :: rest →
    r.system.facts = s.facts ++ es ∧ r.answer = .error f
  /-- There is a reply if and only if no item fails. -/
  reply_iff : (∃ reply, r.answer = .ok reply) ↔ ∀ x ∈ items, ∃ e, x = .ok e

theorem EntersUpTo.of_eq {s : Reasoner} {items : List (Except Failure Expr)} {r : Response}
    (hfacts : r.system.facts = s.facts ++ gained items)
    (hanswer : (r.answer.map fun _ => ()) = verdict items) : EntersUpTo s items r where
  all es h := by rw [hfacts, h, gained_map_ok]
  upTo es f rest h := by
    rw [h] at hfacts hanswer
    simp only [gained_map_ok_append, gained_error_cons, List.append_nil] at hfacts
    simp only [verdict_map_ok_append, verdict_error_cons] at hanswer
    refine ⟨hfacts, ?_⟩
    -- a reply would mean that no item failed
    cases hr : r.answer with
    | error g =>
      rw [hr] at hanswer
      exact congrArg _ (Except.error.inj hanswer)
    | ok reply =>
      rw [hr] at hanswer
      cases hanswer
  reply_iff := by
    rw [← verdict_eq_ok_iff, ← hanswer]
    cases r.answer with
    | error g => simp [Except.map]
    | ok reply => simp [Except.map]

namespace Reasoner

theorem respondState_answer (s : Reasoner) (result : Except Failure Unit) :
    ((s.respondState result).answer.map fun _ => ()) = result := by
  cases result <;> rfl

theorem addFacts_entersUpTo (c : Catalog) (s : Reasoner) (vs : List Value) :
    EntersUpTo s (vs.map asFact) ((Command.addFacts vs).run c s) := by
  rw [Command.run, addFacts_eq]
  refine .of_eq ?_ (respondState_answer _ _)
  rw [respondState_system]
  exact (Enters.recordAll s _).facts_eq

theorem connect_entersUpTo (c : Catalog) (s : Reasoner)
    (equations unknowns parameters : List Value) :
    EntersUpTo s (equations.map asEquation ++ (unknowns.map asFact ++ parameters.map asFact))
      ((Command.connect ⟨.listing equations, .listing unknowns, .listing parameters⟩).run c s) := by
  rw [Command.run, connectModel, connect_eq]
  generalize equations.map asEquation ++ (unknowns.map asFact ++ parameters.map asFact) = items
  have hfacts := (Enters.recordAll s (gained items)).facts_eq
  dsimp only
  cases hverdict : verdict items with
  | error f => exact .of_eq hfacts hverdict.symm
  | ok u => exact .of_eq hfacts hverdict.symm

end Reasoner

/-! ### Commands -/

namespace Command

open Reasoner

/-- The commands that enter no facts: those that have no body and are given neither facts nor a
model, nor asked to enter what they find. -/
def entersNothing : Command → Bool
  | .addFact _ | .addFacts _ | .connect _ | .extraRules .. | .roundLimit .. => false
  | .saturate _ commit => !commit
  | _ => true

theorem facts_run_of_entersNothing (c : Catalog) (s : Reasoner) {command : Command}
    (h : command.entersNothing = true) : (command.run c s).system.facts = s.facts := by
  cases command with
  | setRules source =>
    rw [run]
    split
    · rename_i s' hs'
      exact (setRules_enters hs').facts_eq_of_nil
    · rfl
  | addRule candidate =>
    rw [run]
    split
    · rename_i s' r hs'
      exact (addRule_enters hs').facts_eq_of_nil
    · rfl
  | infer probe => exact (s.infer_enters probe).facts_eq_of_nil
  | saturate bound commit =>
    cases commit with
    | true => cases h
    | false =>
      -- what is found is in the reply and nowhere else
      rw [run, Reasoner.saturate]
      dsimp only
      split <;> rfl
  | state | factsAbout | faults | outcomeCount | stats | resetStats | describe | malformed => rfl
  | addFact | addFacts | connect | extraRules | roundLimit => cases h

/-! ### Blocks -/

section Blocks

variable {c : Catalog} {s t : Reasoner} {candidates : List RuleCandidate} {bound : Value}
  {limit : Whole} {f : Failure}

theorem run_extraRules_of_error (h : s.addRules c candidates = (t, .error f))
    (body : List Command) (stop : Bool) :
    (extraRules candidates body stop).run c s =
      ⟨t, .ok (.ruleBlock [] t.ruleNames (some f)), []⟩ := by
  rw [run, h]
  rfl

theorem system_run_extraRules (h : s.addRules c candidates = (t, .ok ())) (body : List Command)
    (stop : Bool) :
    ((extraRules candidates body stop).run c s).system =
      (runBody c stop t body).system.withRules s.engine.rules := by
  rw [run, h]

theorem run_roundLimit_of_error (h : Settings.rounds bound = .error f) (body : List Command)
    (stop : Bool) :
    (roundLimit bound body stop).run c s =
      ⟨s, .ok (.limitBlock [] s.engine.maxRounds (some f)), []⟩ := by
  rw [run, h]
  rfl

theorem system_run_roundLimit (h : Settings.rounds bound = .ok limit) (body : List Command)
    (stop : Bool) :
    ((roundLimit bound body stop).run c s).system =
      (runBody c stop (s.withMaxRounds limit) body).system.withMaxRounds s.engine.maxRounds := by
  rw [run, h]

end Blocks

theorem facts_run_extraRules (c : Catalog) (s : Reasoner) (candidates : List RuleCandidate)
    (body : List Command) (stop : Bool) :
    ((extraRules candidates body stop).run c s).system.facts =
      match s.addRules c candidates with
      | (_, .error _) => s.facts
      | (entered, .ok ()) => (runBody c stop entered body).system.facts := by
  -- the rules added before a refusal stay, but no facts come with them
  have hadd := (addRules_enters c s candidates).facts_eq_of_nil
  cases h : s.addRules c candidates with
  | mk t entry =>
    rw [h] at hadd
    cases entry with
    | error f => rw [run_extraRules_of_error h, hadd]
    | ok u =>
      rw [system_run_extraRules h]
      rfl

theorem facts_run_roundLimit (c : Catalog) (s : Reasoner) (bound : Value) (body : List Command)
    (stop : Bool) :
    ((roundLimit bound body stop).run c s).system.facts =
      match Settings.rounds bound with
      | .error _ => s.facts
      | .ok limit => (runBody c stop (s.withMaxRounds limit) body).system.facts := by
  cases h : Settings.rounds bound with
  | error f => rw [run_roundLimit_of_error h]
  | ok limit =>
    rw [system_run_roundLimit h]
    rfl

/-! ### All commands -/

/-- **The facts only grow.**  Whatever is asked of a system, and whether or not it fails, the facts
from before come first among the facts afterwards.  Commands that are given nothing to enter keep
the facts as they are, and a block enters what its body enters, begun with the same facts.  A list
of facts, and a model with its equations, its unknowns and its parameters, are entered in order up
to the first item that fails, and its failure is the answer; a model that lacks one of the three
enters nothing. -/
theorem facts_append_only (c : Catalog) (s : Reasoner) :
    (∀ command : Command, s.facts <+: (command.run c s).system.facts) ∧
    (∀ command : Command, command.entersNothing = true →
      (command.run c s).system.facts = s.facts) ∧
    (∀ candidates body stop,
      (s.addRules c candidates).1.facts = s.facts ∧
      ((extraRules candidates body stop).run c s).system.facts =
        match s.addRules c candidates with
        | (_, .error _) => s.facts
        | (entered, .ok ()) => (runBody c stop entered body).system.facts) ∧
    (∀ bound body stop,
      ((roundLimit bound body stop).run c s).system.facts =
        match Settings.rounds bound with
        | .error _ => s.facts
        | .ok limit => (runBody c stop (s.withMaxRounds limit) body).system.facts) ∧
    (∀ vs, EntersUpTo s (vs.map asFact) ((addFacts vs).run c s)) ∧
    (∀ equations unknowns parameters,
      EntersUpTo s (equations.map asEquation ++ (unknowns.map asFact ++ parameters.map asFact))
        ((connect ⟨.listing equations, .listing unknowns, .listing parameters⟩).run c s)) ∧
    (∀ v f, asFact v = .error f → f.kind = .invalidExpression ∧ v.isTerm = false) ∧
    (∀ v f, asEquation v = .error f →
      (∃ l r, v = .tuple [l, r] ∧ l.equate r = .error f) ∨
        f.kind = .invalidExpression ∧ ∃ w, equationFact v = .ok w ∧ w.isTerm = false) ∧
    (∀ m : Model, (∀ equations unknowns parameters,
        m ≠ ⟨.listing equations, .listing unknowns, .listing parameters⟩) →
      ∃ f, f.kind = .construction ∧ (connect m).run c s = ⟨s, .error f, []⟩) := by
  refine ⟨fun command => ?_, fun command => facts_run_of_entersNothing c s,
    fun candidates body stop => ⟨(addRules_enters c s candidates).facts_eq_of_nil,
      facts_run_extraRules c s candidates body stop⟩,
    facts_run_roundLimit c s, addFacts_entersUpTo c s, connect_entersUpTo c s,
    fun v f => kind_of_asFact_eq_error, fun v f => kind_of_asEquation_eq_error, fun m hm => ?_⟩
  · obtain ⟨es, hes⟩ := run_enters c s command
    rw [hes.facts_eq]
    exact List.prefix_append _ _
  · obtain ⟨name, hname⟩ := s.connect_of_lacking hm
    refine ⟨.modelLacks name, rfl, ?_⟩
    rw [run, connectModel, hname]
    rfl

/-- A model whose second parameter is a text enters what comes before it, and a model whose second
equation has sides of sorts that do not fit enters the first. -/
theorem facts_append_only_failing_models :
    let s : Reasoner := ⟨"demo", "", .empty, .empty, .new [] (.number 3)⟩
    let x : Expr := .var "x" .int
    let y : Expr := .var "y" .int
    let u : Expr := .var "u" (.named "U")
    let texts := (connect ⟨.listing [.tuple [.term x, .term y]], .listing [.term x],
      .listing [.term y, .text "k", .term u]⟩).run .initial s
    let sorts := (connect ⟨.listing [.tuple [.term x, .term y], .tuple [.term x, .term u]],
      .listing [.term x], .listing []⟩).run .initial s
    (texts.system.facts = [.app .eq [x, y], x, y] ∧
        texts.answer = .error (.invalidExpression "fact" (.text "k"))) ∧
      sorts.system.facts = [.app .eq [x, y]] ∧ sorts.answer = .error .illSorted := by
  intro s x y u texts sorts
  obtain ⟨-, -, -, -, -, hconnect, -⟩ := facts_append_only .initial s
  exact ⟨(hconnect _ _ _).upTo [.app .eq [x, y], x, y] _ [.ok u] rfl,
    (hconnect _ _ _).upTo [.app .eq [x, y]] _ [.ok x] rfl⟩

end Command

end Deduce
