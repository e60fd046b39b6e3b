import Deduce.Chaining.Tally

/-!
# Rounds of forward chaining

In a round every rule is applied to every fact as the probe, the facts being those known at the
start of the round (`applications`).  What is derived and not yet known, each term once, makes
the steps of the round (`newSteps`), and the next round starts with their terms added.  `rounds`
goes on until a round finds nothing, or a bound is reached.
-/

namespace Deduce

/-- One application of a rule to a fact. -/
structure Application where
  /-- The fact used as the probe. -/
  premise : Expr
  /-- The name of the rule. -/
  rule : String
  /-- What came of it. -/
  verdict : Verdict

/-- One new term found by forward chaining. -/
structure Step where
  /-- The number of the round, from one on. -/
  round : Nat
  /-- The fact used as the probe. -/
  premise : Expr
  /-- The name of the rule. -/
  rule : String
  /-- The term that was found. -/
  derived : Expr
deriving DecidableEq

/-- A step in one line. -/
def Step.render (s : Step) : String :=
  "[round " ++ toString s.round ++ "] " ++ s.rule ++ "(" ++ s.premise.render ++ ") ⊢ " ++
    s.derived.render

/-- All applications of rules to facts, fact by fact. -/
def applications (rules : List Rule) (facts : List Expr) : List Application :=
  facts.flatMap fun f => rules.map fun r => ⟨f, r.name, r.apply facts (.term f)⟩

/-- The applications that found a term that was not known, neither before nor through an earlier
application. -/
def newSteps (round : Nat) (known : List Expr) : List Application → List Step
  | [] => []
  | a :: as =>
    match a.verdict.fact? with
    | none => newSteps round known as
    | some e =>
      if e ∈ known then newSteps round known as
      else ⟨round, a.premise, a.rule, e⟩ :: newSteps round (e :: known) as

/-- What happened in a round. -/
structure Round where
  /-- The applications, in order. -/
  applications : List Application
  /-- The steps that found something new. -/
  steps : List Step

namespace Round

/-- The terms found in a round. -/
def facts (r : Round) : List Expr := r.steps.map Step.derived

/-- The round of a given number over the facts known at its start. -/
def run (rules : List Rule) (number : Nat) (known : List Expr) : Round :=
  let as := Deduce.applications rules known
  ⟨as, newSteps number known as⟩

end Round

/-- The rounds from the facts `known` on, at most `bound` of them; the first has the given number,
and a round that finds nothing is the last. -/
def rounds (rules : List Rule) : (bound number : Nat) → (known : List Expr) → List Round
  | 0, _, _ => []
  | n + 1, k, known =>
    let r := Round.run rules k known
    if r.steps.isEmpty then [r] else r :: rounds rules n (k + 1) (known ++ r.facts)

/-- A run of forward chaining: its rounds. -/
structure Saturation where
  /-- The rounds, in order. -/
  rounds : List Round

namespace Saturation

/-- Forward chaining from a list of facts, for at most `bound` rounds. -/
def run (rules : List Rule) (bound : Nat) (facts : List Expr) : Saturation :=
  ⟨Deduce.rounds rules bound 1 facts⟩

/-- The steps, in order. -/
def steps (s : Saturation) : List Step := s.rounds.flatMap Round.steps

/-- The terms found, in order. -/
def facts (s : Saturation) : List Expr := s.steps.map Step.derived

/-- The applications of rules, in order. -/
def applications (s : Saturation) : List Application := s.rounds.flatMap Round.applications

/-- Whether the last round still found something. -/
def exhausted (s : Saturation) : Bool :=
  match s.rounds.getLast? with
  | some r => !r.steps.isEmpty
  | none => false

end Saturation

end Deduce
