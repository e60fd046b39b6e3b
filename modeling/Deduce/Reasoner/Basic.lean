import Deduce.Catalog.Resolve
import Deduce.Chaining.Engine
import Deduce.Facts.Graph
import Deduce.Facts.Ledger
import Deduce.Reasoner.Validation

/-!
# Reasoning systems

A `Reasoner` is a ledger of facts, a graph that leads from variables to facts, and an engine, under
a name.  Facts enter through `Reasoner.record` alone, which keeps ledger and graph in step.
`Reasoner.create` checks everything that it is given before it builds a system.
-/

namespace Deduce

/-- A reasoning system. -/
structure Reasoner where
  /-- The name of the system. -/
  name : String
  /-- A free text. -/
  description : String
  /-- The facts. -/
  ledger : Ledger
  /-- The facts by variable. -/
  graph : Graph
  /-- The rules and what they did. -/
  engine : Engine

/-- What may be given for the settings of a system: settings, or any value in their place.  Rules
are no values, so a rule cannot stand here. -/
inductive SettingsSource where
  | settings (s : Settings)
  | value (v : Value)

/-- What a system is made of; everything may be malformed, as far as values go.  A rule can be given
among the rules only and settings in their own field only: the types leave no room for settings in
place of the rules, or for a rule among the facts. -/
structure Blueprint where
  /-- The name. -/
  name : Value
  /-- The facts. -/
  facts : Value
  /-- The rules. -/
  rules : RuleSource
  /-- The description. -/
  description : Value
  /-- The settings. -/
  settings : SettingsSource

namespace Reasoner

/-! ### Facts -/

/-- Enters a fact in the ledger and in the graph. -/
def record (s : Reasoner) (e : Expr) : Reasoner :=
  { s with ledger := s.ledger.add e, graph := s.graph.index e }

/-- The facts, oldest first. -/
def facts (s : Reasoner) : List Expr := s.ledger.facts

/-- Enters a value as a fact; it must be a term. -/
def addFact (s : Reasoner) (v : Value) : Except Failure Reasoner :=
  (requireExpression "fact" v).map s.record

/-- Enters values as facts, up to the first that is no term. -/
def addFacts (s : Reasoner) : List Value → Reasoner × Except Failure Unit
  | [] => (s, .ok ())
  | v :: vs =>
    match s.addFact v with
    | .ok s => s.addFacts vs
    | .error f => (s, .error f)

/-! ### Rules and limits -/

/-- The names of the rules. -/
def ruleNames (s : Reasoner) : List String := s.engine.rules.map Rule.name

/-- The system with other rules. -/
def withRules (s : Reasoner) (rules : List Rule) : Reasoner :=
  { s with engine := { s.engine with rules } }

/-- The system with another bound on rounds. -/
def withMaxRounds (s : Reasoner) (maxRounds : Whole) : Reasoner :=
  { s with engine := { s.engine with maxRounds } }

/-- Adds a rule at the end. -/
def addRule (c : Catalog) (s : Reasoner) (r : RuleCandidate) : Except Failure (Reasoner × Rule) :=
  (c.resolveRule r).map fun r => (s.withRules (s.engine.rules ++ [r]), r)

/-- Adds rules at the end, up to the first that does not resolve. -/
def addRules (c : Catalog) (s : Reasoner) : List RuleCandidate → Reasoner × Except Failure Unit
  | [] => (s, .ok ())
  | r :: rs =>
    match s.addRule c r with
    | .ok (s, _) => s.addRules c rs
    | .error f => (s, .error f)

/-- Replaces the rules. -/
def setRules (c : Catalog) (s : Reasoner) (source : RuleSource) : Except Failure Reasoner := do
  let candidates ← source.candidates
  let rules ← c.resolveRules candidates
  return s.withRules rules

/-! ### Creation -/

/-- The facts that a system starts with: nothing stands for none, and a collection is listed. -/
def materialize : Value → Except Failure Value
  | .nothing => .ok (.list [])
  | .term e => .ok (.term e)
  | v =>
    match v.items? with
    | some vs => .ok (.list vs)
    | none => .error (.factsNotIterable v.typeName)

/-- The rules that a system starts with; a single rule or name is refused. -/
def rulesArgument (name : String) : RuleSource → Except Failure RuleSource
  | .single (.value .nothing) => .ok (.many [])
  | .single (.value (.text _)) | .single (.rule _) | .single (.function ..) =>
    .error (.rulesNotSequence name)
  | source => .ok source

/-- The settings that a system starts with. -/
def settingsArgument (name : String) : SettingsSource → Except Failure Settings
  | .settings s => .ok s
  | .value .nothing => .ok .default
  | .value v => .error (.invalidConfig name v.typeName)

/-- The description that a system starts with. -/
def descriptionArgument (name : String) : Value → Except Failure String
  | .text s => .ok s
  | v => .error (.invalidDescription name v.typeName)

/-- The terms in a list of values. -/
def termsOf (v : Value) : List Expr := (v.items?.getD []).filterMap Value.term?

/-- Builds a system.  Name, description, settings, rules and facts are checked in this order,
then the rules are resolved. -/
def create (c : Catalog) (b : Blueprint) : Except Failure Reasoner := do
  let name ← requireName b.name
  let description ← descriptionArgument name b.description
  let settings ← settingsArgument name b.settings
  let source ← rulesArgument name b.rules
  let facts ← materialize b.facts
  requireFacts facts
  let candidates ← source.candidates
  let rules ← c.resolveRules candidates
  let start : Reasoner := ⟨name, description, .empty, .empty, .new rules settings.maxRounds⟩
  return (termsOf facts).foldl record start

/-! ### Text -/

/-- A system in one line. -/
def render (s : Reasoner) : String :=
  "ReasoningSystem(" ++ Text.quote s.name ++ ", facts=" ++ toString s.ledger.size ++ ", rules=" ++
    (Value.list (s.ruleNames.map .text)).render ++ ")"

end Reasoner

end Deduce
