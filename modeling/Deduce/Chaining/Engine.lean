import Deduce.Chaining.Round
import Deduce.Log
import Deduce.Settings

/-!
# The engine

An `Engine` holds an ordered list of rules, a bound on the rounds of forward chaining, the
tallies of its rules and the steps of its last run of forward chaining.  It holds no facts:
`Engine.infer` applies every rule to a probe, and `Engine.saturate` chains forward from the facts
it is given.
-/

namespace Deduce

/-- The state of an engine. -/
structure Engine where
  /-- The rules, in order. -/
  rules : List Rule
  /-- The bound on the rounds of forward chaining. -/
  maxRounds : Whole
  /-- The tallies of the rules. -/
  stats : Stats
  /-- The steps of the last run of forward chaining. -/
  steps : List Step

namespace Engine

/-- An engine that has not run yet. -/
def new (rules : List Rule) (maxRounds : Whole) : Engine := ⟨rules, maxRounds, .empty, []⟩

/-- Counts the outcome of applying a rule. -/
def record (g : Engine) (rule : String) (v : Verdict) : Engine :=
  { g with stats := g.stats.record rule v.outcome }

/-- Applies a rule and counts the outcome. -/
def applyRule (g : Engine) (r : Rule) (kb : List Expr) (probe : Value) : Engine × Verdict :=
  let v := r.apply kb probe
  (g.record r.name v, v)

/-- The outcomes of a list of rules applied to a probe. -/
def verdicts (rules : List Rule) (kb : List Expr) (probe : Value) : List (String × Verdict) :=
  rules.map fun r => (r.name, r.apply kb probe)

/-- What the rules derive from a probe, one term for every rule that derives one. -/
def derivations (rules : List Rule) (kb : List Expr) (probe : Value) : List Expr :=
  (verdicts rules kb probe).filterMap fun v => v.2.fact?

/-- Applies every rule to a probe, in order. -/
def infer (g : Engine) (kb : List Expr) (probe : Value) : Engine × List Expr :=
  ((verdicts g.rules kb probe).foldl (fun g v => g.record v.1 v.2) g,
    derivations g.rules kb probe)

/-- The bound of a run of forward chaining; nothing stands for the bound of the engine.  Rounds
are counted by whole numbers, but a negative number of any kind allows none. -/
def roundBound (g : Engine) : Value → Except Failure Int
  | .nothing => .ok g.maxRounds.toInt
  | .truth b => .ok (if b then 1 else 0)
  | .number n => .ok n
  | .double d => if d.value < 0.0 then .ok 0 else .error (.unsupported "float")
  | .term e => .error (if e.isArith then .illSorted else .unsupported e.typeName)
  | v => .error (.unsupported v.typeName)

/-- What a run of forward chaining reports: a warning if its last round still found something,
and a summary. -/
def saturationLog (s : Saturation) (bound : Int) (facts rules : Nat) : List Record :=
  (if s.exhausted then
    [⟨.warning, "Saturation round bound reached (" ++ toString bound ++
      "); further rounds may derive more facts"⟩]
  else []) ++
  [⟨.info, "Saturation over " ++ toString facts ++ " fact(s) with " ++ toString rules ++
    " rule(s) derived " ++ toString s.facts.length ++ " new fact(s)"⟩]

/-- The engine after a run of forward chaining. -/
def afterSaturation (g : Engine) (s : Saturation) : Engine :=
  { s.applications.foldl (fun g a => g.record a.rule a.verdict) g with steps := s.steps }

/-- Chains forward from a list of facts and lists what was found; a bound that is no number
fails, and the steps of the last run are gone then. -/
def saturate (g : Engine) (kb : List Expr) (bound : Value) :
    Engine × Except Failure (List Expr) × List Record :=
  match g.roundBound bound with
  | .error f => ({ g with steps := [] }, .error f, [])
  | .ok n =>
    let s := Saturation.run g.rules n.toNat kb
    (g.afterSaturation s, .ok s.facts, saturationLog s n kb.length g.rules.length)

/-- Forgets the tallies and the steps. -/
def resetStats (g : Engine) : Engine := { g with stats := .empty, steps := [] }

end Engine

end Deduce
