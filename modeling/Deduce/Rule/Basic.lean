import Deduce.Rule.Canonical
import Deduce.Failure

/-!
# Inference rules

A `Rule` has a name and a function from facts and a probe to a value.  Applying it
(`Rule.apply`) has one of three outcomes: it derives a term, it has nothing to say, or it is at
fault, because the function failed or returned something that is no term.
-/

namespace Deduce

/-- A function from facts and a probe to a value; nothing means that nothing is derived. -/
abbrev RuleFunction := List Expr → Value → Except Failure Value

/-- A term that may be missing, as a value. -/
def Value.ofOption : Option Expr → Value
  | some e => .term e
  | none => .nothing

/-- A canonical rule on a probe that need not be a term.  Modus ponens cannot compare plain data
with the premise of an implication; substitution finds nothing to replace in them. -/
def Canonical.run (c : Canonical) : RuleFunction
  | kb, .term e => .ok (.ofOption (c.derive kb e))
  | kb, v =>
    match c with
    | .modusPonens =>
      match v with
      | .sort _ => .ok .nothing
      | _ => if (implications kb).isEmpty then .ok .nothing else .error .illSorted
    | .transitivity => .ok (.ofOption (Deduce.transitivity kb))
    | .symmetry => .ok (.ofOption (Deduce.symmetry kb))
    | .substitution => .ok .nothing

/-- A named rule. -/
structure Rule where
  /-- The name of the rule. -/
  name : String
  /-- The canonical rule that it is, if it is one. -/
  canonical : Option Canonical
  /-- The function that it evaluates. -/
  run : RuleFunction

/-- The outcomes of applying a rule. -/
inductive Outcome where
  | derived
  | inapplicable
  | faulted
deriving DecidableEq

/-- The name of an outcome. -/
def Outcome.label : Outcome → String
  | .derived => "derived"
  | .inapplicable => "inapplicable"
  | .faulted => "faulted"

/-- The result of applying a rule. -/
inductive Verdict where
  | derived (fact : Expr)
  | inapplicable
  | faulted (cause : Failure)

namespace Verdict

/-- The outcome of a result. -/
def outcome : Verdict → Outcome
  | .derived _ => .derived
  | .inapplicable => .inapplicable
  | .faulted _ => .faulted

/-- The term that was derived. -/
def fact? : Verdict → Option Expr
  | .derived e => some e
  | _ => none

/-- The result for what a rule returned. -/
def ofReturn : Except Failure Value → Verdict
  | .error f => .faulted f
  | .ok .nothing => .inapplicable
  | .ok (.term e) => .derived e
  | .ok v => .faulted (.notExpression v.typeName)

end Verdict

namespace Rule

/-- A canonical rule. -/
def ofCanonical (c : Canonical) : Rule := ⟨c.name, some c, c.run⟩

/-- A rule of the caller's. -/
def custom (name : String) (run : RuleFunction) : Rule := ⟨name, none, run⟩

/-- The four canonical rules, in their order. -/
def defaults : List Rule := Canonical.all.map ofCanonical

/-- Applies a rule to facts and a probe. -/
def apply (r : Rule) (kb : List Expr) (probe : Value) : Verdict :=
  .ofReturn (r.run kb probe)

/-- The fault in the result of applying a rule to a probe. -/
def fault? (r : Rule) (probe : Value) : Verdict → Option Fault
  | .faulted cause => some ⟨r.name, probe, cause⟩
  | _ => none

/-- A rule as text. -/
def render (r : Rule) : String :=
  "InferenceRule(" ++ r.name ++ ", " ++
    (if r.canonical.isSome then "canonical" else "custom") ++ ")"

end Rule

end Deduce
