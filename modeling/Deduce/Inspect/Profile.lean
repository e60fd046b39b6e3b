import Deduce.Inspect.Threshold
import Deduce.Term.Metrics
import Deduce.Term.Variables

/-!
# The profile of a term

A `Profile` gathers what can be said about the structure of a term: its measures, patterns,
variables, operators and symmetries.  The terms in it may be shown in any form, as themselves or
as text (`Profile.map`).
-/

namespace Deduce

/-- What can be said about the structure of a term, where terms are shown as elements of `τ`. -/
structure Profile (τ : Type) where
  /-- The height of the tree. -/
  depth : Nat
  /-- The number of nodes and the weights of the operators. -/
  complexity : Nat
  /-- The patterns, each once. -/
  patterns : List τ
  /-- The variables, each once. -/
  vars : List τ
  /-- The names of the operators, each once. -/
  operations : List String
  /-- The similar operands at the root. -/
  symmetries : List (Symmetry Float)

namespace Profile

variable {τ υ : Type}

/-- The profile with its terms shown in another form. -/
def map (f : τ → υ) (p : Profile τ) : Profile υ :=
  { p with patterns := p.patterns.map f, vars := p.vars.map f }

/-- A profile in one line. -/
def summary (p : Profile τ) : String :=
  let names := ",".intercalate p.operations
  "depth=" ++ toString p.depth ++ " complexity=" ++ toString p.complexity ++
    " patterns=" ++ toString p.patterns.length ++ " variables=" ++ toString p.vars.length ++
    " operations=" ++ (if names.isEmpty then "-" else names) ++
    " symmetries=" ++ toString p.symmetries.length

end Profile

/-- The profile of a term; its symmetries are those above a threshold. -/
def Expr.profile (t : Threshold) (e : Expr) : Except Failure (Profile Expr) := do
  let symmetries ← e.symmetries t
  return {
    depth := e.depth
    complexity := e.complexity
    patterns := e.patterns
    vars := e.freeVariables
    operations := e.operations
    symmetries }

end Deduce
