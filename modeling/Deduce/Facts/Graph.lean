import Deduce.Data.Table
import Deduce.Failure
import Deduce.Term.Variables

/-!
# Facts by variable

A `Graph` leads from a variable to the facts that mention it.  A fact is entered under each of
its free variables (`Graph.index`); variables are listed in the order of their first mention, and
the facts of a variable in the order in which they were entered.

* `Graph.factsFor_link` : entering a fact under a variable changes the facts of that variable only.
-/

namespace Deduce

/-- Facts by the variables that occur in them. -/
structure Graph where
  /-- The facts of each variable. -/
  entries : Table Expr (List Expr)

namespace Graph

/-- The graph without facts. -/
def empty : Graph := ⟨.empty⟩

/-- Enters a fact under one variable. -/
def link (g : Graph) (fact v : Expr) : Graph :=
  ⟨g.entries.alter v fun facts => facts.getD [] ++ [fact]⟩

/-- Enters a fact under each of its free variables. -/
def index (g : Graph) (fact : Expr) : Graph :=
  fact.freeVariables.foldl (fun g v => g.link fact v) g

/-- The variables, in the order of their first mention. -/
def vars (g : Graph) : List Expr := g.entries.keys

/-- The number of variables. -/
def size (g : Graph) : Nat := g.entries.size

/-- The facts that mention a variable; none if it is unknown. -/
def factsFor (g : Graph) (v : Expr) : List Expr := (g.entries.get? v).getD []

theorem factsFor_link (g : Graph) (fact v w : Expr) :
    (g.link fact v).factsFor w = if w = v then g.factsFor v ++ [fact] else g.factsFor w := by
  unfold link factsFor Table.alter
  rw [Table.get?_insert]
  split <;> rfl

/-- The facts that mention a variable, which must be known. -/
def get (g : Graph) (v : Expr) : Except Failure (List Expr) :=
  match g.entries.get? v with
  | some facts => .ok facts
  | none => .error (.unknownVariable v)

/-- Whether a value is a known variable. -/
def contains (g : Graph) : Value → Bool
  | .term e => g.entries.contains e
  | _ => false

/-- A graph as text. -/
def render (g : Graph) : String := "ReasoningGraph(" ++ toString g.size ++ " variables)"

end Graph

end Deduce
