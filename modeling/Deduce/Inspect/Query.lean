import Deduce.Failure
import Deduce.Term.Metrics

/-!
# Searching a term

A `Query` is a condition on the nodes of a term, and `Expr.search` lists the nodes that meet it,
from the root down and left to right.  Asking for the name of an operator fails on an atom, so
such a search fails on every term that has one.
-/

namespace Deduce

/-- The operator of a term, which must be compound. -/
def Expr.operator (e : Expr) : Except Failure Operator :=
  match e.operator? with
  | some op => .ok op
  | none => .error (.atomOperator e)

/-- A condition on a node. -/
inductive Query where
  | compound
  | atom
  | var
  | commutative
  | sum
  | product
  | negation
  | equation
  | implication
  | all
  | nothing
  /-- The operator has the given name. -/
  | named (name : String)
  /-- The node is a numeral of the given value. -/
  | numeral (value : Rat)
  /-- The node is the given term. -/
  | same (e : Expr)

/-- Whether a node meets a condition. -/
def Query.holds : Query → Expr → Except Failure Bool
  | .compound, e => .ok e.isCompound
  | .atom, e => .ok e.isAtom
  | .var, e => .ok e.isVariable
  | .commutative, e => .ok e.isCommutative
  | .sum, e => .ok e.isSum
  | .product, e => .ok e.isProduct
  | .negation, e => .ok e.isNegation
  | .equation, e => .ok e.isEquation
  | .implication, e => .ok e.isImplication
  | .all, _ => .ok true
  | .nothing, _ => .ok false
  | .named n, e => e.operator.map fun op => op.name = n
  | .numeral q, e => .ok (e.isNumeralOf q)
  | .same e', e => .ok (e = e')

/-- The nodes of a term that meet a condition. -/
def Expr.search (q : Query) (e : Expr) : Except Failure (List Expr) :=
  e.nodes.filterM q.holds

end Deduce
