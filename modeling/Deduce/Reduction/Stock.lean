import Deduce.Data.Lookup
import Deduce.Inspect.Threshold
import Deduce.Reduction.Optimize
import Deduce.Rule.Stock

/-!
# Ready-made reductions

Small functions to build reductions from: constants, replacements, and changes to the operands of
the node.  Only `optimizingOperands` leaves records: those of the optimizer on every operand.
-/

namespace Deduce.ReductionFunction

/-- A function of terms; a sort stays as it is. -/
def onTerms (f : Expr → Except Failure Value) : ReductionFunction where
  run
    | .term e => f e
    | .sort s => .ok (.sort s)

/-- Leaves the node as it is. -/
def identity : ReductionFunction where
  run n := .ok n.toValue

/-- Returns the same value always. -/
def constant (v : Value) : ReductionFunction where
  run _ := .ok v

/-- The node plus one. -/
def successor : ReductionFunction where
  run n := n.toValue.successor

/-- The negative of the node. -/
def negative : ReductionFunction where
  run n := n.toValue.negative

/-- Turns one term into another and leaves other nodes as they are. -/
def mapping (old new : Expr) : ReductionFunction :=
  onTerms fun e => .ok (.term (if e = old then new else e))

/-- Replaces a term everywhere in the node. -/
def substituting (old new : Expr) : ReductionFunction where
  run n := n.toValue.substitute (.term old) (.term new)

/-- Replaces what is similar to a pattern in the node. -/
def replacingPattern (pattern new : Expr) : ReductionFunction :=
  onTerms fun e => (e.replacePattern .substitution pattern new).map .term

/-- The operator of the node over its operands in reverse. -/
def reversing : ReductionFunction := onTerms fun e => e.rebuild e.args.reverse

/-- The operands of a node. -/
def operands : Node → List Expr
  | .term e => e.args
  | .sort _ => []

/-- The operand at a position, which may be counted from the end. -/
def operandAt (i : Int) : ReductionFunction where
  run n := (Index.get (operands n) i).map .term

/-- The optimized form of a term; it stays as it is where it does not have one. -/
def optimized (e : Expr) : Expr :=
  match (reduceWithin .default optimizations (.term e)).1 with
  | .ok (.term r) => r
  | _ => e

/-- The records of optimizing a term. -/
def optimizationLog (e : Expr) : List Record :=
  (reduceWithin .default optimizations (.term e)).2

/-- The operator of the node over its optimized operands. -/
def optimizingOperands : ReductionFunction where
  run := (onTerms fun e => e.rebuild (e.args.map optimized)).run
  log n := (operands n).flatMap optimizationLog

end Deduce.ReductionFunction
