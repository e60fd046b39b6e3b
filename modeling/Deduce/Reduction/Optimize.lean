import Deduce.Reduction.Basic
import Deduce.Term.Build

/-!
# The optimizer

Three reductions at the root of a term: zeros are dropped from a sum (`dropZeros`), ones from a
product (`dropOnes`), and a double minus is cancelled (`cancelMinus`).  A sum of zeros and a
product of ones stay as they are, and a single operand that is left stands for itself.
-/

namespace Deduce

/-- Drops the operands of an operator that are numerals of the neutral value, unless that would
leave none. -/
def dropNeutral (op : Op) (neutral : Rat) : Expr → Except Misfit Expr
  | .app o as =>
    if o = op then
      let kept := as.filter fun a => !a.isNumeralOf neutral
      if kept.length = as.length ∨ kept = [] then .ok (.app o as)
      else (Expr.app o as).withArgs kept
    else .ok (.app o as)
  | e => .ok e

/-- Drops the zeros of a sum. -/
def dropZeros : Expr → Except Misfit Expr := dropNeutral .add 0

/-- Drops the ones of a product. -/
def dropOnes : Expr → Except Misfit Expr := dropNeutral .mul 1

/-- Cancels a double minus. -/
def cancelMinus : Expr → Expr
  | .app .neg [.app .neg [e]] => e
  | e => e

/-- The built-in reductions. -/
inductive Optimization where
  | dropZeros
  | dropOnes
  | cancelMinus
deriving DecidableEq

namespace Optimization

/-- All built-in reductions, in their order. -/
def all : List Optimization := [.dropZeros, .dropOnes, .cancelMinus]

/-- The name of a built-in reduction. -/
def name : Optimization → String
  | .dropZeros => "eliminate_additive_zero"
  | .dropOnes => "eliminate_multiplicative_one"
  | .cancelMinus => "cancel_double_negation"

/-- The built-in reduction of a name. -/
def ofName? (s : String) : Option Optimization := all.find? fun o => o.name = s

/-- What a built-in reduction makes of a term. -/
def onTerm : Optimization → Expr → Except Misfit Expr
  | .dropZeros, e => Deduce.dropZeros e
  | .dropOnes, e => Deduce.dropOnes e
  | .cancelMinus, e => .ok (Deduce.cancelMinus e)

/-- A built-in reduction on a node; a sort stays as it is. -/
def run (o : Optimization) : Node → Except Failure Value
  | .sort s => .ok (.sort s)
  | .term e =>
    match o.onTerm e with
    | .ok r => .ok (.term r)
    | .error m => .error (.ofMisfit m)

/-- A built-in reduction as a function; it leaves no records. -/
def toFunction (o : Optimization) : ReductionFunction := { run := o.run }

/-- A built-in reduction under its name. -/
def toReduction (o : Optimization) : Reduction := ⟨o.toFunction, o.name⟩

end Optimization

/-- The built-in reductions in their order. -/
def optimizations : List Reduction := Optimization.all.map Optimization.toReduction

end Deduce
