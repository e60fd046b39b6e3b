import Deduce.Term.Substitution
import Deduce.Value.Equality

/-!
# Building terms from values

The operations that build terms, on values that need not be terms: an implication takes truth
values for statements, replacing asks for three terms, and an operator that is applied to no
operands gives the neutral number of a sum or product.
-/

namespace Deduce

/-- The result of a construction that fails when sorts do not fit. -/
def Failure.orIllSorted (e? : Option Expr) : Except Failure Value :=
  match e? with
  | some e => .ok (.term e)
  | none => .error .illSorted

namespace Value

/-- A value as a statement. -/
def statement? : Value → Option Expr
  | .truth b => some (.truth b)
  | .term e => some e
  | _ => none

/-- The implication from one statement to another. -/
def implies (a b : Value) : Except Failure Value :=
  Failure.orIllSorted do
    let a ← a.statement?
    let b ← b.statement?
    Expr.mkImplies? a b

/-- A term with every occurrence of a second term replaced by a third. -/
def substitute (e old new : Value) : Except Failure Value :=
  Failure.orIllSorted do
    let e ← e.term?
    let old ← old.term?
    let new ← new.term?
    e.substitute? old new

end Value

/-- The operator of a term over new arguments; a sum of nothing is the number zero and a product
of nothing the number one. -/
def Expr.rebuild (e : Expr) (es : List Expr) : Except Failure Value :=
  if es.isEmpty && e.isCompound && e.isSum then .ok (.number 0)
  else if es.isEmpty && e.isCompound && e.isProduct then .ok (.number 1)
  else
    match e.withArgs es with
    | .ok r => .ok (.term r)
    | .error m => .error (.ofMisfit m)

end Deduce
