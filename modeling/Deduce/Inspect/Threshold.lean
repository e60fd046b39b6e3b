import Deduce.Term.Pattern
import Deduce.Value.Build

/-!
# Thresholds

A score of similarity counts when it is greater than a threshold.  A threshold may be any value,
and one that is no number makes the first comparison fail (`Threshold.ofValue`).
`Expr.replacePattern` replaces the nodes that are similar to a pattern, and `Expr.symmetries`
lists the similar operands of a sum or product.
-/

namespace Deduce

/-- A level that scores are compared with, or the reason why they cannot be. -/
inductive Threshold where
  | level (x : Float)
  | incomparable (reason : Failure)

namespace Threshold

/-- A threshold from a value.  A comparison with a numeric term is itself a term, and so no
condition. -/
def ofValue : Value → Threshold
  | .truth b => .level (if b then 1.0 else 0.0)
  | .number n => .level (Float.ofInt n)
  | .double d => .level d.value
  | .term e => .incomparable (if e.isArith then .illSorted else .unsupported e.typeName)
  | v => .incomparable (.unsupported v.typeName)

/-- The similarity to a pattern above which a node is replaced. -/
def substitution : Threshold := .level 0.99

/-- The similarity above which two operands count as symmetric. -/
def symmetry : Threshold := .level 0.8

/-- The threshold for symmetries that a caller asks for; nothing stands for the default. -/
def forSymmetries : Option Value → Threshold
  | none | some .nothing => symmetry
  | some v => ofValue v

/-- The threshold for replacements that a caller asks for. -/
def forReplacements : Option Value → Threshold
  | none => substitution
  | some v => ofValue v

end Threshold

namespace Expr

/-- Puts a term in the place of every outermost node that is similar to a pattern. -/
def replacePattern (e : Expr) (t : Threshold) (pattern new : Expr) : Except Failure Expr :=
  match t with
  | .incomparable reason => .error reason
  | .level x =>
    (replaceWhere (fun n => n.similarity pattern > x) new e).mapError Failure.ofMisfit

/-- The pairs of operands of a sum or product whose similarity is above a threshold. -/
def symmetries (t : Threshold) (e : Expr) : Except Failure (List (Symmetry Float)) :=
  match t with
  | .level x => .ok (e.symmetriesAs Float fun s => s > x)
  | .incomparable reason =>
    if (e.operandPairs Float).isEmpty then .ok [] else .error reason

end Expr

end Deduce
