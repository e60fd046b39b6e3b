import Deduce.Data.Table
import Deduce.Inspect.Threshold

/-!
# Annotated terms

An `Annotated` term carries notes under text keys.  The notes do not take part in comparisons,
and a term that is made from another by replacing a pattern starts with a copy of its notes.
-/

namespace Deduce

/-- A term with notes. -/
structure Annotated where
  /-- The term. -/
  expr : Expr
  /-- The notes, in the order in which they were made. -/
  notes : Table String Value

namespace Annotated

/-- Replaces a pattern in the term; the notes are kept. -/
def replace (a : Annotated) (pattern new : Expr) : Except Failure Annotated :=
  (a.expr.replacePattern .substitution pattern new).map fun e => ⟨e, a.notes⟩

/-- Adds notes; a note under a key that is present replaces the one there. -/
def annotate (a : Annotated) (notes : List (String × Value)) : Annotated :=
  ⟨a.expr, a.notes.insertAll notes⟩

/-- Whether two annotated terms are the same, whatever their notes; terms without a common sort
cannot be compared. -/
def equal (a b : Annotated) : Except Failure Bool := Value.termEquals a.expr (.term b.expr)

/-- The term of an annotated term cannot be exchanged. -/
def setExpr (_ : Annotated) (_ : Expr) : Except Failure Annotated := .error .frozen

end Annotated

end Deduce
