import Deduce.Term.Basic

/-!
# Free variables

`Expr.freeVariables` collects the variables of a term in the order of their first occurrence,
reading left to right and looking under binders.  It works through a stack of terms still to be
read and skips terms that it has read before, so a subterm that occurs often is read once.
`Expr.occurrences` is the plain walk: every occurrence, in the same order.
-/

namespace Deduce.Expr

mutual

/-- Every occurrence of a variable, left to right, under binders too. -/
def occurrences : Expr → List Expr
  | .var n s => [.var n s]
  | .quant _ _ body => occurrences body
  | .app _ as => occurrencesList as
  | _ => []

/-- The occurrences of variables in a list of terms. -/
def occurrencesList : List Expr → List Expr
  | [] => []
  | a :: as => occurrences a ++ occurrencesList as

end

/-- What the reading of a term leaves to be read. -/
def parts : Expr → List Expr
  | .quant _ _ body => [body]
  | .app _ as => as
  | _ => []

theorem sizeList_parts_lt (e : Expr) : sizeList e.parts < e.size := by
  cases e <;> simp [parts, size, sizeList]

/-- Reads the terms on the stack; `visited` are the terms read before. -/
def collect (visited : List Expr) : (stack : List Expr) → List Expr
  | [] => []
  | e :: stack =>
    if e ∈ visited then collect visited stack
    else
      let rest := collect (e :: visited) (e.parts ++ stack)
      if e.isVariable then e :: rest else rest
termination_by stack => sizeList stack
decreasing_by
  · have := size_pos e
    simp only [sizeList]
    omega
  · have := sizeList_parts_lt e
    simp only [sizeList, sizeList_append]
    omega

/-- The variables of a term, each once, in the order of first occurrence. -/
def freeVariables (e : Expr) : List Expr := collect [] [e]

end Deduce.Expr
