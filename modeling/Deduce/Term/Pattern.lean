import Deduce.Term.Build
import Deduce.Term.Similarity

/-!
# Patterns

The patterns of a term (`Expr.patterns`) are its nodes and, for every sum or product of more than
two operands, the sums or products of two neighbours; each is listed once, where it first occurs.

`Expr.replaceWhere` puts a term in the place of every node that meets a condition, from the root
down, and rebuilds what stands above.  With the condition that a node is similar to a pattern
this replaces a pattern up to small differences.

`Expr.symmetriesAs` lists the pairs of operands of a sum or product that resemble each other.
-/

namespace Deduce

namespace Expr

/-! ### Patterns of a term -/

/-- The applications of an operator to two neighbours in a list. -/
def neighbours (op : Op) : List Expr → List Expr
  | a :: b :: as => .app op [a, b] :: neighbours op (b :: as)
  | _ => []

/-- The pairs of neighbouring operands of a sum or product of more than two. -/
def adjacentPairs (op : Op) (as : List Expr) : List Expr :=
  if (op = .add ∨ op = .mul) ∧ 2 < as.length then neighbours op as else []

mutual

/-- The nodes of a term and its pairs of neighbouring operands, each once. -/
def patterns : Expr → List Expr
  | .app op as => (.app op as :: patternsList as ++ adjacentPairs op as).eraseDups
  | e => [e]

/-- The patterns of the terms of a list, one list after the other. -/
def patternsList : List Expr → List Expr
  | [] => []
  | a :: as => patterns a ++ patternsList as

end

/-! ### Replacing nodes -/

mutual

/-- Puts `new` in the place of every outermost node that meets a condition and rebuilds what
stands above, from the innermost node and the first argument on. -/
def replaceWhere (hit : Expr → Bool) (new : Expr) : Expr → Except Misfit Expr
  | .app op as =>
    if hit (.app op as) then .ok new
    else (replaceWhereList hit new as).bind fun bs => withArgs (.app op as) bs
  | e => if hit e then .ok new else .ok e

/-- `replaceWhere` in every term of a list. -/
def replaceWhereList (hit : Expr → Bool) (new : Expr) :
    List Expr → Except Misfit (List Expr)
  | [] => .ok []
  | a :: as => do
    let b ← replaceWhere hit new a
    let bs ← replaceWhereList hit new as
    return b :: bs

end

end Expr

/-! ### Similar operands -/

/-- Two operands that resemble each other, by their positions, and how far they do. -/
structure Symmetry (α : Type) where
  /-- The position of the first operand. -/
  first : Nat
  /-- The position of the second operand, which is greater. -/
  second : Nat
  /-- How far the operands agree. -/
  score : α

namespace Expr

/-- Pairs a term at position `i` with each of the terms from position `j` on. -/
def pairsFrom (α : Type) [Score α] (i : Nat) (a : Expr) (j : Nat) : List Expr → List (Symmetry α)
  | [] => []
  | b :: bs => ⟨i, j, similarityAs α a b⟩ :: pairsFrom α i a (j + 1) bs

/-- All pairs of terms of a list that starts at position `i`, in the order of positions. -/
def pairs (α : Type) [Score α] (i : Nat) : List Expr → List (Symmetry α)
  | [] => []
  | a :: as => pairsFrom α i a (i + 1) as ++ pairs α (i + 1) as

/-- The pairs of operands of a sum or product. -/
def operandPairs (α : Type) [Score α] (e : Expr) : List (Symmetry α) :=
  if e.isCommutative then pairs α 0 e.args else []

/-- The pairs of operands of a sum or product whose score is high enough. -/
def symmetriesAs (α : Type) [Score α] (exceeds : α → Bool) (e : Expr) : List (Symmetry α) :=
  (e.operandPairs α).filter fun s => exceeds s.score

end Expr

end Deduce
