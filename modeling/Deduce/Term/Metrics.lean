import Deduce.Term.Operator

/-!
# Measures of a term

The reasoning layer sees a term as a tree whose inner nodes are its compound subterms; a
quantified term is a leaf.  `Expr.nodes` lists that tree from the root, left to right,
`Expr.depth` is its height and `Expr.complexity` counts its nodes and adds a weight for every
operator, which depends on the operator's name alone (`operatorWeight`).
-/

namespace Deduce

/-- What an operator of the given name adds to the complexity of a term: basic arithmetic weighs
one, elementary functions two, everything else three. -/
def operatorWeight (name : String) : Nat :=
  if name ∈ ["+", "-", "*", "/", "div"] then 1
  else if name ∈ ["^", "exp", "log", "sin", "cos"] then 2
  else 3

namespace Expr

mutual

/-- The number of nodes on the longest path from the root. -/
def depth : Expr → Nat
  | .app _ (a :: as) => 1 + max (depth a) (depthList as)
  | _ => 1

/-- The greatest depth in a list of terms. -/
def depthList : List Expr → Nat
  | [] => 0
  | a :: as => max (depth a) (depthList as)

end

mutual

/-- One for every node, and the weight of every operator. -/
def complexity : Expr → Nat
  | .app op (a :: as) =>
    1 + (complexity a + complexityList as) + operatorWeight (op.name (op.result (sorts (a :: as))))
  | _ => 1

/-- The complexities of a list of terms added up. -/
def complexityList : List Expr → Nat
  | [] => 0
  | a :: as => complexity a + complexityList as

end

mutual

/-- The term and everything below it, the root first and arguments left to right. -/
def nodes : Expr → List Expr
  | .app op as => .app op as :: nodesList as
  | e => [e]

/-- The nodes of a list of terms. -/
def nodesList : List Expr → List Expr
  | [] => []
  | a :: as => nodes a ++ nodesList as

end

theorem nodesList_eq_flatMap (as : List Expr) : nodesList as = as.flatMap nodes := by
  induction as with
  | nil => rfl
  | cons a as ih => simp [nodesList, ih]

theorem mem_nodes_self (e : Expr) : e ∈ e.nodes := by
  cases e <;> simp [nodes]

/-- The names of the operators in a term, each once, in the order of first occurrence. -/
def operations (e : Expr) : List String :=
  (e.nodes.filterMap fun n => n.operator?.map Operator.name).eraseDups

end Expr

end Deduce
