import Deduce.Term.Basic

/-!
# The sort of a term

`Expr.sort` computes what a term stands for from the sorts of its arguments, and
`Expr.wellSorted` says that every operator is applied to as many arguments, and of such sorts, as
it asks for.
-/

namespace Deduce

/-- The sort of an application, from the sorts of its arguments. -/
def Op.result : Op → List Ty → Ty
  | .add, ts | .mul, ts | .sub, ts | .neg, ts | .pow, ts => ts.headD .int
  | .div, _ | .toReal, _ => .real
  | .idiv, _ | .mod, _ | .toInt, _ => .int
  | .ite, ts => ts.tail.headD .int
  | .fn _ _ r, _ => .base r
  | _, _ => .bool

/-- Whether an operator can be applied to arguments of the given sorts. -/
def Op.accepts : Op → List Ty → Bool
  | .add, ts | .mul, ts => !ts.isEmpty && (ts.all (· = .int) || ts.all (· = .real))
  | .sub, ts | .pow, ts => ts = [.int, .int] || ts = [.real, .real]
  | .le, ts | .ge, ts | .lt, ts | .gt, ts => ts = [.int, .int] || ts = [.real, .real]
  | .neg, ts => ts = [.int] || ts = [.real]
  | .div, ts => ts = [.real, .real]
  | .idiv, ts | .mod, ts => ts = [.int, .int]
  | .toReal, ts => ts = [.int]
  | .toInt, ts | .isInt, ts => ts = [.real]
  | .eq, ts =>
    match ts with
    | [s, t] => s = t
    | _ => false
  | .distinct, ts =>
    match ts with
    | [] => false
    | s :: ts => ts.all (· = s)
  | .ite, ts =>
    match ts with
    | [c, s, t] => c = .bool && s = t
    | _ => false
  | .and, ts | .or, ts => ts.all (· = .bool)
  | .xor, ts | .implies, ts => ts = [.bool, .bool]
  | .not, ts => ts = [.bool]
  | .fn _ domain _, ts => !domain.isEmpty && ts = domain.map .base

namespace Expr

mutual

/-- The sort of a term. -/
def sort : Expr → Ty
  | .var _ s => .base s
  | .int _ => .int
  | .real _ => .real
  | .truth _ => .bool
  | .bound _ s => .base s
  | .quant .lambda binders body => .array (binders.map Prod.snd) (sort body)
  | .quant _ _ _ => .bool
  | .app op as => op.result (sorts as)

/-- The sorts of a list of terms. -/
def sorts : List Expr → List Ty
  | [] => []
  | a :: as => sort a :: sorts as

end

theorem sorts_eq_map (as : List Expr) : sorts as = as.map sort := by
  induction as with
  | nil => rfl
  | cons a as ih => simp [sorts, ih]

mutual

/-- Every operator is applied to arguments of the sorts it asks for, and every quantified body
is a statement. -/
def wellSorted : Expr → Bool
  | .quant .lambda binders body => !binders.isEmpty && wellSorted body
  | .quant _ binders body => !binders.isEmpty && wellSorted body && sort body = .bool
  | .app op as => wellSortedList as && op.accepts (sorts as)
  | _ => true

/-- Every term of a list is well sorted. -/
def wellSortedList : List Expr → Bool
  | [] => true
  | a :: as => wellSorted a && wellSortedList as

end

theorem wellSortedList_eq_all (as : List Expr) : wellSortedList as = as.all wellSorted := by
  induction as with
  | nil => rfl
  | cons a as ih => simp [wellSortedList, ih]

/-- A term of a numeric sort. -/
def isArith (e : Expr) : Bool := e.sort.isArith

/-- A statement. -/
def isBool (e : Expr) : Bool := e.sort = .bool

end Expr

end Deduce
