import Deduce.Term.Sorting

/-!
# The identity of operators

Two applications have the same operator when family and name agree (`Expr.operator?`).  Sorts are
not part of it, so the integer and the real sum have one operator; the two powers have two, since
their names differ.
-/

namespace Deduce

/-- The identity of an operator. -/
structure Operator where
  /-- The number of the operator's family. -/
  kind : Nat
  /-- Its name. -/
  name : String
deriving DecidableEq

namespace Op

/-- The number of an operator's family. -/
def kind : Op → Nat
  | .eq => 258
  | .distinct => 259
  | .ite => 260
  | .and => 261
  | .or => 262
  | .xor => 264
  | .not => 265
  | .implies => 266
  | .le => 514
  | .ge => 515
  | .lt => 516
  | .gt => 517
  | .add => 518
  | .sub => 519
  | .neg => 520
  | .mul => 521
  | .div => 522
  | .idiv => 523
  | .mod => 525
  | .toReal => 526
  | .toInt => 527
  | .isInt => 528
  | .pow => 529
  | .fn .. => 49167

/-- The name of an operator whose application has the given sort. -/
def name : Op → Ty → String
  | .eq, _ => "="
  | .distinct, _ => "distinct"
  | .ite, _ => "if"
  | .and, _ => "and"
  | .or, _ => "or"
  | .xor, _ => "xor"
  | .not, _ => "not"
  | .implies, _ => "=>"
  | .le, _ => "<="
  | .ge, _ => ">="
  | .lt, _ => "<"
  | .gt, _ => ">"
  | .add, _ => "+"
  | .sub, _ | .neg, _ => "-"
  | .mul, _ => "*"
  | .div, _ => "/"
  | .idiv, _ => "div"
  | .mod, _ => "mod"
  | .toReal, _ => "to_real"
  | .toInt, _ => "to_int"
  | .isInt, _ => "is_int"
  | .pow, t => if t = .real then "^" else "**"
  | .fn name _ _, _ => name

end Op

namespace Expr

/-- The operator of a compound term. -/
def operator? : Expr → Option Operator
  | .app op (a :: as) => some ⟨op.kind, op.name (op.result (sorts (a :: as)))⟩
  | _ => none

theorem operator?_isSome (e : Expr) : e.operator?.isSome = e.isCompound := by
  match e with
  | .var .. | .int _ | .real _ | .truth _ | .bound .. | .quant .. | .app _ [] => rfl
  | .app _ (_ :: _) => rfl

end Expr

end Deduce
