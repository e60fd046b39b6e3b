import Deduce.Term.Basic
import Deduce.Text.Decimal

/-!
# Terms as text

`Expr.render` writes a term on one line: arithmetic and comparisons between their operands,
everything else as a name in front of its arguments in parentheses.  Operands are put in
parentheses by precedence (`Op.precedence?`), and nested sums and products are written without
them (`Op.isAssociative`).  A bound variable appears under the name that its binder gives it.
-/

namespace Deduce

namespace Op

/-- What is written between the operands of an infix operator. -/
def infixText? : Op → Option String
  | .add => some " + "
  | .sub => some " - "
  | .mul => some "*"
  | .div | .idiv => some "/"
  | .mod => some "%"
  | .pow => some "**"
  | .le => some " <= "
  | .ge => some " >= "
  | .lt => some " < "
  | .gt => some " > "
  | .eq => some " == "
  | _ => none

/-- How loosely an infix operator or the unary minus binds its operands. -/
def precedence? : Op → Option Nat
  | .pow => some 0
  | .neg => some 1
  | .mul | .div | .idiv | .mod => some 2
  | .add | .sub => some 3
  | .le | .ge | .lt | .gt | .eq => some 8
  | _ => none

/-- Whether nested applications may be written as one. -/
def isAssociative (op : Op) : Bool := op = .add || op = .mul

/-- Whether a nested application in front may be written without parentheses. -/
def isLeftAssociative (op : Op) : Bool := op.isAssociative || op = .sub

/-- The name in front of the arguments of an operator that is not infix. -/
def callName : Op → String
  | .ite => "If"
  | .and => "And"
  | .or => "Or"
  | .xor => "Xor"
  | .not => "Not"
  | .implies => "Implies"
  | .toReal => "ToReal"
  | .toInt => "ToInt"
  | .isInt => "IsInt"
  | .distinct => "Distinct"
  | .fn name _ _ => name
  | _ => ""

/-- Whether an operand with operator `inner`, the first one or not, is written without
parentheses under the operator `outer`, which binds as loosely as `outerPrec`. -/
def admits (outer : Op) (outerPrec : Nat) (first : Bool) (inner : Op) (innerPrec : Nat) : Bool :=
  innerPrec < outerPrec || (outer = .add && inner = .sub) ||
    (outer = .sub && first && inner = .add)

end Op

/-- The name of a quantifier. -/
def Quantifier.text : Quantifier → String
  | .universal => "ForAll"
  | .existential => "Exists"
  | .lambda => "Lambda"

namespace Expr

/-- A text in parentheses. -/
def parens (s : String) : String := "(" ++ s ++ ")"

/-- The bound variables of a quantifier: one by itself, several in brackets. -/
def binderText : List String → String
  | [n] => n
  | ns => "[" ++ ", ".intercalate ns ++ "]"

/-- An operand of an infix operator, with parentheses where they are needed. -/
def wrapOperand (outer : Op) (outerPrec : Nat) (first : Bool) (e : Expr) (text : String) :
    String :=
  match e with
  | .quant .. => parens text
  | .app inner _ =>
    match inner.precedence? with
    | some p => if outer.admits outerPrec first inner p then text else parens text
    | none => text
  | _ => text

/-- An operand of a power, with parentheses where they are needed. -/
def wrapPower (e : Expr) (text : String) : String :=
  match e with
  | .app inner _ => if inner.precedence?.isSome then parens text else text
  | .real q => if q.den = 1 then text else parens text
  | _ => text

/-- The operand of a unary minus, with parentheses where they are needed. -/
def wrapMinus (e : Expr) (text : String) : String :=
  match e with
  | .quant .. => parens text
  | .app inner _ =>
    match inner.precedence? with
    | some p => if inner ≠ .neg ∧ 1 ≤ p then parens text else text
    | none => text
  | _ => text

mutual

/-- A term as text, under binders of the given names, innermost first. -/
def renderIn (names : List String) : Expr → String
  | .var n _ => n
  | .int k => toString k
  | .real q => Text.ratText q
  | .truth b => if b then "True" else "False"
  | .bound i _ =>
    match names[i]? with
    | some n => n
    | none => "Var(" ++ toString i ++ ")"
  | .quant q bs body =>
    let ns := bs.map Prod.fst
    q.text ++ "(" ++ binderText ns ++ ", " ++ renderIn (ns.reverse ++ names) body ++ ")"
  | .app op [] => op.callName
  | .app .pow as => "**".intercalate (renderPowers names as)
  | .app .neg (a :: _) => "-" ++ wrapMinus a (renderIn names a)
  | .app .distinct [a, b] => " != ".intercalate (renderOperands names .distinct 100000 true [a, b])
  | .app op as =>
    match op.infixText?, op.precedence? with
    | some sep, some p => sep.intercalate (renderOperands names op p true as)
    | _, _ => op.callName ++ "(" ++ ", ".intercalate (renderList names as) ++ ")"

/-- The operands of an infix operator, those of nested applications spliced in. -/
def renderOperands (names : List String) (outer : Op) (outerPrec : Nat) (first : Bool) :
    List Expr → List String
  | [] => []
  | .app inner as :: es =>
    let rest := renderOperands names outer outerPrec false es
    if inner = outer ∧ (outer.isAssociative ∨ (first ∧ outer.isLeftAssociative)) then
      renderOperands names outer outerPrec true as ++ rest
    else
      wrapOperand outer outerPrec first (.app inner as) (renderIn names (.app inner as)) :: rest
  | e :: es =>
    wrapOperand outer outerPrec first e (renderIn names e) ::
      renderOperands names outer outerPrec false es

/-- The operands of a power. -/
def renderPowers (names : List String) : List Expr → List String
  | [] => []
  | e :: es => wrapPower e (renderIn names e) :: renderPowers names es

/-- The arguments of a call. -/
def renderList (names : List String) : List Expr → List String
  | [] => []
  | e :: es => renderIn names e :: renderList names es

end

/-- A term as text. -/
def render (e : Expr) : String := renderIn [] e

end Expr

end Deduce
