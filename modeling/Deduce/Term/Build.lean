import Deduce.Term.Sorting

/-!
# Building terms

Terms are built with coercions between sorts where one embeds into the other.  Building fails
where sorts do not fit, and a `Misfit` says how.

* `Expr.castTo` carries a term over to a larger sort;
* `Expr.withArgs` applies the operator of a term to new arguments;
* `Expr.mkImplies?` and `Expr.mkEq?` build implications and equations, the latter with the more
  specific side in front;
* `Expr.bind` turns variables into bound variables, and `Expr.quantify` closes a body under a
  quantifier.
-/

namespace Deduce

/-- Why a term cannot be built. -/
inductive Misfit where
  /-- Sorts do not fit, or arguments are missing or left over. -/
  | sorts
  /-- A number is asked for, and what is given is of a sort that is neither numeric nor that of
  truth values. -/
  | notNumeric (given : Ty)
deriving DecidableEq

/-- How far a quantifier raises the loose bound variables of its body: a lambda abstraction
takes them for its own. -/
def Quantifier.room (q : Quantifier) (vars : List (String × Srt)) : Nat :=
  if q = .lambda then 0 else vars.length

namespace Expr

/-! ### Coercions -/

/-- A term as an element of a larger sort: an integer is converted, a truth value becomes one or
zero. -/
def castTo (t : Ty) (e : Expr) : Except Misfit Expr :=
  if e.sort = t then .ok e
  else match e.sort, t with
    | .base .int, .base .real => .ok (.app .toReal [e])
    | .base .bool, .base .int => .ok (.app .ite [e, .int 1, .int 0])
    | .base .bool, .base .real => .ok (.app .ite [e, .real 1, .real 0])
    | s, t => .error (if t.isArith && !s.isArith && s ≠ .bool then .notNumeric s else .sorts)

/-- Every term of a list as an element of one sort. -/
def castAll (t : Ty) : List Expr → Except Misfit (List Expr)
  | [] => .ok []
  | e :: es => do
    let e ← e.castTo t
    let es ← castAll t es
    return e :: es

/-- Every term of a list as an element of the sort in its place, from the first on; the lists
must be of one length. -/
def castEach : List Ty → List Expr → Except Misfit (List Expr)
  | [], [] => .ok []
  | t :: ts, e :: es => do
    let e ← e.castTo t
    let es ← castEach ts es
    return e :: es
  | _, _ => .error .sorts

/-- A list of terms carried over to the largest of their sorts, and that sort. -/
def unify : List Expr → Except Misfit (Ty × List Expr)
  | [] => .error .sorts
  | e :: es =>
    match e.sort.joinAll? (sorts es) with
    | none => .error .sorts
    | some t => (castAll t (e :: es)).map fun es => (t, es)

/-! ### New arguments -/

/-- An arithmetic operator over at least two operands; truth values count as integers. -/
def buildArith (op : Op) (es : List Expr) : Except Misfit Expr := do
  let (t, es) ← unify es
  if t = .bool then return .app op (← castAll .int es)
  else if t.isArith then return .app op es
  else throw .sorts

/-- A connective over at least two statements. -/
def buildBool (op : Op) (es : List Expr) : Except Misfit Expr := do
  let (t, es) ← unify es
  if t = .bool then return .app op es else throw .sorts

/-- The statement that at least two terms differ pairwise. -/
def buildDistinct (es : List Expr) : Except Misfit Expr := do
  let (_, es) ← unify es
  return .app .distinct es

/-- The sorts in which an application takes its arguments. -/
def domain : Op → List Expr → List Ty
  | .fn _ d _, _ => d.map .base
  | _, as => sorts as

/-- An operator that takes any number of operands, over new operands: a single operand stands
for itself, and none at all make sense only for the connectives. -/
def buildNary (op : Op) (build : List Expr → Except Misfit Expr) :
    List Expr → Except Misfit Expr
  | [] => if op = .and ∨ op = .or then .ok (.app op []) else .error .sorts
  | [e] => .ok e
  | es => build es

/-- The operator of a term over new arguments.  An operator of fixed arity keeps the sorts of
its own arguments; an atom stays as it is. -/
def withArgs (e : Expr) (es : List Expr) : Except Misfit Expr :=
  match e with
  | .app op (a :: as) =>
    match op with
    | .add | .mul => buildNary op (buildArith op) es
    | .and | .or => buildNary op (buildBool op) es
    | .distinct => buildNary op buildDistinct es
    | _ => (castEach (domain op (a :: as)) es).map (.app op)
  | e => .ok e

/-! ### Implications and equations -/

/-- An implication between two statements. -/
def mkImplies? (a b : Expr) : Option Expr :=
  if a.isBool && b.isBool then some (.app .implies [a, b]) else none

/-- Whether the right side of an equation is the more specific one: a numeral facing another
numeric term, or a quantified term facing another statement. -/
def yields (l r : Expr) : Bool :=
  (r.isNumeral && l.isArith && !l.isNumeral) || (r.isQuantified && l.isBool && !l.isQuantified)

/-- An equation with the sides as they stand, carried over to one sort. -/
def equate? (l r : Expr) : Option Expr :=
  (unify [l, r]).toOption.map fun p => .app .eq p.2

/-- An equation between two terms; the more specific side goes in front. -/
def mkEq? (l r : Expr) : Option Expr :=
  if l.yields r then equate? r l else equate? l r

/-! ### Binding -/

/-- The bound variable that a variable turns into, `depth` binders further in: the last of the
variables bound is the innermost. -/
def boundIndex? (name : String) (s : Srt) (vars : List (String × Srt)) (depth : Nat) :
    Option Nat :=
  (vars.reverse.findIdx? (· = (name, s))).map (· + depth)

mutual

/-- Turns the given variables into bound variables, `depth` binders below the new ones; loose
bound variables are raised by `room`. -/
def bind (vars : List (String × Srt)) (room depth : Nat) : Expr → Expr
  | .var n s =>
    match boundIndex? n s vars depth with
    | some i => .bound i s
    | none => .var n s
  | .bound i s => .bound (if depth ≤ i then i + room else i) s
  | .quant q bs body => .quant q bs (bind vars room (depth + bs.length) body)
  | .app op as => .app op (bindList vars room depth as)
  | e => e

/-- `bind` for every term of a list. -/
def bindList (vars : List (String × Srt)) (room depth : Nat) : List Expr → List Expr
  | [] => []
  | a :: as => bind vars room depth a :: bindList vars room depth as

end

/-- A body under a quantifier that binds the given variables, of which there must be one. -/
def quantify (q : Quantifier) (vars : List (String × Srt)) (body : Expr) : Except Misfit Expr :=
  if vars.isEmpty then .error .sorts else .ok (.quant q vars (bind vars (q.room vars) 0 body))

end Expr

end Deduce
