import Deduce.Failure
import Deduce.Term.Build
import Deduce.Text.Numeral

/-!
# Equations between values

`Value.equate` forms an equation of two values.  Two terms make an equation between terms.  A
term and plain data make one if the data can be read as a term of a fitting sort, and the term
goes in front.  Two plain data are compared: numbers by value, texts by characters, collections
member by member (`Value.equal`).
-/

namespace Deduce

open Text (Double)

namespace Value

/-- The number that a value counts as; a truth value counts as one or zero. -/
def integer? : Value → Option Int
  | .truth b => some (if b then 1 else 0)
  | .number n => some n
  | _ => none

/-! ### A term and plain data -/

/-- A numeral of a numeric sort read from a text; an integer may be written as a fraction or a
decimal number. -/
def numeral? (t : Ty) (s : String) : Option Expr :=
  match t with
  | .base .int =>
    match Text.parseNumeral? s with
    | some q => if q.den = 1 then some (.int q.num) else none
    | none => none
  | .base .real => (Text.parseNumeral? s).map .real
  | _ => none

/-- Plain data as a term that can stand on the other side of an equation with a term of the
given sort.  A text is read as a numeral, and so is the name of a sort. -/
def toOperand? (t : Ty) : Value → Option Expr
  | .truth b =>
    match t with
    | .base .bool => some (.truth b)
    | .base .int => some (.int (if b then 1 else 0))
    | _ => none
  | .number n =>
    match t with
    | .base .int => some (.int n)
    | .base .real => some (.real n)
    | _ => none
  | .double d => if t.isArith then d.toRat?.map .real else none
  | .text s => numeral? t s
  | .sort s => numeral? t s.text
  | _ => none

/-- The equation of a term and a value that is no term; nothing equals no term. -/
def equateTerm (e : Expr) : Value → Except Failure Value
  | .nothing => .ok (.truth false)
  | v =>
    match (v.toOperand? e.sort).bind (Expr.equate? e) with
    | some r => .ok (.term r)
    | none => .error .illSorted

/-! ### Plain data -/

/-- Whether two numbers are equal, each an integer or a floating-point number. -/
def equalNumbers : Value → Value → Bool
  | .double a, .double b => a.value == b.value
  | .double a, v | v, .double a =>
    match Text.floatToRat? a.value, v.integer? with
    | some q, some n => q = n
    | _, _ => false
  | v, w => v.integer? = w.integer?

/-- Whether a value is a number or counts as one. -/
def isNumber : Value → Bool
  | .truth _ | .number _ | .double _ => true
  | _ => false

/-- Whether an equation, used as a condition, holds: its sides have to be written alike. -/
def isTautology : Expr → Bool
  | .app .eq [l, r] => l = r
  | _ => false

/-- Whether the equation of a term with a value holds as a condition. -/
def termEquals (e : Expr) : Value → Except Failure Bool
  | .term f =>
    match Expr.mkEq? e f with
    | some r => .ok (isTautology r)
    | none => .error .illSorted
  | v =>
    match equateTerm e v with
    | .ok (.term r) => .ok (isTautology r)
    | .ok _ => .ok false
    | .error f => .error f

/-- The value under a key. -/
def entry? (k : String) : List (String × Value) → Option Value
  | [] => none
  | (k', v) :: es => if k = k' then some v else entry? k es

mutual

/-- Whether two values are equal. -/
def equal : Value → Value → Except Failure Bool
  | .term e, w => termEquals e w
  | .sort s, .sort t => .ok (s = t)
  | .sort _, .nothing | .nothing, .sort _ | .sort _, .term _ => .ok false
  | v, .term e => termEquals e v
  | .sort _, w => .error (.notComparable w.typeName)
  | v, .sort _ => .error (.notComparable v.typeName)
  | .nothing, .nothing => .ok true
  | .text s, .text t => .ok (s = t)
  | .list vs, .list ws => if vs.length = ws.length then equalList vs ws else .ok false
  | .tuple vs, .tuple ws => equalList vs ws
  | .record es, .record fs => if es.length = fs.length then equalEntries es fs else .ok false
  | v, w => .ok (v.isNumber && w.isNumber && equalNumbers v w)

/-- Whether two lists are equal, from the first member on; the first difference decides. -/
def equalList : List Value → List Value → Except Failure Bool
  | [], [] => .ok true
  | v :: vs, w :: ws => do if ← equal v w then equalList vs ws else return false
  | _, _ => .ok false

/-- Whether every entry of the first record is in the second. -/
def equalEntries : List (String × Value) → List (String × Value) → Except Failure Bool
  | [], _ => .ok true
  | (k, v) :: es, fs =>
    match entry? k fs with
    | none => .ok false
    | some w => do if ← equal v w then equalEntries es fs else return false

end

/-! ### Equations -/

/-- The equation of two values: a term if one of them is a term, else whether they are equal. -/
def equate : Value → Value → Except Failure Value
  | .term l, .term r =>
    match Expr.mkEq? l r with
    | some e => .ok (.term e)
    | none => .error .illSorted
  | .sort _, .term _ => .ok (.truth false)
  | .term e, v | v, .term e => equateTerm e v
  | v, w => (equal v w).map .truth

end Value

end Deduce
