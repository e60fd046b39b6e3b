import Deduce.Data.Lookup
import Deduce.Rule.Basic

/-!
# Ready-made rule functions

Small functions to build rules from: constants, failures, the probe itself and simple terms made
of it, and facts by position.
-/

namespace Deduce

/-- The numeral one of a numeric sort. -/
def Ty.one? : Ty → Option Expr
  | .base .int => some (.int 1)
  | .base .real => some (.real 1)
  | _ => none

/-- A term plus one; it must be numeric. -/
def Value.successor : Value → Except Failure Value
  | .term e =>
    match e.sort.one? with
    | some one => .ok (.term (.app .add [e, one]))
    | none => .error .notArithmetic
  | _ => .error .notArithmetic

/-- The negative of a term; it must be numeric. -/
def Value.negative : Value → Except Failure Value
  | .term e => if e.isArith then .ok (.term (.app .neg [e])) else .error .notArithmetic
  | _ => .error .notArithmetic

namespace RuleFunction

/-- Derives nothing. -/
def silent : RuleFunction := fun _ _ => .ok .nothing

/-- Returns the same value always. -/
def constant (v : Value) : RuleFunction := fun _ _ => .ok v

/-- Fails always. -/
def failing (f : Failure) : RuleFunction := fun _ _ => .error f

/-- Returns the probe. -/
def probe : RuleFunction := fun _ v => .ok v

/-- The probe plus one. -/
def successor : RuleFunction := fun _ v => v.successor

/-- The negation of a probe that is a statement. -/
def negation : RuleFunction
  | _, .term e => .ok (if e.isBool then .term (.app .not [e]) else .nothing)
  | _, _ => .ok .nothing

/-- The fact at a position, which may be counted from the end. -/
def factAt (i : Int) : RuleFunction := fun kb _ => (Index.get kb i).map .term

/-- The number of facts. -/
def factCount : RuleFunction := fun kb _ => .ok (.term (.int kb.length))

/-- The probe with its sides exchanged, if it is an equation. -/
def flipped : RuleFunction
  | _, .term e =>
    match e.equation? with
    | some (l, r) => .ok (.ofOption (Expr.mkEq? r l))
    | none => .ok .nothing
  | _, _ => .ok .nothing

end RuleFunction

end Deduce
