import Deduce.Failure

/-!
# Checks on what callers hand in

A check lists the reasons why a value is refused; the empty list means that it is accepted.  The
matching `require` function fails with those reasons.

A name starts with a letter or an underscore and goes on with letters, digits, underscores, dots
and hyphens; a single line break at its end is not looked at.
-/

namespace Deduce

/-! ### Terms -/

/-- Why a value is no term; the label says what it was meant to be. -/
def expressionErrors (label : String) (v : Value) : List String :=
  if v.isTerm then [] else [(Failure.invalidExpression label v).message]

/-- A value that has to be a term. -/
def requireExpression (label : String) (v : Value) : Except Failure Expr :=
  match v with
  | .term e => .ok e
  | v => .error (.invalidExpression label v)

/-! ### Facts -/

/-- Why the members of a list, from position `i` on, are no facts. -/
def factErrors (i : Nat) : List Value → List String
  | [] => []
  | v :: vs => expressionErrors ("fact[" ++ toString i ++ "]") v ++ factErrors (i + 1) vs

/-- Why a value is no collection of facts. -/
def factsErrors (v : Value) : List String :=
  match v with
  | .text _ | .term _ => ["facts must be an iterable of expressions, not a single value"]
  | v =>
    match v.items? with
    | some vs => factErrors 0 vs
    | none => ["facts must be iterable, got " ++ v.typeName]

/-- A value that has to be a collection of facts. -/
def requireFacts (v : Value) : Except Failure Unit :=
  match factsErrors v with
  | [] => .ok ()
  | reasons => .error (.invalidFacts reasons)

/-! ### Names -/

/-- A letter of the basic alphabet, or an underscore. -/
def isNameStart (c : Char) : Bool := c.isAlpha || c = '_'

/-- A character that may follow in a name. -/
def isNamePart (c : Char) : Bool := c.isAlphanum || c = '_' || c = '.' || c = '-'

/-- A list of characters without a single line break at its end. -/
def dropFinalBreak : List Char → List Char
  | [] => []
  | ['\n'] => []
  | c :: cs => c :: dropFinalBreak cs

/-- Whether a list of characters is a name, but for a line break at its end. -/
def isName (cs : List Char) : Bool :=
  match dropFinalBreak cs with
  | [] => false
  | c :: cs => isNameStart c && cs.all isNamePart

/-- The form of names, as it is written in messages. -/
def namePattern : String := "^[A-Za-z_][A-Za-z0-9_.\\-]*$"

/-- Why a value is no name. -/
def nameErrors : Value → List String
  | .text s =>
    if s.isEmpty then ["name is empty"]
    else if isName s.toList then []
    else ["name '" ++ s ++ "' invalid: must match " ++ namePattern]
  | v => ["name must be a string, got " ++ v.typeName]

/-- A value that has to be a name. -/
def requireName (v : Value) : Except Failure String :=
  match nameErrors v, v with
  | [], .text s => .ok s
  | reasons, v => .error (.invalidName v reasons)

end Deduce
