import Deduce.Value.Equality

/-!
# Settings

The bounds and thresholds of a reasoning system.  Values given for them are checked: the round
bound is a natural number, the iteration bound a positive one, and thresholds lie between zero
and one.  A truth value passes for a whole number and is kept as it was given (`Whole`).
-/

namespace Deduce

/-- A whole number as it was given. -/
inductive Whole where
  | number (n : Int)
  | truth (b : Bool)
deriving DecidableEq

namespace Whole

/-- The number; a truth value counts as one or zero. -/
def toInt : Whole → Int
  | .number n => n
  | .truth b => if b then 1 else 0

/-- A whole number as a value. -/
def toValue : Whole → Value
  | .number n => .number n
  | .truth b => .truth b

/-- The whole number that a value is. -/
def ofValue? : Value → Option Whole
  | .number n => some (.number n)
  | .truth b => some (.truth b)
  | _ => none

end Whole

/-- The bounds and thresholds of a reasoning system. -/
structure Settings where
  /-- The number of rounds of forward chaining. -/
  maxRounds : Whole
  /-- The number of passes of reductions. -/
  maxIterations : Whole
  /-- The similarity above which a node is replaced. -/
  substitutionThreshold : Float
  /-- The similarity above which operands count as symmetric. -/
  symmetryThreshold : Float

namespace Settings

/-- The settings used when none are given. -/
def default : Settings := ⟨.number 3, .number 100, 0.99, 0.8⟩

/-- A round bound from a value. -/
def rounds (v : Value) : Except Failure Whole :=
  match Whole.ofValue? v with
  | some w => if w.toInt < 0 then .error (.invalidRounds v) else .ok w
  | none => .error (.invalidRounds v)

/-- An iteration bound from a value. -/
def iterations (v : Value) : Except Failure Whole :=
  match Whole.ofValue? v with
  | some w => if w.toInt < 1 then .error (.invalidIterations v) else .ok w
  | none => .error (.invalidIterations v)

/-- A threshold from a value; the field is named in the failure. -/
def threshold (field : String) (v : Value) : Except Failure Float :=
  let check (x : Float) : Except Failure Float :=
    if 0.0 ≤ x ∧ x ≤ 1.0 then .ok x else .error (.invalidThreshold field v)
  match v with
  | .double d => check d.value
  | .term e => .error (if e.isArith then .illSorted else .unsupported e.typeName)
  | v =>
    match v.integer? with
    | some n => check (Float.ofInt n)
    | none => .error (.unsupported v.typeName)

/-- Settings with another round bound. -/
def withRounds (s : Settings) (v? : Option Value) : Except Failure Settings :=
  match v? with
  | none => .ok s
  | some v => (rounds v).map fun w => { s with maxRounds := w }

/-- Settings with other values for the iteration bound and the thresholds, where given; they are
checked in this order. -/
def withReductions (s : Settings) (iterations? substitution? symmetry? : Option Value) :
    Except Failure Settings := do
  let maxIterations ←
    match iterations? with
    | none => pure s.maxIterations
    | some v => iterations v
  let substitutionThreshold ←
    match substitution? with
    | none => pure s.substitutionThreshold
    | some v => threshold "substitution_threshold" v
  let symmetryThreshold ←
    match symmetry? with
    | none => pure s.symmetryThreshold
    | some v => threshold "symmetry_threshold" v
  return { s with maxIterations, substitutionThreshold, symmetryThreshold }

/-- The default settings with other bounds; the round bound has to be given. -/
def bounded (rounds? iterations? : Option Value) : Except Failure Settings := do
  match rounds? with
  | none => .error (.unsupported Value.nothing.typeName)
  | some v =>
    let s ← default.withRounds (some v)
    s.withReductions iterations? none none

end Settings

end Deduce
