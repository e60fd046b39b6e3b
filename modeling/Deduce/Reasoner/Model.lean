import Deduce.Reasoner.Basic
import Deduce.Value.Equality

/-!
# Models as sources of facts

A `Model` offers equations, unknowns and parameters.  Connecting it to a system enters them all
as facts, in this order; an equation may be given as a pair of its sides.
-/

namespace Deduce

/-- What a model offers under one of the three names. -/
inductive Offer where
  | missing
  /-- Something that cannot be called. -/
  | plain
  /-- What calling it gives. -/
  | listing (items : List Value)

/-- A source of facts. -/
structure Model where
  equations : Offer
  unknowns : Offer
  parameters : Offer

/-- The items under one of the three names. -/
def Offer.items (name : String) : Offer → Except Failure (List Value)
  | .listing vs => .ok vs
  | _ => .error (.modelLacks name)

/-- An equation as a fact: a pair stands for the equation of its members. -/
def equationFact : Value → Except Failure Value
  | .tuple [l, r] => Value.equate l r
  | v => .ok v

namespace Reasoner

/-- Enters the equations of a model, up to the first that makes no fact. -/
def addEquations (s : Reasoner) : List Value → Reasoner × Except Failure Unit
  | [] => (s, .ok ())
  | v :: vs =>
    match equationFact v with
    | .error f => (s, .error f)
    | .ok fact =>
      match s.addFact fact with
      | .ok s => s.addEquations vs
      | .error f => (s, .error f)

/-- Enters everything that a model offers, up to the first item that makes no fact. -/
def connect (s : Reasoner) (m : Model) : Reasoner × Except Failure Unit :=
  let offers : Except Failure (List Value × List Value × List Value) := do
    let equations ← m.equations.items "equations"
    let unknowns ← m.unknowns.items "unknowns"
    let parameters ← m.parameters.items "parameters"
    return (equations, unknowns, parameters)
  match offers with
  | .error f => (s, .error f)
  | .ok (equations, unknowns, parameters) =>
    match s.addEquations equations with
    | (s, .error f) => (s, .error f)
    | (s, .ok ()) => s.addFacts (unknowns ++ parameters)

/-- The record that a model was connected. -/
def connectedRecord (s : Reasoner) : Record :=
  ⟨.info, "Connected model Model to '" ++ s.name ++ "' (" ++ toString s.ledger.size ++ " facts)"⟩

end Reasoner

end Deduce
