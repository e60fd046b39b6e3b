import Deduce.Failure
import Deduce.Log

/-!
# Reductions

A `Reduction` is a named function from a node to a value.  Applying it (`Reduction.apply`) changes
the node, leaves it as it is, or is at fault; a fault counts as no change.  `reduce` applies the
first reduction that changes the node and starts over, at most a given number of times, and tells
whether it used them all up.  A reduction may also leave records in a log, and `reduceLog` collects
them over a run.

A node is a term, but a reduction may also put a sort in its place, which then is the node.
-/

namespace Deduce

/-- What reductions are applied to. -/
inductive Node where
  | term (e : Expr)
  | sort (s : Srt)
deriving DecidableEq

namespace Node

/-- A node as a value. -/
def toValue : Node → Value
  | .term e => .term e
  | .sort s => .sort s

/-- The node that a value is, if it can be one. -/
def ofValue? : Value → Option Node
  | .term e => some (.term e)
  | .sort s => some (.sort s)
  | _ => none

end Node

/-- A function from a node to a value; nothing means no change. -/
structure ReductionFunction where
  /-- What the function returns. -/
  run : Node → Except Failure Value
  /-- The records that it leaves. -/
  log : Node → List Record := fun _ => []

/-- Fails always. -/
def ReductionFunction.failing (f : Failure) : ReductionFunction := { run := fun _ => .error f }

/-- A named reduction. -/
structure Reduction extends ReductionFunction where
  /-- The name of the reduction. -/
  name : String

/-- The result of applying a reduction to a node. -/
inductive Change where
  | unchanged
  | changed (node : Node)
  | faulted (cause : Failure)

namespace Change

/-- The result for what a reduction of a node returned. -/
def ofReturn (n : Node) : Except Failure Value → Change
  | .error f => .faulted f
  | .ok .nothing => .unchanged
  | .ok v =>
    match Node.ofValue? v with
    | some m => if m = n then .unchanged else .changed m
    | none => .faulted (.notComparable v.typeName)

/-- The node after a change. -/
def result (n : Node) : Change → Node
  | .changed m => m
  | _ => n

/-- The new node, if there is one. -/
def node? : Change → Option Node
  | .changed m => some m
  | _ => none

end Change

namespace Reduction

/-- Applies a reduction to a node. -/
def apply (r : Reduction) (n : Node) : Change := .ofReturn n (r.run n)

/-- The fault in the result of applying a reduction to a node. -/
def fault? (r : Reduction) (n : Node) : Change → Option Fault
  | .faulted cause => some ⟨r.name, n.toValue, cause⟩
  | _ => none

end Reduction

/-! ### Reducing as far as possible -/

/-- The node after the first reduction that changes it. -/
def reduceOnce (rs : List Reduction) (n : Node) : Option Node :=
  rs.findSome? fun r => (r.apply n).node?

/-- Reduces a node as far as possible, in at most the given number of passes; the flag says that
the last pass still changed something, or that there was none. -/
def reduce (rs : List Reduction) : (passes : Nat) → Node → Node × Bool
  | 0, n => (n, true)
  | k + 1, n =>
    match reduceOnce rs n with
    | some m => reduce rs k m
    | none => (n, false)

/-- The records of one pass over a node: of every reduction up to the one that changes it. -/
def passLog : List Reduction → Node → List Record
  | [], _ => []
  | r :: rs, n =>
    match (r.apply n).node? with
    | some _ => r.log n
    | none => r.log n ++ passLog rs n

/-- The records that the reductions leave while a node is reduced. -/
def reduceLog (rs : List Reduction) : (passes : Nat) → Node → List Record
  | 0, _ => []
  | k + 1, n =>
    match reduceOnce rs n with
    | some m => passLog rs n ++ reduceLog rs k m
    | none => passLog rs n

/-- A bound on the number of passes, and how it is written. -/
structure Bound where
  /-- The number of passes. -/
  passes : Nat
  /-- The bound as an integer, which may be negative; not every bound is one. -/
  shown : Except Failure Int

namespace Bound

/-- The bound used when none is given. -/
def default : Bound := ⟨100, .ok 100⟩

/-- A number larger than every finite floating-point number. -/
def unlimited : Nat := Nat.pow 2 1024

/-- A floating-point number as a bound: passes are counted up to the first count that is not
below it, and the bound is written without its fraction. -/
def ofFloat (x : Float) : Bound :=
  match Text.floatToRat? x with
  | some q => ⟨q.ceil.toNat, .ok (if q < 0 then q.ceil else q.floor)⟩
  | none =>
    if x > 0.0 then ⟨unlimited, .error .infinite⟩
    else ⟨0, .error (if x < 0.0 then .infinite else .notANumber)⟩

/-- A bound from a value.  A count can be compared with numbers only. -/
def ofValue : Value → Except Failure Bound
  | .truth b => let n := if b then 1 else 0; .ok ⟨n, .ok n⟩
  | .number n => .ok ⟨n.toNat, .ok n⟩
  | .double d => .ok (ofFloat d.value)
  | .sort _ => .error (.notComparable "int")
  | .term e => .error (if e.isArith then .illSorted else .unsupported e.typeName)
  | v => .error (.unsupported v.typeName)

/-- The bound that a caller asks for; nothing stands for the default. -/
def ofOption : Option Value → Except Failure Bound
  | none | some .nothing => .ok default
  | some v => ofValue v

/-- The record that a bound was used up. -/
def warning (shown : Int) : Record :=
  ⟨.warning, "Rewrite iteration bound reached (" ++ toString shown ++
    "); result may not be a fixed point"⟩

end Bound

/-- Reduces a node within a bound.  A bound that was used up is reported after the records of the
reductions.  One that cannot be written as an integer fails then: records are taken to be written
at once, by a log that lets the failure through.  A log that keeps such a failure to itself would
leave the caller the node instead. -/
def reduceWithin (b : Bound) (rs : List Reduction) (n : Node) :
    Except Failure Node × List Record :=
  let (m, exhausted) := reduce rs b.passes n
  let log := reduceLog rs b.passes n
  if exhausted then
    match b.shown with
    | .ok k => (.ok m, log ++ [Bound.warning k])
    | .error f => (.error f, log)
  else (.ok m, log)

end Deduce
