/-!
# Positions counted from either end

A negative position counts from the end of a list.  `at?` looks a position up, and `slice` takes
the elements at every `step`-th position between two bounds, running backwards when the step is
negative; bounds that lie outside the list are moved to its edge.
-/

namespace Deduce.Index

variable {α : Type}

/-- The element at a position, counted from the end if it is negative. -/
def at? (xs : List α) (i : Int) : Option α :=
  let j := if i < 0 then i + xs.length else i
  if j < 0 then none else xs[j.toNat]?

/-- A slice bound as a position between `low` and `high`. -/
def clamp (length low high i : Int) : Int :=
  let j := if i < 0 then i + length else i
  max low (min high j)

/-- The positions from `start` on, `step` apart, that lie before `stop`; at most `count`. -/
def positions (stop step : Int) : (count : Nat) → (start : Int) → List Int
  | 0, _ => []
  | n + 1, i =>
    if (0 < step ∧ i < stop) ∨ (step < 0 ∧ stop < i) then i :: positions stop step n (i + step)
    else []

/-- The elements at the positions of a slice; a step of zero gives none. -/
def slice (xs : List α) (start stop : Option Int) (step : Int) : List α :=
  let n : Int := xs.length
  let (low, high) := if step < 0 then ((-1 : Int), n - 1) else (0, n)
  let first := (start.map (clamp n low high)).getD (if step < 0 then high else low)
  let last := (stop.map (clamp n low high)).getD (if step < 0 then low else high)
  (positions last step xs.length first).filterMap fun i => xs[i.toNat]?

end Deduce.Index
