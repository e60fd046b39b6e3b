import Deduce.Data.Index
import Deduce.Failure

/-!
# Looking a position up

`Index.get` finds the element at a position of a list, counted from either end.  A position that
no machine word holds is refused before the list is looked at.
-/

namespace Deduce.Index

/-- Half the number of positions that a machine word of 64 bits tells apart. -/
def halfWord : Int := Int.ofNat (Nat.pow 2 63)

/-- Whether a position fits a signed machine word. -/
def fitsWord (i : Int) : Bool := -halfWord ≤ i ∧ i < halfWord

/-- The element at a position, counted from the end if it is negative. -/
def get {α : Type} (xs : List α) (i : Int) : Except Failure α :=
  if fitsWord i then
    match at? xs i with
    | some a => .ok a
    | none => .error .outOfRange
  else .error .positionTooLarge

end Deduce.Index
