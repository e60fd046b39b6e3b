import Deduce.Data.Lookup

/-!
# The ledger of facts

A `Ledger` is a list of facts that only grows.  The order counts, since rules try the facts in
it, and a fact may be entered more than once.

* `Ledger.facts_add`, `Ledger.facts_extend` : new facts go to the end, and nothing else changes.
-/

namespace Deduce

/-- A growing list of facts. -/
structure Ledger where
  /-- The facts, oldest first. -/
  facts : List Expr

namespace Ledger

/-- The ledger without facts. -/
def empty : Ledger := ⟨[]⟩

/-- The number of facts. -/
def size (l : Ledger) : Nat := l.facts.length

/-- Enters a fact. -/
def add (l : Ledger) (e : Expr) : Ledger := ⟨l.facts ++ [e]⟩

/-- Enters facts, one after the other. -/
def extend (l : Ledger) (es : List Expr) : Ledger := es.foldl add l

theorem facts_add (l : Ledger) (e : Expr) : (l.add e).facts = l.facts ++ [e] := rfl

theorem facts_extend (l : Ledger) (es : List Expr) : (l.extend es).facts = l.facts ++ es := by
  induction es generalizing l with
  | nil => simp [extend]
  | cons e es ih =>
    have step : l.extend (e :: es) = (l.add e).extend es := rfl
    rw [step, ih, facts_add, List.append_assoc, List.singleton_append]

/-- The fact at a position, which may be counted from the end. -/
def get (l : Ledger) (i : Int) : Except Failure Expr := Index.get l.facts i

/-- The facts at every `step`-th position between two bounds. -/
def slice (l : Ledger) (start stop : Option Int) (step : Int) : Except Failure (List Expr) :=
  if step = 0 then .error .zeroStep else .ok (Index.slice l.facts start stop step)

/-- Whether a value is one of the facts. -/
def contains (l : Ledger) : Value → Bool
  | .term e => e ∈ l.facts
  | _ => false

/-- A ledger as text. -/
def render (l : Ledger) : String := "KnowledgeBase(" ++ toString l.size ++ " facts)"

end Ledger

end Deduce
