import Deduce.Data.Table
import Deduce.Rule.Basic

/-!
# Tallies

How often the application of a rule had each of the three outcomes, by the name of the rule.
Rules are listed in the order in which they were first applied.

* `Tally.count_record`, `Tally.total_record` : an outcome counts once, and under its own name.
-/

namespace Deduce

/-- The numbers of outcomes of one rule. -/
structure Tally where
  derived : Nat
  inapplicable : Nat
  faulted : Nat
deriving DecidableEq

namespace Tally

/-- No outcome yet. -/
def zero : Tally := ⟨0, 0, 0⟩

/-- Counts an outcome. -/
def record (t : Tally) : Outcome → Tally
  | .derived => { t with derived := t.derived + 1 }
  | .inapplicable => { t with inapplicable := t.inapplicable + 1 }
  | .faulted => { t with faulted := t.faulted + 1 }

/-- The number of times an outcome was counted. -/
def count (t : Tally) : Outcome → Nat
  | .derived => t.derived
  | .inapplicable => t.inapplicable
  | .faulted => t.faulted

/-- The number of applications. -/
def total (t : Tally) : Nat := t.derived + t.inapplicable + t.faulted

theorem count_record (t : Tally) (o o' : Outcome) :
    (t.record o).count o' = t.count o' + if o = o' then 1 else 0 := by
  cases o <;> cases o' <;> rfl

theorem total_record (t : Tally) (o : Outcome) : (t.record o).total = t.total + 1 := by
  cases o <;> simp only [record, total] <;> omega

/-- The tallies after each of a list of outcomes. -/
def history (t : Tally) : List Outcome → List Tally
  | [] => []
  | o :: os => t.record o :: history (t.record o) os

end Tally

/-- The tallies of rules, by name. -/
abbrev Stats := Table String Tally

namespace Stats

/-- Counts an outcome of a rule. -/
def record (s : Stats) (rule : String) (o : Outcome) : Stats :=
  s.alter rule fun t => (t.getD .zero).record o

/-- The rules that were at fault, and how often. -/
def faults (s : Stats) : List (String × Nat) :=
  (s.entries.filter fun e => e.2.faulted ≠ 0).map fun e => (e.1, e.2.faulted)

/-- The number of times an outcome was counted, over all rules. -/
def count (s : Stats) (o : Outcome) : Nat := s.values.foldl (fun n t => n + t.count o) 0

end Stats

end Deduce
