import Deduce.Term.Build
import Deduce.Term.Substitution

/-!
# The four canonical rules

Each rule reads a list of facts and a probe and derives at most one statement.

* `modusPonens`: from `A → B` and the probe `A`, derive `B`;
* `transitivity`: from `A → B` and `B → C`, derive `A → C`;
* `symmetry`: from the first equation `A = B`, derive `B = A`;
* `substitution`: from `A = B`, derive the probe with `B` in the place of `A`.

The facts are tried in their order and the first success counts, so the answers depend on that
order.  `transitivity` and `symmetry` do not look at the probe.
-/

namespace Deduce

/-- The implications among a list of facts, by their sides. -/
def implications (kb : List Expr) : List (Expr × Expr) := kb.filterMap Expr.implication?

/-- The equations among a list of facts, by their sides. -/
def equations (kb : List Expr) : List (Expr × Expr) := kb.filterMap Expr.equation?

/-- The conclusion of the first implication whose premise is the probe. -/
def modusPonens (kb : List Expr) (probe : Expr) : Option Expr :=
  (implications kb).findSome? fun (a, b) => if a = probe then some b else none

/-- The first chain of two implications, the outer one in front; an implication may be chained
with itself. -/
def transitivity (kb : List Expr) : Option Expr :=
  (implications kb).findSome? fun (a, b) =>
    (implications kb).findSome? fun (b', c) =>
      if b = b' then some (.app .implies [a, c]) else none

/-- The first equation with its sides exchanged, as far as the orientation of equations lets
them be. -/
def symmetry (kb : List Expr) : Option Expr :=
  (equations kb).head?.bind fun (l, r) => Expr.mkEq? r l

/-- The probe with the right side of an equation in the place of the left one, for the first
equation that changes the probe. -/
def substitution (kb : List Expr) (probe : Expr) : Option Expr :=
  (equations kb).findSome? fun (l, r) =>
    (probe.substitute? l r).bind fun e => if e = probe then none else some e

/-- The canonical rules, in their order. -/
inductive Canonical where
  | modusPonens
  | transitivity
  | symmetry
  | substitution
deriving DecidableEq

namespace Canonical

/-- All canonical rules, in their order. -/
def all : List Canonical := [.modusPonens, .transitivity, .symmetry, .substitution]

/-- The name of a canonical rule. -/
def name : Canonical → String
  | .modusPonens => "modus_ponens"
  | .transitivity => "transitivity"
  | .symmetry => "symmetry"
  | .substitution => "substitution"

/-- The canonical rule of a name. -/
def ofName? (s : String) : Option Canonical := all.find? fun c => c.name = s

/-- What a canonical rule derives. -/
def derive : Canonical → List Expr → Expr → Option Expr
  | .modusPonens, kb, probe => Deduce.modusPonens kb probe
  | .transitivity, kb, _ => Deduce.transitivity kb
  | .symmetry, kb, _ => Deduce.symmetry kb
  | .substitution, kb, probe => Deduce.substitution kb probe

end Canonical

end Deduce
