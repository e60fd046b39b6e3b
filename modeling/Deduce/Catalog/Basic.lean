import Deduce.Data.Table
import Deduce.Reduction.Optimize
import Deduce.Rule.Basic

/-!
# The catalog

A `Catalog` keeps components under names, in categories.  A name is taken once in a category
unless the new entry is to replace the old one, which then keeps its place; categories and names
are listed in the order in which they were entered.  The four canonical rules and the built-in
reductions are there from the start (`Catalog.initial`).
-/

namespace Deduce

/-- What can be entered in a catalog: a function, by its name, or any value. -/
inductive Component where
  | rule (name : String) (run : RuleFunction)
  | reduction (name : String) (f : ReductionFunction)
  | value (v : Value)

/-- Components by category and name. -/
structure Catalog where
  /-- The categories. -/
  categories : Table String (Table String Component)

namespace Catalog

/-- The category of inference rules. -/
def ruleCategory : String := "inference_rule"

/-- The category of reductions. -/
def reductionCategory : String := Failure.reductionCategory

/-- The category used when none is given. -/
def defaultCategory : String := "default"

/-- The components of a category; a category that is missing has none. -/
def entries (c : Catalog) (category : String) : Table String Component :=
  (c.categories.get? category).getD .empty

/-- The names in a category. -/
def names (c : Catalog) (category : String) : List String := (c.entries category).keys

/-- The component of a name. -/
def find? (c : Catalog) (category name : String) : Option Component :=
  (c.entries category).get? name

/-- Whether a name is taken. -/
def contains (c : Catalog) (category name : String) : Bool := (c.find? category name).isSome

/-- The component of a name, or a failure that lists the names there are. -/
def get (c : Catalog) (category name : String) : Except Failure Component :=
  match c.find? category name with
  | some x => .ok x
  | none => .error (.notRegistered name category (c.names category))

/-- Enters a component, replacing the one there. -/
def insert (c : Catalog) (category name : String) (x : Component) : Catalog :=
  ⟨c.categories.insert category ((c.entries category).insert name x)⟩

/-- Enters a component; a name that is taken is refused unless it is to be replaced. -/
def register (c : Catalog) (category name : String) (x : Component) (replacing : Bool) :
    Except Failure Catalog :=
  if c.contains category name && !replacing then .error (.alreadyRegistered name category)
  else .ok (c.insert category name x)

/-- Removes a name; a name that is missing is no failure. -/
def unregister (c : Catalog) (category name : String) : Catalog :=
  match c.categories.get? category with
  | none => c
  | some t => ⟨c.categories.insert category (t.erase name)⟩

/-- The names in every category. -/
def listing (c : Catalog) : List (String × List String) :=
  c.categories.entries.map fun e => (e.1, e.2.keys)

/-- The catalog with the canonical rules and the built-in reductions. -/
def initial : Catalog :=
  let rules := Canonical.all.foldl (fun c r => c.insert ruleCategory r.name (.rule r.name r.run))
    (⟨.empty⟩ : Catalog)
  Optimization.all.foldl
    (fun c o => c.insert reductionCategory o.name (.reduction o.name o.toFunction)) rules

end Catalog

end Deduce
