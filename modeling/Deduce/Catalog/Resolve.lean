import Deduce.Catalog.Basic

/-!
# Rules and reductions by name

A rule may be given as such, as a canonical rule, by its name, or as a function
(`RuleCandidate`), and a reduction in the same ways.  Names are looked up in a catalog, where the
four canonical names always mean the canonical rules.  What is none of these is refused.
-/

namespace Deduce

/-- What may be given for a rule: a rule, what stands for one, or any value.  Settings are none of
these. -/
inductive RuleCandidate where
  | rule (r : Rule)
  | canonical (c : Canonical)
  | function (name : String) (run : RuleFunction)
  | value (v : Value)

/-- What may be given for a reduction. -/
inductive ReductionCandidate where
  | reduction (r : Reduction)
  | function (name : String) (f : ReductionFunction)
  | value (v : Value)

/-- What may be given for a list of rules: a sequence of candidates, or a single candidate in its
place, which may be any value.  Settings are none of these. -/
inductive RuleSource where
  | many (candidates : List RuleCandidate)
  | single (candidate : RuleCandidate)

namespace RuleSource

/-- Why a term is no source of rules.  A function from numbers is a sequence of terms, of which
the first is no rule already; of other functions and of quantified terms there is no first. -/
def refusal (e : Expr) : Failure :=
  match e.sort with
  | .array [.int] t | .array [.real] t => .noRule t.elementTypeName (e.render ++ "[0]")
  | .array .. => .illSorted
  | .base _ => if e.isQuantified then .illSorted else .unsupported e.typeName

/-- The candidates in a source of rules: what a collection holds, one by one. -/
def candidates : RuleSource → Except Failure (List RuleCandidate)
  | .many cs => .ok cs
  | .single (.value (.term e)) => .error (refusal e)
  | .single (.value v) =>
    match v.items? with
    | some vs => .ok (vs.map .value)
    | none => .error (.unsupported v.typeName)
  | .single _ => .error (.unsupported "rule")

end RuleSource

namespace Catalog

/-- A rule made of a component of the catalog. -/
def ruleOf (name : String) : Component → Except Failure Rule
  | .rule _ run => .ok (.custom name run)
  | .reduction _ _ => .ok (.custom name fun _ _ => .error .tooManyArguments)
  | .value v => .error (.ruleNotCallable name v.typeName)

/-- The rule of a name. -/
def ruleNamed (c : Catalog) (name : String) : Except Failure Rule :=
  match Canonical.ofName? name with
  | some r => .ok (.ofCanonical r)
  | none =>
    match c.find? ruleCategory name with
    | some x => ruleOf name x
    | none =>
      .error (.unknownRule name ((c.names ruleCategory).mergeSort fun a b => !(b < a)))

/-- The rule that a candidate stands for. -/
def resolveRule (c : Catalog) : RuleCandidate → Except Failure Rule
  | .rule r => .ok r
  | .canonical t => .ok (.ofCanonical t)
  | .value (.text s) => c.ruleNamed s
  | .function name run => .ok (.custom name run)
  | .value v => .error (.noRule v.typeName v.render)

/-- The rules that a list of candidates stands for. -/
def resolveRules (c : Catalog) (cs : List RuleCandidate) : Except Failure (List Rule) :=
  cs.mapM c.resolveRule

/-- A reduction made of a component of the catalog. -/
def reductionOf (name : String) : Component → Reduction
  | .reduction _ f => ⟨f, name⟩
  | .rule _ _ => ⟨.failing .missingProbe, name⟩
  | .value v => ⟨.failing (.notCallable v.typeName), name⟩

/-- The reduction that a candidate stands for. -/
def resolveReduction (c : Catalog) : ReductionCandidate → Except Failure Reduction
  | .reduction r => .ok r
  | .function name f => .ok ⟨f, name⟩
  | .value (.text s) =>
    match c.find? reductionCategory s with
    | some x => .ok (reductionOf s x)
    | none => .error (.unknownReduction s (c.names reductionCategory))
  | .value v => .error (.noReduction v)

/-- The reductions that a list of candidates stands for. -/
def resolveReductions (c : Catalog) (cs : List ReductionCandidate) :
    Except Failure (List Reduction) :=
  cs.mapM c.resolveReduction

end Catalog

end Deduce
