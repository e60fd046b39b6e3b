import Deduce.Term.Build
import Deduce.Value.Basic

/-!
# Failures

A `Failure` is the cause of an error.  `Failure.kind` is the family under which callers handle
it, `Failure.message` its wording and `Failure.context` the data that go with it; nothing else in
the library words an error.
-/

namespace Deduce

/-- The families of failures. -/
inductive Kind where
  | general
  | construction
  | invalidExpression
  | sorts
  | key
  | value
  | index
  | type
  | attribute
  | runtime
  | zeroDivision
  | overflow
  | frozen
deriving DecidableEq

/-- The name of a family of failures. -/
def Kind.label : Kind → String
  | .general => "CogSymError"
  | .construction => "ConstructionError"
  | .invalidExpression => "InvalidExpression"
  | .sorts => "Z3Exception"
  | .key => "KeyError"
  | .value => "ValueError"
  | .index => "IndexError"
  | .type => "TypeError"
  | .attribute => "AttributeError"
  | .runtime => "RuntimeError"
  | .zeroDivision => "ZeroDivisionError"
  | .overflow => "OverflowError"
  | .frozen => "FrozenInstanceError"

/-- The causes of failures. -/
inductive Failure where
  /-- A term was built from parts whose sorts do not fit. -/
  | illSorted
  /-- A number is asked for and a term of a sort without a way to the numbers was given; the
  name is that of the type of its sort. -/
  | notNumeric (typeName : String)
  /-- The operator of an atom was asked for. -/
  | atomOperator (e : Expr)
  /-- An arithmetic operation met something that is no number. -/
  | notArithmetic
  /-- An operation is not defined for values of a type. -/
  | unsupported (typeName : String)
  /-- Something was called that is no function. -/
  | notCallable (typeName : String)
  /-- An inference function was called with a node only. -/
  | missingProbe
  /-- A reduction was called with facts and a probe. -/
  | tooManyArguments
  /-- A rule returned something that is no term. -/
  | notExpression (typeName : String)
  /-- A reduction returned something that cannot be compared with a node. -/
  | notComparable (typeName : String)
  /-- A position outside a list. -/
  | outOfRange
  /-- A position that does not fit a machine word. -/
  | positionTooLarge
  /-- Not-a-number where a whole number is asked for. -/
  | notANumber
  /-- An infinity where a whole number is asked for. -/
  | infinite
  /-- A slice with step zero. -/
  | zeroStep
  /-- A name is taken in a category of the registry. -/
  | alreadyRegistered (name category : String)
  /-- A name is missing from a category of the registry. -/
  | notRegistered (name category : String) (available : List String)
  /-- A variable that no fact mentions. -/
  | unknownVariable (v : Expr)
  /-- A rule was to be made of something that cannot be called. -/
  | ruleNotCallable (name typeName : String)
  /-- No rule has the name. -/
  | unknownRule (name : String) (available : List String)
  /-- A rule was to be made of something that is none, of the given type and with the given
  text. -/
  | noRule (typeName shown : String)
  /-- No reduction has the name. -/
  | unknownReduction (name : String) (available : List String)
  /-- A reduction was to be made of a value that is none. -/
  | noReduction (v : Value)
  /-- A name that breaks the rules for names. -/
  | invalidName (name : Value) (reasons : List String)
  /-- A description that is not a text. -/
  | invalidDescription (system typeName : String)
  /-- A configuration that is none. -/
  | invalidConfig (system typeName : String)
  /-- A single rule where a sequence of rules is asked for. -/
  | rulesNotSequence (system : String)
  /-- Facts that cannot be listed. -/
  | factsNotIterable (typeName : String)
  /-- Facts that are no terms. -/
  | invalidFacts (reasons : List String)
  /-- A value where a term is asked for. -/
  | invalidExpression (label : String) (v : Value)
  /-- A round bound that is no natural number. -/
  | invalidRounds (v : Value)
  /-- An iteration bound that is no positive number. -/
  | invalidIterations (v : Value)
  /-- A threshold outside the unit interval. -/
  | invalidThreshold (field : String) (v : Value)
  /-- A model without one of the methods asked for. -/
  | modelLacks (method : String)
  /-- An attempt to change an immutable value. -/
  | frozen
  /-- A block was left early. -/
  | stopped
  /-- A failure with a wording of the caller's. -/
  | reported (kind : Kind) (message : String) (context : List (String × Value))

namespace Failure

/-- The failure to build a term. -/
def ofMisfit : Misfit → Failure
  | .sorts => .illSorted
  | .notNumeric t => .notNumeric t.typeName

/-- A failure that a caller's function raises. -/
def raised (kind : Kind) (message : String) : Failure := .reported kind message []

/-- The family of a failure. -/
def kind : Failure → Kind
  | .illSorted => .sorts
  | .atomOperator _ | .zeroStep | .notANumber => .value
  | .notArithmetic | .unsupported _ | .notCallable _ | .missingProbe | .tooManyArguments
  | .notExpression _ => .type
  | .notComparable _ | .notNumeric _ => .attribute
  | .outOfRange | .positionTooLarge => .index
  | .infinite => .overflow
  | .alreadyRegistered .. | .notRegistered .. | .unknownVariable _ => .key
  | .ruleNotCallable .. | .unknownRule .. | .noRule .. | .unknownReduction .. | .noReduction _
  | .invalidName .. | .invalidDescription .. | .invalidConfig .. | .rulesNotSequence _
  | .factsNotIterable _ | .invalidFacts _ | .invalidRounds _ | .invalidIterations _
  | .invalidThreshold .. | .modelLacks _ => .construction
  | .invalidExpression .. => .invalidExpression
  | .frozen => .frozen
  | .stopped => .runtime
  | .reported k _ _ => k

/-- That a name is missing from a category, with the names that are there. -/
def notRegisteredText (name category : String) (available : List String) : String :=
  "Component '" ++ name ++ "' not found in category '" ++ category ++ "'. Available: " ++
    (Value.list (available.map .text)).render

/-- The category in which reductions are looked up. -/
def reductionCategory : String := "rewrite_rule"

/-- The wording of a failure. -/
def message : Failure → String
  | .illSorted => ""
  | .notNumeric t => "'" ++ t ++ "' object has no attribute 'is_int'"
  | .atomOperator e => "'" ++ e.render ++ "' is an atom and has no operator"
  | .notArithmetic => "not arithmetic"
  | .unsupported t => "unsupported operand type '" ++ t ++ "'"
  | .notCallable t => "'" ++ t ++ "' object is not callable"
  | .missingProbe => "rule() missing 1 required positional argument: 'probe'"
  | .tooManyArguments => "rewrite() takes 1 positional argument but 2 were given"
  | .notExpression t => "rule returned " ++ t ++ ", not an expression"
  | .notComparable t => "'" ++ t ++ "' object has no attribute 'eq'"
  | .outOfRange => "list index out of range"
  | .positionTooLarge => "cannot fit 'int' into an index-sized integer"
  | .notANumber => "cannot convert float NaN to integer"
  | .infinite => "cannot convert float infinity to integer"
  | .zeroStep => "slice step cannot be zero"
  | .alreadyRegistered n c =>
    "Component '" ++ n ++ "' already registered in category '" ++ c ++
      "'. Use override=True to replace."
  | .notRegistered n c available => notRegisteredText n c available
  | .unknownVariable v => v.render
  | .ruleNotCallable n _ => "Rule '" ++ n ++ "' is not callable"
  | .unknownRule n _ => "Unknown inference rule '" ++ n ++ "'"
  | .noRule t _ => "Cannot build an inference rule from " ++ t
  | .unknownReduction n available =>
    Text.quote (notRegisteredText n reductionCategory available)
  | .noReduction v => "Cannot build a rewrite rule from " ++ v.typeName
  | .invalidName _ reasons => "Invalid name: " ++ "; ".intercalate reasons
  | .invalidDescription _ t => "description must be a string, got " ++ t
  | .invalidConfig _ t => "config must be a ReasoningConfig, got " ++ t
  | .rulesNotSequence _ => "rules must be a sequence of rules"
  | .factsNotIterable t => "knowledge_base must be iterable, got " ++ t
  | .invalidFacts reasons => "Invalid facts: " ++ "; ".intercalate reasons
  | .invalidExpression label v => label ++ " must be a z3 expression, got " ++ v.typeName
  | .invalidRounds v => "max_rounds must be a non-negative int, got " ++ v.render
  | .invalidIterations v => "max_iterations must be a positive int, got " ++ v.render
  | .invalidThreshold f v => f ++ " must be in [0, 1], got " ++ v.render
  | .modelLacks m => "model has no " ++ m ++ "() method"
  | .frozen => ""
  | .stopped => "stopped"
  | .reported _ m _ => m

/-- The data that go with a failure. -/
def context : Failure → List (String × Value)
  | .ruleNotCallable n t => [("rule", .text n), ("type", .text t)]
  | .unknownRule _ available => [("available", .list (available.map .text))]
  | .noRule _ shown => [("value", .text shown)]
  | .noReduction v => [("value", .text v.render)]
  | .unknownReduction n _ => [("rule", .text n)]
  | .invalidName v _ => [("name", .text v.render)]
  | .invalidDescription s _ | .invalidConfig s _ | .rulesNotSequence s => [("name", .text s)]
  | .factsNotIterable t => [("type", .text t)]
  | .invalidFacts reasons => [("error_count", .number reasons.length)]
  | .invalidExpression label _ => [("label", .text label)]
  | .invalidRounds _ => [("field", .text "max_rounds")]
  | .invalidIterations _ => [("field", .text "max_iterations")]
  | .invalidThreshold f _ => [("field", .text f)]
  | .modelLacks _ => [("model", .text "Model")]
  | .reported _ _ c => c
  | _ => []

/-- The wording of a failure inside another message, where a missing key is quoted. -/
def text (f : Failure) : String :=
  if f.kind = .key then Text.quote f.message else f.message

end Failure

/-! ### Faults of rules -/

/-- A failure inside a rule, with the rule and what it was applied to. -/
structure Fault where
  /-- The name of the rule. -/
  rule : String
  /-- What the rule was applied to. -/
  probe : Value
  /-- What went wrong. -/
  cause : Failure

namespace Fault

/-- The wording of a fault. -/
def message (f : Fault) : String :=
  "Rule '" ++ f.rule ++ "' faulted: " ++ f.cause.kind.label ++ ": " ++ f.cause.text

/-- The data that go with a fault. -/
def context (f : Fault) : List (String × Value) :=
  [("rule", .text f.rule), ("probe", .text f.probe.display)]

end Fault

end Deduce
