/-!
# Log records

What a long-running operation reports besides its result: the level of a record and its text.
-/

namespace Deduce

/-- The levels of log records. -/
inductive Level where
  | info
  | warning
deriving DecidableEq

/-- The name of a level. -/
def Level.label : Level → String
  | .info => "INFO"
  | .warning => "WARNING"

/-- A log record. -/
structure Record where
  /-- How serious it is. -/
  level : Level
  /-- What it says. -/
  text : String
deriving DecidableEq

/-- A log that holds a warning. -/
def Warns (log : List Record) : Prop := ∃ r ∈ log, r.level = .warning

end Deduce
