/-!
# The release

The version number, name and description of the program.
-/

namespace Deduce

/-- A version number. -/
structure Version where
  major : Int
  minor : Int
  patch : Int
  /-- The mark of a preliminary release; empty for none. -/
  preRelease : String

/-- A version number as text. -/
def Version.render (v : Version) : String :=
  let base := toString v.major ++ "." ++ toString v.minor ++ "." ++ toString v.patch
  if v.preRelease.isEmpty then base else base ++ "-" ++ v.preRelease

namespace Release

/-- The current version. -/
def version : Version := ⟨0, 2, 0, ""⟩

/-- The name of the program. -/
def name : String := "CogSym-Core"

/-- What the program is for. -/
def description : String := "Rule-based symbolic reasoning and expression-tree analysis"

end Release

end Deduce
