import Deduce.Text.Numeral

/-!
# Sorts

The sorts of variables and function symbols are the integers, the reals, the truth values and
any number of uninterpreted sorts.  A term may also stand for a function, when it is a lambda
abstraction; `Ty` adds these.
-/

namespace Deduce

/-- The sort of a variable, or of an argument or result of a function symbol. -/
inductive Srt where
  | int
  | real
  | bool
  | named (name : String)
deriving DecidableEq

/-- The sort named by a text; every name but three is that of an uninterpreted sort, and ends at
the first null character. -/
def Srt.ofText (s : String) : Srt :=
  if s = "Int" then .int
  else if s = "Real" then .real
  else if s = "Bool" then .bool
  else .named (Text.untilNull s)

/-- The name of a sort. -/
def Srt.text : Srt → String
  | .int => "Int"
  | .real => "Real"
  | .bool => "Bool"
  | .named s => s

/-- What a term stands for: an element of a sort, or a function from a product of sorts. -/
inductive Ty where
  | base (s : Srt)
  | array (domain : List Srt) (range : Ty)
deriving DecidableEq

namespace Ty

/-- The integers. -/
abbrev int : Ty := .base .int

/-- The reals. -/
abbrev real : Ty := .base .real

/-- The truth values. -/
abbrev bool : Ty := .base .bool

/-- The numeric sorts. -/
def isArith : Ty → Bool
  | .base .int | .base .real => true
  | _ => false

/-- Whether every element of the first sort has a counterpart in the second, larger one. -/
def isSubsort : Ty → Ty → Bool
  | .base .bool, .base .int | .base .bool, .base .real | .base .int, .base .real => true
  | _, _ => false

/-- The larger of two sorts, if one of them embeds into the other. -/
def join? (s t : Ty) : Option Ty :=
  if s = t ∨ t.isSubsort s then some s else if s.isSubsort t then some t else none

/-- The largest of the sorts `s` and `ts`, if they form a chain. -/
def joinAll? (s : Ty) : List Ty → Option Ty
  | [] => some s
  | t :: ts => (s.join? t).bind fun u => u.joinAll? ts

end Ty

end Deduce
