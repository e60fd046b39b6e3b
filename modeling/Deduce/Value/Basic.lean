import Deduce.Term.Sorting
import Deduce.Term.Printer
import Deduce.Text.Quoted

/-!
# Values

What a caller hands in, and what a rule hands back, need not be a term.  A `Value` is a term, a
sort, or plain data: nothing, a truth value, a number, a text, or a collection.  Rules, reductions
and settings are no values, and neither are collections of them.  `Value.typeName` names the type
of a value in messages, `Value.render` writes it as source text, `Value.display` writes it as plain
text, and `Value.items?` lists what a collection holds.
-/

namespace Deduce

open Text (Double)

/-- A term, a sort, or plain data.  Nothing else can be written: no rule, no settings, and no record
with keys other than texts. -/
inductive Value where
  | nothing
  | truth (b : Bool)
  | number (n : Int)
  | double (d : Double)
  | text (s : String)
  | list (items : List Value)
  | tuple (items : List Value)
  /-- Entries with text keys, in order. -/
  | record (entries : List (String × Value))
  | sort (s : Srt)
  | term (e : Expr)

instance : Inhabited Value := ⟨.nothing⟩

/-! ### Names of types -/

/-- The name of the type of a sort. -/
def Srt.typeName : Srt → String
  | .int | .real => "ArithSortRef"
  | .bool => "BoolSortRef"
  | .named _ => "SortRef"

/-- The name of the type of the sort of a term. -/
def Ty.typeName : Ty → String
  | .base s => s.typeName
  | .array .. => "ArraySortRef"

/-- The name of the type of terms of a sort, numerals and quantified terms apart. -/
def Ty.elementTypeName : Ty → String
  | .base .int | .base .real => "ArithRef"
  | .base .bool => "BoolRef"
  | .base (.named _) => "ExprRef"
  | .array .. => "ArrayRef"

/-- The name of the type of a term: numerals and quantified terms have their own, other terms go
by their sort. -/
def Expr.typeName (e : Expr) : String :=
  match e with
  | .int _ => "IntNumRef"
  | .real _ => "RatNumRef"
  | .quant .. => "QuantifierRef"
  | e => e.sort.elementTypeName

namespace Value

/-- The name of the type of a value. -/
def typeName : Value → String
  | .nothing => "NoneType"
  | .truth _ => "bool"
  | .number _ => "int"
  | .double _ => "float"
  | .text _ => "str"
  | .list _ => "list"
  | .tuple _ => "tuple"
  | .record _ => "dict"
  | .sort s => s.typeName
  | .term e => e.typeName

/-- The term that a value is. -/
def term? : Value → Option Expr
  | .term e => some e
  | _ => none

/-- Whether a value is a term. -/
def isTerm (v : Value) : Bool := v.term?.isSome

/-- What a collection holds: the keys of a record, the characters of a text. -/
def items? : Value → Option (List Value)
  | .list vs | .tuple vs => some vs
  | .record es => some (es.map fun e => .text e.1)
  | .text s => some (s.toList.map fun c => .text (String.singleton c))
  | _ => none

/-! ### Text -/

/-- A list of texts, separated by commas. -/
def commaSeparated (ss : List String) : String := ", ".intercalate ss

mutual

/-- A value as source text. -/
def render : Value → String
  | .nothing => "None"
  | .truth b => if b then "True" else "False"
  | .number n => toString n
  | .double d => d.text
  | .text s => Text.quote s
  | .list vs => "[" ++ commaSeparated (renderList vs) ++ "]"
  | .tuple vs =>
    match renderList vs with
    | [s] => "(" ++ s ++ ",)"
    | ss => "(" ++ commaSeparated ss ++ ")"
  | .record es => "\x7b" ++ commaSeparated (renderEntries es) ++ "\x7d"
  | .sort s => s.text
  | .term e => e.render

/-- The source texts of the values of a list. -/
def renderList : List Value → List String
  | [] => []
  | v :: vs => render v :: renderList vs

/-- The source texts of the entries of a record. -/
def renderEntries : List (String × Value) → List String
  | [] => []
  | (k, v) :: es => (Text.quote k ++ ": " ++ render v) :: renderEntries es

end

/-- A value as plain text: a text stands for itself. -/
def display : Value → String
  | .text s => s
  | v => v.render

end Value

end Deduce
