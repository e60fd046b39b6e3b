import Deduce.Term.Sort

/-!
# Terms

A term (`Expr`) is a variable, a numeral, a truth value, a bound variable, a quantified term or
an operator applied to a list of arguments.  Terms are plain immutable trees: two terms are equal
exactly when they are written alike, `Expr.decEq` decides it, and `Expr.induction` is induction
with a hypothesis for every argument.

To the reasoning layer a term is either *compound*, an application to at least one argument, or
an *atom*; the body of a quantified term is hidden from it.
-/

namespace Deduce

/-- The operators of the term language. -/
inductive Op where
  | add | mul | sub | neg | div | idiv | mod
  | toReal | toInt | isInt
  | pow
  | le | ge | lt | gt
  | eq | distinct | ite
  | and | or | xor | not | implies
  /-- An uninterpreted function with its argument sorts and its result sort. -/
  | fn (name : String) (domain : List Srt) (range : Srt)
deriving DecidableEq

/-- The binders of the term language. -/
inductive Quantifier where
  | universal
  | existential
  | lambda
deriving DecidableEq

/-- Terms. -/
inductive Expr where
  /-- A variable, told apart by name and sort. -/
  | var (name : String) (sort : Srt)
  /-- An integer numeral. -/
  | int (value : Int)
  /-- A rational numeral, of the real sort. -/
  | real (value : Rat)
  /-- A truth value. -/
  | truth (value : Bool)
  /-- A bound variable: the number of binders between it and its own, innermost first. -/
  | bound (index : Nat) (sort : Srt)
  /-- A quantified term with its bound variables, outermost first. -/
  | quant (q : Quantifier) (binders : List (String × Srt)) (body : Expr)
  /-- An operator applied to arguments. -/
  | app (op : Op) (args : List Expr)

namespace Expr

/-! ### Induction -/

/-- Induction on terms, with a hypothesis for every argument of an application. -/
@[elab_as_elim]
theorem induction {motive : Expr → Prop}
    (var : ∀ name sort, motive (.var name sort))
    (int : ∀ value, motive (.int value))
    (real : ∀ value, motive (.real value))
    (truth : ∀ value, motive (.truth value))
    (bound : ∀ index sort, motive (.bound index sort))
    (quant : ∀ q binders body, motive body → motive (.quant q binders body))
    (app : ∀ op args, (∀ a ∈ args, motive a) → motive (.app op args)) :
    ∀ e, motive e
  | .var n s => var n s
  | .int k => int k
  | .real k => real k
  | .truth b => truth b
  | .bound i s => bound i s
  | .quant q bs body => quant q bs body (induction var int real truth bound quant app body)
  | .app op args => app op args fun a _ => induction var int real truth bound quant app a

/-! ### Equality -/

mutual

/-- Whether two terms are written alike. -/
def decEq : (a b : Expr) → Decidable (a = b)
  | .var n s, .var n' s' =>
    if h : n = n' ∧ s = s' then .isTrue (by rw [h.1, h.2])
    else .isFalse fun e => h (by injection e with h₁ h₂; exact ⟨h₁, h₂⟩)
  | .int k, .int k' =>
    if h : k = k' then .isTrue (by rw [h]) else .isFalse fun e => h (by injection e)
  | .real k, .real k' =>
    if h : k = k' then .isTrue (by rw [h]) else .isFalse fun e => h (by injection e)
  | .truth k, .truth k' =>
    if h : k = k' then .isTrue (by rw [h]) else .isFalse fun e => h (by injection e)
  | .bound i s, .bound i' s' =>
    if h : i = i' ∧ s = s' then .isTrue (by rw [h.1, h.2])
    else .isFalse fun e => h (by injection e with h₁ h₂; exact ⟨h₁, h₂⟩)
  | .quant q bs body, .quant q' bs' body' =>
    if h : q = q' ∧ bs = bs' then
      match decEq body body' with
      | .isTrue hb => .isTrue (by rw [h.1, h.2, hb])
      | .isFalse hb => .isFalse fun e => hb (by injection e)
    else .isFalse fun e => h (by injection e with h₁ h₂; exact ⟨h₁, h₂⟩)
  | .app op args, .app op' args' =>
    if h : op = op' then
      match decEqList args args' with
      | .isTrue ha => .isTrue (by rw [h, ha])
      | .isFalse ha => .isFalse fun e => ha (by injection e)
    else .isFalse fun e => h (by injection e)
  | .var .., .int .. | .var .., .real .. | .var .., .truth .. | .var .., .bound ..
  | .var .., .quant .. | .var .., .app .. => .isFalse nofun
  | .int .., .var .. | .int .., .real .. | .int .., .truth .. | .int .., .bound ..
  | .int .., .quant .. | .int .., .app .. => .isFalse nofun
  | .real .., .var .. | .real .., .int .. | .real .., .truth .. | .real .., .bound ..
  | .real .., .quant .. | .real .., .app .. => .isFalse nofun
  | .truth .., .var .. | .truth .., .int .. | .truth .., .real .. | .truth .., .bound ..
  | .truth .., .quant .. | .truth .., .app .. => .isFalse nofun
  | .bound .., .var .. | .bound .., .int .. | .bound .., .real .. | .bound .., .truth ..
  | .bound .., .quant .. | .bound .., .app .. => .isFalse nofun
  | .quant .., .var .. | .quant .., .int .. | .quant .., .real .. | .quant .., .truth ..
  | .quant .., .bound .. | .quant .., .app .. => .isFalse nofun
  | .app .., .var .. | .app .., .int .. | .app .., .real .. | .app .., .truth ..
  | .app .., .bound .. | .app .., .quant .. => .isFalse nofun

/-- Whether two lists of terms are written alike. -/
def decEqList : (as bs : List Expr) → Decidable (as = bs)
  | [], [] => .isTrue rfl
  | [], _ :: _ => .isFalse nofun
  | _ :: _, [] => .isFalse nofun
  | a :: as, b :: bs =>
    match decEq a b with
    | .isFalse h => .isFalse fun e => h (by injection e)
    | .isTrue h =>
      match decEqList as bs with
      | .isTrue h' => .isTrue (by rw [h, h'])
      | .isFalse h' => .isFalse fun e => h' (by injection e)

end

instance : DecidableEq Expr := decEq

instance : Inhabited Expr := ⟨.truth true⟩

/-! ### Access -/

/-- A function symbol applied to arguments; without arguments it is a variable. -/
def call (name : String) (domain : List Srt) (range : Srt) : List Expr → Expr
  | [] => .var name range
  | a :: as => .app (.fn name domain range) (a :: as)

/-- The arguments of an application. -/
def args : Expr → List Expr
  | .app _ as => as
  | _ => []

/-- An application to at least one argument. -/
def isCompound : Expr → Bool
  | .app _ (_ :: _) => true
  | _ => false

/-- Everything that is not compound, quantified terms included. -/
def isAtom (e : Expr) : Bool := !e.isCompound

/-- A variable. -/
def isVariable : Expr → Bool
  | .var .. => true
  | _ => false

/-- A numeral of either sort. -/
def isNumeral : Expr → Bool
  | .int _ | .real _ => true
  | _ => false

/-- A quantified term or a lambda abstraction. -/
def isQuantified : Expr → Bool
  | .quant .. => true
  | _ => false

/-- An implication. -/
def isImplication : Expr → Bool
  | .app .implies _ => true
  | _ => false

/-- An equation. -/
def isEquation : Expr → Bool
  | .app .eq _ => true
  | _ => false

/-- A sum. -/
def isSum : Expr → Bool
  | .app .add _ => true
  | _ => false

/-- A product. -/
def isProduct : Expr → Bool
  | .app .mul _ => true
  | _ => false

/-- A unary minus. -/
def isNegation : Expr → Bool
  | .app .neg _ => true
  | _ => false

/-- A sum or a product with operands, which may be taken in any order. -/
def isCommutative (e : Expr) : Bool := e.isCompound && (e.isSum || e.isProduct)

/-- Whether a term is a numeral of the given value. -/
def isNumeralOf (q : Rat) : Expr → Bool
  | .int k => (k : Rat) = q
  | .real k => k = q
  | _ => false

/-- The two sides of an implication. -/
def implication? : Expr → Option (Expr × Expr)
  | .app .implies [a, b] => some (a, b)
  | _ => none

/-- The two sides of an equation. -/
def equation? : Expr → Option (Expr × Expr)
  | .app .eq [l, r] => some (l, r)
  | _ => none

/-! ### Size -/

mutual

/-- The number of nodes, those under binders included. -/
def size : Expr → Nat
  | .quant _ _ body => size body + 1
  | .app _ as => sizeList as + 1
  | _ => 1

/-- The number of nodes of a list of terms. -/
def sizeList : List Expr → Nat
  | [] => 0
  | a :: as => size a + sizeList as

end

theorem size_pos (e : Expr) : 0 < e.size := by
  cases e <;> simp [size]

theorem sizeList_append (as bs : List Expr) : sizeList (as ++ bs) = sizeList as + sizeList bs := by
  induction as with
  | nil => simp [sizeList]
  | cons a as ih => simp [sizeList, ih, Nat.add_assoc]

end Expr

end Deduce
