import Deduce.Term.Sorting

/-!
# Replacing a term by another

`Expr.replace old new e` puts `new` in the place of every outermost occurrence of `old` in `e`,
under binders too; what is bound outside of `e` stays bound there, since `old` and `new` are
lifted (`Expr.lift`) over every binder on the way.  `Expr.substitute?` replaces a term by another
of the same sort and refuses others.
-/

namespace Deduce.Expr

mutual

/-- Raises by `n` the bound variables that point beyond `depth` binders. -/
def lift (n depth : Nat) : Expr → Expr
  | .bound i s => .bound (if depth ≤ i then i + n else i) s
  | .quant q bs body => .quant q bs (lift n (depth + bs.length) body)
  | .app op as => .app op (liftList n depth as)
  | e => e

/-- `lift` for every term of a list. -/
def liftList (n depth : Nat) : List Expr → List Expr
  | [] => []
  | a :: as => lift n depth a :: liftList n depth as

end

mutual

/-- Puts `new` in the place of every outermost occurrence of `old`, under binders too. -/
def replace (old new : Expr) : Expr → Expr
  | .quant q bs body =>
    if .quant q bs body = old then new
    else .quant q bs (replace (lift bs.length 0 old) (lift bs.length 0 new) body)
  | .app op as => if .app op as = old then new else .app op (replaceList old new as)
  | e => if e = old then new else e

/-- `replace` in every term of a list. -/
def replaceList (old new : Expr) : List Expr → List Expr
  | [] => []
  | a :: as => replace old new a :: replaceList old new as

end

theorem replaceList_eq_map (old new : Expr) (as : List Expr) :
    replaceList old new as = as.map (replace old new) := by
  induction as with
  | nil => rfl
  | cons a as ih => simp [replaceList, ih]

/-- Replaces `old` by `new`, which must be of the same sort. -/
def substitute? (e old new : Expr) : Option Expr :=
  if old.sort = new.sort then some (replace old new e) else none

end Deduce.Expr
