import Deduce.Proofs.Term.Sorting
import Mathlib.Data.Nat.Notation

/-!
# Interpretations

An `Interpretation` gives every term a value, in any set of values whatever.  It is compositional:
the value of an application is a function of the values of the arguments, and that of a quantified
term is a function of the values that its body takes when the bound variables range over all
values.  Which functions these are is left open; operators of the same name over different sorts
need not have the same.

Loose bound variables, which no binder in the term binds, are read from an environment.  Lifting
makes room in it (`eval_lift`), so that a term means the same below a binder as above it; this is
why equals may be replaced by equals under binders too, without fear of capture
(`eval_replace`).
-/

namespace Deduce

universe u

/-- A compositional interpretation of terms. -/
structure Interpretation (V : Type u) where
  /-- The value of a variable. -/
  var : String → Srt → V
  /-- The value of an integer numeral. -/
  int : Int → V
  /-- The value of a rational numeral. -/
  real : Rat → V
  /-- The value of a truth value. -/
  truth : Bool → V
  /-- The value of an application, by the sorts and the values of its arguments. -/
  app : Op → List Ty → List V → V
  /-- The value of a quantified term, by its binders, the sort of its body and the values that the
  body takes; the values of the bound variables are listed innermost first. -/
  quant : Quantifier → (binders : List (String × Srt)) → Ty → ((Fin binders.length → V) → V) → V

namespace Interpretation

variable {V : Type u} (I : Interpretation V)

/-- The environment below a binder of `n` variables. -/
def under {n : ℕ} (vs : Fin n → V) (env : ℕ → V) : ℕ → V :=
  fun i => if h : i < n then vs ⟨i, h⟩ else env (i - n)

mutual

/-- The value of a term in an environment. -/
def eval (env : ℕ → V) : Expr → V
  | .var n s => I.var n s
  | .int k => I.int k
  | .real k => I.real k
  | .truth b => I.truth b
  | .bound i _ => env i
  | .quant q bs body => I.quant q bs body.sort fun vs => eval (under vs env) body
  | .app op as => I.app op (Expr.sorts as) (evalList env as)

/-- The values of a list of terms. -/
def evalList (env : ℕ → V) : List Expr → List V
  | [] => []
  | a :: as => eval env a :: evalList env as

end

theorem evalList_eq_map (env : ℕ → V) (as : List Expr) :
    I.evalList env as = as.map (I.eval env) := by
  induction as with
  | nil => rfl
  | cons a as ih => simp [evalList, ih]

/-- The value of an application depends on the arguments through their sorts and values alone. -/
theorem eval_app_congr {env env' : ℕ → V} {op : Op} {as : List Expr} {f : Expr → Expr}
    (hsort : ∀ a ∈ as, (f a).sort = a.sort) (h : ∀ a ∈ as, I.eval env' (f a) = I.eval env a) :
    I.eval env' (.app op (as.map f)) = I.eval env (.app op as) := by
  have hvalues : I.evalList env' (as.map f) = I.evalList env as := by
    rw [evalList_eq_map, evalList_eq_map, List.map_map]
    exact List.map_congr_left h
  rw [eval, eval, Expr.sorts_map hsort, hvalues]

/-- The value of a quantified term depends on the body through its sort and values alone. -/
theorem eval_quant_congr {env env' : ℕ → V} {q : Quantifier} {bs : List (String × Srt)}
    {body body' : Expr} (hsort : body'.sort = body.sort)
    (h : ∀ vs : Fin bs.length → V, I.eval (under vs env') body' = I.eval (under vs env) body) :
    I.eval env' (.quant q bs body') = I.eval env (.quant q bs body) := by
  have hvalues : (fun vs : Fin bs.length → V => I.eval (under vs env') body') =
      fun vs => I.eval (under vs env) body := funext h
  rw [eval, eval, hsort, hvalues]

/-! ### Lifting -/

/-- The second environment is the first with room for `n` values after the first `depth` ones. -/
def MakesRoom (n depth : ℕ) (env env' : ℕ → V) : Prop :=
  ∀ i, env' (if depth ≤ i then i + n else i) = env i

theorem MakesRoom.below {n depth k : ℕ} {env env' : ℕ → V} (h : MakesRoom n depth env env')
    (vs : Fin k → V) : MakesRoom n (depth + k) (under vs env) (under vs env') := by
  intro i
  by_cases hi : i < k
  · have hle : ¬ depth + k ≤ i := by omega
    simp [under, hle, hi]
  · have hi' := h (i - k)
    by_cases hd : depth + k ≤ i
    · have hd' : depth ≤ i - k := by omega
      have hsub : i + n - k = i - k + n := by omega
      have hn : ¬ i + n < k := by omega
      rw [if_pos hd'] at hi'
      simp [under, hd, hi, hn, hsub, hi']
    · have hd' : ¬ depth ≤ i - k := by omega
      rw [if_neg hd'] at hi'
      simp [under, hd, hi, hi']

theorem makesRoom_under {n : ℕ} (vs : Fin n → V) (env : ℕ → V) :
    MakesRoom n 0 env (under vs env) := by
  intro i
  have hi : ¬ i + n < n := by omega
  simp [under, hi]

theorem eval_lift {n depth : ℕ} {env env' : ℕ → V} (h : MakesRoom n depth env env') (e : Expr) :
    I.eval env' (e.lift n depth) = I.eval env e := by
  induction e using Expr.induction generalizing depth env env' with
  | var | int | real | truth => rfl
  | bound i s => exact h i
  | quant q bs body ih =>
    exact I.eval_quant_congr (Expr.sort_lift n _ body) fun vs => ih (h.below vs)
  | app op as ih =>
    rw [Expr.lift, Expr.liftList_eq_map]
    exact I.eval_app_congr (fun a _ => Expr.sort_lift n depth a) fun a ha => ih a ha h

/-! ### Replacement -/

/-- **Equals for equals.**  Replacing a term by another of its sort and value does not change the
value of what it occurs in. -/
theorem eval_replace {env : ℕ → V} {old new : Expr} (hsort : old.sort = new.sort)
    (h : I.eval env old = I.eval env new) (e : Expr) :
    I.eval env (Expr.replace old new e) = I.eval env e := by
  induction e using Expr.induction generalizing old new env with
  | var | int | real | truth | bound =>
    simp only [Expr.replace]
    split
    · rename_i he
      rw [he, h]
    · rfl
  | quant q bs body ih =>
    rw [Expr.replace]
    split
    · rename_i he
      rw [he, h]
    · have hsort' : (old.lift bs.length 0).sort = (new.lift bs.length 0).sort := by
        rw [Expr.sort_lift, Expr.sort_lift, hsort]
      -- both terms mean below the binder what they mean above it
      refine I.eval_quant_congr (Expr.sort_replace hsort' body) fun vs => ih hsort' ?_
      rw [I.eval_lift (makesRoom_under vs env), I.eval_lift (makesRoom_under vs env), h]
  | app op as ih =>
    rw [Expr.replace]
    split
    · rename_i he
      rw [he, h]
    · rw [Expr.replaceList_eq_map]
      exact I.eval_app_congr (fun a _ => Expr.sort_replace hsort a) fun a ha => ih a ha hsort h

end Interpretation

end Deduce
