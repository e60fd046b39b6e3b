import Deduce.Proofs.Reduction.Terms

/-!
# Fixed points of reductions

A run of reductions goes from a term in steps (`Reduces`), each made by the first of the reductions
that change the term, until none of them does (`Fixed`) or the bound is used up.

* `reduce_reduce` : a run goes on where another one ended, so runs compose.
* `exists_reduces` : the steps of a run, and that a run with passes left ends in a fixed point.
* `warns_reduceWithin` : the warning says that all passes made a step, as long as the reductions
  leave no warnings themselves.
* `reduce_composes_to_fixpoint` : all of this about the reductions that leave terms terms
  (`Reduction.Plain`).
-/

namespace Deduce

variable {rs : List Reduction} {e d : Expr} {n : Node}

/-- A bound of `n` passes. -/
def Bound.ofNat (n : Nat) : Bound := ⟨n, .ok n⟩

theorem Bound.ofValue_natCast (n : Nat) : Bound.ofValue (.number n) = .ok (.ofNat n) := rfl

/-! ### Steps -/

namespace Reduction

/-- A reduction that never puts a sort in the place of a term, and leaves no warnings. -/
structure Plain (r : Reduction) : Prop where
  ne_sort : ∀ e s, r.run (.term e) ≠ .ok (.sort s)
  silent : ∀ n, ¬ Warns (r.log n)

/-- A reduction turns a term into another one. -/
def Rewrites (r : Reduction) (e e' : Expr) : Prop := r.run (.term e) = .ok (.term e') ∧ e' ≠ e

theorem Plain.node?_eq_some {r : Reduction} (hr : r.Plain) {m : Node} :
    (r.apply (.term e)).node? = some m ↔ ∃ d, m = .term d ∧ r.Rewrites e d := by
  rw [Deduce.node?_eq_some, apply_eq_changed_iff]
  constructor
  · rintro (⟨d, hrun, hne, rfl⟩ | ⟨s, hrun, -⟩)
    · exact ⟨d, rfl, hrun, hne⟩
    · exact absurd hrun (hr.ne_sort e s)
  · rintro ⟨d, rfl, hrun, hne⟩
    exact .inl ⟨d, hrun, hne, rfl⟩

theorem Plain.node?_eq_none {r : Reduction} (hr : r.Plain) :
    (r.apply (.term e)).node? = none ↔ ∀ d, ¬ r.Rewrites e d := by
  simp only [Option.eq_none_iff_forall_ne_some, ne_eq, hr.node?_eq_some, not_exists, not_and]
  exact ⟨fun h d => h _ d rfl, fun h _ d _ => h d⟩

end Reduction

/-- None of the reductions changes the term. -/
def Fixed (rs : List Reduction) (e : Expr) : Prop := ∀ r ∈ rs, ∀ d, ¬ r.Rewrites e d

/-- The first of the reductions that change a term turns it into another one. -/
def RewritesFirst (rs : List Reduction) (e e' : Expr) : Prop :=
  ∃ before r after, rs = before ++ r :: after ∧ Fixed before e ∧ r.Rewrites e e'

/-- A number of steps, each made by the first of the reductions that change the term. -/
inductive Reduces (rs : List Reduction) : Nat → Expr → Expr → Prop where
  | refl (e : Expr) : Reduces rs 0 e e
  | step {k : Nat} {e d r : Expr} (hstep : RewritesFirst rs e d) (hrest : Reduces rs k d r) :
      Reduces rs (k + 1) e r

section Plain

variable (hrs : ∀ r ∈ rs, r.Plain)

include hrs

theorem reduceOnce_eq_none_iff : reduceOnce rs (.term e) = none ↔ Fixed rs e := by
  rw [reduceOnce, List.findSome?_eq_none_iff]
  exact forall₂_congr fun r hr => (hrs r hr).node?_eq_none

theorem reduceOnce_eq_some_iff {m : Node} :
    reduceOnce rs (.term e) = some m ↔ ∃ d, m = .term d ∧ RewritesFirst rs e d := by
  rw [reduceOnce, List.findSome?_eq_some_iff]
  constructor
  · rintro ⟨before, r, after, rfl, hsome, hnone⟩
    obtain ⟨d, rfl, hd⟩ := (hrs r (by simp)).node?_eq_some.1 hsome
    refine ⟨d, rfl, before, r, after, rfl, ?_, hd⟩
    intro s hs
    exact (hrs s (by simp [hs])).node?_eq_none.1 (hnone s hs)
  · rintro ⟨d, rfl, before, r, after, rfl, hbefore, hd⟩
    refine ⟨before, r, after, rfl, (hrs r (by simp)).node?_eq_some.2 ⟨d, rfl, hd⟩, ?_⟩
    intro s hs
    exact (hrs s (by simp [hs])).node?_eq_none.2 (hbefore s hs)

end Plain

/-! ### Runs one after the other -/

theorem reduce_of_none (h : reduceOnce rs n = none) (i : Nat) : (reduce rs i n).1 = n := by
  cases i with
  | zero => rfl
  | succ i => simp [reduce, h]

/-- A run goes on where another one ended. -/
theorem reduce_reduce (rs : List Reduction) (i j : Nat) (n : Node) :
    (reduce rs j (reduce rs i n).1).1 = (reduce rs (i + j) n).1 := by
  induction i generalizing n with
  | zero => rw [Nat.zero_add, reduce]
  | succ i ih =>
    rw [Nat.succ_add, reduce, reduce]
    cases h : reduceOnce rs n with
    | some m => exact ih m
    | none => exact reduce_of_none h j

/-- **The steps of a run.**  There are at most as many as there are passes; if there are fewer, the
run ended in a fixed point, and else the bound was used up. -/
theorem exists_reduces (hrs : ∀ r ∈ rs, r.Plain) (i : Nat) (e : Expr) :
    ∃ k r, reduce rs i (.term e) = (.term r, decide (k = i)) ∧ k ≤ i ∧ Reduces rs k e r ∧
      (k ≠ i → Fixed rs r) := by
  induction i generalizing e with
  | zero => exact ⟨0, e, rfl, Nat.le_refl 0, .refl e, by simp⟩
  | succ i ih =>
    rw [reduce]
    cases hm : reduceOnce rs (.term e) with
    | none =>
      have hfixed : Fixed rs e := (reduceOnce_eq_none_iff hrs).1 hm
      exact ⟨0, e, by simp, by omega, .refl e, fun _ => hfixed⟩
    | some m =>
      obtain ⟨d, rfl, hstep⟩ := (reduceOnce_eq_some_iff hrs).1 hm
      obtain ⟨k, r, hrun, hk, hrest, hfixed⟩ := ih d
      refine ⟨k + 1, r, ?_, by omega, .step hstep hrest, ?_⟩
      · simp [hrun]
      · intro hne
        exact hfixed (by omega)

/-! ### The warning -/

theorem warns_append {l l' : List Record} : Warns (l ++ l') ↔ Warns l ∨ Warns l' := by
  simp [Warns, or_and_right, exists_or]

section Silent

variable (hsilent : ∀ r ∈ rs, ∀ n, ¬ Warns (r.log n))

include hsilent

theorem not_warns_passLog (n : Node) : ¬ Warns (passLog rs n) := by
  induction rs with
  | nil => simp [passLog, Warns]
  | cons r rs ih =>
    have hr : ¬ Warns (r.log n) := hsilent r List.mem_cons_self n
    have hrest : ¬ Warns (passLog rs n) := ih fun s hs => hsilent s (List.mem_cons_of_mem r hs)
    rw [passLog]
    split
    · exact hr
    · rw [warns_append, not_or]
      exact ⟨hr, hrest⟩

theorem not_warns_reduceLog (i : Nat) (n : Node) : ¬ Warns (reduceLog rs i n) := by
  induction i generalizing n with
  | zero => simp [reduceLog, Warns]
  | succ i ih =>
    have hpass := not_warns_passLog hsilent n
    rw [reduceLog]
    split
    · rw [warns_append, not_or]
      exact ⟨hpass, ih _⟩
    · exact hpass

/-- The only warning is that of the bound. -/
theorem warns_reduceWithin {b : Bound} {k : Int} (hk : b.shown = .ok k) (n : Node) :
    Warns (reduceWithin b rs n).2 ↔ (reduce rs b.passes n).2 = true := by
  have hlog := not_warns_reduceLog hsilent b.passes n
  unfold reduceWithin
  cases h : (reduce rs b.passes n).2 with
  | false => simpa [h] using hlog
  | true => simp [h, hk, Warns, Bound.warning]

end Silent

/-! ### Reductions that leave terms terms -/

/-- **Reducing reaches fixed points, and runs compose.**  A run of `n` passes over a term gives a
term, and a second run of `m` passes over that one gives what a single run of `n + m` passes gives.
The run makes at most `n` steps, each by the first of the reductions that change the term, and warns
if and only if it makes `n`.  If it does not warn, no reduction changes its result any more, and
neither does a further run, however long. -/
theorem reduce_composes_to_fixpoint (hrs : ∀ r ∈ rs, r.Plain) (e : Expr) (n m : Nat) :
    ∃ r : Expr, (reduceWithin (.ofNat n) rs (.term e)).1 = .ok (.term r) ∧
      (reduceWithin (.ofNat m) rs (.term r)).1 = (reduceWithin (.ofNat (n + m)) rs (.term e)).1 ∧
      (∃ k ≤ n, Reduces rs k e r ∧ (Warns (reduceWithin (.ofNat n) rs (.term e)).2 ↔ k = n)) ∧
      (¬ Warns (reduceWithin (.ofNat n) rs (.term e)).2 → Fixed rs r ∧
        ∀ k, (reduceWithin (.ofNat k) rs (.term r)).1 = .ok (.term r)) := by
  have hresult (i : Nat) (d : Expr) :
      (reduceWithin (.ofNat i) rs (.term d)).1 = .ok (reduce rs i (.term d)).1 :=
    reduceWithin_eq_ok rfl rs (.term d)
  obtain ⟨k, r, hrun, hk, hsteps, hfixed⟩ := exists_reduces hrs n e
  have hwarns : Warns (reduceWithin (.ofNat n) rs (.term e)).2 ↔ k = n := by
    rw [warns_reduceWithin (fun s hs => (hrs s hs).silent) rfl]
    simp [Bound.ofNat, hrun]
  refine ⟨r, ?_, ?_, ⟨k, hk, hsteps, hwarns⟩, ?_⟩
  · rw [hresult, hrun]
  · rw [hresult, hresult, ← reduce_reduce, hrun]
  · intro hquiet
    have hr : Fixed rs r := hfixed (mt hwarns.2 hquiet)
    refine ⟨hr, ?_⟩
    intro i
    rw [hresult, reduce_of_none ((reduceOnce_eq_none_iff hrs).2 hr)]

/-- The first reduction says nothing about `x`, but about what the second makes of it: three passes
over `x` make two steps and end in a fixed point. -/
theorem reduce_composes_to_fixpoint_restart :
    let x : Expr := .var "x" .int
    let y : Expr := .var "y" .int
    let z : Expr := .var "z" .int
    let rs : List Reduction := [⟨.mapping y z, "y to z"⟩, ⟨.mapping x y, "x to y"⟩]
    Bound.ofValue (.number 3) = .ok (.ofNat 3) ∧ (∀ r ∈ rs, r.Plain) ∧
      reduceWithin (.ofNat 3) rs (.term x) = (.ok (.term z), []) ∧ Fixed rs z ∧
      Reduces rs 2 x z ∧ Warns (reduceWithin (.ofNat 2) rs (.term x)).2 := by
  intro x y z rs
  have hplain : ∀ r ∈ rs, r.Plain := by
    have hmapping (old new : Expr) (name : String) : Reduction.Plain ⟨.mapping old new, name⟩ := by
      constructor
      · intro e s
        simp [ReductionFunction.mapping, ReductionFunction.onTerms]
      · simp [ReductionFunction.mapping, ReductionFunction.onTerms, Warns]
    simp [rs, hmapping]
  have hthree : reduceWithin (.ofNat 3) rs (.term x) = (.ok (.term z), []) := rfl
  have htwo : reduceWithin (.ofNat 2) rs (.term x) = (.ok (.term z), [Bound.warning 2]) := rfl
  have hwarned : Warns (reduceWithin (.ofNat 2) rs (.term x)).2 := by
    simp [htwo, Warns, Bound.warning]
  obtain ⟨r, hr, -, -, hfixed⟩ := reduce_composes_to_fixpoint hplain x 3 0
  obtain ⟨r', hr', -, ⟨k, -, hsteps, hwarns⟩, -⟩ := reduce_composes_to_fixpoint hplain x 2 0
  obtain rfl : z = r := by simpa [hthree] using hr
  obtain rfl : z = r' := by simpa [htwo] using hr'
  obtain rfl : k = 2 := hwarns.1 hwarned
  refine ⟨Bound.ofValue_natCast 3, hplain, hthree, (hfixed ?_).1, hsteps, hwarned⟩
  simp [hthree, Warns]

end Deduce
