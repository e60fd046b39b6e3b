import Deduce.Reduction.Basic

/-!
# Runs of reductions

What a reduction keeps, a run of reductions keeps (`reduce_induction`).  A run sees of a reduction
nothing but the new nodes and the records (`reduceWithin_map_congr`), and of a list of reductions
nothing but the first changes (`reduce_congr`).
-/

namespace Deduce

variable {rs : List Reduction} {n m : Node}

theorem node?_eq_some {c : Change} : c.node? = some m ↔ c = .changed m := by
  cases c <;> simp [Change.node?]

theorem exists_apply_of_reduceOnce (h : reduceOnce rs n = some m) :
    ∃ r ∈ rs, r.apply n = .changed m := by
  obtain ⟨r, hr, hnode⟩ := List.exists_of_findSome?_eq_some h
  exact ⟨r, hr, node?_eq_some.1 hnode⟩

/-- **Induction over a run.**  What holds of a node and is kept by every reduction holds of the
node at the end. -/
theorem reduce_induction {P : Node → Prop}
    (hstep : ∀ r ∈ rs, ∀ n m, P n → r.apply n = .changed m → P m) (passes : Nat) (h : P n) :
    P (reduce rs passes n).1 := by
  induction passes generalizing n with
  | zero => exact h
  | succ passes ih =>
    rw [reduce]
    split
    · rename_i m hm
      obtain ⟨r, hr, happly⟩ := exists_apply_of_reduceOnce hm
      exact ih (hstep r hr n m h happly)
    · exact h

/-- Within a bound that can be written as an integer, reducing does not fail. -/
theorem reduceWithin_eq_ok {b : Bound} {k : Int} (hk : b.shown = .ok k) (rs : List Reduction)
    (n : Node) : (reduceWithin b rs n).1 = .ok (reduce rs b.passes n).1 := by
  unfold reduceWithin
  dsimp only
  split
  · rw [hk]
  · rfl

/-- Where the bound was not used up, reducing does not fail either. -/
theorem reduceWithin_of_not_exhausted {b : Bound} (h : reduce rs b.passes n = (m, false)) :
    reduceWithin b rs n = (.ok m, reduceLog rs b.passes n) := by
  simp [reduceWithin, h]

/-! ### Reductions that leave no records -/

theorem passLog_eq_nil (hlog : ∀ r ∈ rs, r.log n = []) : passLog rs n = [] := by
  induction rs with
  | nil => rfl
  | cons r rs ih =>
    rw [passLog, hlog r List.mem_cons_self, ih fun s hs => hlog s (List.mem_cons_of_mem r hs)]
    split <;> rfl

theorem reduceLog_eq_nil (hlog : ∀ r ∈ rs, ∀ n, r.log n = []) (passes : Nat) (n : Node) :
    reduceLog rs passes n = [] := by
  induction passes generalizing n with
  | zero => rfl
  | succ passes ih =>
    rw [reduceLog, passLog_eq_nil fun r hr => hlog r hr n]
    split
    · exact ih _
    · rfl

/-! ### Reductions that make the same changes -/

/-- A run depends only on the first change that is made of each node. -/
theorem reduce_congr {rs' : List Reduction} (h : ∀ n, reduceOnce rs n = reduceOnce rs' n)
    (passes : Nat) (n : Node) : reduce rs passes n = reduce rs' passes n := by
  induction passes generalizing n with
  | zero => rfl
  | succ passes ih =>
    rw [reduce, reduce, h]
    split
    · exact ih _
    · rfl

section Congr

variable {f : Reduction → Reduction}
  (hnode : ∀ r n, ((f r).apply n).node? = (r.apply n).node?) (hlog : ∀ r n, (f r).log n = r.log n)

include hnode

theorem reduceOnce_map_congr (rs : List Reduction) (n : Node) :
    reduceOnce (rs.map f) n = reduceOnce rs n := by
  rw [reduceOnce, reduceOnce, List.findSome?_map]
  exact congrArg (List.findSome? · rs) (funext fun r => hnode r n)

theorem reduce_map_congr (rs : List Reduction) (passes : Nat) (n : Node) :
    reduce (rs.map f) passes n = reduce rs passes n :=
  reduce_congr (reduceOnce_map_congr hnode rs) passes n

include hlog

theorem passLog_map_congr (rs : List Reduction) (n : Node) :
    passLog (rs.map f) n = passLog rs n := by
  induction rs with
  | nil => rfl
  | cons r rs ih => rw [List.map_cons, passLog, passLog, hnode, hlog, ih]

theorem reduceLog_map_congr (rs : List Reduction) (passes : Nat) (n : Node) :
    reduceLog (rs.map f) passes n = reduceLog rs passes n := by
  induction passes generalizing n with
  | zero => rfl
  | succ passes ih =>
    rw [reduceLog, reduceLog, reduceOnce_map_congr hnode, passLog_map_congr hnode hlog]
    split
    · rw [ih]
    · rfl

/-- Reductions that make the same changes and leave the same records as others can take their
places. -/
theorem reduceWithin_map_congr (b : Bound) (rs : List Reduction) (n : Node) :
    reduceWithin b (rs.map f) n = reduceWithin b rs n := by
  rw [reduceWithin, reduceWithin, reduce_map_congr hnode, reduceLog_map_congr hnode hlog]

end Congr

end Deduce
