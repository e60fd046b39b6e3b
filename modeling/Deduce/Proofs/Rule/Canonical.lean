import Deduce.Rule.Basic

/-!
# What the canonical rules derive

For each canonical rule, the facts that it used: whatever it derives comes from one or two facts
of the list, in the way that the rule says.  All that is shown of the rules elsewhere rests on
these four statements.
-/

namespace Deduce

variable {kb : List Expr} {probe e : Expr}

/-! ### Implications and equations among the facts -/

theorem implication?_eq_some {a b : Expr} :
    e.implication? = some (a, b) ↔ e = .app .implies [a, b] := by
  unfold Expr.implication?
  split
  · simp
  · rename_i h
    simp only [reduceCtorEq, false_iff]
    exact h a b

theorem equation?_eq_some {l r : Expr} : e.equation? = some (l, r) ↔ e = .app .eq [l, r] := by
  unfold Expr.equation?
  split
  · simp
  · rename_i h
    simp only [reduceCtorEq, false_iff]
    exact h l r

theorem mem_implications {a b : Expr} : (a, b) ∈ implications kb ↔ .app .implies [a, b] ∈ kb := by
  simp [implications, implication?_eq_some]

theorem mem_equations {l r : Expr} : (l, r) ∈ equations kb ↔ .app .eq [l, r] ∈ kb := by
  simp [equations, equation?_eq_some]

/-! ### The four rules -/

theorem modusPonens_eq_some (h : modusPonens kb probe = some e) :
    .app .implies [probe, e] ∈ kb := by
  obtain ⟨⟨a, b⟩, hab, hb⟩ := List.exists_of_findSome?_eq_some h
  dsimp only at hb
  split at hb
  · rename_i ha
    obtain rfl := Option.some.inj hb
    exact mem_implications.1 (ha ▸ hab)
  · cases hb

theorem transitivity_eq_some (h : transitivity kb = some e) :
    ∃ a b c, .app .implies [a, b] ∈ kb ∧ .app .implies [b, c] ∈ kb ∧
      e = .app .implies [a, c] := by
  obtain ⟨⟨a, b⟩, hab, hb⟩ := List.exists_of_findSome?_eq_some h
  obtain ⟨⟨b', c⟩, hbc, hc⟩ := List.exists_of_findSome?_eq_some hb
  dsimp only at hc
  split at hc
  · rename_i hbb
    subst hbb
    exact ⟨a, b, c, mem_implications.1 hab, mem_implications.1 hbc, (Option.some.inj hc).symm⟩
  · cases hc

theorem symmetry_eq_some (h : symmetry kb = some e) :
    ∃ l r, .app .eq [l, r] ∈ kb ∧ Expr.mkEq? r l = some e := by
  obtain ⟨⟨l, r⟩, hhead, he⟩ := Option.bind_eq_some_iff.1 h
  exact ⟨l, r, mem_equations.1 (List.mem_of_mem_head? hhead), he⟩

theorem substitution_eq_some (h : substitution kb probe = some e) :
    ∃ l r, .app .eq [l, r] ∈ kb ∧ l.sort = r.sort ∧ e = Expr.replace l r probe ∧ e ≠ probe := by
  obtain ⟨⟨l, r⟩, hlr, hb⟩ := List.exists_of_findSome?_eq_some h
  obtain ⟨e', he', hne⟩ := Option.bind_eq_some_iff.1 hb
  split at hne
  · cases hne
  · rename_i hne'
    obtain rfl := Option.some.inj hne
    unfold Expr.substitute? at he'
    split at he'
    · rename_i hsort
      exact ⟨l, r, mem_equations.1 hlr, hsort, (Option.some.inj he').symm, hne'⟩
    · cases he'

theorem ofReturn_eq_derived {e? : Option Expr} :
    Verdict.ofReturn (.ok (.ofOption e?)) = .derived e ↔ e? = some e := by
  cases e? <;> simp [Value.ofOption, Verdict.ofReturn]

theorem ofReturn_eq_inapplicable {e? : Option Expr} :
    Verdict.ofReturn (.ok (.ofOption e?)) = .inapplicable ↔ e? = none := by
  cases e? <;> simp [Value.ofOption, Verdict.ofReturn]

theorem apply_transitivity (kb : List Expr) (v : Value) :
    (Rule.ofCanonical .transitivity).apply kb v =
      .ofReturn (.ok (.ofOption (transitivity kb))) := by
  cases v <;> rfl

theorem apply_symmetry (kb : List Expr) (v : Value) :
    (Rule.ofCanonical .symmetry).apply kb v = .ofReturn (.ok (.ofOption (symmetry kb))) := by
  cases v <;> rfl

/-- A rule with the function of a canonical one derives from a term what the canonical one does. -/
theorem apply_eq_derived {r : Rule} {c : Canonical} (hr : r.run = c.run) :
    r.apply kb (.term probe) = .derived e ↔ c.derive kb probe = some e := by
  rw [Rule.apply, hr]
  exact ofReturn_eq_derived

end Deduce
